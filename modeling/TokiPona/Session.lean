import TokiPona.Aliases.Load
import TokiPona.Line
import TokiPona.Render
import TokiPona.Text.Cut

namespace TokiPona

/-- The settings of a session. The name of the output format is looked up whenever it is used, so
    a name that no format has, or that is left out, shows only then. -/
structure Session where
  target : Option String
  aliases : Aliases
  verbose : Bool
  deriving DecidableEq, Repr

namespace Session

/-- Switches the output format. -/
def setTarget (s : Session) (name : String) : Session × LooseText :=
  match Target.ofName? (Text.lower name) with
  | none =>
    (s, ↑("[error] >>> Unknown target: " ++ Text.quoted name ++ " (choose from " ++
      ", ".intercalate (Target.all.map Target.name) ++ ")\n"))
  | some target =>
    ({ s with target := some target.name }, ↑("[mode] >>> Target: " ++ target.name ++ "\n"))

/-- A refused configuration, with a line for each conflict. -/
def refusal (e : MappingError) : LooseText :=
  "[error] >>> " ++ e.message ++ "\n" ++ .concat (e.conflicts.map (fun c => " - " ++ c ++ "\n"))

/-- Adds aliases, written `ALIAS=WORD`. -/
def addAlias (s : Session) (text : String) : Session × LooseText :=
  match Text.cutFirst '=' text with
  | (_, none) => (s, "[error] >>> Usage: :alias ALIAS=WORD\n")
  | (name, some w) =>
    let name := Text.trim name
    let w := Text.trim w
    match s.aliases.configure [(.str name, .str w)] with
    | .error e => (s, refusal e)
    | .ok aliases =>
      ({ s with aliases := aliases }, ↑("[ok] >>> " ++ name ++ " → " ++ w ++ "\n"))

/-- What the command `:aliases` shows. -/
def showAliases (s : Session) : LooseText :=
  let report := s.aliases.report
  if report.isEmpty then "[aliases] >>> none\n" else report ++ "\n"

/-- The name and the argument of a command, which is a line that begins with a colon. -/
def commandOf? (line : String) : Option (String × String) :=
  match line.toList with
  | ':' :: rest =>
    let (name, argument) := Text.cutFirst ' ' (String.ofList rest)
    some (Text.lower name, Text.trim (argument.getD ""))
  | _ => none

/-- Carries out the command of this name: the settings after it and what it says. -/
def obey (s : Session) (name argument : String) : Session × LooseText :=
  if name == "target" then s.setTarget argument
  else if name == "aliases" then (s, s.showAliases)
  else if name == "alias" then s.addAlias argument
  else (s, ↑("[error] >>> Unknown command: :" ++ name ++ "\n"))

/-- Carries out a line that is a command. -/
def command (s : Session) (line : String) : Option (Session × LooseText) :=
  (commandOf? line).map (fun (name, argument) => s.obey name argument)

/-- The answer to a sentence: the notes on its reading, and its rendering or its error. -/
def answer (s : Session) (line : String) : List Note × Except TargetError String :=
  let reading : Traced (List Word × Sentence) := do
    let words ← traceTokens s.aliases line
    let sentence ← Sentence.trace false words
    pure (words, sentence)
  (reading.notes,
    match reading.result with
    | .error e => .ok ("[error] >>> " ++ e.message)
    | .ok (words, sentence) => do
      let rendered ← renderSentence sentence s.target
      if s.verbose then pure ("[words] >>> " ++ spell words ++ "\n" ++ rendered)
      else pure rendered)

end Session

/-- How far the stack goes on which sentences are read and rendered: for the settings and the words
    of a sentence that is too deep for it, the number of notes taken before it overflows. -/
abbrev Stack := Session → List Word → Option Nat

/-- A stack that every sentence fits on. -/
def Stack.endless : Stack := fun _ _ => none

namespace Session

/-- What a session may break off with: an output format that there is not, a text that cannot be
    encoded for the output, and a sentence that is too deep for the stack. -/
inductive Failure where
  | target (e : TargetError)
  | unencodable (text : LooseText)
  | tooDeep
  deriving DecidableEq, Repr

/-- What is said of a text that has surrogates in it: where the first ones stand. -/
def encodingFault (text : LooseText) : String :=
  let isFault (p : CodePoint) : Bool := p.char?.isNone
  let first := (text.points.takeWhile (!isFault ·)).length
  let place := match (text.points.drop first).takeWhile isFault with
    | [fault] =>
      "character '" ++ LooseText.escaped ⟨[fault]⟩ ++ "' in position " ++ toString first
    | faults =>
      "characters in position " ++ toString first ++ "-" ++ toString (first + faults.length - 1)
  "'utf-8' codec can't encode " ++ place ++ ": surrogates not allowed"

def Failure.message : Failure → String
  | .target e => e.message
  | .unencodable text => encodingFault text
  | .tooDeep => "maximum recursion depth exceeded"

/-- What comes after a line of a session. -/
inductive Next where
  | go (s : Session)
  | leave
  | broken (e : Failure)
  deriving DecidableEq, Repr

/-- What happens on one line: the notes, what is printed, and what comes next. -/
structure Turn where
  notes : List Note
  printed : String
  next : Next
  deriving DecidableEq, Repr

/-- Says a text and goes on. A text with a surrogate in it cannot be encoded, and nothing of it is
    printed. -/
def say (s : Session) (text : LooseText) : Turn :=
  match text.toString? with
  | some printed => ⟨[], printed, .go s⟩
  | none => ⟨[], "", .broken (.unencodable text)⟩

/-- Answers a sentence, unless it is too deep for the stack. -/
def answerOn (stack : Stack) (s : Session) (line : String) : Turn :=
  let (notes, text) := s.answer line
  match (tokenize s.aliases line).toOption.bind (stack s) with
  | some taken => ⟨notes.take taken, "", .broken .tooDeep⟩
  | none =>
    match text with
    | .ok text => ⟨notes, text ++ "\n", .go s⟩
    | .error e => ⟨notes, "", .broken (.target e)⟩

/-- Takes one line. `exit` and `quit` end the session, and blank lines and comments do
    nothing. -/
def turnOn (stack : Stack) (s : Session) (line : String) : Turn :=
  let line := Text.trim line
  if line == "exit" || line == "quit" then ⟨[], "Exiting tokiparse REPL.\n", .leave⟩
  else if line.isEmpty || Text.startsWith line "#" then ⟨[], "", .go s⟩
  else if Text.lower line == "verbose-mode" then
    let s := { s with verbose := !s.verbose }
    ⟨[], "[mode] >>> Verbose mode " ++ (if s.verbose then "ON" else "OFF") ++ "\n", .go s⟩
  else
    match s.command line with
    | some (s, text) => s.say text
    | none => s.answerOn stack line

/-- Takes one line on a stack that never overflows. -/
def turn : Session → String → Turn := turnOn .endless

/-- The name of the output format as a session shows it: empty brackets if it is left out. -/
def targetName (s : Session) : String := s.target.getD "[]"

/-- What is printed when a session begins. -/
def greeting (s : Session) : String :=
  "tokiparse REPL [target=" ++ s.targetName ++ "]. Type 'exit' or 'quit' to leave.\n"

/-- What is printed when the input ends. -/
def farewell : String := "\nExiting tokiparse REPL.\n"

/-- The course of a session: what is printed on each request for a line, all notes, the number of
    lines that were not read, and the error that broke it off if there is one. -/
structure Transcript where
  replies : List String
  notes : List Note
  unread : Nat
  failure : Option Failure
  deriving DecidableEq, Repr

/-- The course of a session on the lines of its input. -/
def converseOn (stack : Stack) (s : Session) : List String → Transcript
  | [] => ⟨[farewell], [], 0, none⟩
  | line :: rest =>
    let t := s.turnOn stack line
    match t.next with
    | .go s =>
      let later := s.converseOn stack rest
      { later with replies := t.printed :: later.replies, notes := t.notes ++ later.notes }
    | .leave => ⟨[t.printed], t.notes, rest.length, none⟩
    | .broken e => ⟨[t.printed], t.notes, rest.length, some e⟩

/-- The course of a session on a stack that never overflows. -/
def converse : Session → List String → Transcript := converseOn .endless

end Session

end TokiPona
