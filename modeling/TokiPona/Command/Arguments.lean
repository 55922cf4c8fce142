import TokiPona.Command.Flag
import TokiPona.Text.Cut
import TokiPona.Text.Digit

/-!
Reading the arguments of the command line.

Arguments are sorted first, each by itself, and taken from left to right after that. A long name
may be shortened as long as one flag has it, and its value may follow a `=`. Flags of one letter
may be joined, with the value of the last one behind them, and a `=` right behind the first letter
is passed over. Two dashes end the flags.
-/

namespace TokiPona.Command

/-- Flags that are written together: each with its value, and a last one that has to take its value
    from the next argument. -/
structure Joined where
  given : List (Flag × Option String)
  last : Option Flag
  deriving DecidableEq, Repr

namespace Joined

/-- A flag that stands alone. -/
def alone (flag : Flag) : Joined :=
  if flag.takesValue then ⟨[], some flag⟩ else ⟨[(flag, none)], none⟩

/-- A flag with a value. Two dashes that are written together with a flag are no value. -/
def valued (flag : Flag) (value : String) : Joined :=
  ⟨[(flag, if value == "--" then none else some value)], none⟩

/-- Puts a flag in front of others. -/
def after (flag : Flag) (j : Joined) : Joined := { j with given := (flag, none) :: j.given }

/-- A flag given by its long name, and the value behind the `=`. -/
def readLong (flag : Flag) : Option String → Except UsageError Joined
  | none => .ok (alone flag)
  | some value =>
    if flag.takesValue then .ok (valued flag value) else .error (.unwantedValue flag value)

/-- A flag given by its letter, and the text behind it: its value, or else further letters. -/
def readLetters (flag : Flag) : List Char → Except UsageError Joined
  | [] => if flag.takesValue then .ok (valued flag "") else .error (.unwantedValue flag "")
  | letter :: rest =>
    let text := String.ofList (letter :: rest)
    if flag.takesValue then .ok (valued flag text)
    else
      match Flag.ofLetter? letter with
      | none => .error (.unwantedValue flag text)
      | some next =>
        if rest.isEmpty then .ok (after flag (alone next))
        else (readLetters next rest).map (after flag)

end Joined

/-- What an argument is. Flags with a fault are an error only once they are taken. -/
inductive Argument where
  | plain (text : String)
  | dashes
  | flags (joined : Joined)
  | faulty (e : UsageError)
  | unknown (text : String)
  deriving DecidableEq, Repr

/-- Whether a text is a negative number, with or without a point. A line feed may follow it. -/
def isNegativeNumber (text : String) : Bool :=
  match text.toList with
  | '-' :: rest =>
    let rest := if rest.getLast? == some '\n' then rest.dropLast else rest
    let behind := rest.dropWhile Text.isDigit
    match behind with
    | [] => !rest.isEmpty
    | '.' :: places => !places.isEmpty && places.all Text.isDigit
    | _ => false
  | _ => false

namespace Argument

/-- An argument of flags. -/
def ofJoined : Except UsageError Joined → Argument
  | .ok joined => .flags joined
  | .error e => .faulty e

/-- An argument that no flag fits: a text if it looks like a number or has a blank in it. -/
def unmatched (text : String) : Argument :=
  if isNegativeNumber text || text.contains ' ' then .plain text else .unknown text

/-- Sorts an argument that begins with two dashes. -/
def sortLong (text : String) : Except UsageError Argument :=
  let (name, value) := Text.cutFirst '=' text
  match Flag.ofLongName? name with
  | some flag => .ok (ofJoined (Joined.readLong flag value))
  | none =>
    match Flag.all.filter (fun f => Text.startsWith f.longName name) with
    | [] => .ok (unmatched text)
    | [flag] => .ok (ofJoined (Joined.readLong flag value))
    | candidates => .error (.ambiguous text candidates)

/-- Sorts an argument that begins with a single dash and a letter. -/
def sortShort (text : String) (letter : Char) (rest : List Char) : Argument :=
  match Flag.ofLetter? letter, rest with
  | some flag, [] => .flags (.alone flag)
  | some flag, '=' :: behind => ofJoined (Joined.readLetters flag behind)
  | some flag, behind => ofJoined (Joined.readLetters flag behind)
  | none, _ => unmatched text

/-- Sorts one argument in front of the two dashes. A lone dash is a text. -/
def sort (text : String) : Except UsageError Argument :=
  match text.toList with
  | '-' :: '-' :: _ => sortLong text
  | '-' :: letter :: rest => .ok (sortShort text letter rest)
  | _ => .ok (.plain text)

/-- Sorts all arguments. Behind the two dashes everything is a text. -/
def sortAll : List String → Except UsageError (List Argument)
  | [] => .ok []
  | "--" :: rest => .ok (.dashes :: rest.map .plain)
  | text :: rest => do
    let argument ← sort text
    let later ← sortAll rest
    pure (argument :: later)

end Argument

/-- What the command line asks for. The name of the output format is the name of one, or is left
    out. -/
structure Options where
  source : Option String := none
  isText : Bool := false
  target : Option String := some Target.canonical.name
  out : Option String := none
  pretty : Bool := false
  repl : Bool := false
  aliases : Option String := none
  debug : Bool := false
  logFile : Option String := none
  deriving DecidableEq, Repr

/-- Why reading the arguments ends early: help is asked for, or something is wrong. -/
inductive Interruption where
  | help
  | usage (e : UsageError)
  deriving DecidableEq, Repr

/-- The output format that a flag asks for by name, or leaves out. -/
def chooseTarget : Option String → Except Interruption (Option String)
  | none => .ok none
  | some name =>
    match Target.ofName? name with
    | some target => .ok (some target.name)
    | none => .error (.usage (.badTarget name))

/-- Carries out one flag. A flag that is given twice counts the last time, with a value or
    without. -/
def Options.set (o : Options) (flag : Flag) (value : Option String) :
    Except Interruption Options :=
  match flag with
  | .help => .error .help
  | .string => .ok { o with isText := true }
  | .target => (chooseTarget value).map (fun target => { o with target := target })
  | .out => .ok { o with out := value }
  | .pretty => .ok { o with pretty := true }
  | .repl => .ok { o with repl := true }
  | .aliases => .ok { o with aliases := value }
  | .debug => .ok { o with debug := true }
  | .logFile => .ok { o with logFile := value }

/-- Carries out flags in order. -/
def Options.setAll (o : Options) (given : List (Flag × Option String)) :
    Except Interruption Options :=
  given.foldlM (fun o (flag, value) => o.set flag value) o

/-- The state of reading arguments: what they ask for so far, whether the source is still to come,
    and the arguments that nothing takes. -/
structure Reading where
  options : Options
  awaitsSource : Bool
  extras : List String
  deriving DecidableEq, Repr

namespace Reading

/-- Takes a text: the source, or a text too many. -/
def takeText (r : Reading) (text : String) : Reading :=
  if r.awaitsSource then
    { r with options := { r.options with source := some text }, awaitsSource := false }
  else { r with extras := r.extras ++ [text] }

/-- Takes flags. -/
def takeFlags (r : Reading) (given : List (Flag × Option String)) :
    Except Interruption Reading := do
  let options ← r.options.setAll given
  pure { r with options := options }

/-- Takes arguments from left to right. The two dashes are part of the source, before or behind
    it, and are a text too many if the source came earlier. -/
def takeAll (r : Reading) : List Argument → Except Interruption Reading
  | [] => .ok r
  | .plain text :: .dashes :: rest =>
    let next := r.takeText text
    if r.awaitsSource then next.takeAll rest
    else { next with extras := next.extras ++ ["--"] }.takeAll rest
  | .plain text :: rest => (r.takeText text).takeAll rest
  | .dashes :: .plain text :: rest =>
    if r.awaitsSource then (r.takeText text).takeAll rest
    else { r with extras := r.extras ++ ["--", text] }.takeAll rest
  | .dashes :: rest =>
    (if r.awaitsSource then { r with awaitsSource := false }
      else { r with extras := r.extras ++ ["--"] }).takeAll rest
  | .unknown text :: rest => { r with extras := r.extras ++ [text] }.takeAll rest
  | .faulty e :: _ => .error (.usage e)
  | .flags ⟨given, none⟩ :: rest => do (← r.takeFlags given).takeAll rest
  | .flags ⟨given, some last⟩ :: .plain value :: rest => do
    (← r.takeFlags (given ++ [(last, some value)])).takeAll rest
  | .flags ⟨_, some last⟩ :: _ => .error (.usage (.missingValue last))

end Reading

/-- What a command line asks for. -/
def Options.parse (arguments : List String) : Except Interruption Options := do
  let sorted ← (Argument.sortAll arguments).mapError .usage
  let reading ← Reading.takeAll ⟨{}, true, []⟩ sorted
  if reading.extras.isEmpty then pure reading.options
  else throw (.usage (.unrecognized reading.extras))

end TokiPona.Command
