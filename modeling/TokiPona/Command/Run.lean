import TokiPona.Batch
import TokiPona.Command.Arguments
import TokiPona.Session

namespace TokiPona.Command

/-- How a run ends: with a status, with an error that nothing catches, or with one that breaks its
    session off. -/
inductive Exit where
  | status (code : Nat)
  | failed (e : RunError)
  | broken (e : Session.Failure)
  deriving DecidableEq, Repr

/-- The lines of a text in the sense of interactive input, which only line feeds end. -/
def inputLines (input : String) : List String :=
  let lines := input.toList.splitOn '\n'
  (if lines.getLast? == some [] then lines.dropLast else lines).map String.ofList

/-- The prompt in front of each line of a session. -/
def prompt : String := ">>> "

/-- Holds a session on the given input. -/
def converse (s : Session) (input : String) (h : Host) : Host × Exit :=
  let transcript := s.converse (inputLines input)
  let h := (h.print s.greeting).noteAll transcript.notes
  let h := h.print (String.join (transcript.replies.map (fun reply => prompt ++ reply)))
  match transcript.failure with
  | none => (h, .status 0)
  | some e => (h, .broken e)

/-- The aliases of a run: the default ones, those of the file that the environment names, and
    those of the file that the command line names. -/
def aliases (files : Directory) (environment file : Option String) :
    Except MappingError Aliases := do
  let aliases ← Aliases.fromEnvironment files environment
  aliases.loadNamed files file

/-- What the command line comes to: a run that has ended, or a session to hold. -/
inductive Outcome where
  | ended (exit : Exit)
  | session (s : Session)
  deriving DecidableEq, Repr

/-- Carries out what the command line asks for. Logging is set up first, then the aliases are
    read. Without a source there is nothing to read but the lines of a session. -/
def perform (o : Options) (environment : Option String) (h : Host) : Host × Outcome :=
  match h.setUpLogging o.logFile defaultLevel o.debug with
  | (h, .error e) => (h, .ended (.failed (.file e)))
  | (h, .ok _) =>
    match aliases h.files environment o.aliases with
    | .error e => (h.complain (Session.refusal e).escaped, .ended (.status 2))
    | .ok aliases =>
      match o.repl, o.source with
      | false, some source =>
        match Batch.run ⟨source, o.isText, o.target, o.out, o.pretty, aliases⟩ h with
        | (h, .error e) => (h, .ended (.failed e))
        | (h, .ok failures) => (h, .ended (.status (if failures = 0 then 0 else 1)))
      | _, _ => (h, .session ⟨o.target, aliases, false⟩)

/-- Starts the command. Help and wrong arguments end it before anything else is done. -/
def start (arguments : List String) (environment : Option String) (h : Host) : Host × Outcome :=
  match Options.parse arguments with
  | .error .help => (h.print help, .ended (.status 0))
  | .error (.usage e) =>
    (h.complain (usage ++ "tokiparse: error: " ++ e.message ++ "\n"), .ended (.status 2))
  | .ok options => perform options environment h

/-- Starts the command as a program of its own. A test runner that collects it, and names itself
    among the arguments, gets nothing. -/
def startMain (arguments : List String) (environment : Option String) (h : Host) :
    Host × Outcome :=
  if arguments.any (fun a => Text.contains a "pytest") then (h, .ended (.status 0))
  else start arguments environment { h with stamp := { h.stamp with batchIsMain := true } }

/-- Starts a session with the settings that it has without a command line. -/
def startSession (environment : Option String) (h : Host) : Host × Outcome :=
  match Aliases.fromEnvironment h.files environment with
  | .error e => (h, .ended (.failed (.mapping e)))
  | .ok aliases => (h, .session ⟨some Target.canonical.name, aliases, false⟩)

/-- Brings a run to its end, with the given input for its session. -/
def finish (input : String) : Host × Outcome → Host × Exit
  | (h, .ended exit) => (h, exit)
  | (h, .session s) => converse s input h

/-- Runs the command from beginning to end. -/
def run (arguments : List String) (environment : Option String) (input : String) (h : Host) :
    Host × Exit :=
  finish input (start arguments environment h)

end TokiPona.Command
