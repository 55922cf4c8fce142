import Std.Time.Zoned
import TokiPona.Command.Run

/-!
The command line program. The run itself is a pure function of the files it names: they are read
beforehand, and what has changed is written afterwards.
-/

namespace TokiPona.Main

/-- The variable of the environment that names a file of aliases. -/
def aliasesVariable : String := "TOKIPARSE_ALIASES"

/-- The date and time now, in the local zone if it is known. -/
def now : IO Std.Time.PlainDateTime := do
  try
    Std.Time.PlainDateTime.now
  catch _ =>
    let moment ← Std.Time.Timestamp.now
    return .ofWallTime (.ofNanoseconds moment.toNanosecondsSinceUnixEpoch)

/-- What stands at a path of the real file system. Reading a folder fails in a way of its own. -/
def inspect (path : String) : IO (Option FileEntry) := do
  try
    return some (.file (← IO.FS.readBinFile path))
  catch
    | .inappropriateType none _ _ => return some .folder
    | _ => return none

/-- The entries of a path and of the folders that it leads through. -/
def entriesOf (path : String) : IO (List (Place × FileEntry)) := do
  let mut place := Place.origin path
  let mut found := []
  for name in Place.names path do
    place := place.step name
    if let some entry ← inspect place.toPath then
      found := found ++ [(place, entry)]
  return found

/-- Prints what a run has written to its outputs since the last time. -/
def flush (h : Host) : IO Host := do
  (← IO.getStdout).putStr h.stdout
  (← IO.getStdout).flush
  (← IO.getStderr).putStr h.stderr
  (← IO.getStderr).flush
  return { h with stdout := "", stderr := "" }

/-- Writes the files that a run has changed. -/
def store (before after : Directory) : IO Unit := do
  for (place, entry) in after.entries do
    match entry, before.entries.lookup place with
    | .file new, some (.file old) =>
      if new != old then IO.FS.writeBinFile place.toPath new
    | .file new, _ => IO.FS.writeBinFile place.toPath new
    | .folder, _ => pure ()

/-- Holds a session line by line. -/
partial def hold (s : Session) (h : Host) : IO (Host × Command.Exit) := do
  let h ← flush (h.print Command.prompt)
  let line ← (← IO.getStdin).getLine
  if line.isEmpty then
    return (← flush (h.print Session.farewell), .status 0)
  let turn := s.turn line
  let h ← flush (((h.moveTo (← now)).noteAll turn.notes).print turn.printed)
  match turn.next with
  | .go s => hold s h
  | .leave => return (h, .status 0)
  | .broken e => return (h, .broken e)

/-- Runs the command on the real file system. -/
def run (arguments : List String) : IO UInt32 := do
  let environment ← IO.getEnv aliasesVariable
  let options := (Command.Options.parse arguments).toOption.getD {}
  let paths := environment.toList ++ options.aliases.toList ++ options.source.toList ++
    options.out.toList ++ options.logFile.toList
  let mut entries := []
  for path in paths do
    entries := entries ++ (← entriesOf path)
  let files : Directory := ⟨entries⟩
  let stamp : Stamp := ⟨← now, "-", false⟩
  let (h, outcome) := Command.start arguments environment (.new files stamp)
  let h ← flush h
  let (h, exit) ← match outcome with
    | .ended exit => pure (h, exit)
    | .session s => hold s (h.print s.greeting)
  store files h.files
  match exit with
  | .status code => return code.toUInt32
  | .failed e =>
    (← IO.getStderr).putStrLn e.message
    return 1
  | .broken e =>
    (← IO.getStderr).putStrLn e.message
    return 1

end TokiPona.Main

def main (arguments : List String) : IO UInt32 :=
  TokiPona.Main.run arguments
