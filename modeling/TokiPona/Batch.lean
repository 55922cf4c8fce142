import TokiPona.Aliases.Load
import TokiPona.Host
import TokiPona.Line
import TokiPona.Render
import TokiPona.Text.Blank
import TokiPona.Text.Cut

namespace TokiPona

/-- Why a run ends early. -/
inductive RunError where
  | unsupportedSource
  | target (e : TargetError)
  | file (e : FileError)
  | mapping (e : MappingError)
  deriving DecidableEq, Repr

def RunError.message : RunError → String
  | .unsupportedSource => "Only .tp and .txt files are supported."
  | .target e => e.message
  | .file e => e.message
  | .mapping e => e.message.escaped

namespace Batch

/-- What is to be read and where its renderings go. The source is a text itself or the name of a
    file, and without a file for the renderings they are printed. -/
structure Request where
  source : String
  isText : Bool
  target : Option String
  out : Option String
  pretty : Bool
  aliases : Aliases

/-- A line that is not blank, with its number among all lines. -/
structure NumberedLine where
  number : Nat
  line : String
  deriving DecidableEq, Repr

/-- The lines of a text that are not blank, counted from one together with those that are. -/
def numberedLines (text : String) : List NumberedLine :=
  (((Text.lines text).zipIdx 1).map (fun (line, number) => ⟨number, line⟩)).filter
    (fun l => !(Text.trim l.line).isEmpty)

/-- The sentence that a line is, if it is one. -/
def sentence? (aliases : Aliases) (l : NumberedLine) : Option Sentence :=
  (parseLine aliases l.line).toOption

/-- What a refused line is reported as. -/
def complaint (l : NumberedLine) (e : ParseError) : String :=
  "[error] line " ++ toString l.number ++ ": " ++ e.message ++ "\n"

/-- Reads a line: logs the notes and reports an error. -/
def readLine (aliases : Aliases) (h : Host) (l : NumberedLine) : Host :=
  let reading := traceLine aliases l.line
  let h := h.noteAll reading.notes
  match reading.result with
  | .ok _ => h
  | .error e => (h.note (.lineFailed l.number l.line)).complain (complaint l e)

/-- The endings of the files that are read. -/
def isSupported (source : String) : Bool :=
  Text.endsWith source ".tp" || Text.endsWith source ".txt"

/-- The output format and the text of a request. The name of the file is checked first, then the
    format, and only then is the file opened. -/
def prepare (files : Directory) (r : Request) : Except RunError (Target × String) := do
  if !r.isText && !isSupported r.source then throw .unsupportedSource
  let target ← (Target.choose r.target).mapError .target
  if r.isText then pure (target, r.source)
  else do
    let text ← (files.readText r.source).mapError .file
    pure (target, text)

/-- The line above and below the banner. -/
def rule : String := String.ofList (List.replicate 20 '=') ++ "\n"

/-- Prints the renderings below a banner. -/
def banner (target : Target) (output : String) : String :=
  rule ++ "Parsed (" ++ target.name ++ ")\n" ++ rule ++ output ++ "\n" ++ rule

/-- A text as whole lines: nothing for the empty text. -/
def asLines (output : String) : String :=
  if output.isEmpty then "" else output ++ "\n"

/-- Hands the renderings over: to the file that is asked for, or to the output. -/
def deliver (r : Request) (target : Target) (sentences : List Sentence) (h : Host) :
    Host × Except RunError Unit :=
  let output := ((Renderer.new target).emit sentences).output
  let printed := if r.pretty then banner target output else asLines output
  match r.out with
  | none => (h.print printed, .ok ())
  | some path =>
    if path.isEmpty then (h.print printed, .ok ())
    else
      match h.files.writeText path (asLines output) with
      | .error e => (h, .error (.file e))
      | .ok files =>
        let h := { h with files := files }
        if r.pretty then
          (h.print ("(wrote " ++ toString sentences.length ++ " sentence(s) to " ++ path ++ ")\n"),
            .ok ())
        else (h, .ok ())

/-- Reads every line of the source and renders the sentences. The result is the number of lines
    that are none. -/
def run (r : Request) (h : Host) : Host × Except RunError Nat :=
  match prepare h.files r with
  | .error e => (h, .error e)
  | .ok (target, text) =>
    let lines := numberedLines text
    let sentences := lines.filterMap (sentence? r.aliases)
    let h := lines.foldl (readLine r.aliases) h
    match deliver r target sentences h with
    | (h, .error e) => (h, .error e)
    | (h, .ok ()) => (h, .ok (lines.countP (fun l => (sentence? r.aliases l).isNone)))

end Batch

end TokiPona
