import Std.Time.DateTime.PlainDateTime
import TokiPona.Files
import TokiPona.Note

namespace TokiPona

/-- The name of a component in the records of a log. -/
def Component.logName : Component → String
  | .lexer => "tokiparse.tokiparse_lexer"
  | .parser => "tokiparse.tokiparse_parser"
  | .batch => "tokiparse.tokiparse_cli"
  | .logging => "tokiparse.tokiparse_logging"

/-- The file that a component is said to be in. -/
def Component.fileName : Component → String
  | .lexer => "tokiparse_lexer.py"
  | .parser => "tokiparse_parser.py"
  | .batch => "tokiparse_cli.py"
  | .logging => "tokiparse_logging.py"

/-- What a record shows beside its note: the time, the line of its component, and whether the
    batch component goes by the name of the main program. -/
structure Stamp where
  time : Std.Time.PlainDateTime
  line : String
  batchIsMain : Bool := false

/-- A number in decimal, with zeros in front up to the given width. -/
def zeroFilled (width n : Nat) : String :=
  let digits := Nat.toDigits 10 n
  String.ofList (List.replicate (width - digits.length) '0' ++ digits)

/-- The time as records show it: date, time of day, and milliseconds behind a comma. -/
def Stamp.timeText (stamp : Stamp) : String :=
  let date := stamp.time.date
  let time := stamp.time.time
  zeroFilled 4 date.year.toInt.toNat ++ "-" ++ zeroFilled 2 date.month.val.toNat ++ "-" ++
    zeroFilled 2 date.day.val.toNat ++ " " ++ zeroFilled 2 time.hour.val.toNat ++ ":" ++
    zeroFilled 2 time.minute.val.toNat ++ ":" ++ zeroFilled 2 time.second.val.toNat ++ "," ++
    zeroFilled 3 (time.nanosecond.val.toNat / 1000000)

/-- The level of all notes. -/
def noteLevel : Int := 10

/-- The level of a note by name. -/
def noteLevelName : String := "DEBUG"

/-- The level below which nothing is logged unless another one is asked for. -/
def defaultLevel : Int := 30

/-- How notes are logged. Records below the level are dropped, and detailed records name the
    component too. -/
structure Logging where
  level : Int
  detailed : Bool
  file : Option Place
  deriving DecidableEq, Repr

namespace Logging

/-- The pattern of a record. -/
def format (l : Logging) : String :=
  if l.detailed then
    "%(asctime)s - %(name)s - %(levelname)s - [%(filename)s:%(lineno)d] - %(message)s"
  else "%(asctime)s - %(levelname)s - %(message)s"

/-- The handlers, each with its level and the pattern of its records. -/
def handlers (l : Logging) : List (String × Int × String) :=
  let console := ("StreamHandler", l.level, l.format)
  match l.file with
  | none => [console]
  | some _ => [console, ("FileHandler", l.level, l.format)]

/-- One record, as a line. -/
def record (l : Logging) (stamp : Stamp) (n : Note) : String :=
  let c := n.component
  let name := if c == .batch && stamp.batchIsMain then "__main__" else c.logName
  if l.detailed then
    stamp.timeText ++ " - " ++ name ++ " - " ++ noteLevelName ++ " - [" ++ c.fileName ++ ":" ++
      stamp.line ++ "] - " ++ n.message ++ "\n"
  else stamp.timeText ++ " - " ++ noteLevelName ++ " - " ++ n.message ++ "\n"

end Logging

end TokiPona
