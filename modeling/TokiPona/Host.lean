import TokiPona.Logging

namespace TokiPona

/-- What surrounds a run: its files, what it has written to its two outputs so far, and how its
    notes are logged. -/
structure Host where
  files : Directory
  stdout : String
  stderr : String
  logging : Option Logging
  stamp : Stamp

namespace Host

/-- A host on which nothing has happened yet. -/
def new (files : Directory) (stamp : Stamp) : Host := ⟨files, "", "", none, stamp⟩

/-- The host at a later time. -/
def moveTo (h : Host) (time : Std.Time.PlainDateTime) : Host :=
  { h with stamp := { h.stamp with time := time } }

/-- Writes a text to the output. -/
def print (h : Host) (text : String) : Host := { h with stdout := h.stdout ++ text }

/-- Writes a text to the error output. -/
def complain (h : Host) (text : String) : Host := { h with stderr := h.stderr ++ text }

/-- Logs a note, if notes are logged. -/
def note (h : Host) (n : Note) : Host :=
  match h.logging with
  | none => h
  | some l =>
    if noteLevel < l.level then h
    else
      let record := l.record h.stamp n
      let files :=
        match l.file with
        | none => h.files
        | some place => h.files.appendAt place record
      { h with stderr := h.stderr ++ record, files := files }

/-- Logs notes in order. -/
def noteAll (h : Host) (notes : List Note) : Host := notes.foldl note h

/-- Sets up logging anew. To debug is to log every note in detail. An empty name is no log file,
    and a log file that cannot be opened ends the run. -/
def setUpLogging (h : Host) (file : Option String) (level : Int) (debug : Bool) :
    Host × Except FileError Logging :=
  let level := if debug then noteLevel else level
  let start (files : Directory) (place : Option Place) :=
    let logging : Logging := ⟨level, debug, place⟩
    let h := { h with files := files, logging := some logging }
    (if debug then h.note .debugEnabled else h, Except.ok logging)
  match file with
  | none => start h.files none
  | some path =>
    if path.isEmpty then start h.files none
    else
      match h.files.openToAppend path with
      | .error e => (h, .error e)
      | .ok (place, files) => start files (some place)

end Host

end TokiPona
