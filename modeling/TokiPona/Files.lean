import TokiPona.Entries
import TokiPona.Text.Cut
import TokiPona.Text.Lines
import TokiPona.Text.Quoted

/-!
The files that the tool reads and writes.

A path is followed name by name. Every step is taken from a folder that is there, also a step to
the folder itself or to the one above it, so a path through a file or through a missing folder
leads nowhere.
-/

namespace TokiPona

/-- What a name stands for in a directory. -/
inductive FileEntry where
  | file (content : ByteArray)
  | folder

/-- A place in the file system: the names that lead to it from the working directory. Steps up
    stand in front of all other names, and a place that is given from the root begins with `/`. -/
abbrev Place := List String

/-- The files around the working directory, each with its place. What lies above an entry is a
    folder, and so is everything above the working directory. -/
structure Directory where
  entries : List (Place × FileEntry)

/-- Why a file cannot be opened or read. -/
inductive FileError where
  | missing (path : String)
  | isFolder (path : String)
  | notFolder (path : String)
  | nameTooLong (path : String)
  | nulInPath
  | undecodable
  deriving DecidableEq, Repr

def FileError.message : FileError → String
  | .missing path => "[Errno 2] No such file or directory: " ++ Text.quoted path
  | .isFolder path => "[Errno 21] Is a directory: " ++ Text.quoted path
  | .notFolder path => "[Errno 20] Not a directory: " ++ Text.quoted path
  | .nameTooLong path => "[Errno 36] File name too long: " ++ Text.quoted path
  | .nulInPath => "embedded null byte"
  | .undecodable => "not UTF-8"

namespace Place

/-- The place that a path is followed from. -/
def origin (path : String) : Place :=
  if Text.startsWith path "/" then ["/"] else []

/-- The folder above a place. The root is above itself. -/
def up (place : Place) : Place :=
  match place.getLast? with
  | none | some ".." => place ++ [".."]
  | some "/" => place
  | some _ => place.dropLast

/-- The place that a name leads to. One dot leads nowhere else, and two dots lead up. -/
def step (place : Place) (name : String) : Place :=
  if name == "." then place else if name == ".." then place.up else place ++ [name]

/-- The names in a path, from left to right. -/
def names (path : String) : List String :=
  ((path.toList.splitOn '/').map String.ofList).filter (fun name => !name.isEmpty)

/-- The place that a path stands for by its names alone. -/
def ofPath (path : String) : Place :=
  (names path).foldl step (origin path)

/-- The shortest path to a place. -/
def toPath : Place → String
  | "/" :: names => "/" ++ "/".intercalate names
  | names => "/".intercalate names

/-- Whether a place is the working directory or lies above it, or is the root. -/
def isAbove (place : Place) : Bool :=
  place.all (fun name => name == ".." || name == "/")

end Place

namespace Directory

/-- The most bytes that a name may have. -/
def maxNameSize : Nat := 255

/-- The most bytes that a path may have. -/
def maxPathSize : Nat := 4095

/-- What stands at a place. -/
def entry? (d : Directory) (place : Place) : Option FileEntry :=
  if place.isAbove then some .folder
  else
    match d.entries.lookup place with
    | some entry => some entry
    | none => if d.entries.any (fun e => place.isPrefixOf e.1) then some .folder else none

/-- The place that names lead to from another place. -/
def walk (d : Directory) (path : String) (place : Place) : List String → Except FileError Place
  | [] => .ok place
  | name :: rest =>
    match d.entry? place with
    | none => .error (.missing path)
    | some (.file _) => .error (.notFolder path)
    | some .folder =>
      if maxNameSize < name.utf8ByteSize then .error (.nameTooLong path)
      else d.walk path (place.step name) rest

/-- Follows the names of a path: the place they lead to, and what stands there. -/
def follow (d : Directory) (path : String) (names : List String) :
    Except FileError (Place × Option FileEntry) :=
  if path.contains (Char.ofNat 0) then .error .nulInPath
  else if path.isEmpty then .error (.missing path)
  else if maxPathSize < path.utf8ByteSize then .error (.nameTooLong path)
  else do
    let place ← d.walk path (.origin path) names
    pure (place, d.entry? place)

/-- Whether a path ends with a slash, as that of a folder may. -/
def endsWithSlash (path : String) : Bool := Text.endsWith path "/"

/-- Looks for what stands at a path. A slash at the end asks for a folder. -/
def find (d : Directory) (path : String) : Except FileError (Place × Option FileEntry) :=
  d.follow path (Place.names path ++ if endsWithSlash path then ["."] else [])

/-- Looks for the place of a file that need not be there yet. With a slash at the end no file can
    be meant, and the path leads to the folder that the file would be in. -/
def findForWriting (d : Directory) (path : String) :
    Except FileError (Place × Option FileEntry) :=
  let names := Place.names path
  d.follow path (if endsWithSlash path then names.dropLast ++ ["."] else names)

/-- The text of a file, with its line ends unified. -/
def readText (d : Directory) (path : String) : Except FileError String := do
  match ← d.find path with
  | (_, none) => throw (.missing path)
  | (_, some .folder) => throw (.isFolder path)
  | (_, some (.file content)) =>
    match String.fromUTF8? content with
    | some text => pure (String.ofList (Text.unifyNewlines text.toList))
    | none => throw .undecodable

/-- Puts a text at a place. -/
def putText (d : Directory) (place : Place) (text : String) : Directory :=
  ⟨Entries.put (· == ·) d.entries place (.file text.toUTF8)⟩

/-- Writes a text to a file in place of what it held. -/
def writeText (d : Directory) (path text : String) : Except FileError Directory := do
  match ← d.findForWriting path with
  | (_, some .folder) => throw (.isFolder path)
  | (place, _) => pure (d.putText place text)

/-- Adds a text to the end of the file at a place. -/
def appendAt (d : Directory) (place : Place) (text : String) : Directory :=
  match d.entry? place with
  | some (.file content) =>
    ⟨Entries.put (· == ·) d.entries place (.file (content ++ text.toUTF8))⟩
  | _ => d.putText place text

/-- Opens a file to add to it: creates it if it is missing, and gives its place. Only the names of
    the path say which file is meant, and errors show the shortest path to it. -/
def openToAppend (d : Directory) (path : String) : Except FileError (Place × Directory) := do
  let shown := (Place.ofPath path).toPath
  match ← d.findForWriting (if shown.isEmpty then "." else shown) with
  | (_, some .folder) => throw (.isFolder shown)
  | (place, some (.file _)) => pure (place, d)
  | (place, none) => pure (place, d.putText place "")

end Directory

end TokiPona
