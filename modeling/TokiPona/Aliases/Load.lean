import TokiPona.Aliases.Configure
import TokiPona.Files
import TokiPona.Json.Reader

namespace TokiPona.Aliases

/-- Adds the aliases of a text, which must be a JSON object. -/
def loadText (aliases : Aliases) (text : String) : Except MappingError Aliases :=
  match Json.parse? text with
  | none => .error .malformed
  | some value =>
    match AliasConfig.ofJson? value with
    | none => .error .notAnObject
    | some config => aliases.configure config

/-- Adds the aliases of a file. -/
def load (aliases : Aliases) (files : Directory) (path : String) : Except MappingError Aliases :=
  match files.readText path with
  | .error e => .error (.unreadable e)
  | .ok text => aliases.loadText text

/-- Adds the aliases of a file that need not be named. An empty name is none. -/
def loadNamed (aliases : Aliases) (files : Directory) : Option String → Except MappingError Aliases
  | none => .ok aliases
  | some path => if path.isEmpty then .ok aliases else aliases.load files path

/-- The default aliases, and those of the file that the environment names, if it names one. -/
def fromEnvironment (files : Directory) (path : Option String) : Except MappingError Aliases :=
  defaults.loadNamed files path

end TokiPona.Aliases
