import TokiPona.Json.Basic
import TokiPona.Number.Shortest

namespace TokiPona.Json

mutual

/-- A value inside another one: strings are quoted. -/
def displayInner : Json → String
  | .null => "None"
  | .bool true => "True"
  | .bool false => "False"
  | .int n => toString n
  | .float x => x.text
  | .str s => s.quoted
  | .arr [] => "[]"
  | .arr (item :: items) => "[" ++ displayInner item ++ displayItems items ++ "]"
  | .obj [] => "\x7b\x7d"
  | .obj ((name, value) :: members) =>
    "\x7b" ++ name.quoted ++ ": " ++ displayInner value ++ displayMembers members ++ "\x7d"

def displayItems : List Json → String
  | [] => ""
  | item :: items => ", " ++ displayInner item ++ displayItems items

def displayMembers : List (LooseText × Json) → String
  | [] => ""
  | (name, value) :: members =>
    ", " ++ name.quoted ++ ": " ++ displayInner value ++ displayMembers members

end

/-- The value as a message shows it: a string as it is, and everything else as inside another
    value. -/
def display : Json → LooseText
  | .str s => s
  | value => displayInner value

end TokiPona.Json
