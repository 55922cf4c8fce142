import TokiPona.Json.Basic
import TokiPona.Number.Shortest

namespace TokiPona.Json

/-- A code unit as an escape. -/
def escapeUnit (n : Nat) : List Char :=
  '\\' :: 'u' :: Text.hexDigits 4 n

/-- One character of a string. Everything outside printable ASCII is escaped, by a pair of
    surrogates where one unit is too small. -/
def writeChar (c : Char) : List Char :=
  if c == '"' then ['\\', '"']
  else if c == '\\' then ['\\', '\\']
  else if c == '\n' then ['\\', 'n']
  else if c == '\r' then ['\\', 'r']
  else if c == '\t' then ['\\', 't']
  else if c.toNat == 0x08 then ['\\', 'b']
  else if c.toNat == 0x0C then ['\\', 'f']
  else if 0x20 ≤ c.toNat && c.toNat ≤ 0x7E then [c]
  else if c.toNat < 0x10000 then escapeUnit c.toNat
  else
    let n := c.toNat - 0x10000
    escapeUnit (0xD800 + n / 0x400) ++ escapeUnit (0xDC00 + n % 0x400)

/-- One code point of a string. -/
def writePoint : CodePoint → List Char
  | .char c => writeChar c
  | p => escapeUnit p.toNat

def writeString (s : LooseText) : List Char :=
  '"' :: s.points.flatMap writePoint ++ ['"']

def writeFloat : Binary64 → List Char
  | .nan => "NaN".toList
  | .infinite false => "Infinity".toList
  | .infinite true => "-Infinity".toList
  | x => x.text.toList

/-- The line break in front of an item at this depth. -/
def lineBreak (indent : Option Int) (depth : Nat) : List Char :=
  match indent with
  | none => []
  | some width => '\n' :: List.replicate (width.toNat * depth) ' '

/-- What stands between two items at this depth. -/
def separator (indent : Option Int) (depth : Nat) : List Char :=
  match indent with
  | none => [',', ' ']
  | some _ => ',' :: lineBreak indent depth

mutual

/-- Writes a value that stands at the given depth. -/
def write (indent : Option Int) (depth : Nat) : Json → List Char
  | .null => "null".toList
  | .bool true => "true".toList
  | .bool false => "false".toList
  | .int n => (toString n).toList
  | .float x => writeFloat x
  | .str s => writeString s
  | .arr [] => ['[', ']']
  | .arr (item :: items) =>
    '[' :: lineBreak indent (depth + 1) ++ write indent (depth + 1) item ++
      writeItems indent (depth + 1) items ++ lineBreak indent depth ++ [']']
  | .obj [] => ['\x7b', '\x7d']
  | .obj ((name, value) :: members) =>
    '\x7b' :: lineBreak indent (depth + 1) ++ writeString name ++ ':' :: ' ' ::
      write indent (depth + 1) value ++ writeMembers indent (depth + 1) members ++
      lineBreak indent depth ++ ['\x7d']

/-- Writes the items behind the first one. -/
def writeItems (indent : Option Int) (depth : Nat) : List Json → List Char
  | [] => []
  | item :: items =>
    separator indent depth ++ write indent depth item ++ writeItems indent depth items

/-- Writes the members behind the first one. -/
def writeMembers (indent : Option Int) (depth : Nat) : List (LooseText × Json) → List Char
  | [] => []
  | (name, value) :: members =>
    separator indent depth ++ writeString name ++ ':' :: ' ' :: write indent depth value ++
      writeMembers indent depth members

end

/-- The text of a value. Without an indent it takes one line. With one, every item and member has a
    line of its own, and an indent that is not positive breaks the lines and indents nothing. -/
def render (indent : Option Int) (value : Json) : String :=
  String.ofList (write indent 0 value)

end TokiPona.Json
