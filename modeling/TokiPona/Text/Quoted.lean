import TokiPona.Text.Printable

namespace TokiPona.Text

/-- The hexadecimal digits of a number, with zeros in front up to the given width. -/
def hexDigits (width n : Nat) : List Char :=
  let digits := Nat.toDigits 16 n
  List.replicate (width - digits.length) '0' ++ digits

/-- The mark around a text: an apostrophe, or a double quote if the text has an apostrophe and
    no double quote. -/
def quoteMark (text : List Char) : Char :=
  if text.contains '\'' && !text.contains '"' then '"' else '\''

/-- One character between the marks. The backslash and the mark itself get a backslash, and what
    is not printable is written by its code point. -/
def quoteChar (mark c : Char) : List Char :=
  if c == '\\' || c == mark then ['\\', c]
  else if c == '\n' then ['\\', 'n']
  else if c == '\r' then ['\\', 'r']
  else if c == '\t' then ['\\', 't']
  else if isPrintable c then [c]
  else if c.toNat < 0x100 then '\\' :: 'x' :: hexDigits 2 c.toNat
  else if c.toNat < 0x10000 then '\\' :: 'u' :: hexDigits 4 c.toNat
  else '\\' :: 'U' :: hexDigits 8 c.toNat

/-- A text between quotation marks. -/
def quoted (text : String) : String :=
  let mark := quoteMark text.toList
  String.ofList (mark :: text.toList.flatMap (quoteChar mark) ++ [mark])

end TokiPona.Text
