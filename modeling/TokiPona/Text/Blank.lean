namespace TokiPona.Text

/-- Blank characters: the white space of Unicode together with the four information separators
    U+001C to U+001F. -/
def isBlank (c : Char) : Bool :=
  let n := c.toNat
  (0x09 ≤ n && n ≤ 0x0D) || (0x1C ≤ n && n ≤ 0x20) || n == 0x85 || n == 0xA0 || n == 0x1680 ||
    (0x2000 ≤ n && n ≤ 0x200A) || n == 0x2028 || n == 0x2029 || n == 0x202F || n == 0x205F ||
    n == 0x3000

/-- Drops the elements that satisfy `p` from both ends of a list. -/
def dropEnds {α : Type} (p : α → Bool) (l : List α) : List α :=
  ((l.dropWhile p).reverse.dropWhile p).reverse

/-- A text without the blanks at its ends. -/
def trim (text : String) : String :=
  String.ofList (dropEnds isBlank text.toList)

/-- The maximal runs of characters that are not blank, from left to right. -/
def chunks (text : String) : List String :=
  ((text.toList.splitOnP isBlank).filter (fun chunk => !chunk.isEmpty)).map String.ofList

end TokiPona.Text
