namespace TokiPona.Text

/-- The characters that end a line. A carriage return with a line feed behind it is one end. -/
def isLineBreak (c : Char) : Bool :=
  let n := c.toNat
  (0x0A ≤ n && n ≤ 0x0D) || (0x1C ≤ n && n ≤ 0x1E) || n == 0x85 || n == 0x2028 || n == 0x2029

/-- The lines of a text without their ends. A text that ends with a line break has no further,
    empty line behind it. -/
def linesOf : List Char → List (List Char)
  | [] => []
  | '\r' :: '\n' :: rest => [] :: linesOf rest
  | c :: rest =>
    if isLineBreak c then [] :: linesOf rest
    else
      match linesOf rest with
      | [] => [[c]]
      | line :: lines => (c :: line) :: lines

/-- The lines of a text without their ends. -/
def lines (text : String) : List String :=
  (linesOf text.toList).map String.ofList

/-- Writes every carriage return, and every carriage return with its line feed, as one line
    feed. -/
def unifyNewlines : List Char → List Char
  | [] => []
  | '\r' :: '\n' :: rest => '\n' :: unifyNewlines rest
  | '\r' :: rest => '\n' :: unifyNewlines rest
  | c :: rest => c :: unifyNewlines rest

end TokiPona.Text
