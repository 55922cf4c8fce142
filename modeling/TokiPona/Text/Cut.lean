namespace TokiPona.Text

/-- Cuts a text at the first occurrence of a mark: what stands before it, and what stands behind
    it if there is a mark. -/
def cutFirst (mark : Char) (text : String) : String × Option String :=
  let before := String.ofList (text.toList.takeWhile (· != mark))
  match text.toList.dropWhile (· != mark) with
  | [] => (before, none)
  | _ :: behind => (before, some (String.ofList behind))

/-- Whether a text begins with another one. -/
def startsWith (text start : String) : Bool :=
  start.toList.isPrefixOf text.toList

/-- Whether a text ends with another one. -/
def endsWith (text ending : String) : Bool :=
  ending.toList.isSuffixOf text.toList

/-- Whether a list has another one in it. -/
def hasInfix (part : List Char) : List Char → Bool
  | [] => part.isEmpty
  | c :: rest => part.isPrefixOf (c :: rest) || hasInfix part rest

/-- Whether a text has another one in it. -/
def contains (text part : String) : Bool :=
  hasInfix part.toList text.toList

end TokiPona.Text
