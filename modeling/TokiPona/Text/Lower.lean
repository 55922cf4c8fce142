import TokiPona.Text.Casing

namespace TokiPona.Text

/-- The lower-case form of one character, apart from the rule for a final sigma. Only the
    dotted capital I has a form of two characters. -/
def lowerChar (c : Char) : List Char :=
  if c.toNat == 0x130 then ['i', Char.ofNat 0x307]
  else
    match caseRuns.findSome? (fun run => run.lower? c.toNat) with
    | some n => [Char.ofNat n]
    | none => [c]

/-- Whether the first character that is not passed over is a cased one. -/
def startsCased (rest : List Char) : Bool :=
  (rest.dropWhile isCaseIgnorable).head?.any isCased

/-- The lower-case form of a text. `afterCased` tells whether the nearest character before it
    that is not passed over is cased: a sigma behind a cased letter, with none in front of it,
    ends its word and takes the final form. -/
def lowerFrom (afterCased : Bool) : List Char → List Char
  | [] => []
  | c :: rest =>
    let lowered :=
      if c == 'Σ' then [if afterCased && !startsCased rest then 'ς' else 'σ'] else lowerChar c
    lowered ++ lowerFrom (if isCaseIgnorable c then afterCased else isCased c) rest

/-- The lower-case form of a text. -/
def lower (text : String) : String :=
  String.ofList (lowerFrom false text.toList)

end TokiPona.Text
