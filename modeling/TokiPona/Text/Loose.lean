import TokiPona.Text.Blank
import TokiPona.Text.CodePoint
import TokiPona.Text.Lower

namespace TokiPona

/-- A surrogate is no blank. -/
def CodePoint.isBlank : CodePoint → Bool
  | .char c => Text.isBlank c
  | .surrogate _ => false

namespace LooseText

/-- A text without the blanks at its ends. -/
def trim (t : LooseText) : LooseText := ⟨Text.dropEnds CodePoint.isBlank t.points⟩

/-- The characters before the first surrogate, and each surrogate with the characters behind it. -/
def stretches : List CodePoint → List Char × List (Fin 0x800 × List Char)
  | [] => ([], [])
  | .char c :: rest =>
    let (first, later) := stretches rest
    (c :: first, later)
  | .surrogate index :: rest =>
    let (next, later) := stretches rest
    ([], (index, next) :: later)

/-- Stretches of characters and the surrogates between them, written in a row. -/
def joinStretches (first : List Char) : List (Fin 0x800 × List Char) → List CodePoint
  | [] => first.map .char
  | (index, next) :: later => first.map .char ++ .surrogate index :: joinStretches next later

/-- The lower-case form of a text. A surrogate has no case and is not passed over when the end of a
    word is looked for, so the stretches between surrogates are texts by themselves. -/
def lower (t : LooseText) : LooseText :=
  let (first, later) := stretches t.points
  ⟨joinStretches (Text.lowerFrom false first)
    (later.map (fun (index, next) => (index, Text.lowerFrom false next)))⟩

end LooseText

end TokiPona
