import TokiPona.Text.Quoted

/-!
Texts in which a surrogate may stand alone.

A surrogate is half of the code of a character and no character itself, so a `String` has none.
The escapes of JSON can still name one by itself.
-/

namespace TokiPona

/-- A code point: a character, or one of the surrogates from U+D800 on. -/
inductive CodePoint where
  | char (c : Char)
  | surrogate (index : Fin 0x800)
  deriving DecidableEq, Repr

namespace CodePoint

/-- The code point of a number. -/
def ofNat (n : Nat) : CodePoint :=
  if h : 0xD800 ≤ n ∧ n < 0xE000 then .surrogate ⟨n - 0xD800, by omega⟩ else .char (Char.ofNat n)

/-- The number of a code point. -/
def toNat : CodePoint → Nat
  | .char c => c.toNat
  | .surrogate index => 0xD800 + index

/-- The character that a code point is. -/
def char? : CodePoint → Option Char
  | .char c => some c
  | .surrogate _ => none

end CodePoint

/-- A text as a list of code points. -/
structure LooseText where
  points : List CodePoint
  deriving DecidableEq, Repr

namespace LooseText

def ofString (text : String) : LooseText := ⟨text.toList.map .char⟩

instance : Coe String LooseText := ⟨ofString⟩

/-- The text as a string, if no surrogate is in it. -/
def toString? (t : LooseText) : Option String :=
  (t.points.mapM CodePoint.char?).map String.ofList

/-- A string is read back from its code points. -/
theorem toString?_ofString (text : String) : (ofString text).toString? = some text := by
  have hchars : ∀ chars : List Char,
      (chars.map CodePoint.char).mapM CodePoint.char? = some chars := by
    intro chars
    induction chars with
    | nil => rfl
    | cons c rest ih => simp [List.mapM_cons, ih, CodePoint.char?]
  simp [toString?, ofString, hchars]

@[simp]
theorem ofString_inj {text text' : String} : ofString text = ofString text' ↔ text = text' := by
  refine ⟨fun heq => ?_, congrArg ofString⟩
  have hread := congrArg toString? heq
  rwa [toString?_ofString, toString?_ofString, Option.some.injEq] at hread

instance : Append LooseText := ⟨fun first later => ⟨first.points ++ later.points⟩⟩

/-- The texts one behind the other. -/
def concat (texts : List LooseText) : LooseText := ⟨texts.flatMap points⟩

/-- The texts one below the other. -/
def stacked (texts : List LooseText) : LooseText :=
  ⟨[.char '\n'].intercalate (texts.map points)⟩

def isEmpty (t : LooseText) : Bool := t.points.isEmpty

/-- A surrogate as it is escaped: by its code point. -/
def escape (index : Fin 0x800) : List Char :=
  '\\' :: 'u' :: Text.hexDigits 4 (CodePoint.surrogate index).toNat

/-- The text as `write` writes its characters, with its surrogates escaped. -/
def writtenBy (write : Char → List Char) (t : LooseText) : List Char :=
  t.points.flatMap (fun
    | .char c => write c
    | .surrogate index => escape index)

/-- The text with its surrogates escaped. -/
def escaped (t : LooseText) : String := String.ofList (t.writtenBy (fun c => [c]))

/-- The text between quotation marks, with its surrogates escaped. -/
def quoted (t : LooseText) : String :=
  let mark := Text.quoteMark (t.points.filterMap CodePoint.char?)
  String.ofList (mark :: t.writtenBy (Text.quoteChar mark) ++ [mark])

/-- The parts of a text between the occurrences of a mark. -/
def splitOn (mark : Char) (t : LooseText) : List LooseText :=
  (t.points.splitOn (.char mark)).map mk

/-- The text with blanks in front of it up to the given width. -/
def padLeft (width : Nat) (t : LooseText) : LooseText :=
  ⟨List.replicate (width - t.points.length) (.char ' ') ++ t.points⟩

/-- The order of texts by their code points. -/
def le (t t' : LooseText) : Bool :=
  decide (List.le (t.points.map CodePoint.toNat) (t'.points.map CodePoint.toNat))

end LooseText

end TokiPona
