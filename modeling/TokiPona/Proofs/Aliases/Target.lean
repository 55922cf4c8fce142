import TokiPona.Aliases.Configure
import TokiPona.Proofs.Text.Loose
import TokiPona.Proofs.Token.Language

namespace TokiPona

namespace Text

/-- A character of ASCII that can be seen and is no letter. -/
def IsMark (c : Char) : Prop := 0x20 < c.toNat ∧ c.toNat < 0x7F ∧ c.isAlpha = false

instance (c : Char) : Decidable (IsMark c) :=
  inferInstanceAs (Decidable (0x20 < c.toNat ∧ c.toNat < 0x7F ∧ c.isAlpha = false))

theorem IsMark.isBlank_eq_false {c : Char} (hc : IsMark c) : isBlank c = false := by
  obtain ⟨hfirst, hlast, -⟩ := hc
  simp only [isBlank, Bool.or_eq_false_iff, Bool.and_eq_false_iff, decide_eq_false_iff_not,
    beq_eq_false_iff_ne]
  omega

theorem IsMark.not_writes {c letter : Char} (hc : IsMark c) (hletter : letter.isLower) :
    ¬ Writes c letter := by
  obtain ⟨-, hlast, halpha⟩ := hc
  rw [Bool.eq_false_iff] at halpha
  rintro (rfl | rfl | ⟨rfl, -⟩)
  · exact halpha (isAlpha_of_isLower hletter)
  · have hcapital := toNat_toUpper hletter
    have hbounds := (isLower_iff letter).mp hletter
    exact halpha ((isAlpha_iff _).mpr (.inl (by omega)))
  · revert hlast
    decide

theorem isMark_of_isDigit {c : Char} (hc : c.isDigit) : IsMark c := by
  have hbounds : 0x30 ≤ c.toNat ∧ c.toNat ≤ 0x39 := by
    simpa [Char.isDigit, UInt32.le_iff_toNat_le] using hc
  refine ⟨by omega, by omega, ?_⟩
  rw [Bool.eq_false_iff, ne_eq, isAlpha_iff]
  omega

/-- A text in which a mark is spells no word. -/
theorem not_isWritten_trim {text : String} (hmark : ∃ c ∈ text.toList, IsMark c) (w : Word) :
    ¬ w.IsWritten (trim text) := by
  obtain ⟨c, hc, hmark⟩ := hmark
  intro hwritten
  have hkept : c ∈ (trim text).toList := by
    rw [trim, String.toList_ofList]
    exact mem_dropEnds_of_mem hc hmark.isBlank_eq_false
  obtain ⟨letter, hletter, hwrites⟩ := exists_of_forall₂_left hwritten hkept
  exact hmark.not_writes (w.isLower_spelling letter hletter) hwrites

end Text

/-- The digits of a number are at least one. -/
theorem exists_isMark_toDigits (n : Nat) : ∃ c ∈ Nat.toDigits 10 n, Text.IsMark c := by
  obtain ⟨c, rest, hdigits⟩ := List.exists_cons_of_ne_nil (Nat.toDigits_ne_nil (b := 10) (n := n))
  have hc : c ∈ Nat.toDigits 10 n := by simp [hdigits]
  exact ⟨c, hc, Text.isMark_of_isDigit (Nat.isDigit_of_mem_toDigits (by decide) (by decide) hc)⟩

theorem exists_isMark_toString_int (n : Int) : ∃ c ∈ (toString n).toList, Text.IsMark c := by
  cases n with
  | ofNat n =>
    obtain ⟨c, hc, hmark⟩ := exists_isMark_toDigits n
    refine ⟨c, ?_, hmark⟩
    show c ∈ (Nat.repr n).toList
    rwa [Nat.repr, String.toList_ofList]
  | negSucc n =>
    refine ⟨'-', ?_, by decide⟩
    show '-' ∈ ("-" ++ Nat.repr (n + 1)).toList
    simp

namespace Binary64

/-- A numeral has a point or the sign of an exponent. -/
theorem exists_isMark_layout (digits : List Char) (point : Int) :
    ∃ c ∈ layout digits point, Text.IsMark c := by
  unfold layout
  split
  · exact ⟨'.', by simp, by decide⟩
  · split
    · split <;> exact ⟨'.', by simp, by decide⟩
    · by_cases hpoint : point - 1 < 0
      · exact ⟨'-', by simp [hpoint], by decide⟩
      · exact ⟨'+', by simp [hpoint], by decide⟩

theorem exists_isMark_text_finite (negative : Bool) (mantissa : Nat) (exponent : Int) :
    ∃ c ∈ (text (.finite negative mantissa exponent)).toList, Text.IsMark c := by
  rw [text]
  split
  · exact ⟨'.', by simp, by decide⟩
  · obtain ⟨c, hc, hmark⟩ := exists_isMark_layout (Nat.toDigits 10 (shortest mantissa exponent).1)
      ((Nat.toDigits 10 (shortest mantissa exponent).1).length + (shortest mantissa exponent).2)
    exact ⟨c, by simp [hc], hmark⟩

end Binary64

namespace AliasConfig

/-- The word that a target names, if it names one. -/
def word? (target : Json) : Option Word :=
  Word.ofText? target.display.trim.lower

theorem word?_of_display {target : Json} {text : String} (hdisplay : target.display = text) :
    word? target = Word.ofSpelling? (Text.lower (Text.trim text)) := by
  rw [word?, hdisplay, LooseText.trim_ofString, LooseText.lower_ofString, Word.ofText?_ofString]

theorem word?_ofString (text : String) :
    word? (.str text) = Word.ofSpelling? (Text.lower (Text.trim text)) :=
  word?_of_display rfl

theorem word?_eq_none_of_isMark {target : Json} {text : String} (hdisplay : target.display = text)
    (hmark : ∃ c ∈ text.toList, Text.IsMark c) : word? target = none := by
  rw [Option.eq_none_iff_forall_ne_some]
  intro w hw
  rw [word?_of_display hdisplay, Word.ofSpelling?_eq_some_iff, Word.lower_eq_spelling_iff] at hw
  exact Text.not_isWritten_trim hmark w hw

theorem word?_eq_none_of_not_str {target : Json} (htarget : ∀ text, target ≠ .str text) :
    word? target = none := by
  cases target with
  | null => decide +kernel
  | bool value => cases value <;> decide +kernel
  | int n => exact word?_eq_none_of_isMark rfl (exists_isMark_toString_int n)
  | float x =>
    cases x with
    | nan => decide +kernel
    | infinite negative => cases negative <;> decide +kernel
    | finite negative mantissa exponent =>
      exact word?_eq_none_of_isMark rfl (Binary64.exists_isMark_text_finite _ _ _)
  | str text => exact absurd rfl (htarget text)
  | arr items =>
    refine word?_eq_none_of_isMark rfl ⟨'[', ?_, by decide⟩
    cases items <;> simp [Json.displayInner]
  | obj members =>
    refine word?_eq_none_of_isMark rfl ⟨'\x7b', ?_, by decide⟩
    cases members <;> simp [Json.displayInner]

/-- A target names a word exactly if it is a string that spells the word, apart from blanks at its
    ends. -/
theorem word?_eq_some_iff (target : Json) (w : Word) :
    word? target = some w ↔
      ∃ text : String, target = .str text ∧ w.IsWritten (Text.trim text) := by
  constructor
  · intro hw
    by_cases htarget : ∃ text, target = .str text
    · obtain ⟨loose, rfl⟩ := htarget
      have hread : loose.trim.lower = w.spelling := Word.ofText?_eq_some_iff.mp hw
      have hplain : ¬ loose.HasSurrogate := by
        rw [← LooseText.hasSurrogate_trim, ← LooseText.hasSurrogate_lower, hread]
        exact LooseText.not_hasSurrogate_ofString _
      obtain ⟨text, rfl⟩ := LooseText.exists_eq_ofString_iff.mpr hplain
      rw [word?_ofString, Word.ofSpelling?_eq_some_iff, Word.lower_eq_spelling_iff] at hw
      exact ⟨text, rfl, hw⟩
    · rw [word?_eq_none_of_not_str (not_exists.mp htarget)] at hw
      cases hw
  · rintro ⟨text, rfl, hwritten⟩
    rwa [word?_ofString, Word.ofSpelling?_eq_some_iff, Word.lower_eq_spelling_iff]

end AliasConfig

end TokiPona
