import TokiPona.Proofs.Text.Trim
import TokiPona.Proofs.Token

namespace TokiPona

/-- A text that begins and ends with an ASCII letter. -/
structure Text.HasLetterEnds (text : String) : Prop where
  head : text.toList.head?.any Char.isAlpha
  last : text.toList.getLast?.any Char.isAlpha

/-- A text with ASCII letters at its ends, and a chunk that has no further one around it. -/
def Text.IsCore (chunk core : String) : Prop :=
  ∃ before behind, before ++ core.toList ++ behind = chunk.toList ∧
    (∀ c ∈ before, c.isAlpha = false) ∧ (∀ c ∈ behind, c.isAlpha = false) ∧
    Text.HasLetterEnds core

/-- What is told of a chunk that cannot be read: its core or, if no letter is in it, all of it. -/
def Text.IsToldOf (chunk text : String) : Prop :=
  Text.IsCore chunk text ∨ ((∀ c ∈ chunk.toList, c.isAlpha = false) ∧ text = chunk)

theorem stripChunk_stripChunk (chunk : String) :
    stripChunk (stripChunk chunk) = stripChunk chunk := by
  rw [stripChunk, stripChunk, String.toList_ofList, Text.dropEnds_dropEnds]

theorem stripChunk_eq_empty_iff (chunk : String) :
    stripChunk chunk = "" ↔ ∀ c ∈ chunk.toList, c.isAlpha = false := by
  rw [stripChunk, ← String.toList_eq_nil_iff, String.toList_ofList, Text.dropEnds_eq_nil_iff]
  simp

theorem Text.hasLetterEnds_iff (text : String) :
    Text.HasLetterEnds text ↔ stripChunk text = text ∧ text ≠ "" := by
  have hself : stripChunk text = text ↔
      Text.dropEnds (fun c => !c.isAlpha) text.toList = text.toList := by
    rw [stripChunk, ← String.toList_inj, String.toList_ofList]
  rw [hself, Text.dropEnds_eq_self_iff, ne_eq, ← String.toList_eq_nil_iff]
  constructor
  · rintro ⟨hhead, hlast⟩
    refine ⟨⟨fun c hc => ?_, fun c hc => ?_⟩, fun hnil => ?_⟩
    · simpa [hc] using hhead
    · simpa [hc] using hlast
    · simp [hnil] at hhead
  · rintro ⟨⟨hhead, hlast⟩, hne⟩
    constructor
    · simpa [List.head?_eq_some_head hne] using hhead _ (List.head?_eq_some_head hne)
    · simpa [List.getLast?_eq_some_getLast hne] using hlast _ (List.getLast?_eq_some_getLast hne)

theorem Text.HasLetterEnds.stripChunk_eq {text : String} (htext : Text.HasLetterEnds text) :
    stripChunk text = text :=
  ((Text.hasLetterEnds_iff text).mp htext).1

theorem Text.HasLetterEnds.ne_empty {text : String} (htext : Text.HasLetterEnds text) :
    text ≠ "" :=
  ((Text.hasLetterEnds_iff text).mp htext).2

/-- Letters stay letters when they are lower-cased. -/
theorem Text.HasLetterEnds.lower {text : String} (htext : Text.HasLetterEnds text) :
    Text.HasLetterEnds (Text.lower text) := by
  have hne : Text.lowerFrom false text.toList ≠ [] := by
    rw [ne_eq, (Text.expands_lowerFrom _ _).eq_nil_iff, String.toList_eq_nil_iff]
    exact htext.ne_empty
  obtain ⟨hhead, hlast⟩ := htext
  constructor
  · have hd := List.head?_eq_some_head hne
    obtain ⟨c, hc, hto⟩ := (Text.expands_lowerFrom _ _).exists_head? hd
    rw [Text.lower, String.toList_ofList, hd]
    rw [hc] at hhead
    exact Text.isAlpha_of_isLower (hto.isLower hhead)
  · have hd := List.getLast?_eq_some_getLast hne
    obtain ⟨c, hc, hto⟩ := (Text.expands_lowerFrom _ _).exists_getLast? hd
    rw [Text.lower, String.toList_ofList, hd]
    rw [hc] at hlast
    exact Text.isAlpha_of_isLower (hto.isLower hlast)

/-- A chunk has at most one core, which is what is left when its ends are stripped. -/
theorem Text.isCore_iff (chunk core : String) :
    Text.IsCore chunk core ↔ core = stripChunk chunk ∧ core ≠ "" := by
  constructor
  · rintro ⟨before, behind, hchunk, hbefore, hbehind, hends⟩
    have hcore : Text.dropEnds (fun c => !c.isAlpha) core.toList = core.toList := by
      simpa [stripChunk] using congrArg String.toList hends.stripChunk_eq
    refine ⟨?_, hends.ne_empty⟩
    rw [stripChunk, ← hchunk, Text.dropEnds_append (by simpa using hbefore) (by simpa using hbehind)
      (by simpa using hends.ne_empty) hcore, String.ofList_toList]
  · rintro ⟨rfl, hne⟩
    obtain ⟨before, behind, hchunk, hbefore, hbehind⟩ :=
      Text.exists_append_dropEnds (fun c => !c.isAlpha) chunk.toList
    refine ⟨before, behind, ?_, by simpa using hbefore, by simpa using hbehind,
      (Text.hasLetterEnds_iff _).mpr ⟨stripChunk_stripChunk chunk, hne⟩⟩
    rw [stripChunk, String.toList_ofList, hchunk]

/-- What is told of a chunk is one text. -/
theorem Text.isToldOf_iff (chunk text : String) :
    Text.IsToldOf chunk text ↔
      text = if stripChunk chunk = "" then chunk else stripChunk chunk := by
  rw [Text.IsToldOf, Text.isCore_iff, ← stripChunk_eq_empty_iff]
  by_cases hempty : stripChunk chunk = ""
  · simp only [hempty, true_and, if_true, or_iff_right_iff_imp]
    rintro ⟨rfl, hne⟩
    exact absurd rfl hne
  · simp only [hempty, false_and, or_false, if_false, and_iff_left_iff_imp]
    rintro rfl
    exact hempty

theorem Token.ofChunk_of_empty (aliases : Aliases) (position : Nat) {chunk : String}
    (hempty : stripChunk chunk = "") :
    Token.ofChunk aliases position chunk = .error (.unrecognizedWord chunk) := by
  simp [Token.ofChunk, hempty]

theorem Token.ofChunk_of_ne_empty (aliases : Aliases) (position : Nat) {chunk : String}
    (hne : stripChunk chunk ≠ "") :
    Token.ofChunk aliases position chunk =
      (classify aliases (stripChunk chunk)).map
        fun w => ⟨w, stripChunk chunk, chunk, position⟩ := by
  simp [Token.ofChunk, hne]

/-- A token is made of the core of its chunk and the word that the core names. -/
theorem Token.ofChunk_eq_ok_iff (aliases : Aliases) (position : Nat) (chunk : String)
    (token : Token) :
    Token.ofChunk aliases position chunk = .ok token ↔
      Text.IsCore chunk token.text ∧ classify aliases token.text = .ok token.word ∧
        token.raw = chunk ∧ token.position = position := by
  rw [Text.isCore_iff]
  obtain ⟨w, text, raw, place⟩ := token
  by_cases hempty : stripChunk chunk = ""
  · rw [Token.ofChunk_of_empty aliases position hempty, hempty]
    simp
  · simp only [Token.ofChunk_of_ne_empty aliases position hempty, map_eq_ok_iff, Token.mk.injEq]
    constructor
    · rintro ⟨w', hclassify, rfl, rfl, rfl, rfl⟩
      exact ⟨⟨rfl, hempty⟩, hclassify, rfl, rfl⟩
    · rintro ⟨⟨rfl, -⟩, hclassify, rfl, rfl⟩
      exact ⟨w, hclassify, rfl, rfl, rfl, rfl⟩

theorem classify_eq_error {aliases : Aliases} {text : String} {e : ParseError}
    (herror : classify aliases text = .error e) : e = .unrecognizedWord text := by
  simp only [classify] at herror
  split at herror
  · cases herror
  · cases herror
    rfl

/-- A chunk is refused exactly if its core names no word, and then for this core. -/
theorem Token.ofChunk_eq_error_iff (aliases : Aliases) (position : Nat) (chunk : String)
    (e : ParseError) :
    Token.ofChunk aliases position chunk = .error e ↔
      (∀ core w, Text.IsCore chunk core → classify aliases core ≠ .ok w) ∧
        ∃ text, Text.IsToldOf chunk text ∧ e = .unrecognizedWord text := by
  simp only [Text.isCore_iff, Text.isToldOf_iff, exists_eq_left]
  by_cases hempty : stripChunk chunk = ""
  · rw [Token.ofChunk_of_empty aliases position hempty, hempty]
    simp [eq_comm]
  · rw [Token.ofChunk_of_ne_empty aliases position hempty, map_eq_error_iff, if_neg hempty]
    constructor
    · intro herror
      refine ⟨?_, classify_eq_error herror⟩
      rintro core w ⟨rfl, -⟩ hclassify
      cases herror.symm.trans hclassify
    · rintro ⟨hnone, rfl⟩
      cases hclassify : classify aliases (stripChunk chunk) with
      | ok w => exact absurd hclassify (hnone _ w ⟨rfl, hempty⟩)
      | error e => rw [classify_eq_error hclassify]

end TokiPona
