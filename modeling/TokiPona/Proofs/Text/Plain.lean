import TokiPona.Proofs.Text.Lines
import TokiPona.Proofs.Token

namespace TokiPona

/-- All characters are printable ASCII characters. -/
def Text.Plain (text : List Char) : Prop := ∀ c ∈ text, 0x20 ≤ c.toNat ∧ c.toNat ≤ 0x7E

instance (text : List Char) : Decidable (Text.Plain text) :=
  List.decidableBAll _ _

namespace Text

variable {text text' : List Char}

@[simp]
theorem plain_nil : Plain [] :=
  List.forall_mem_nil _

@[simp]
theorem plain_cons {c : Char} :
    Plain (c :: text) ↔ (0x20 ≤ c.toNat ∧ c.toNat ≤ 0x7E) ∧ Plain text :=
  List.forall_mem_cons

@[simp]
theorem plain_append : Plain (text ++ text') ↔ Plain text ∧ Plain text' :=
  List.forall_mem_append

theorem Plain.isLineBreak (htext : Plain text) : ∀ c ∈ text, isLineBreak c = false := by
  intro c hc
  have hbounds := htext c hc
  simp only [Text.isLineBreak, Bool.or_eq_false_iff, Bool.and_eq_false_iff,
    decide_eq_false_iff_not, beq_eq_false_iff_ne]
  omega

end Text

theorem Word.plain_spelling (w : Word) : Text.Plain w.spelling.toList := by
  intro c hc
  have hbounds := (Text.isLower_iff c).mp (w.isLower_spelling c hc)
  omega

theorem toList_spell_cons_cons (w next : Word) (words : List Word) :
    (spell (w :: next :: words)).toList =
      w.spelling.toList ++ ' ' :: (spell (next :: words)).toList := by
  simp only [spell, List.map_cons, String.intercalate_cons_cons, String.toList_append,
    List.append_assoc]
  rfl

theorem spell_singleton (w : Word) : spell [w] = w.spelling :=
  String.intercalate_singleton

/-- There are only letters in words that are written in a row, and blanks between them. -/
theorem isLower_or_eq_of_mem_spell {words : List Word} {c : Char}
    (hc : c ∈ (spell words).toList) : c.isLower ∨ c = ' ' := by
  induction words with
  | nil => cases hc
  | cons w words ih =>
    cases words with
    | nil =>
      rw [spell_singleton] at hc
      exact .inl (w.isLower_spelling c hc)
    | cons next words =>
      rw [toList_spell_cons_cons, List.mem_append, List.mem_cons] at hc
      rcases hc with hc | rfl | hc
      · exact .inl (w.isLower_spelling c hc)
      · exact .inr rfl
      · exact ih hc

theorem plain_spell (words : List Word) : Text.Plain (spell words).toList := by
  intro c hc
  rcases isLower_or_eq_of_mem_spell hc with hlower | rfl
  · have hbounds := (Text.isLower_iff c).mp hlower
    omega
  · decide

/-- Words that are written in a row can be told from each other. -/
theorem chunks_spell (words : List Word) : Text.chunks (spell words) = words.map Word.spelling := by
  have hsolid (w : Word) : ∀ c ∈ w.spelling.toList, Text.isBlank c = false := fun c hc =>
    Text.isBlank_of_isAlpha (Text.isAlpha_of_isLower (w.isLower_spelling c hc))
  have hchars : Text.chunkChars (spell words).toList =
      words.map fun w => w.spelling.toList := by
    induction words with
    | nil => rfl
    | cons w words ih =>
      cases words with
      | nil =>
        rw [spell_singleton]
        exact Text.chunkChars_of_solid w.spelling_ne_empty (hsolid w)
      | cons next words =>
        rw [toList_spell_cons_cons,
          Text.chunkChars_solid_append w.spelling_ne_empty (hsolid w) (by decide),
          Text.chunkChars_cons (by decide), ih]
        rfl
  rw [Text.chunks_eq, hchars, List.map_map]
  exact List.map_congr_left fun w _ => String.ofList_toList

end TokiPona
