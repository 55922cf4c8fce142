import Mathlib.Data.List.Basic
import Mathlib.Data.List.TakeWhile
import TokiPona.Text.Blank

namespace TokiPona.Text

theorem dropEnds_isPrefix {α : Type} (p : α → Bool) (l : List α) :
    dropEnds p l <+: l.dropWhile p := by
  rw [dropEnds, ← List.reverse_suffix, List.reverse_reverse]
  exact List.dropWhile_suffix p

theorem mem_of_mem_dropEnds {α : Type} {p : α → Bool} {l : List α} {a : α}
    (ha : a ∈ dropEnds p l) : a ∈ l :=
  (List.dropWhile_suffix p).subset ((dropEnds_isPrefix p l).subset ha)

theorem head?_dropEnds {α : Type} {p : α → Bool} {l : List α} {a : α}
    (ha : (dropEnds p l).head? = some a) : p a = false := by
  obtain ⟨rest, hrest⟩ := dropEnds_isPrefix p l
  have hhead := List.head?_dropWhile_not p l
  rw [← hrest, List.head?_append, ha] at hhead
  simpa using hhead

theorem getLast?_dropEnds {α : Type} {p : α → Bool} {l : List α} {a : α}
    (ha : (dropEnds p l).getLast? = some a) : p a = false := by
  have hhead := List.head?_dropWhile_not p (l.dropWhile p).reverse
  rw [dropEnds, List.getLast?_reverse] at ha
  simpa [ha] using hhead

theorem dropWhile_of_head? {α : Type} {p : α → Bool} {l : List α}
    (hhead : ∀ a, l.head? = some a → p a = false) : l.dropWhile p = l := by
  cases l with
  | nil => rfl
  | cons a rest => simp [hhead a rfl]

/-- Nothing is dropped from a list exactly if both its ends are kept. -/
theorem dropEnds_eq_self_iff {α : Type} {p : α → Bool} {l : List α} :
    dropEnds p l = l ↔
      (∀ a, l.head? = some a → p a = false) ∧ ∀ a, l.getLast? = some a → p a = false := by
  constructor
  · intro hself
    rw [← hself]
    exact ⟨fun a => head?_dropEnds, fun a => getLast?_dropEnds⟩
  · rintro ⟨hhead, hlast⟩
    rw [dropEnds, dropWhile_of_head? hhead, dropWhile_of_head?, List.reverse_reverse]
    simpa using hlast

/-- Nothing is dropped from a list whose elements are all kept. -/
theorem dropEnds_of_forall {α : Type} {p : α → Bool} {l : List α}
    (hl : ∀ a ∈ l, p a = false) : dropEnds p l = l :=
  dropEnds_eq_self_iff.mpr
    ⟨fun a ha => hl a (List.mem_of_head? ha), fun a ha => hl a (List.mem_of_getLast? ha)⟩

theorem dropEnds_dropEnds {α : Type} (p : α → Bool) (l : List α) :
    dropEnds p (dropEnds p l) = dropEnds p l :=
  dropEnds_eq_self_iff.mpr ⟨fun _ => head?_dropEnds, fun _ => getLast?_dropEnds⟩

/-- Both ends of a list meet exactly if all of its elements are dropped. -/
theorem dropEnds_eq_nil_iff {α : Type} {p : α → Bool} {l : List α} :
    dropEnds p l = [] ↔ ∀ a ∈ l, p a = true := by
  constructor
  · intro hnil
    have hdrop : l.dropWhile p = [] := by
      by_contra hne
      -- The first element that is kept would be kept from the other end too.
      obtain ⟨a, rest, hcons⟩ := List.exists_cons_of_ne_nil hne
      have ha := List.head?_dropWhile_not p l
      simp only [hcons, List.head?_cons] at ha
      have hall := List.dropWhile_eq_nil_iff.mp (List.reverse_eq_nil_iff.mp hnil)
      have htrue := hall a (by simp [hcons])
      simp [htrue] at ha
    exact List.dropWhile_eq_nil_iff.mp hdrop
  · intro hall
    rw [dropEnds, List.dropWhile_eq_nil_iff.mpr hall]
    rfl

/-- What is dropped stands in front of and behind what is left. -/
theorem exists_append_dropEnds {α : Type} (p : α → Bool) (l : List α) :
    ∃ before behind, before ++ dropEnds p l ++ behind = l ∧ (∀ a ∈ before, p a) ∧
      ∀ a ∈ behind, p a := by
  have hsplit := List.takeWhile_append_dropWhile (p := p) (l := (l.dropWhile p).reverse)
  refine ⟨l.takeWhile p, ((l.dropWhile p).reverse.takeWhile p).reverse, ?_,
    fun a => List.mem_takeWhile_imp, fun a ha => List.mem_takeWhile_imp (List.mem_reverse.mp ha)⟩
  rw [dropEnds, List.append_assoc, ← List.reverse_append, hsplit, List.reverse_reverse,
    List.takeWhile_append_dropWhile]

theorem mem_dropEnds_of_mem {α : Type} {p : α → Bool} {l : List α} {a : α} (ha : a ∈ l)
    (hkept : p a = false) : a ∈ dropEnds p l := by
  obtain ⟨before, behind, hsplit, hbefore, hbehind⟩ := exists_append_dropEnds p l
  rw [← hsplit, List.mem_append, List.mem_append] at ha
  rcases ha with (ha | ha) | ha
  · exact absurd (hbefore a ha) (by simp [hkept])
  · exact ha
  · exact absurd (hbehind a ha) (by simp [hkept])

/-- A list whose ends are both kept is left of all that may be dropped around it. -/
theorem dropEnds_append {α : Type} {p : α → Bool} {before core behind : List α}
    (hbefore : ∀ a ∈ before, p a) (hbehind : ∀ a ∈ behind, p a) (hne : core ≠ [])
    (hcore : dropEnds p core = core) : dropEnds p (before ++ core ++ behind) = core := by
  obtain ⟨hhead, hlast⟩ := dropEnds_eq_self_iff.mp hcore
  have hfront : (core ++ behind).dropWhile p = core ++ behind := by
    apply dropWhile_of_head?
    rwa [List.head?_append_of_ne_nil core hne]
  have hback : core.reverse.dropWhile p = core.reverse := by
    apply dropWhile_of_head?
    rwa [List.head?_reverse]
  have hreverse : ∀ a ∈ behind.reverse, p a := fun a ha => hbehind a (List.mem_reverse.mp ha)
  rw [dropEnds, List.append_assoc, List.dropWhile_append_of_pos hbefore, hfront,
    List.reverse_append, List.dropWhile_append_of_pos hreverse, hback, List.reverse_reverse]

theorem trim_eq_empty_iff {text : String} :
    trim text = "" ↔ ∀ c ∈ text.toList, isBlank c = true := by
  rw [← dropEnds_eq_nil_iff, trim, ← String.toList_eq_nil_iff, String.toList_ofList]

theorem trim_trim (text : String) : trim (trim text) = trim text := by
  rw [trim, trim, String.toList_ofList, dropEnds_dropEnds]

end TokiPona.Text
