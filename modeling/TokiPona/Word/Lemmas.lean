import Mathlib.Data.List.Chain
import TokiPona.Word

namespace TokiPona.Word

/-- The vocabulary is listed in alphabetical order, so no spelling occurs twice. -/
theorem pairwise_all : all.Pairwise (fun v w => v.spelling < w.spelling) := by
  have hchain : (all.map spelling).IsChain (· < ·) := by decide +kernel
  exact List.pairwise_map.mp (List.isChain_iff_pairwise.mp hchain)

theorem spelling_injective (v w : Word) (h : v.spelling = w.spelling) : v = w := by
  obtain ⟨i, hi, hv⟩ := List.getElem_of_mem (mem_all v)
  obtain ⟨j, hj, hw⟩ := List.getElem_of_mem (mem_all w)
  have hlt := List.pairwise_iff_getElem.mp pairwise_all
  rcases Nat.lt_trichotomy i j with hij | hij | hij
  · have := hlt i j hi hj hij
    rw [hv, hw, h] at this
    exact absurd this (String.lt_irrefl _)
  · subst hij
    exact hv.symm.trans hw
  · have := hlt j i hj hi hij
    rw [hv, hw, h] at this
    exact absurd this (String.lt_irrefl _)

@[simp]
theorem ofSpelling?_spelling (w : Word) : ofSpelling? w.spelling = some w := by
  cases hfind : ofSpelling? w.spelling with
  | none =>
    have hnone := List.find?_eq_none.mp hfind w (mem_all w)
    simp at hnone
  | some v =>
    have hspelling := List.find?_some hfind
    rw [spelling_injective v w (eq_of_beq hspelling)]

theorem ofSpelling?_eq_some_iff (text : String) (w : Word) :
    ofSpelling? text = some w ↔ text = w.spelling := by
  constructor
  · intro hfind
    have hspelling := List.find?_some hfind
    exact (eq_of_beq hspelling).symm
  · rintro rfl
    exact ofSpelling?_spelling w

end TokiPona.Word
