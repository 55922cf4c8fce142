import Mathlib.Data.List.TakeWhile
import TokiPona.Text.Cut

namespace TokiPona.Text

theorem bne_of_not_mem {mark : Char} {chars : List Char} (hchars : mark ∉ chars) :
    ∀ c ∈ chars, (c != mark) = true := by
  intro c hc
  exact bne_iff_ne.mpr (ne_of_mem_of_not_mem hc hchars)

theorem cutFirst_of_not_mem {mark : Char} {text : String} (htext : mark ∉ text.toList) :
    cutFirst mark text = (text, none) := by
  have hall := bne_of_not_mem htext
  rw [cutFirst, List.dropWhile_eq_nil_iff.mpr hall, List.takeWhile_eq_self_iff.mpr hall,
    String.ofList_toList]

theorem cutFirst_append {mark : Char} {before : String} (hbefore : mark ∉ before.toList)
    (behind : String) :
    cutFirst mark (before ++ String.singleton mark ++ behind) = (before, some behind) := by
  have hall := bne_of_not_mem hbefore
  simp [cutFirst, List.takeWhile_append_of_pos hall, List.dropWhile_append_of_pos hall]

end TokiPona.Text
