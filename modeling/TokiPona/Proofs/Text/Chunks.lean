import Mathlib.Data.List.TakeWhile
import TokiPona.Proofs.Split
import TokiPona.Text.Blank

namespace TokiPona.Text

/-- The maximal runs of characters that are not blank. -/
def chunkChars (chars : List Char) : List (List Char) :=
  (chars.splitOnP isBlank).filter (fun chunk => !chunk.isEmpty)

theorem chunks_eq (text : String) : chunks text = (chunkChars text.toList).map String.ofList := rfl

@[simp]
theorem chunkChars_nil : chunkChars [] = [] := rfl

theorem isBlank_of_mem_chunks {text chunk : String} (hchunk : chunk ∈ chunks text) :
    ∀ c ∈ chunk.toList, isBlank c = false := by
  obtain ⟨chars, hchars, rfl⟩ := List.mem_map.mp hchunk
  rw [String.toList_ofList]
  exact eq_false_of_mem_splitOnP (List.mem_filter.mp hchars).1

/-- A blank parts a text for good: no chunk reaches across it. -/
theorem chunkChars_append_cons (before behind : List Char) {c : Char} (hc : isBlank c) :
    chunkChars (before ++ c :: behind) = chunkChars before ++ chunkChars behind := by
  simp only [chunkChars, List.splitOnP_append_cons before behind hc, List.filter_append]

theorem chunkChars_cons {c : Char} (hc : isBlank c) (chars : List Char) :
    chunkChars (c :: chars) = chunkChars chars := by
  simpa using chunkChars_append_cons [] chars hc

theorem chunkChars_of_solid {chars : List Char} (hne : chars ≠ [])
    (hsolid : ∀ c ∈ chars, isBlank c = false) : chunkChars chars = [chars] := by
  simp [chunkChars, List.splitOnP_eq_singleton hsolid, hne]

/-- Characters without a blank are one chunk if a blank follows them. -/
theorem chunkChars_solid_append {chars : List Char} (hne : chars ≠ [])
    (hsolid : ∀ c ∈ chars, isBlank c = false) {c : Char} (hc : isBlank c) (behind : List Char) :
    chunkChars (chars ++ c :: behind) = chars :: chunkChars (c :: behind) := by
  rw [chunkChars_append_cons chars behind hc, chunkChars_of_solid hne hsolid, chunkChars_cons hc,
    List.singleton_append]

theorem chunkChars_dropWhile (chars : List Char) :
    chunkChars (chars.dropWhile isBlank) = chunkChars chars := by
  induction chars with
  | nil => rfl
  | cons c rest ih =>
    by_cases hc : isBlank c
    · rw [List.dropWhile_cons_of_pos hc, ih, chunkChars_cons hc]
    · rw [List.dropWhile_cons_of_neg hc]

theorem chunkChars_of_blank {blanks : List Char} (hblanks : ∀ c ∈ blanks, isBlank c) :
    chunkChars blanks = [] := by
  rw [← chunkChars_dropWhile, List.dropWhile_eq_nil_iff.mpr hblanks, chunkChars_nil]

theorem chunkChars_append_blanks (chars : List Char) {blanks : List Char}
    (hblanks : ∀ c ∈ blanks, isBlank c) : chunkChars (chars ++ blanks) = chunkChars chars := by
  cases blanks with
  | nil => rw [List.append_nil]
  | cons c blanks =>
    obtain ⟨hc, hrest⟩ := List.forall_mem_cons.mp hblanks
    rw [chunkChars_append_cons chars blanks hc, chunkChars_of_blank hrest, List.append_nil]

/-- The blanks at the ends of a text are in no chunk. -/
theorem chunks_trim (text : String) : chunks (trim text) = chunks text := by
  have hends (chars : List Char) : chunkChars (dropEnds isBlank chars) = chunkChars chars := by
    have hsplit := congrArg List.reverse
      (List.takeWhile_append_dropWhile (p := isBlank) (l := (chars.dropWhile isBlank).reverse))
    rw [List.reverse_append, List.reverse_reverse] at hsplit
    rw [← chunkChars_dropWhile chars, ← hsplit]
    refine (chunkChars_append_blanks _ fun c hc => ?_).symm
    exact List.mem_takeWhile_imp (List.mem_reverse.mp hc)
  rw [chunks_eq, chunks_eq, trim, String.toList_ofList, hends]

end TokiPona.Text
