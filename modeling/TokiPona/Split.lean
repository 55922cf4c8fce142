namespace TokiPona

variable {α : Type}

/-- Cuts a list at the last element that satisfies `p`: what stands before it, the element, and
    what stands behind it. -/
def cutLast? (p : α → Bool) : List α → Option (List α × α × List α)
  | [] => none
  | a :: rest =>
    match cutLast? p rest with
    | some (before, mark, behind) => some (a :: before, mark, behind)
    | none => if p a then some ([], a, rest) else none

/-- Cuts a list before every element that satisfies `p`. No run is empty, and in a run only the
    first element may satisfy `p`. -/
def runs (p : α → Bool) : List α → List (List α)
  | [] => []
  | a :: rest =>
    match runs p rest with
    | [] => [[a]]
    | run :: later => if run.head?.any p then [a] :: run :: later else (a :: run) :: later

theorem eq_append_of_cutLast? {p : α → Bool} {l before behind : List α} {mark : α}
    (hcut : cutLast? p l = some (before, mark, behind)) : l = before ++ mark :: behind := by
  induction l generalizing before with
  | nil => simp [cutLast?] at hcut
  | cons a rest ih =>
    unfold cutLast? at hcut
    split at hcut
    · next hrest =>
      cases hcut
      rw [ih hrest, List.cons_append]
    · split at hcut
      · cases hcut
        rfl
      · cases hcut

/-- What stands before the cut is shorter than the whole. -/
theorem length_lt_of_cutLast? {p : α → Bool} {l before behind : List α} {mark : α}
    (hcut : cutLast? p l = some (before, mark, behind)) : before.length < l.length := by
  rw [eq_append_of_cutLast? hcut, List.length_append, List.length_cons]
  omega

end TokiPona
