import TokiPona.Proofs.Split

namespace TokiPona

variable {α β ε : Type}

/-- Why a reading fails, if it does. -/
def failure? : Except ε α → Option ε
  | .ok _ => none
  | .error e => some e

theorem failure?_eq_some_iff {x : Except ε α} {e : ε} : failure? x = some e ↔ x = .error e := by
  cases x <;> simp [failure?]

theorem failure?_eq_none_iff {x : Except ε α} : failure? x = none ↔ ∃ a, x = .ok a := by
  cases x <;> simp [failure?]

@[simp]
theorem failure?_map (f : α → β) (x : Except ε α) : failure? (x.map f) = failure? x := by
  cases x <;> rfl

@[simp]
theorem failure?_bind_pure (x : Except ε α) (f : α → β) :
    failure? (x >>= fun a => pure (f a)) = failure? x := by
  cases x <;> rfl

/-- If what follows a reading fails in one way for all that can be read, then the whole does unless
    the reading fails itself. -/
theorem failure?_bind {x : Except ε α} {f : α → Except ε β} {e : Option ε}
    (hf : ∀ a, failure? (f a) = e) : failure? (x >>= f) = (failure? x).or e := by
  cases x with
  | error e' => rfl
  | ok a => exact hf a

/-- Of pieces that are read one by one, the first that cannot be read decides. -/
theorem failure?_mapM (read : α → Except ε β) (pieces : List α) :
    failure? (pieces.mapM read) = (pieces.filterMap fun a => failure? (read a)).head? := by
  induction pieces with
  | nil => rfl
  | cons a rest ih =>
    have hrest (b : β) : failure? (do let bs ← rest.mapM read; pure (b :: bs)) =
        (rest.filterMap fun a => failure? (read a)).head? := by
      rw [failure?_bind_pure, ih]
    rw [List.mapM_cons, failure?_bind hrest, List.filterMap_cons]
    cases failure? (read a) <;> rfl

/-- A reading that fails for errors of one kind only, if it does. -/
def FailsOnly (P : ε → Prop) (x : Except ε α) : Prop := ∀ e, x = .error e → P e

namespace FailsOnly

variable {P Q : ε → Prop} {x : Except ε α}

theorem ok (a : α) : FailsOnly P (.ok a : Except ε α) := fun _ herror => nomatch herror

theorem error {e : ε} (he : P e) : FailsOnly P (.error e : Except ε α) := by
  rintro _ ⟨⟩
  exact he

theorem mono (hx : FailsOnly P x) (hP : ∀ e, P e → Q e) : FailsOnly Q x :=
  fun e herror => hP e (hx e herror)

theorem map (hx : FailsOnly P x) (f : α → β) : FailsOnly P (x.map f) :=
  fun e herror => hx e (map_eq_error_iff.mp herror)

theorem bind (hx : FailsOnly P x) {f : α → Except ε β} (hf : ∀ a, x = .ok a → FailsOnly P (f a)) :
    FailsOnly P (x >>= f) := by
  intro e herror
  rcases bind_eq_error_iff.mp herror with hfirst | ⟨a, ha, hrest⟩
  · exact hx e hfirst
  · exact hf a ha e hrest

theorem mapM {read : α → Except ε β} {pieces : List α}
    (hread : ∀ a ∈ pieces, FailsOnly P (read a)) : FailsOnly P (pieces.mapM read) := by
  induction pieces with
  | nil => exact ok []
  | cons a rest ih =>
    obtain ⟨ha, hrest⟩ := List.forall_mem_cons.mp hread
    rw [List.mapM_cons]
    exact ha.bind fun b _ => (ih hrest).bind fun bs _ => ok (b :: bs)

end FailsOnly

end TokiPona
