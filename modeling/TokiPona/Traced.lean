import TokiPona.Note
import TokiPona.ParseError

namespace TokiPona

/-- The outcome of a reading and the notes taken on the way to it, the oldest first. -/
structure Traced (α : Type) where
  notes : List Note
  result : Except ParseError α

namespace Traced

variable {α β : Type}

/-- An outcome without notes. -/
def lift (result : Except ParseError α) : Traced α := ⟨[], result⟩

def fail (error : ParseError) : Traced α := ⟨[], .error error⟩

/-- Takes one note. -/
def note (n : Note) : Traced Unit := ⟨[n], .ok ()⟩

/-- Goes on with the value read, unless the reading has failed. -/
def andThen (x : Traced α) (f : α → Traced β) : Traced β :=
  match x.result with
  | .ok a => ⟨x.notes ++ (f a).notes, (f a).result⟩
  | .error e => ⟨x.notes, .error e⟩

instance : Monad Traced where
  pure a := ⟨[], .ok a⟩
  bind := andThen

@[simp]
theorem result_pure (a : α) : (pure a : Traced α).result = .ok a := rfl

@[simp]
theorem result_lift (x : Except ParseError α) : (lift x).result = x := rfl

@[simp]
theorem result_fail (e : ParseError) : (fail e : Traced α).result = .error e := rfl

@[simp]
theorem result_note (n : Note) : (note n).result = .ok () := rfl

/-- Notes never change an outcome. -/
@[simp]
theorem result_bind (x : Traced α) (f : α → Traced β) :
    (x >>= f).result = x.result >>= fun a => (f a).result := by
  cases x with
  | mk notes result => cases result <;> rfl

@[ext]
theorem ext {x y : Traced α} (hnotes : x.notes = y.notes) (hresult : x.result = y.result) :
    x = y := by
  cases x
  cases y
  cases hnotes
  cases hresult
  rfl

theorem bind_eq_andThen (x : Traced α) (f : α → Traced β) : x >>= f = x.andThen f := rfl

instance : LawfulMonad Traced :=
  LawfulMonad.mk' Traced
    (by
      rintro α ⟨notes, result⟩
      cases result <;> simp [Functor.map, andThen])
    (by
      intro α β a f
      simp [bind_eq_andThen, andThen, pure])
    (by
      rintro α β γ ⟨notes, result⟩ f g
      cases result with
      | error e => rfl
      | ok a => cases hfa : (f a).result <;> simp [bind_eq_andThen, andThen, hfa])

@[simp]
theorem result_map (f : α → β) (x : Traced α) : (f <$> x).result = f <$> x.result := by
  cases x with
  | mk notes result => cases result <;> rfl

/-- Reading a list item by item has the outcome of the plain readings. -/
@[simp]
theorem result_mapM (f : α → Traced β) (items : List α) :
    (items.mapM f).result = items.mapM (fun a => (f a).result) := by
  induction items with
  | nil => rfl
  | cons a rest ih => simp [ih]

end Traced

end TokiPona
