import TokiPona.Proofs.Aliases.Configure

/-!
Which requests are refused, without the order in which they are taken.

Requests are taken one by one, and each is compared with what has been granted before it. What it
meets can be said of all of them at once: an alias belongs to the word that it has in the table or,
if it has none there, to the first word that is asked for it (`Aliases.owner`). A request is refused
exactly if its alias is a vocabulary word or belongs to another word, and a configuration without
such a request is accepted (`Aliases.Draft.conflicts_foldl_take`).
-/

namespace TokiPona.Aliases

/-- The word that an alias belongs to: the one it has in the table or else the first that is asked
    for it. -/
def owner (aliases : Aliases) (pairs : List (LooseText × Word)) (name : LooseText) : Option Word :=
  (aliases.lookup name).or (pairs.lookup name)

/-- Why a pair cannot be granted: its alias is a vocabulary word or belongs to another word. -/
def conflict? (aliases : Aliases) (pairs : List (LooseText × Word)) (pair : LooseText × Word) :
    Option AliasConflict :=
  if (Word.ofText? pair.1).isSome then some (.shadows pair.1)
  else
    match aliases.owner pairs pair.1 with
    | some held => if held = pair.2 then none else some (.clash pair.1 held pair.2)
    | none => none

/-- All conflicts of a list of pairs, in its order. -/
def conflicts (aliases : Aliases) (pairs : List (LooseText × Word)) : List AliasConflict :=
  pairs.filterMap (aliases.conflict? pairs)

theorem owner_append (aliases : Aliases) (done rest : List (LooseText × Word)) (name : LooseText) :
    aliases.owner (done ++ rest) name = (aliases.owner done name).or (rest.lookup name) := by
  rw [owner, owner, List.lookup_append, Option.or_assoc]

theorem owner_append_self (aliases : Aliases) (done rest : List (LooseText × Word))
    (name : LooseText) (w : Word) :
    aliases.owner (done ++ (name, w) :: rest) name = (aliases.owner done name).or (some w) := by
  rw [owner_append, List.lookup_cons_self]

theorem owner_append_of_ne (aliases : Aliases) (done : List (LooseText × Word))
    {name other : LooseText} (hother : other ≠ name) (w : Word) :
    aliases.owner (done ++ [(name, w)]) other = aliases.owner done other := by
  have hne : (other == name) = false := by simpa using hother
  simp [owner_append, List.lookup_cons, hne]

theorem Draft.held?_put (aliases : Aliases) (draft : Draft) (name other : LooseText) (w : Word) :
    Draft.held? aliases { draft with granted := Entries.put (· == ·) draft.granted name w } other =
      if other == name then some w else draft.held? aliases other := by
  rw [Draft.held?, Entries.lookup_put]
  split <;> rfl

/-- A request that is granted does not change the word that its alias may have already. -/
theorem or_some_of_forall_eq {held? : Option Word} {w : Word}
    (hheld : ∀ held, held? = some held → held = w) : held?.or (some w) = some w := by
  cases held? with
  | none => rfl
  | some held => rw [hheld held rfl, Option.some_or]

/-- A draft in which every alias that is no vocabulary word has the word it belongs to. -/
def Draft.Follows (aliases : Aliases) (done : List (LooseText × Word)) (draft : Draft) : Prop :=
  ∀ name, Word.ofText? name = none → draft.held? aliases name = aliases.owner done name

/-- Taking a request keeps every alias at the word it belongs to. -/
theorem Draft.Follows.take {aliases : Aliases} {done : List (LooseText × Word)} {draft : Draft}
    (hdraft : draft.Follows aliases done) (request : LooseText × Word) :
    (draft.take aliases request).Follows aliases (done ++ [request]) := by
  obtain ⟨name, w⟩ := request
  intro other hother
  obtain ⟨hword, hheld, htake⟩ | ⟨hword, htake⟩ | ⟨held, hword, hheld, -, htake⟩ :=
    draft.take_cases aliases name w
  · rw [htake, Draft.held?_put]
    by_cases hname : other = name
    · subst hname
      rw [if_pos (beq_self_eq_true other), owner_append_self, ← hdraft other hother]
      exact (or_some_of_forall_eq hheld).symm
    · rw [if_neg (by simpa using hname), owner_append_of_ne aliases done hname, hdraft other hother]
  · have hne : other ≠ name := by
      rintro rfl
      simp [hother] at hword
    rw [htake, owner_append_of_ne aliases done hne, ← hdraft other hother]
    rfl
  · by_cases hname : other = name
    · subst hname
      rw [htake, owner_append_self, ← hdraft other hother, hheld]
      exact hheld
    · rw [htake, owner_append_of_ne aliases done hname, ← hdraft other hother]
      rfl

/-- Taking a request reports its conflict, whatever is asked for later. -/
theorem Draft.Follows.conflicts_take {aliases : Aliases} {done : List (LooseText × Word)}
    {draft : Draft} (hdraft : draft.Follows aliases done) (request : LooseText × Word)
    (rest : List (LooseText × Word)) :
    (draft.take aliases request).conflicts =
      draft.conflicts ++ (aliases.conflict? (done ++ request :: rest) request).toList := by
  obtain ⟨name, w⟩ := request
  obtain ⟨hword, hheld, htake⟩ | ⟨hword, htake⟩ | ⟨held, hword, hheld, hne, htake⟩ :=
    draft.take_cases aliases name w
  · rw [htake, conflict?, owner_append_self, ← hdraft name hword, or_some_of_forall_eq hheld]
    simp [hword]
  · rw [htake, conflict?, if_pos hword]
    rfl
  · rw [htake, conflict?, owner_append_self, ← hdraft name hword, hheld]
    simp [hword, hne]

theorem Draft.Follows.conflicts_foldl_take {aliases : Aliases} {done : List (LooseText × Word)}
    {draft : Draft} (hdraft : draft.Follows aliases done) (rest : List (LooseText × Word)) :
    (rest.foldl (Draft.take aliases) draft).conflicts =
      draft.conflicts ++ rest.filterMap (aliases.conflict? (done ++ rest)) := by
  induction rest generalizing done draft with
  | nil => simp
  | cons request rest ih =>
    rw [List.foldl_cons, ih (hdraft.take request), hdraft.conflicts_take request rest,
      List.append_assoc done, List.singleton_append, List.append_assoc, List.filterMap_cons]
    cases aliases.conflict? (done ++ request :: rest) request <;> rfl

theorem Draft.follows_nil (aliases : Aliases) : Draft.Follows aliases [] ⟨[], []⟩ := by
  intro name _
  simp [Draft.held?, owner]

/-- The conflicts that are met one by one are those of the pairs as a whole. -/
theorem Draft.conflicts_foldl_take (aliases : Aliases) (pairs : List (LooseText × Word)) :
    (pairs.foldl (Draft.take aliases) ⟨[], []⟩).conflicts = aliases.conflicts pairs := by
  simpa [Aliases.conflicts] using (Draft.follows_nil aliases).conflicts_foldl_take pairs

variable {aliases : Aliases} {config : AliasConfig} {requests : List (LooseText × Word)}

theorem exists_configure_of_conflicts_eq_nil (hrequests : config.requests = .ok requests)
    (hnone : aliases.conflicts requests = []) :
    ∃ aliases', aliases.configure config = .ok aliases' := by
  rw [configure, hrequests, ok_bind]
  simp only [Draft.conflicts_foldl_take, hnone, List.isEmpty_nil, if_true]
  exact ⟨_, rfl⟩

theorem configure_of_conflicts_ne_nil (hrequests : config.requests = .ok requests)
    (hsome : aliases.conflicts requests ≠ []) :
    aliases.configure config = .error (.collisions (aliases.conflicts requests)) := by
  rw [configure, hrequests, ok_bind]
  simp only [Draft.conflicts_foldl_take, List.isEmpty_iff, if_neg hsome]
  rfl

end TokiPona.Aliases
