import TokiPona.Entries

namespace TokiPona.Entries

variable {α β : Type}

theorem putAll_cons (same : α → α → Bool) (entries added : List (α × β)) (e : α × β) :
    putAll same entries (e :: added) = putAll same (put same entries e.1 e.2) added := rfl

variable [BEq α] [LawfulBEq α]

theorem lookup_put (entries : List (α × β)) (key k : α) (value : β) :
    (put (· == ·) entries key value).lookup k =
      if k == key then some value else entries.lookup k := by
  induction entries with
  | nil => cases hk : k == key <;> simp [put, List.lookup_cons, hk]
  | cons e rest ih =>
    obtain ⟨held, old⟩ := e
    unfold put
    by_cases hheld : held == key
    · rw [if_pos hheld, eq_of_beq hheld]
      cases hk : k == key <;> simp [List.lookup_cons, hk]
    · rw [if_neg hheld, List.lookup_cons, ih, List.lookup_cons]
      by_cases hk : k == held
      · have hkey : ¬ k == key := by rwa [eq_of_beq hk]
        simp [hk, hkey]
      · simp [hk]

theorem mem_put {entries : List (α × β)} {key : α} {value : β} {e : α × β}
    (he : e ∈ put (· == ·) entries key value) : e = (key, value) ∨ e ∈ entries := by
  induction entries with
  | nil => exact Or.inl (List.mem_singleton.mp he)
  | cons first rest ih =>
    obtain ⟨held, old⟩ := first
    unfold put at he
    split at he
    · next hheld =>
      rw [eq_of_beq hheld, List.mem_cons] at he
      exact he.imp_right (List.mem_cons_of_mem _)
    · rcases List.mem_cons.mp he with rfl | he
      · exact Or.inr List.mem_cons_self
      · exact (ih he).imp_right (List.mem_cons_of_mem _)

theorem mem_putAll {entries added : List (α × β)} {e : α × β}
    (he : e ∈ putAll (· == ·) entries added) : e ∈ added ∨ e ∈ entries := by
  induction added generalizing entries with
  | nil => exact Or.inr he
  | cons first added ih =>
    rw [putAll_cons] at he
    rcases ih he with he | he
    · exact Or.inl (List.mem_cons_of_mem first he)
    · rcases mem_put he with rfl | he
      · exact Or.inl List.mem_cons_self
      · exact Or.inr he

/-- A key keeps its value if all that is put under it is this value again. -/
theorem lookup_putAll_of_agree {entries added : List (α × β)} {k : α} {v : β}
    (hlookup : entries.lookup k = some v) (hadded : ∀ e ∈ added, e.1 = k → e.2 = v) :
    (putAll (· == ·) entries added).lookup k = some v := by
  induction added generalizing entries with
  | nil => exact hlookup
  | cons first added ih =>
    obtain ⟨hfirst, hadded⟩ := List.forall_mem_cons.mp hadded
    rw [putAll_cons]
    refine ih ?_ hadded
    rw [lookup_put]
    split
    · next hk => rw [hfirst (eq_of_beq hk).symm]
    · exact hlookup

theorem lookup_putAll_of_mem {entries added : List (α × β)} {k : α} {v : β}
    (hmem : (k, v) ∈ added) (hadded : ∀ e ∈ added, e.1 = k → e.2 = v) :
    (putAll (· == ·) entries added).lookup k = some v := by
  induction added generalizing entries with
  | nil => cases hmem
  | cons first added ih =>
    obtain ⟨hfirst, hrest⟩ := List.forall_mem_cons.mp hadded
    rw [putAll_cons]
    rcases List.mem_cons.mp hmem with rfl | hmem
    · refine lookup_putAll_of_agree ?_ hrest
      rw [lookup_put, if_pos (beq_self_eq_true k)]
    · exact ih hmem hrest

/-- Entries of another key may be left out. -/
theorem lookup_filter_ne (entries : List (α × β)) {key k : α} (hk : k ≠ key) :
    (entries.filter (fun e => e.1 != key)).lookup k = entries.lookup k := by
  induction entries with
  | nil => rfl
  | cons e rest ih =>
    obtain ⟨held, value⟩ := e
    by_cases hheld : held = key
    · have hne : (k == held) = false := by simpa [hheld] using hk
      simp [hheld, List.lookup_cons, hheld ▸ hne, ih]
    · simp [hheld, List.lookup_cons, ih]

theorem mem_of_lookup {entries : List (α × β)} {k : α} {v : β}
    (hlookup : entries.lookup k = some v) : (k, v) ∈ entries := by
  obtain ⟨before, behind, rfl, -⟩ := List.lookup_eq_some_iff.mp hlookup
  simp

/-- What is found behind others is one of them or was there before. -/
theorem lookup_putAll_cases {entries added : List (α × β)} {k : α} {v : β}
    (hlookup : (putAll (· == ·) entries added).lookup k = some v) :
    (k, v) ∈ added ∨ entries.lookup k = some v := by
  induction added generalizing entries with
  | nil => exact Or.inr hlookup
  | cons first added ih =>
    rw [putAll_cons] at hlookup
    rcases ih hlookup with hmem | hbefore
    · exact Or.inl (List.mem_cons_of_mem first hmem)
    · rw [lookup_put] at hbefore
      split at hbefore
      · next hk =>
        rw [eq_of_beq hk, ← Option.some.inj hbefore]
        exact Or.inl List.mem_cons_self
      · exact Or.inr hbefore

theorem put_eq_self {entries : List (α × β)} {k : α} {v : β}
    (hlookup : entries.lookup k = some v) : put (· == ·) entries k v = entries := by
  induction entries with
  | nil => cases hlookup
  | cons first rest ih =>
    obtain ⟨held, old⟩ := first
    unfold put
    by_cases hheld : held == k
    · rw [eq_of_beq hheld, List.lookup_cons_self] at hlookup
      rw [if_pos hheld, Option.some.inj hlookup]
    · have hk : (k == held) = false := by
        rw [beq_eq_false_iff_ne]
        rintro rfl
        exact hheld (beq_self_eq_true k)
      rw [List.lookup_cons, hk] at hlookup
      rw [if_neg hheld, ih hlookup]

/-- Putting what is there already changes nothing, not even the order. -/
theorem putAll_eq_self {entries added : List (α × β)}
    (hadded : ∀ e ∈ added, entries.lookup e.1 = some e.2) :
    putAll (· == ·) entries added = entries := by
  induction added with
  | nil => rfl
  | cons first added ih =>
    obtain ⟨hfirst, hadded⟩ := List.forall_mem_cons.mp hadded
    rw [putAll_cons, put_eq_self hfirst, ih hadded]

theorem nodup_keys_put {entries : List (α × β)} (hentries : (entries.map Prod.fst).Nodup)
    (key : α) (value : β) : ((put (· == ·) entries key value).map Prod.fst).Nodup := by
  induction entries with
  | nil => simp [put]
  | cons first rest ih =>
    obtain ⟨held, old⟩ := first
    obtain ⟨hheld, hrest⟩ := List.nodup_cons.mp hentries
    unfold put
    split
    · exact hentries
    · next hne =>
      refine List.nodup_cons.mpr ⟨fun hmem => ?_, ih hrest⟩
      obtain ⟨e, he, hkey⟩ := List.mem_map.mp hmem
      rcases mem_put he with rfl | he
      · exact hne (beq_iff_eq.mpr hkey.symm)
      · exact hheld (hkey ▸ List.mem_map_of_mem he)

theorem nodup_keys_putAll {entries : List (α × β)} (hentries : (entries.map Prod.fst).Nodup)
    (added : List (α × β)) : ((putAll (· == ·) entries added).map Prod.fst).Nodup := by
  induction added generalizing entries with
  | nil => exact hentries
  | cons first added ih => exact ih (nodup_keys_put hentries first.1 first.2)

theorem put_of_not_mem {entries : List (α × β)} {key : α} (hkey : key ∉ entries.map Prod.fst)
    (value : β) : put (· == ·) entries key value = entries ++ [(key, value)] := by
  induction entries with
  | nil => rfl
  | cons e rest ih =>
    rw [List.map_cons, List.mem_cons, not_or] at hkey
    have hheld : ¬ e.1 == key := fun heq => hkey.1 (eq_of_beq heq).symm
    rw [put, if_neg hheld, ih hkey.2, List.cons_append]

/-- Entries with keys of their own are put behind the others. -/
theorem putAll_of_nodup {entries added : List (α × β)}
    (hkeys : ((entries ++ added).map Prod.fst).Nodup) :
    putAll (· == ·) entries added = entries ++ added := by
  induction added generalizing entries with
  | nil => exact (List.append_nil entries).symm
  | cons e added ih =>
    have hkey : e.1 ∉ entries.map Prod.fst := by
      rw [List.map_append, List.nodup_append] at hkeys
      exact fun hmem => hkeys.2.2 e.1 hmem e.1 List.mem_cons_self rfl
    rw [List.append_cons] at hkeys ⊢
    rw [putAll_cons, put_of_not_mem hkey, ih hkeys]

omit [LawfulBEq α] in
/-- No key is taken away. -/
theorem exists_key_of_mem_put {entries : List (α × β)} {e : α × β} (he : e ∈ entries) (key : α)
    (value : β) : ∃ e' ∈ put (· == ·) entries key value, e'.1 = e.1 := by
  induction entries with
  | nil => cases he
  | cons first rest ih =>
    obtain ⟨held, old⟩ := first
    unfold put
    split
    · rcases List.mem_cons.mp he with rfl | he
      · exact ⟨_, List.mem_cons_self, rfl⟩
      · exact ⟨e, List.mem_cons_of_mem _ he, rfl⟩
    · rcases List.mem_cons.mp he with rfl | he
      · exact ⟨_, List.mem_cons_self, rfl⟩
      · obtain ⟨e', he', hkey⟩ := ih he
        exact ⟨e', List.mem_cons_of_mem _ he', hkey⟩

/-- With every key at one place only, what is found is what is there. -/
theorem lookup_eq_some_iff_mem {entries : List (α × β)} (hentries : (entries.map Prod.fst).Nodup)
    {k : α} {v : β} : entries.lookup k = some v ↔ (k, v) ∈ entries := by
  refine ⟨mem_of_lookup, fun hmem => ?_⟩
  induction entries with
  | nil => cases hmem
  | cons first rest ih =>
    obtain ⟨hfirst, hrest⟩ := List.nodup_cons.mp hentries
    rcases List.mem_cons.mp hmem with rfl | hmem
    · exact List.lookup_cons_self
    · have hk : (k == first.1) = false := by
        rw [beq_eq_false_iff_ne]
        rintro rfl
        exact hfirst (List.mem_map.mpr ⟨_, hmem, rfl⟩)
      rw [List.lookup_cons, hk]
      exact ih hrest hmem

/-- The entries whose key does not come again behind them. -/
def lasts : List (α × β) → List (α × β)
  | [] => []
  | e :: rest => if e.1 ∈ rest.map Prod.fst then lasts rest else e :: lasts rest

theorem lasts_sublist (entries : List (α × β)) : (lasts entries).Sublist entries := by
  induction entries with
  | nil => exact .slnil
  | cons e rest ih =>
    rw [lasts]
    split
    · exact ih.cons e
    · exact ih.cons_cons e

/-- Every key has a last entry. -/
theorem mem_keys_lasts_iff {entries : List (α × β)} {k : α} :
    k ∈ (lasts entries).map Prod.fst ↔ k ∈ entries.map Prod.fst := by
  refine ⟨fun hk => ((lasts_sublist entries).map Prod.fst).subset hk, fun hk => ?_⟩
  induction entries with
  | nil => cases hk
  | cons e rest ih =>
    rw [List.map_cons, List.mem_cons] at hk
    rw [lasts]
    split
    · next hagain => exact ih (hk.elim (fun heq => heq ▸ hagain) id)
    · rw [List.map_cons, List.mem_cons]
      exact hk.imp_right ih

theorem nodup_keys_lasts (entries : List (α × β)) : ((lasts entries).map Prod.fst).Nodup := by
  induction entries with
  | nil => exact List.nodup_nil
  | cons e rest ih =>
    rw [lasts]
    split
    · exact ih
    · next hlast => exact List.nodup_cons.mpr ⟨fun hmem => hlast (mem_keys_lasts_iff.mp hmem), ih⟩

theorem lasts_of_nodup {entries : List (α × β)} (hkeys : (entries.map Prod.fst).Nodup) :
    lasts entries = entries := by
  induction entries with
  | nil => rfl
  | cons e rest ih =>
    obtain ⟨hlast, hrest⟩ := List.nodup_cons.mp hkeys
    rw [lasts, if_neg hlast, ih hrest]

theorem lookup_lasts_cons (e : α × β) (rest : List (α × β)) (k : α) :
    (lasts (e :: rest)).lookup k =
      ((lasts rest).lookup k).or (if k == e.1 then some e.2 else none) := by
  by_cases hk : k = e.1
  · subst hk
    rw [lasts, if_pos (beq_self_eq_true e.1)]
    by_cases hagain : e.1 ∈ rest.map Prod.fst
    · obtain ⟨last, hlast, hkey⟩ := List.mem_map.mp (mem_keys_lasts_iff.mpr hagain)
      have hfound := (lookup_eq_some_iff_mem (nodup_keys_lasts rest)).mpr hlast
      rw [if_pos hagain, ← hkey, hfound, Option.some_or]
    · have hnone : (lasts rest).lookup e.1 = none := by
        rw [Option.eq_none_iff_forall_ne_some]
        intro v hv
        exact hagain (mem_keys_lasts_iff.mp (List.mem_map.mpr ⟨_, mem_of_lookup hv, rfl⟩))
      rw [if_neg hagain, hnone, List.lookup_cons_self, Option.none_or]
  · have hne : (k == e.1) = false := beq_eq_false_iff_ne.mpr hk
    rw [lasts, hne, if_neg Bool.false_ne_true, Option.or_none]
    split
    · rfl
    · rw [List.lookup_cons, hne]

/-- What is put last under a key is found there. -/
theorem lookup_putAll (entries added : List (α × β)) (k : α) :
    (putAll (· == ·) entries added).lookup k =
      ((lasts added).lookup k).or (entries.lookup k) := by
  induction added generalizing entries with
  | nil => rfl
  | cons e added ih =>
    rw [putAll_cons, ih, lookup_put, lookup_lasts_cons, Option.or_assoc]
    split <;> rfl

/-- Of each key the last entry is kept. -/
theorem mem_putAll_nil_iff {added : List (α × β)} {e : α × β} :
    e ∈ putAll (· == ·) [] added ↔ e ∈ lasts added := by
  obtain ⟨k, v⟩ := e
  have hnil : (([] : List (α × β)).map Prod.fst).Nodup := List.nodup_nil
  rw [← lookup_eq_some_iff_mem (nodup_keys_putAll hnil added), lookup_putAll,
    List.lookup_nil, Option.or_none, lookup_eq_some_iff_mem (nodup_keys_lasts added)]

end TokiPona.Entries
