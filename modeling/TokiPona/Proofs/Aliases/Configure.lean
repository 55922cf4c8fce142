import TokiPona.Aliases.Configure
import TokiPona.Proofs.Entries
import TokiPona.Proofs.Text.Loose

namespace TokiPona

/-- The normal form of an alias: some text without commas, in lower case and with no blank at
    either end. -/
structure Aliases.IsName (name : LooseText) : Prop where
  ne_empty : name.points ≠ []
  comma_free : .char ',' ∉ name.points
  trimmed : name.trim = name
  lowered : name.lower = name

namespace AliasConfig

theorem aliasesIn_isName (text : LooseText) : ∀ name ∈ aliasesIn text, Aliases.IsName name := by
  intro name hname
  simp only [aliasesIn, List.mem_map, List.mem_filter, Bool.not_eq_true'] at hname
  obtain ⟨trimmed, ⟨⟨part, hpart, rfl⟩, hne⟩, rfl⟩ := hname
  obtain ⟨points, hpoints, rfl⟩ := List.mem_map.mp hpart
  have hcomma : .char ',' ∉ (LooseText.mk points).trim.points := fun hmem =>
    not_mem_of_mem_splitOn hpoints (Text.mem_of_mem_dropEnds hmem)
  refine ⟨?_, LooseText.comma_not_mem_lower hcomma,
    LooseText.trim_lower (LooseText.trim_trim _), LooseText.lower_lower _⟩
  rw [ne_eq, LooseText.points_lower_eq_nil_iff]
  exact LooseText.isEmpty_eq_false_iff.mp hne

mutual

theorem keyAliases_isName : (key : Json) → ∀ name ∈ keyAliases key, Aliases.IsName name
  | .str text => by
    rw [keyAliases]
    exact aliasesIn_isName text
  | .arr items => by
    rw [keyAliases]
    exact allKeyAliases_isName items
  | .null | .bool _ | .int _ | .float _ | .obj _ => by
    intro name hname
    cases hname

theorem allKeyAliases_isName : (items : List Json) →
    ∀ name ∈ allKeyAliases items, Aliases.IsName name
  | [] => by
    intro name hname
    cases hname
  | item :: items => by
    rw [allKeyAliases]
    exact List.forall_mem_append.mpr ⟨keyAliases_isName item, allKeyAliases_isName items⟩

end

/-- Every alias that a configuration asks for is in normal form. -/
theorem requests_isName {config : AliasConfig} {requests : List (LooseText × Word)}
    (hrequests : config.requests = .ok requests) : ∀ e ∈ requests, Aliases.IsName e.1 := by
  intro e he
  obtain ⟨groups, hgroups, hflat⟩ := bind_eq_ok_iff.mp hrequests
  cases hflat
  obtain ⟨group, hgroup, he⟩ := List.mem_flatten.mp he
  obtain ⟨⟨key, target⟩, -, hread⟩ := exists_of_mem_of_mapM hgroups hgroup
  obtain ⟨w, -, hpure⟩ := bind_eq_ok_iff.mp hread
  cases hpure
  obtain ⟨name, hname, rfl⟩ := List.mem_map.mp he
  exact keyAliases_isName key name hname

end AliasConfig

namespace Aliases

/-- An entry that a table may take: its alias is in normal form and no vocabulary word, and does
    not stand for another word already. -/
structure Admits (aliases : Aliases) (e : LooseText × Word) : Prop where
  isName : IsName e.1
  notWord : Word.ofText? e.1 = none
  agrees : ∀ held, aliases.lookup e.1 = some held → held = e.2

/-- The word that an alias has in a draft or, if it has none there, in the table. -/
def Draft.held? (aliases : Aliases) (draft : Draft) (name : LooseText) : Option Word :=
  (draft.granted.lookup name).or (aliases.lookup name)

/-- A request is granted, or it is for a vocabulary word, or its alias has another word. -/
theorem Draft.take_cases (aliases : Aliases) (draft : Draft) (name : LooseText) (w : Word) :
    (Word.ofText? name = none ∧ (∀ held, draft.held? aliases name = some held → held = w) ∧
      draft.take aliases (name, w) =
        { draft with granted := Entries.put (· == ·) draft.granted name w }) ∨
    ((Word.ofText? name).isSome ∧
      draft.take aliases (name, w) =
        { draft with conflicts := draft.conflicts ++ [.shadows name] }) ∨
    ∃ held, Word.ofText? name = none ∧ draft.held? aliases name = some held ∧ held ≠ w ∧
      draft.take aliases (name, w) =
        { draft with conflicts := draft.conflicts ++ [.clash name held w] } := by
  cases hword : Word.ofText? name with
  | some v => exact Or.inr (Or.inl ⟨rfl, by simp [Draft.take, hword]⟩)
  | none =>
    cases hheld : draft.held? aliases name with
    | none =>
      have hor : (draft.granted.lookup name).or (aliases.lookup name) = none := hheld
      exact Or.inl ⟨rfl, by simp, by simp [Draft.take, hword, hor]⟩
    | some held =>
      have hor : (draft.granted.lookup name).or (aliases.lookup name) = some held := hheld
      by_cases heq : held = w
      · exact Or.inl ⟨rfl, by simpa using heq, by simp [Draft.take, hword, hor, heq]⟩
      · exact Or.inr (Or.inr ⟨held, rfl, rfl, heq, by simp [Draft.take, hword, hor, heq]⟩)

/-- Taking a request grants it only if the table may take it. -/
theorem Draft.admits_take {aliases : Aliases} {draft : Draft} {request : LooseText × Word}
    (hdraft : ∀ e ∈ draft.granted, aliases.Admits e) (hname : IsName request.1) :
    ∀ e ∈ (draft.take aliases request).granted, aliases.Admits e := by
  obtain ⟨name, w⟩ := request
  obtain ⟨hword, hheld, htake⟩ | ⟨-, htake⟩ | ⟨held, -, -, -, htake⟩ :=
    draft.take_cases aliases name w
  · rw [htake]
    intro e he
    rcases Entries.mem_put he with rfl | he
    · refine ⟨hname, hword, fun other hother => ?_⟩
      -- A word granted before agrees with the table, so the request agrees with both.
      cases hgranted : draft.granted.lookup name with
      | none => exact hheld other (by rw [Draft.held?, hgranted, Option.none_or, hother])
      | some v =>
        have hv := hheld v (by rw [Draft.held?, hgranted, Option.some_or])
        rw [(hdraft _ (Entries.mem_of_lookup hgranted)).agrees other hother]
        exact hv
    · exact hdraft e he
  · rw [htake]
    exact hdraft
  · rw [htake]
    exact hdraft

theorem Draft.admits_foldl_take {aliases : Aliases} {requests : List (LooseText × Word)}
    (hrequests : ∀ e ∈ requests, IsName e.1) {draft : Draft}
    (hdraft : ∀ e ∈ draft.granted, aliases.Admits e) :
    ∀ e ∈ (requests.foldl (Draft.take aliases) draft).granted, aliases.Admits e := by
  induction requests generalizing draft with
  | nil => exact hdraft
  | cons request requests ih =>
    obtain ⟨hrequest, hrequests⟩ := List.forall_mem_cons.mp hrequests
    exact ih hrequests (Draft.admits_take hdraft hrequest)

theorem Draft.mem_granted_take {aliases : Aliases} {draft : Draft} {request e : LooseText × Word}
    (he : e ∈ (draft.take aliases request).granted) : e = request ∨ e ∈ draft.granted := by
  obtain ⟨name, w⟩ := request
  obtain ⟨-, -, htake⟩ | ⟨-, htake⟩ | ⟨held, -, -, -, htake⟩ := draft.take_cases aliases name w
  · rw [htake] at he
    exact Entries.mem_put he
  · rw [htake] at he
    exact Or.inr he
  · rw [htake] at he
    exact Or.inr he

theorem Draft.mem_granted_foldl {aliases : Aliases} {requests : List (LooseText × Word)}
    {draft : Draft} {e : LooseText × Word}
    (he : e ∈ (requests.foldl (Draft.take aliases) draft).granted) :
    e ∈ requests ∨ e ∈ draft.granted := by
  induction requests generalizing draft with
  | nil => exact Or.inr he
  | cons request requests ih =>
    rcases ih he with he | he
    · exact Or.inl (List.mem_cons_of_mem request he)
    · rcases Draft.mem_granted_take he with rfl | he
      · exact Or.inl List.mem_cons_self
      · exact Or.inr he

/-- Without a conflict the request is granted, and so are those granted before it. -/
theorem Draft.lookup_take {aliases : Aliases} {draft : Draft} {request : LooseText × Word}
    (hconflicts : (draft.take aliases request).conflicts = []) :
    draft.conflicts = [] ∧
      (draft.take aliases request).granted.lookup request.1 = some request.2 ∧
      ∀ k v, draft.granted.lookup k = some v →
        (draft.take aliases request).granted.lookup k = some v := by
  obtain ⟨name, w⟩ := request
  obtain ⟨-, hheld, htake⟩ | ⟨-, htake⟩ | ⟨held, -, -, -, htake⟩ := draft.take_cases aliases name w
  · rw [htake] at hconflicts ⊢
    simp only [Entries.lookup_put]
    refine ⟨hconflicts, if_pos (beq_self_eq_true name), fun k v hk => ?_⟩
    split
    · next hname =>
      rw [eq_of_beq hname] at hk
      rw [hheld v (by rw [Draft.held?, hk, Option.some_or])]
    · exact hk
  · simp [htake] at hconflicts
  · simp [htake] at hconflicts

theorem Draft.lookup_foldl {aliases : Aliases} {requests : List (LooseText × Word)} {draft : Draft}
    (hconflicts : (requests.foldl (Draft.take aliases) draft).conflicts = []) :
    draft.conflicts = [] ∧
      (∀ e ∈ requests,
        (requests.foldl (Draft.take aliases) draft).granted.lookup e.1 = some e.2) ∧
      ∀ k v, draft.granted.lookup k = some v →
        (requests.foldl (Draft.take aliases) draft).granted.lookup k = some v := by
  induction requests generalizing draft with
  | nil => exact ⟨hconflicts, by simp, fun k v hk => hk⟩
  | cons request requests ih =>
    obtain ⟨htake, hlater, hkept⟩ := ih hconflicts
    obtain ⟨hdraft, hrequest, hbefore⟩ := Draft.lookup_take htake
    exact ⟨hdraft, List.forall_mem_cons.mpr ⟨hkept _ _ hrequest, hlater⟩,
      fun k v hk => hkept k v (hbefore k v hk)⟩

/-- A configuration that is accepted extends the table by the entries it asks for, all of them
    such that the table may take them. -/
theorem exists_granted_of_configure {aliases aliases' : Aliases} {config : AliasConfig}
    (hconfigure : aliases.configure config = .ok aliases') :
    ∃ requests granted, config.requests = .ok requests ∧ aliases' = aliases.extend granted ∧
      (∀ e ∈ granted, e ∈ requests ∧ aliases.Admits e) ∧
      ∀ e ∈ requests, granted.lookup e.1 = some e.2 := by
  obtain ⟨requests, hrequests, hdraft⟩ := bind_eq_ok_iff.mp hconfigure
  have hstart : ∀ e ∈ (⟨[], []⟩ : Draft).granted, aliases.Admits e := by simp
  have hadmits := Draft.admits_foldl_take (AliasConfig.requests_isName hrequests) hstart
  dsimp only at hdraft
  split at hdraft
  · next hconflicts =>
    cases hdraft
    refine ⟨requests, _, hrequests, rfl, fun e he => ⟨?_, hadmits e he⟩, ?_⟩
    · exact (Draft.mem_granted_foldl he).resolve_right List.not_mem_nil
    · exact (Draft.lookup_foldl (List.isEmpty_iff.mp hconflicts)).2.1
  · cases hdraft

/-- What is configured later leaves the word of an alias alone. -/
theorem lookup_of_configure {aliases aliases' : Aliases} {config : AliasConfig}
    (hconfigure : aliases.configure config = .ok aliases') {name : LooseText} {w : Word}
    (hlookup : aliases.lookup name = some w) : aliases'.lookup name = some w := by
  obtain ⟨requests, granted, -, rfl, hgranted, -⟩ := exists_granted_of_configure hconfigure
  refine Entries.lookup_putAll_of_agree hlookup ?_
  rintro e he rfl
  exact ((hgranted e he).2.agrees w hlookup).symm

/-- An accepted configuration leaves none of its requests out. -/
theorem lookup_requests_of_configure {aliases aliases' : Aliases} {config : AliasConfig}
    (hconfigure : aliases.configure config = .ok aliases') :
    ∃ requests, config.requests = .ok requests ∧
      ∀ e ∈ requests, aliases'.lookup e.1 = some e.2 := by
  obtain ⟨requests, granted, hrequests, rfl, hgranted, hlookup⟩ :=
    exists_granted_of_configure hconfigure
  refine ⟨requests, hrequests, fun e he => ?_⟩
  refine Entries.lookup_putAll_of_mem (Entries.mem_of_lookup (hlookup e he)) ?_
  intro other hother hname
  have hsame := hlookup other (hgranted other hother).1
  rw [hname, hlookup e he] at hsame
  exact (Option.some.inj hsame).symm

end Aliases

end TokiPona
