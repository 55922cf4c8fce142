import TokiPona.Aliases.Load
import TokiPona.Proofs.Aliases.Configure
import TokiPona.Word.Lemmas

namespace TokiPona

/-- An operation that may change a table: a configuration of any keys and targets, one given as a
    JSON value of any kind, or the file at a path. -/
inductive AliasUpdate where
  | configure (config : AliasConfig)
  | configureJson (value : Json)
  | load (files : Directory) (path : String)

/-- The table that an update makes of another one, or why it is refused. -/
def AliasUpdate.run (aliases : Aliases) : AliasUpdate → Except MappingError Aliases
  | .configure config => aliases.configure config
  | .configureJson value => aliases.configureJson value
  | .load files path => aliases.load files path

namespace Aliases

/-- The table after an update, be it accepted or refused. -/
def after (aliases : Aliases) (update : AliasUpdate) : Aliases :=
  match update.run aliases with
  | .ok aliases' => aliases'
  | .error _ => aliases

def afterAll (aliases : Aliases) (updates : List AliasUpdate) : Aliases :=
  updates.foldl after aliases

/-- The tables that can come about. -/
inductive Reachable : Aliases → Prop
  | empty : Reachable Aliases.empty
  | defaults : Reachable Aliases.defaults
  | environment {files : Directory} {path : Option String} {aliases : Aliases}
      (hread : Aliases.fromEnvironment files path = .ok aliases) : Reachable aliases
  | after {aliases : Aliases} (haliases : Reachable aliases) (update : AliasUpdate) :
      Reachable (aliases.after update)

/-- An alias in normal form that is no vocabulary word, with a word of the vocabulary. -/
structure ValidEntry (e : LooseText × Word) : Prop where
  isName : IsName e.1
  notWord : Word.ofText? e.1 = none
  target : Word.ofSpelling? e.2.spelling = some e.2

def Valid (aliases : Aliases) : Prop := ∀ e ∈ aliases.entries, ValidEntry e

/-- A file that is loaded into one table is the same configuration for every table. -/
theorem exists_configure_of_load {aliases aliases' : Aliases} {files : Directory} {path : String}
    (hload : aliases.load files path = .ok aliases') :
    ∃ config, ∀ other : Aliases, other.load files path = other.configure config := by
  unfold load loadText at hload ⊢
  split at hload
  · cases hload
  · split at hload
    · cases hload
    · split at hload
      · cases hload
      · next config _ => exact ⟨config, fun other => rfl⟩

/-- A file that need not be named is loaded, or there is none. -/
theorem eq_or_load_of_loadNamed {aliases aliases' : Aliases} {files : Directory}
    {path : Option String} (hload : aliases.loadNamed files path = .ok aliases') :
    aliases' = aliases ∨ ∃ path, aliases.load files path = .ok aliases' := by
  unfold loadNamed at hload
  split at hload
  · cases hload
    exact .inl rfl
  · split at hload
    · cases hload
      exact .inl rfl
    · exact .inr ⟨_, hload⟩

/-- An update changes nothing or adds a configuration. -/
theorem after_eq_or_configure (aliases : Aliases) (update : AliasUpdate) :
    aliases.after update = aliases ∨
      ∃ config, aliases.configure config = .ok (aliases.after update) := by
  unfold after
  split
  · next aliases' hrun =>
    refine Or.inr ?_
    cases update with
    | configure config => exact ⟨config, hrun⟩
    | configureJson value =>
      simp only [AliasUpdate.run, configureJson] at hrun
      split at hrun
      · next config hconfig => exact ⟨config, hrun⟩
      · cases hrun
    | load files path =>
      obtain ⟨config, hload⟩ := exists_configure_of_load hrun
      exact ⟨config, hload aliases ▸ hrun⟩
  · exact Or.inl rfl

theorem Valid.configure {aliases aliases' : Aliases} {config : AliasConfig}
    (haliases : aliases.Valid) (hconfigure : aliases.configure config = .ok aliases') :
    aliases'.Valid := by
  obtain ⟨requests, granted, -, rfl, hgranted, -⟩ := exists_granted_of_configure hconfigure
  intro e he
  rcases Entries.mem_putAll he with he | he
  · have hadmits := (hgranted e he).2
    exact ⟨hadmits.isName, hadmits.notWord, Word.ofSpelling?_spelling e.2⟩
  · exact haliases e he

theorem lookup_after {aliases : Aliases} {name : LooseText} {w : Word}
    (hlookup : aliases.lookup name = some w) (update : AliasUpdate) :
    (aliases.after update).lookup name = some w := by
  rcases aliases.after_eq_or_configure update with hsame | ⟨config, hconfigure⟩
  · rwa [hsame]
  · exact lookup_of_configure hconfigure hlookup

theorem lookup_afterAll {aliases : Aliases} {name : LooseText} {w : Word}
    (hlookup : aliases.lookup name = some w) (updates : List AliasUpdate) :
    (aliases.afterAll updates).lookup name = some w := by
  induction updates generalizing aliases with
  | nil => exact hlookup
  | cons update updates ih => exact ih (lookup_after hlookup update)

theorem Valid.empty : Aliases.empty.Valid := by
  intro e he
  cases he

/-- The default aliases are those of a configuration. -/
theorem configure_defaults :
    Aliases.empty.configure [(.str "ali", .str "ale")] = .ok Aliases.defaults := by
  decide +kernel

/-- What holds of the empty table, and is kept whenever a configuration is accepted, holds of every
    table that can come about. -/
theorem Reachable.of_configure {P : Aliases → Prop} (hempty : P Aliases.empty)
    (hconfigure : ∀ {aliases aliases' : Aliases} {config : AliasConfig},
      P aliases → aliases.configure config = .ok aliases' → P aliases')
    {aliases : Aliases} (haliases : aliases.Reachable) : P aliases := by
  have hdefaults : P Aliases.defaults := hconfigure hempty configure_defaults
  induction haliases with
  | empty => exact hempty
  | defaults => exact hdefaults
  | @environment files path aliases hread =>
    rcases eq_or_load_of_loadNamed hread with rfl | ⟨path, hload⟩
    · exact hdefaults
    · obtain ⟨config, hsame⟩ := exists_configure_of_load hload
      exact hconfigure hdefaults (hsame Aliases.defaults ▸ hload)
  | @after aliases haliases update ih =>
    rcases aliases.after_eq_or_configure update with hsame | ⟨config, hafter⟩
    · rwa [hsame]
    · exact hconfigure ih hafter

theorem Reachable.configure {aliases aliases' : Aliases} {config : AliasConfig}
    (haliases : aliases.Reachable) (hconfigure : aliases.configure config = .ok aliases') :
    aliases'.Reachable := by
  have hafter : aliases.after (.configure config) = aliases' := by
    rw [Aliases.after, AliasUpdate.run, hconfigure]
  exact hafter ▸ haliases.after (.configure config)

theorem Reachable.valid {aliases : Aliases} (haliases : aliases.Reachable) : aliases.Valid :=
  haliases.of_configure Valid.empty Valid.configure

/-- However a table came about, its entries are valid, no update to come takes an alias away or
    gives it another word, an update that is refused changes nothing, and a configuration that is
    accepted adds all that it asks for. -/
theorem reachable_invariant (aliases : Aliases) (haliases : aliases.Reachable) :
    aliases.Valid ∧
      (∀ (updates : List AliasUpdate) (text : LooseText) (w : Word),
        aliases.resolve text = some w → (aliases.afterAll updates).resolve text = some w) ∧
      (∀ (update : AliasUpdate) (e : MappingError),
        update.run aliases = .error e → aliases.after update = aliases) ∧
      ∀ (config : AliasConfig) (aliases' : Aliases), aliases.configure config = .ok aliases' →
        ∃ requests, config.requests = .ok requests ∧
          ∀ e ∈ requests, aliases'.lookup e.1 = some e.2 := by
  refine ⟨haliases.valid, fun updates text w hresolve => lookup_afterAll hresolve updates, ?_,
    fun config aliases' => lookup_requests_of_configure⟩
  intro update e hrefused
  rw [after, hrefused]

/-- The first update trims and lower-cases three aliases, one of them with a final sigma and one
    with a surrogate. The second is refused for `ali`, so it does not add `sinsin` either. -/
theorem reachable_invariant_of_conflict :
    let loose : LooseText := ⟨[.char 'Σ', .surrogate 0, .char 'A', .char ' ']⟩
    let accepted : AliasUpdate :=
      .configure [(.arr [.str " ΟΔΟΣ ,, ", .arr [.str "Nimisin", .str loose]], .str " SIN")]
    let refused : AliasUpdate := .configure [(.str "sinsin", .str "sin"), (.str "ALI", .str "ala")]
    let aliases := Aliases.defaults.after accepted
    aliases.Reachable ∧ aliases.Valid ∧
      aliases = ⟨[("ali", .ale), ("οδος", .sin), ("nimisin", .sin),
        (⟨[.char 'σ', .surrogate 0, .char 'a']⟩, .sin)]⟩ ∧
      (aliases.afterAll [refused, refused]).resolve "Οδος" = some .sin ∧
      (aliases.afterAll [refused, refused]).resolve loose.trim = some .sin ∧
      aliases.after refused = aliases := by
  intro loose accepted refused aliases
  have hentries : aliases = ⟨[("ali", .ale), ("οδος", .sin), ("nimisin", .sin),
      (⟨[.char 'σ', .surrogate 0, .char 'a']⟩, .sin)]⟩ := by
    decide +kernel
  have hresolve : aliases.resolve "Οδος" = some .sin := by decide +kernel
  have hloose : aliases.resolve loose.trim = some .sin := by decide +kernel
  have hrefused : refused.run aliases = .error (.collisions [.clash "ali" .ale .ala]) := by
    decide +kernel
  have hreachable : aliases.Reachable := Reachable.defaults.after accepted
  obtain ⟨hvalid, hkept, hunchanged, -⟩ := reachable_invariant aliases hreachable
  exact ⟨hreachable, hvalid, hentries, hkept _ _ _ hresolve, hkept _ _ _ hloose,
    hunchanged _ _ hrefused⟩

end Aliases

end TokiPona
