import Mathlib.Data.List.Nodup
import TokiPona.Command.Run
import TokiPona.Proofs.Aliases.Conflicts
import TokiPona.Proofs.Aliases.Reachable
import TokiPona.Proofs.Files

namespace TokiPona

namespace AliasConfig

theorem exists_requests_iff (config : AliasConfig) :
    (∃ requests, config.requests = .ok requests) ↔
      ∀ entry ∈ config, ∃ w, targetWord entry.2 = .ok w := by
  rw [requests, exists_bind_pure_eq_ok_iff, exists_mapM_eq_ok_iff]
  simp only [exists_bind_pure_eq_ok_iff]

/-- A configuration asks for the aliases of all of its keys, each with the word of its target. -/
theorem mem_requests_iff {config : AliasConfig} {requests : List (LooseText × Word)}
    (hrequests : config.requests = .ok requests) (name : LooseText) (w : Word) :
    (name, w) ∈ requests ↔
      ∃ entry ∈ config, name ∈ keyAliases entry.1 ∧ targetWord entry.2 = .ok w := by
  obtain ⟨groups, hgroups, hflat⟩ := bind_eq_ok_iff.mp hrequests
  cases hflat
  rw [List.mem_flatten]
  constructor
  · rintro ⟨group, hgroup, hmem⟩
    obtain ⟨entry, hentry, hread⟩ := exists_of_mem_of_mapM hgroups hgroup
    obtain ⟨v, hv, hpure⟩ := bind_eq_ok_iff.mp hread
    cases hpure
    obtain ⟨name', hname', heq⟩ := List.mem_map.mp hmem
    cases heq
    exact ⟨entry, hentry, hname', hv⟩
  · rintro ⟨entry, hentry, hname, hw⟩
    obtain ⟨group, hgroup, hread⟩ := exists_mem_of_mapM hgroups hentry
    obtain ⟨v, hv, hpure⟩ := bind_eq_ok_iff.mp hread
    cases hpure
    cases hw.symm.trans hv
    exact ⟨_, hgroup, List.mem_map_of_mem hname⟩

theorem requests_append (config config' : AliasConfig) :
    requests (config ++ config') = config.requests >>= fun first =>
      config'.requests >>= fun later => pure (first ++ later) := by
  simp only [requests, List.mapM_append, bind_assoc, pure_bind, List.flatten_append]

end AliasConfig

namespace Aliases

/-- Adds configurations one after the other, up to the first that is refused. -/
def configureAll (aliases : Aliases) (configs : List AliasConfig) : Except MappingError Aliases :=
  configs.foldlM configure aliases

/-- Requests that a table can take together: none is for a vocabulary word, none gives an alias
    of the table another word, and no two give an alias different words. -/
structure Accepts (aliases : Aliases) (requests : List (LooseText × Word)) : Prop where
  notWord : ∀ e ∈ requests, Word.ofText? e.1 = none
  agrees : ∀ e ∈ requests, ∀ held, aliases.lookup e.1 = some held → held = e.2
  unique : ∀ e ∈ requests, ∀ e' ∈ requests, e.1 = e'.1 → e.2 = e'.2

/-- The second table has the aliases of the first and those that were asked for, and no other. -/
def Adds (aliases aliases' : Aliases) (requests : List (LooseText × Word)) : Prop :=
  ∀ name w, aliases'.lookup name = some w ↔
    (name, w) ∈ requests ∨ aliases.lookup name = some w

theorem Accepts.subset {aliases : Aliases} {requests requests' : List (LooseText × Word)}
    (haccepts : aliases.Accepts requests) (hsubset : requests' ⊆ requests) :
    aliases.Accepts requests' where
  notWord e he := haccepts.notWord e (hsubset he)
  agrees e he := haccepts.agrees e (hsubset he)
  unique e he e' he' := haccepts.unique e (hsubset he) e' (hsubset he')

/-- Requests are accepted together exactly if the second ones are accepted behind the first. -/
theorem Adds.accepts_append_iff {aliases aliases' : Aliases}
    {requests requests' : List (LooseText × Word)} (hadds : aliases.Adds aliases' requests) :
    aliases.Accepts (requests ++ requests') ↔
      aliases.Accepts requests ∧ aliases'.Accepts requests' := by
  constructor
  · intro haccepts
    refine ⟨haccepts.subset (List.subset_append_left _ _), ?_⟩
    have hlater := haccepts.subset (List.subset_append_right _ _)
    refine ⟨hlater.notWord, fun e he held hheld => ?_, hlater.unique⟩
    rcases (hadds e.1 held).mp hheld with hmem | hheld
    · exact haccepts.unique _ (List.mem_append_left _ hmem) e (List.mem_append_right _ he) rfl
    · exact hlater.agrees e he held hheld
  · rintro ⟨hfirst, hlater⟩
    have hcross : ∀ e ∈ requests, ∀ e' ∈ requests', e.1 = e'.1 → e.2 = e'.2 := by
      intro e he e' he' hname
      exact hlater.agrees e' he' e.2 ((hadds e'.1 e.2).mpr (Or.inl (hname ▸ he)))
    refine ⟨List.forall_mem_append.mpr ⟨hfirst.notWord, hlater.notWord⟩,
      List.forall_mem_append.mpr ⟨hfirst.agrees, fun e he held hheld => ?_⟩,
      List.forall_mem_append.mpr ⟨fun e he => ?_, fun e he => ?_⟩⟩
    · exact hlater.agrees e he held ((hadds e.1 held).mpr (Or.inr hheld))
    · exact List.forall_mem_append.mpr ⟨hfirst.unique e he, hcross e he⟩
    · exact List.forall_mem_append.mpr
        ⟨fun e' he' hname => (hcross e' he' e he hname.symm).symm, hlater.unique e he⟩

/-- Of requests that a table accepts each is for the word that its alias belongs to. -/
theorem Accepts.conflicts_eq_nil {aliases : Aliases} {requests : List (LooseText × Word)}
    (haccepts : aliases.Accepts requests) : aliases.conflicts requests = [] := by
  rw [conflicts, List.filterMap_eq_nil_iff]
  intro e he
  cases howner : aliases.owner requests e.1 with
  | none => simp [conflict?, haccepts.notWord e he, howner]
  | some held =>
    have hheld : held = e.2 := by
      rcases Option.or_eq_some_iff.mp howner with htable | ⟨-, hasked⟩
      · exact haccepts.agrees e he held htable
      · exact haccepts.unique _ (Entries.mem_of_lookup hasked) e he rfl
    simp [conflict?, haccepts.notWord e he, howner, hheld]

theorem exists_configure_iff (aliases : Aliases) (config : AliasConfig) :
    (∃ aliases', aliases.configure config = .ok aliases') ↔
      ∃ requests, config.requests = .ok requests ∧ aliases.Accepts requests := by
  constructor
  · rintro ⟨aliases', hconfigure⟩
    obtain ⟨requests, granted, hrequests, -, hgranted, hlookup⟩ :=
      exists_granted_of_configure hconfigure
    have hadmits : ∀ e ∈ requests, aliases.Admits e := fun e he =>
      (hgranted e (Entries.mem_of_lookup (hlookup e he))).2
    refine ⟨requests, hrequests, fun e he => (hadmits e he).notWord,
      fun e he => (hadmits e he).agrees, fun e he e' he' hname => ?_⟩
    have hsame := hlookup e he
    rw [hname, hlookup e' he'] at hsame
    exact (Option.some.inj hsame).symm
  · rintro ⟨requests, hrequests, haccepts⟩
    exact exists_configure_of_conflicts_eq_nil hrequests haccepts.conflicts_eq_nil

theorem adds_of_configure {aliases aliases' : Aliases} {config : AliasConfig}
    {requests : List (LooseText × Word)} (hconfigure : aliases.configure config = .ok aliases')
    (hrequests : config.requests = .ok requests) : aliases.Adds aliases' requests := by
  obtain ⟨requests', granted, hrequests', rfl, hgranted, -⟩ :=
    exists_granted_of_configure hconfigure
  cases hrequests.symm.trans hrequests'
  intro name w
  constructor
  · intro hlookup
    exact (Entries.lookup_putAll_cases hlookup).imp_left fun hmem => (hgranted _ hmem).1
  · rintro (hmem | hlookup)
    · obtain ⟨requests', hrequests', hfound⟩ := lookup_requests_of_configure hconfigure
      cases hrequests.symm.trans hrequests'
      exact hfound _ hmem
    · exact lookup_of_configure hconfigure hlookup

theorem configureAll_cons (aliases : Aliases) (config : AliasConfig)
    (configs : List AliasConfig) :
    aliases.configureAll (config :: configs) =
      aliases.configure config >>= fun aliases' => aliases'.configureAll configs :=
  List.foldlM_cons

theorem configureAll_append (aliases : Aliases) (configs configs' : List AliasConfig) :
    aliases.configureAll (configs ++ configs') =
      aliases.configureAll configs >>= fun aliases' => aliases'.configureAll configs' :=
  List.foldlM_append

theorem configureAll_singleton (aliases : Aliases) (config : AliasConfig) :
    aliases.configureAll [config] = aliases.configure config := by
  rw [configureAll_cons]
  exact bind_pure _

/-- Configurations are accepted one after the other exactly if all of their entries are accepted
    in one configuration. -/
theorem exists_configureAll_iff (aliases : Aliases) (configs : List AliasConfig) :
    (∃ aliases', aliases.configureAll configs = .ok aliases') ↔
      ∃ requests, AliasConfig.requests configs.flatten = .ok requests ∧
        aliases.Accepts requests := by
  induction configs generalizing aliases with
  | nil => exact ⟨fun _ => ⟨[], rfl, by simp, by simp, by simp⟩, fun _ => ⟨aliases, rfl⟩⟩
  | cons config configs ih =>
    simp only [configureAll_cons, List.flatten_cons, AliasConfig.requests_append, bind_eq_ok_iff]
    constructor
    · rintro ⟨aliases₂, aliases₁, hconfigure, hconfigureAll⟩
      obtain ⟨first, hfirst, haccepts⟩ := (exists_configure_iff _ _).mp ⟨_, hconfigure⟩
      obtain ⟨later, hlater, haccepts'⟩ := (ih aliases₁).mp ⟨_, hconfigureAll⟩
      have hadds := adds_of_configure hconfigure hfirst
      exact ⟨_, ⟨first, hfirst, later, hlater, rfl⟩,
        hadds.accepts_append_iff.mpr ⟨haccepts, haccepts'⟩⟩
    · rintro ⟨requests, ⟨first, hfirst, later, hlater, hpure⟩, haccepts⟩
      cases hpure
      obtain ⟨aliases₁, hconfigure⟩ := (exists_configure_iff _ _).mpr
        ⟨first, hfirst, haccepts.subset (List.subset_append_left _ _)⟩
      have hadds := adds_of_configure hconfigure hfirst
      obtain ⟨aliases₂, hconfigureAll⟩ := (ih aliases₁).mpr
        ⟨later, hlater, (hadds.accepts_append_iff.mp haccepts).2⟩
      exact ⟨aliases₂, aliases₁, hconfigure, hconfigureAll⟩

theorem adds_of_configureAll {aliases aliases' : Aliases} {configs : List AliasConfig}
    {requests : List (LooseText × Word)}
    (hconfigureAll : aliases.configureAll configs = .ok aliases')
    (hrequests : AliasConfig.requests configs.flatten = .ok requests) :
    aliases.Adds aliases' requests := by
  induction configs generalizing aliases requests with
  | nil =>
    cases hconfigureAll
    cases hrequests
    simp [Adds]
  | cons config configs ih =>
    simp only [configureAll_cons, List.flatten_cons, AliasConfig.requests_append,
      bind_eq_ok_iff] at hconfigureAll hrequests
    obtain ⟨aliases₁, hconfigure, hconfigureAll⟩ := hconfigureAll
    obtain ⟨first, hfirst, later, hlater, hpure⟩ := hrequests
    cases hpure
    intro name w
    rw [ih hconfigureAll hlater name w, adds_of_configure hconfigure hfirst name w,
      List.mem_append, ← or_assoc, or_comm (a := (name, w) ∈ later)]

/-- Which entries there are is all that matters, not how they are spread over configurations. -/
theorem exists_configureAll_of_mem_iff {aliases aliases' : Aliases}
    {configs configs' : List AliasConfig}
    (hentries : ∀ entry, entry ∈ configs.flatten ↔ entry ∈ configs'.flatten)
    (hconfigureAll : aliases.configureAll configs = .ok aliases') :
    ∃ aliases'', aliases.configureAll configs' = .ok aliases'' ∧
      ∀ name, aliases''.lookup name = aliases'.lookup name := by
  obtain ⟨requests, hrequests, haccepts⟩ := (exists_configureAll_iff _ _).mp ⟨_, hconfigureAll⟩
  have hwords := (AliasConfig.exists_requests_iff _).mp ⟨_, hrequests⟩
  obtain ⟨requests', hrequests'⟩ := (AliasConfig.exists_requests_iff configs'.flatten).mpr
    fun entry hentry => hwords entry ((hentries entry).mpr hentry)
  have hsame (name : LooseText) (w : Word) : (name, w) ∈ requests' ↔ (name, w) ∈ requests := by
    rw [AliasConfig.mem_requests_iff hrequests, AliasConfig.mem_requests_iff hrequests']
    simp only [hentries]
  have haccepts' := haccepts.subset fun e he => (hsame e.1 e.2).mp he
  obtain ⟨aliases'', hconfigureAll'⟩ :=
    (exists_configureAll_iff _ _).mpr ⟨requests', hrequests', haccepts'⟩
  refine ⟨aliases'', hconfigureAll', fun name => Option.ext fun w => ?_⟩
  rw [adds_of_configureAll hconfigureAll' hrequests' name w,
    adds_of_configureAll hconfigureAll hrequests name w, hsame]

/-- Every alias stands at one place of a table only. -/
theorem Reachable.nodup_names {aliases : Aliases} (haliases : aliases.Reachable) :
    (aliases.entries.map Prod.fst).Nodup := by
  refine haliases.of_configure (P := fun aliases => (aliases.entries.map Prod.fst).Nodup)
    List.nodup_nil fun hnodup hconfigure => ?_
  obtain ⟨requests, granted, -, rfl, -, -⟩ := exists_granted_of_configure hconfigure
  exact Entries.nodup_keys_putAll hnodup granted

theorem Reachable.configureAll {aliases aliases' : Aliases} {configs : List AliasConfig}
    (haliases : aliases.Reachable) (hconfigureAll : aliases.configureAll configs = .ok aliases') :
    aliases'.Reachable := by
  induction configs generalizing aliases with
  | nil =>
    cases hconfigureAll
    exact haliases
  | cons config configs ih =>
    rw [configureAll_cons, bind_eq_ok_iff] at hconfigureAll
    obtain ⟨aliases₁, hconfigure, hconfigureAll⟩ := hconfigureAll
    exact ih (haliases.configure hconfigure) hconfigureAll

/-- Two tables that are the same map and so give the same report. -/
structure Same (aliases aliases' : Aliases) : Prop where
  lookup : ∀ name, aliases.lookup name = aliases'.lookup name
  entries : aliases.entries.Perm aliases'.entries
  report : aliases.report = aliases'.report

/-- In the order of their aliases, the entries of a table do not show in which order they were
    added. -/
theorem sorted_eq_of_perm {aliases aliases' : Aliases}
    (hnodup : (aliases.entries.map Prod.fst).Nodup)
    (hperm : aliases.entries.Perm aliases'.entries) : aliases.sorted = aliases'.sorted := by
  have hsorted (entries : List (LooseText × Word)) :
      (entries.mergeSort fun a b => a.1.le b.1).Pairwise fun a b => a.1.le b.1 = true := by
    refine List.pairwise_mergeSort (fun a b c hab hbc => ?_) (fun a b => ?_) entries
    · exact LooseText.le_trans hab hbc
    · exact (Bool.or_eq_true_iff).mpr (LooseText.le_total a.1 b.1)
  refine List.Perm.eq_of_pairwise (fun a b ha hb hab hba => ?_) (hsorted _) (hsorted _) ?_
  · have hname := LooseText.le_antisymm hab hba
    have ha := List.mem_mergeSort.mp ha
    have hb := hperm.mem_iff.mpr (List.mem_mergeSort.mp hb)
    exact List.inj_on_of_nodup_map hnodup ha hb hname
  · exact (List.mergeSort_perm _ _).trans (hperm.trans (List.mergeSort_perm _ _).symm)

theorem Reachable.same_of_lookup {aliases aliases' : Aliases} (haliases : aliases.Reachable)
    (haliases' : aliases'.Reachable)
    (hlookup : ∀ name, aliases.lookup name = aliases'.lookup name) : aliases.Same aliases' := by
  have hperm : aliases.entries.Perm aliases'.entries := by
    rw [List.perm_ext_iff_of_nodup haliases.nodup_names.of_map haliases'.nodup_names.of_map]
    intro e
    rw [← Entries.lookup_eq_some_iff_mem haliases.nodup_names,
      ← Entries.lookup_eq_some_iff_mem haliases'.nodup_names]
    exact Eq.congr_left (hlookup e.1)
  refine ⟨hlookup, hperm, ?_⟩
  rw [report, report, sorted_eq_of_perm haliases.nodup_names hperm]

/-- A configuration whose requests are all in the table is accepted and changes nothing. -/
theorem configure_eq_self {aliases : Aliases} {config : AliasConfig}
    {requests : List (LooseText × Word)} (hrequests : config.requests = .ok requests)
    (hlookup : ∀ e ∈ requests, aliases.lookup e.1 = some e.2)
    (hword : ∀ e ∈ requests, Word.ofText? e.1 = none) :
    aliases.configure config = .ok aliases := by
  have haccepts : aliases.Accepts requests := by
    refine ⟨hword, fun e he held hheld => ?_, fun e he e' he' hname => ?_⟩
    · exact Option.some.inj (hheld.symm.trans (hlookup e he))
    · exact Option.some.inj ((hlookup e he).symm.trans (hname ▸ hlookup e' he'))
  obtain ⟨aliases', hconfigure⟩ := (exists_configure_iff _ _).mpr ⟨requests, hrequests, haccepts⟩
  obtain ⟨requests', granted, hrequests', rfl, hgranted, -⟩ :=
    exists_granted_of_configure hconfigure
  cases hrequests.symm.trans hrequests'
  have hself : aliases.extend granted = aliases := by
    rw [extend, Entries.putAll_eq_self fun e he => hlookup e (hgranted e he).1]
  rw [hconfigure, hself]

theorem Reachable.exists_same_of_mem_iff {aliases aliases' : Aliases}
    (haliases : aliases.Reachable) {configs configs' : List AliasConfig}
    (hentries : ∀ entry, entry ∈ configs.flatten ↔ entry ∈ configs'.flatten)
    (hconfigureAll : aliases.configureAll configs = .ok aliases') :
    ∃ aliases'', aliases.configureAll configs' = .ok aliases'' ∧ aliases''.Same aliases' := by
  obtain ⟨aliases'', hconfigureAll', hlookup⟩ :=
    exists_configureAll_of_mem_iff hentries hconfigureAll
  exact ⟨aliases'', hconfigureAll', (haliases.configureAll hconfigureAll').same_of_lookup
    (haliases.configureAll hconfigureAll) hlookup⟩

theorem exists_configs_of_loadNamed {aliases aliases' : Aliases} {files : Directory}
    {path : Option String} (hload : aliases.loadNamed files path = .ok aliases') :
    ∃ configs, ∀ other : Aliases, other.loadNamed files path = other.configureAll configs := by
  unfold loadNamed at hload ⊢
  split at hload
  · exact ⟨[], fun other => rfl⟩
  · next path =>
    by_cases hempty : path.isEmpty
    · simp only [hempty, if_true]
      exact ⟨[], fun other => rfl⟩
    · simp only [hempty] at hload ⊢
      obtain ⟨config, hconfig⟩ := exists_configure_of_load hload
      exact ⟨[config], fun other => (hconfig other).trans (other.configureAll_singleton _).symm⟩

end Aliases

/-- The file that the environment names and the one that the command line names may be swapped. -/
theorem Command.exists_aliases_swap {files : Directory} {environment file : Option String}
    {aliases : Aliases} (haliases : Command.aliases files environment file = .ok aliases) :
    ∃ aliases', Command.aliases files file environment = .ok aliases' ∧
      aliases'.Same aliases := by
  simp only [Command.aliases, Aliases.fromEnvironment, bind_eq_ok_iff] at haliases ⊢
  obtain ⟨aliases₁, hfirst, hsecond⟩ := haliases
  obtain ⟨configs, hconfigs⟩ := Aliases.exists_configs_of_loadNamed hfirst
  obtain ⟨configs', hconfigs'⟩ := Aliases.exists_configs_of_loadNamed hsecond
  rw [hconfigs] at hfirst
  rw [hconfigs'] at hsecond
  have hboth : Aliases.defaults.configureAll (configs ++ configs') = .ok aliases := by
    rw [Aliases.configureAll_append, hfirst, ok_bind, hsecond]
  have hentries : ∀ entry, entry ∈ (configs ++ configs').flatten ↔
      entry ∈ (configs' ++ configs).flatten :=
    fun entry => List.perm_append_comm.flatten.mem_iff
  obtain ⟨aliases', hswapped, hsame⟩ :=
    Aliases.Reachable.defaults.exists_same_of_mem_iff hentries hboth
  rw [Aliases.configureAll_append, bind_eq_ok_iff] at hswapped
  simpa only [hconfigs, hconfigs'] using ⟨aliases', hswapped, hsame⟩

/-- Configurations that are accepted in one order are accepted in every order and come to the same
    table. So are the entries of one configuration, and the two files that the environment and
    the command line name. A configuration that has been accepted is accepted again at any later
    time and then changes nothing. -/
theorem Aliases.configure_inAnyOrder (aliases : Aliases) (haliases : aliases.Reachable) :
    (∀ (configs configs' : List AliasConfig) (aliases' : Aliases), configs.Perm configs' →
      aliases.configureAll configs = .ok aliases' →
        ∃ aliases'', aliases.configureAll configs' = .ok aliases'' ∧ aliases''.Same aliases') ∧
      (∀ (config config' : AliasConfig) (aliases' : Aliases), config.Perm config' →
        aliases.configure config = .ok aliases' →
          ∃ aliases'', aliases.configure config' = .ok aliases'' ∧ aliases''.Same aliases') ∧
      (∀ (config : AliasConfig) (aliases' : Aliases) (updates : List AliasUpdate),
        aliases.configure config = .ok aliases' →
          (aliases'.afterAll updates).configure config = .ok (aliases'.afterAll updates)) ∧
      ∀ (files : Directory) (environment file : Option String) (aliases' : Aliases),
        Command.aliases files environment file = .ok aliases' →
          ∃ aliases'', Command.aliases files file environment = .ok aliases'' ∧
            aliases''.Same aliases' := by
  refine ⟨?_, ?_, ?_, fun files environment file aliases' => Command.exists_aliases_swap⟩
  · intro configs configs' aliases' hperm hconfigureAll
    exact haliases.exists_same_of_mem_iff (fun entry => hperm.flatten.mem_iff) hconfigureAll
  · intro config config' aliases' hperm hconfigure
    have hentries (entry : Json × Json) : entry ∈ [config].flatten ↔ entry ∈ [config'].flatten := by
      simpa using hperm.mem_iff
    rw [← configureAll_singleton] at hconfigure ⊢
    exact haliases.exists_same_of_mem_iff hentries hconfigure
  · intro config aliases' updates hconfigure
    obtain ⟨requests, hrequests, haccepts⟩ := (exists_configure_iff _ _).mp ⟨_, hconfigure⟩
    have hadds := adds_of_configure hconfigure hrequests
    refine configure_eq_self hrequests (fun e he => ?_) haccepts.notWord
    exact lookup_afterAll ((hadds e.1 e.2).mpr (Or.inl he)) updates

/-- Both configurations ask for `sinsin`, in different letter case, and the second one repeats a
    default. An update between them and the repetition is refused. The two files ask for an alias
    with a surrogate, each in its own way. -/
theorem Aliases.configure_inAnyOrder_of_shared_alias :
    let first : AliasConfig := [(.arr [.str "Nimisin", .str " sinsin "], .str "SIN")]
    let second : AliasConfig := [(.str "ali,suwipona", .str "ale"), (.str "SINSIN", .str "sin")]
    let updates : List AliasUpdate := [.configure [(.str "sinsin", .str "ala")], .configure second]
    let both : Aliases :=
      ⟨[("ali", .ale), ("nimisin", .sin), ("sinsin", .sin), ("suwipona", .ale)]⟩
    let afterFirst : Aliases := ⟨[("ali", .ale), ("nimisin", .sin), ("sinsin", .sin)]⟩
    let afterSecond : Aliases := ⟨[("ali", .ale), ("suwipona", .ale), ("sinsin", .sin)]⟩
    let text := "\x7b\"\\ud800,Ote\": \"jan\"\x7d"
    let text' := "\x7b\"kulu\": \"tu\", \" \\uD800 \": \"JAN\"\x7d"
    let files : Directory :=
      ⟨[(["a.json"], .file text.toUTF8), (["b.json"], .file text'.toUTF8)]⟩
    let loose : LooseText := ⟨[.surrogate 0]⟩
    let loaded : Aliases := ⟨[("ali", .ale), (loose, .jan), ("ote", .jan), ("kulu", .tu)]⟩
    Aliases.defaults.Reachable ∧
      Aliases.defaults.configureAll [first, second] = .ok both ∧
      (∃ aliases, Aliases.defaults.configureAll [second, first] = .ok aliases ∧
        aliases.Same both) ∧
      Aliases.defaults.configure second = .ok afterSecond ∧
      (∃ aliases, Aliases.defaults.configure second.reverse = .ok aliases ∧
        aliases.Same afterSecond) ∧
      Aliases.defaults.configure first = .ok afterFirst ∧
      (afterFirst.afterAll updates).configure first = .ok (afterFirst.afterAll updates) ∧
      Command.aliases files (some "a.json") (some "b.json") = .ok loaded ∧
      ∃ aliases, Command.aliases files (some "b.json") (some "a.json") = .ok aliases ∧
        aliases.Same loaded := by
  intro first second updates both afterFirst afterSecond text text' files loose loaded
  have hboth : Aliases.defaults.configureAll [first, second] = .ok both := by decide +kernel
  have hfirst : Aliases.defaults.configure first = .ok afterFirst := by decide +kernel
  have hsecond : Aliases.defaults.configure second = .ok afterSecond := by decide +kernel
  have hread : files.readText "a.json" = .ok text :=
    Directory.readText_eq_ok ⟨by simp, by decide, by decide⟩ rfl rfl (by decide +kernel)
  have hread' : files.readText "b.json" = .ok text' :=
    Directory.readText_eq_ok ⟨by simp, by decide, by decide⟩ rfl rfl (by decide +kernel)
  have hloaded : Command.aliases files (some "a.json") (some "b.json") = .ok loaded := by
    have hload : Aliases.defaults.load files "a.json" =
        .ok ⟨[("ali", .ale), (loose, .jan), ("ote", .jan)]⟩ := by
      rw [load, hread]
      decide +kernel
    have hload' : load ⟨[("ali", .ale), (loose, .jan), ("ote", .jan)]⟩ files "b.json" =
        .ok loaded := by
      rw [load, hread']
      decide +kernel
    have hnamed : ("a.json".isEmpty = false) ∧ "b.json".isEmpty = false := by decide
    simp only [Command.aliases, fromEnvironment, loadNamed, hnamed.1, hnamed.2, hload, hload',
      ok_bind, Bool.false_eq_true, if_false]
  obtain ⟨horder, hentries, hagain, hswap⟩ := configure_inAnyOrder Aliases.defaults .defaults
  exact ⟨.defaults, hboth, horder _ _ _ (.swap _ _ _) hboth, hsecond,
    hentries _ _ _ (List.reverse_perm second).symm hsecond, hfirst, hagain _ _ updates hfirst,
    hloaded, hswap _ _ _ _ hloaded⟩

end TokiPona
