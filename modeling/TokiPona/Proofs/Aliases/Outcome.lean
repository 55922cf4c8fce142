import TokiPona.Proofs.Aliases.Order
import TokiPona.Proofs.Aliases.Target

namespace TokiPona

namespace AliasConfig

mutual

/-- The texts in a key from left to right, however deep they are nested in lists. -/
def keyTexts : Json → List LooseText
  | .str text => [text]
  | .arr items => allKeyTexts items
  | _ => []

def allKeyTexts : List Json → List LooseText
  | [] => []
  | item :: items => keyTexts item ++ allKeyTexts items

end

mutual

theorem keyAliases_eq : (key : Json) → keyAliases key = (keyTexts key).flatMap aliasesIn
  | .str text => by simp [keyAliases, keyTexts]
  | .arr items => by rw [keyAliases, keyTexts, allKeyAliases_eq]
  | .null | .bool _ | .int _ | .float _ | .obj _ => rfl

theorem allKeyAliases_eq : (items : List Json) →
    allKeyAliases items = (allKeyTexts items).flatMap aliasesIn
  | [] => rfl
  | item :: items => by
    rw [allKeyAliases, allKeyTexts, keyAliases_eq, allKeyAliases_eq, List.flatMap_append]

end

/-- The aliases of an entry, each with the word of the target. -/
def entryPairs (entry : Json × Json) : List (LooseText × Word) :=
  match word? entry.2 with
  | some w => ((keyTexts entry.1).flatMap aliasesIn).map fun name => (name, w)
  | none => []

/-- The aliases of a configuration, each with the word that is asked for it. -/
def pairs (config : AliasConfig) : List (LooseText × Word) := config.flatMap entryPairs

theorem targetWord_of_word? {target : Json} {w : Word} (hw : word? target = some w) :
    targetWord target = .ok w := by
  rw [word?] at hw
  rw [targetWord, hw]

theorem targetWord_of_word?_eq_none {target : Json} (hnone : word? target = none) :
    targetWord target = .error (.unknownWord target.display) := by
  rw [word?] at hnone
  rw [targetWord, hnone]

theorem requests_singleton (entry : Json × Json) :
    requests [entry] =
      (targetWord entry.2).map fun w => (keyAliases entry.1).map fun name => (name, w) := by
  cases htarget : targetWord entry.2 <;>
    simp [requests, htarget, bind, Except.bind, pure, Except.pure, Except.map]

theorem requests_eq_pairs {config : AliasConfig}
    (hconfig : ∀ entry ∈ config, word? entry.2 ≠ none) :
    config.requests = .ok config.pairs := by
  induction config with
  | nil => rfl
  | cons entry rest ih =>
    obtain ⟨hentry, hrest⟩ := List.forall_mem_cons.mp hconfig
    obtain ⟨w, hw⟩ := Option.ne_none_iff_exists'.mp hentry
    have hpairs : entryPairs entry = (keyAliases entry.1).map fun name => (name, w) := by
      simp only [entryPairs, hw, keyAliases_eq]
    rw [← List.singleton_append, requests_append, requests_singleton, targetWord_of_word? hw,
      ih hrest, pairs, pairs, List.singleton_append, List.flatMap_cons, hpairs]
    rfl

/-- The first target that names no word is reported. -/
theorem requests_eq_error {before behind : AliasConfig} {entry : Json × Json}
    (hbefore : ∀ e ∈ before, word? e.2 ≠ none) (hentry : word? entry.2 = none) :
    requests (before ++ entry :: behind) = .error (.unknownWord entry.2.display) := by
  rw [← List.singleton_append, requests_append, requests_append, requests_singleton,
    requests_eq_pairs hbefore, targetWord_of_word?_eq_none hentry]
  rfl

end AliasConfig

namespace Aliases

theorem lookup_of_adds {aliases aliases' : Aliases} {pairs : List (LooseText × Word)}
    (hadds : aliases.Adds aliases' pairs) (name : LooseText) :
    aliases'.lookup name = aliases.owner pairs name := by
  cases howner : aliases.owner pairs name with
  | some w =>
    rw [hadds]
    rcases Option.or_eq_some_iff.mp howner with hheld | ⟨-, hasked⟩
    · exact .inr hheld
    · exact .inl (Entries.mem_of_lookup hasked)
  | none =>
    obtain ⟨hheld, hasked⟩ := Option.or_eq_none_iff.mp howner
    rw [Option.eq_none_iff_forall_ne_some]
    intro w hw
    rcases (hadds name w).mp hw with hmem | hheld'
    · simpa using List.lookup_eq_none_iff.mp hasked _ hmem
    · cases hheld.symm.trans hheld'

/-- A configuration is refused for its first target that names no word, which every value is that is
    no string, and whatever conflicts there are. If all targets name words, it is refused for all
    pairs that are for a vocabulary word or for another word than their alias belongs to, in the
    order in which they are asked for. Without such a pair every alias gets the word that it belongs
    to. -/
theorem configure_exact (aliases : Aliases) (config : AliasConfig) :
    (∀ before entry behind, config = before ++ entry :: behind →
      (∀ e ∈ before, AliasConfig.word? e.2 ≠ none) → AliasConfig.word? entry.2 = none →
      aliases.configure config = .error (.unknownWord entry.2.display)) ∧
    ((∀ entry ∈ config, AliasConfig.word? entry.2 ≠ none) →
      if aliases.conflicts config.pairs = [] then
        ∃ aliases', aliases.configure config = .ok aliases' ∧
          ∀ name, aliases'.lookup name = aliases.owner config.pairs name
      else aliases.configure config = .error (.collisions (aliases.conflicts config.pairs))) ∧
    ∀ target : Json, (∀ text, target ≠ .str text) → AliasConfig.word? target = none := by
  refine ⟨?_, fun hconfig => ?_, fun target => AliasConfig.word?_eq_none_of_not_str⟩
  · rintro before entry behind rfl hbefore hentry
    rw [configure, AliasConfig.requests_eq_error hbefore hentry]
    rfl
  · have hrequests := AliasConfig.requests_eq_pairs hconfig
    split
    · next hnone =>
      obtain ⟨aliases', hconfigure⟩ := exists_configure_of_conflicts_eq_nil hrequests hnone
      exact ⟨aliases', hconfigure, lookup_of_adds (adds_of_configure hconfigure hrequests)⟩
    · next hsome => exact configure_of_conflicts_ne_nil hrequests hsome

/-- The alias of the table clashes with both words that are asked for it, the new one only with the
    second, and one with a surrogate in it with the word of the entry before. A number in a later
    entry is told and none of the conflicts before it. -/
theorem configure_exact_of_clashes :
    let loose : LooseText := ⟨[.surrogate 0, .char 'k']⟩
    let config : AliasConfig :=
      [(.arr [.str "ALI, kijete ,,", .arr [.str "toki"]], .str " Pona"), (.str loose, .str "sin"),
        (.str "kijete,ali", .str "ala"), (.null, .str "sin"), (.str (" " ++ loose), .str "pona")]
    let conflicts : List AliasConflict :=
      [.clash "ali" .ale .pona, .shadows "toki", .clash "kijete" .pona .ala, .clash "ali" .ale .ala,
        .clash loose .sin .pona]
    Aliases.defaults.configure config = .error (.collisions conflicts) ∧
      Aliases.defaults.configure (config ++ [(.str "ike", .int 7), (.str "lon", .null)]) =
        .error (.unknownWord "7") ∧
      ∃ aliases, Aliases.defaults.configure [(.str "kijete,ali,KIJETE", .str "ale"),
          (.arr [.str loose], .str "ala")] = .ok aliases ∧
        aliases.lookup "kijete" = some .ale ∧ aliases.lookup loose = some .ala := by
  intro loose config conflicts
  have hwords : ∀ entry ∈ config, AliasConfig.word? entry.2 ≠ none := by decide +kernel
  have hconflicts : Aliases.defaults.conflicts config.pairs = conflicts := by decide +kernel
  obtain ⟨-, hrefused, -⟩ := configure_exact Aliases.defaults config
  obtain ⟨hunknown, -, -⟩ :=
    configure_exact Aliases.defaults (config ++ [(.str "ike", .int 7), (.str "lon", .null)])
  obtain ⟨-, haccepted, -⟩ := configure_exact Aliases.defaults
    [(.str "kijete,ali,KIJETE", .str "ale"), (.arr [.str loose], .str "ala")]
  have hrefused := hrefused hwords
  have haccepted := haccepted (by decide +kernel)
  rw [hconflicts, if_neg (by decide)] at hrefused
  rw [if_pos (by decide +kernel)] at haccepted
  obtain ⟨aliases, hconfigure, hlookup⟩ := haccepted
  refine ⟨hrefused, hunknown config (.str "ike", .int 7) _ rfl hwords (by decide +kernel),
    aliases, hconfigure, ?_, ?_⟩
  · rw [hlookup]
    decide +kernel
  · rw [hlookup]
    decide +kernel

end Aliases

end TokiPona
