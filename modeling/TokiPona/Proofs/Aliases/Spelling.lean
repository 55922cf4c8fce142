import TokiPona.Proofs.Aliases.Outcome

namespace TokiPona

namespace AliasConfig

/-- The spellings in a text: its parts between commas, without the blanks around them, as far as
    anything is left of them. -/
def spellingsIn (text : String) : List String :=
  ((text.toList.splitOn ',').map fun part => Text.trim (String.ofList part)).filter
    fun spelling => !spelling.isEmpty

/-- The aliases in a text are its spellings in lower case. -/
theorem aliasesIn_ofString (text : String) :
    aliasesIn text = (spellingsIn text).map fun spelling => ↑(Text.lower spelling) := by
  have hempty (part : String) : (LooseText.ofString part).isEmpty = part.isEmpty := by
    rw [LooseText.isEmpty, LooseText.points_ofString, List.isEmpty_map, Bool.eq_iff_iff,
      List.isEmpty_iff, String.toList_eq_nil_iff, String.isEmpty_iff]
  rw [aliasesIn, LooseText.splitOn_ofString, spellingsIn]
  simp only [List.map_map, List.filter_map, Function.comp_def, LooseText.trim_ofString, hempty,
    LooseText.lower_ofString]

theorem requests_of_word {name target : String} {w : Word}
    (hword : Word.ofSpelling? (Text.lower (Text.trim target)) = some w) :
    requests [(.str name, .str target)] =
      .ok ((spellingsIn name).map fun spelling => (↑(Text.lower spelling), w)) := by
  rw [← word?_ofString] at hword
  rw [requests_singleton, targetWord_of_word? hword, keyAliases, aliasesIn_ofString]
  simp [Except.map]

theorem requests_of_no_word {name target : String}
    (hnone : Word.ofSpelling? (Text.lower (Text.trim target)) = none) :
    requests [(.str name, .str target)] = .error (.unknownWord target) := by
  rw [← word?_ofString] at hnone
  rw [requests_singleton, targetWord_of_word?_eq_none hnone]
  rfl

theorem exists_word_of_requests {name target : String} {requested : List (LooseText × Word)}
    (hrequests : requests [(.str name, .str target)] = .ok requested) :
    ∃ w, Word.ofSpelling? (Text.lower (Text.trim target)) = some w := by
  rw [← Option.ne_none_iff_exists']
  intro hnone
  rw [requests_of_no_word hnone] at hrequests
  cases hrequests

/-- What is asked for with strings is spelled in strings. -/
theorem not_hasSurrogate_of_requests {name target : String} {requested : List (LooseText × Word)}
    (hrequests : requests [(.str name, .str target)] = .ok requested) :
    ∀ e ∈ requested, ¬ e.1.HasSurrogate := by
  obtain ⟨w, hword⟩ := exists_word_of_requests hrequests
  cases hrequests.symm.trans (requests_of_word hword)
  exact List.forall_mem_map.mpr fun _ _ => LooseText.not_hasSurrogate_ofString _

end AliasConfig

namespace AliasConflict

/-- The alias that a conflict is about. -/
def name : AliasConflict → LooseText
  | .shadows name => name
  | .clash name _ _ => name

theorem hasSurrogate_describe (c : AliasConflict) :
    c.describe.HasSurrogate ↔ c.name.HasSurrogate := by
  cases c <;> simp [describe, name]

end AliasConflict

namespace Aliases

theorem name_of_conflict? {aliases : Aliases} {pairs : List (LooseText × Word)}
    {pair : LooseText × Word} {c : AliasConflict}
    (hconflict : aliases.conflict? pairs pair = some c) : c.name = pair.1 := by
  unfold conflict? at hconflict
  split at hconflict
  · cases hconflict
    rfl
  · split at hconflict
    · split at hconflict
      · cases hconflict
      · cases hconflict
        rfl
    · cases hconflict

variable {aliases aliases' : Aliases} {name target : String}

/-- Strings are refused in strings. -/
theorem not_hasSurrogate_of_refused {e : MappingError}
    (hconfigure : aliases.configure [(.str name, .str target)] = .error e) :
    ¬ e.message.HasSurrogate ∧ ∀ c ∈ e.conflicts, ¬ c.HasSurrogate := by
  cases hword : Word.ofSpelling? (Text.lower (Text.trim target)) with
  | none =>
    rw [configure, AliasConfig.requests_of_no_word hword] at hconfigure
    cases hconfigure
    simp [MappingError.message, MappingError.conflicts]
  | some w =>
    have hrequests : AliasConfig.requests [(.str name, .str target)] = .ok _ :=
      AliasConfig.requests_of_word hword
    generalize (AliasConfig.spellingsIn name).map _ = pairs at hrequests
    by_cases hnone : aliases.conflicts pairs = []
    · obtain ⟨aliases', haccepted⟩ := exists_configure_of_conflicts_eq_nil hrequests hnone
      rw [haccepted] at hconfigure
      cases hconfigure
    · rw [configure_of_conflicts_ne_nil hrequests hnone] at hconfigure
      cases hconfigure
      refine ⟨by simp [MappingError.message], List.forall_mem_map.mpr fun c hc => ?_⟩
      obtain ⟨pair, hpair, hconflict⟩ := List.mem_filterMap.mp hc
      rw [AliasConflict.hasSurrogate_describe, name_of_conflict? hconflict]
      exact AliasConfig.not_hasSurrogate_of_requests hrequests pair hpair

/-- A table has an alias with a surrogate in it. -/
def HasSurrogate (aliases : Aliases) : Prop := ∃ e ∈ aliases.entries, e.1.HasSurrogate

/-- Strings add no alias with a surrogate. -/
theorem hasSurrogate_of_configure
    (hconfigure : aliases.configure [(.str name, .str target)] = .ok aliases') :
    aliases'.HasSurrogate ↔ aliases.HasSurrogate := by
  constructor
  · rintro ⟨e, he, hsurrogate⟩
    obtain ⟨requests, granted, hrequests, rfl, hgranted, -⟩ :=
      exists_granted_of_configure hconfigure
    rcases Entries.mem_putAll he with he | he
    · exact absurd hsurrogate
        (AliasConfig.not_hasSurrogate_of_requests hrequests e (hgranted e he).1)
    · exact ⟨e, he, hsurrogate⟩
  · rintro ⟨e, he, hsurrogate⟩
    cases hlookup : aliases.lookup e.1 with
    | none => simpa using List.lookup_eq_none_iff.mp hlookup e he
    | some w =>
      exact ⟨_, Entries.mem_of_lookup (lookup_of_configure hconfigure hlookup), hsurrogate⟩

theorem hasSurrogate_report (aliases : Aliases) :
    aliases.report.HasSurrogate ↔ aliases.HasSurrogate := by
  simp [report, HasSurrogate, sorted]

end Aliases

end TokiPona
