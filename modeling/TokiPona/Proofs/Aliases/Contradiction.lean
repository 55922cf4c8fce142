import TokiPona.Proofs.Aliases.Outcome
import TokiPona.Proofs.Files
import TokiPona.Proofs.Json.Members

namespace TokiPona

namespace AliasConfig

/-- Two of the members give an alias different words. -/
def Contradictory (members : List (LooseText × Json)) : Prop :=
  ∃ m ∈ members, ∃ m' ∈ members, ∃ name ∈ aliasesIn m.1,
    name ∈ aliasesIn m'.1 ∧ word? m.2 ≠ word? m'.2

instance (members : List (LooseText × Json)) : Decidable (Contradictory members) :=
  inferInstanceAs (Decidable (∃ m ∈ members, _))

/-- The configuration that the members of an object are. -/
def ofMembers (members : List (LooseText × Json)) : AliasConfig :=
  members.map fun (name, target) => (.str name, target)

/-- Members ask for the aliases in their names, each with the word of the value. -/
theorem mem_pairs_ofMembers_iff {members : List (LooseText × Json)} {name : LooseText} {w : Word} :
    (name, w) ∈ (ofMembers members).pairs ↔
      ∃ m ∈ members, name ∈ aliasesIn m.1 ∧ word? m.2 = some w := by
  simp only [pairs, ofMembers, List.mem_flatMap, List.mem_map]
  constructor
  · rintro ⟨-, ⟨m, hm, rfl⟩, hpair⟩
    unfold entryPairs at hpair
    split at hpair
    · next v hv =>
      simp only [keyTexts, List.flatMap_cons, List.flatMap_nil, List.append_nil] at hpair
      obtain ⟨name', hname, heq⟩ := List.mem_map.mp hpair
      cases heq
      exact ⟨m, hm, hname, hv⟩
    · cases hpair
  · rintro ⟨m, hm, hname, hw⟩
    refine ⟨_, ⟨m, hm, rfl⟩, ?_⟩
    simp only [entryPairs, hw, keyTexts, List.flatMap_cons, List.flatMap_nil, List.append_nil]
    exact List.mem_map_of_mem hname

theorem exists_pairs_of_mem {members : List (LooseText × Json)} {m : LooseText × Json}
    (hm : m ∈ members) (hword : word? m.2 ≠ none) :
    ∃ w, word? m.2 = some w ∧ ∀ name ∈ aliasesIn m.1, (name, w) ∈ (ofMembers members).pairs := by
  obtain ⟨w, hw⟩ := Option.ne_none_iff_exists'.mp hword
  exact ⟨w, hw, fun name hname => mem_pairs_ofMembers_iff.mpr ⟨m, hm, hname, hw⟩⟩

/-- Members contradict each other unless every alias is asked for with one word. -/
theorem not_contradictory_iff {members : List (LooseText × Json)}
    (hwords : ∀ m ∈ members, word? m.2 ≠ none) :
    ¬ Contradictory members ↔ ∀ e ∈ (ofMembers members).pairs,
      ∀ e' ∈ (ofMembers members).pairs, e.1 = e'.1 → e.2 = e'.2 := by
  constructor
  · rintro hconsistent ⟨name, w⟩ he ⟨name', w'⟩ he' rfl
    obtain ⟨m, hm, hname, hw⟩ := mem_pairs_ofMembers_iff.mp he
    obtain ⟨m', hm', hname', hw'⟩ := mem_pairs_ofMembers_iff.mp he'
    by_contra hne
    refine hconsistent ⟨m, hm, m', hm', _, hname, hname', fun heq => hne ?_⟩
    exact Option.some.inj (hw.symm.trans (heq.trans hw'))
  · rintro hunique ⟨m, hm, m', hm', name, hname, hname', hne⟩
    obtain ⟨w, hw, hasked⟩ := exists_pairs_of_mem hm (hwords m hm)
    obtain ⟨w', hw', hasked'⟩ := exists_pairs_of_mem hm' (hwords m' hm')
    have hsame : w = w' := hunique _ (hasked name hname) _ (hasked' name hname') rfl
    exact hne (by rw [hw, hw', hsame])

end AliasConfig

namespace Aliases

open AliasConfig (aliasesIn word? Contradictory)

/-- A member whose aliases a table can take: none is a vocabulary word or stands for another word
    than that of the value. -/
def Fits (aliases : Aliases) (m : LooseText × Json) : Prop :=
  ∀ name ∈ aliasesIn m.1, Word.ofText? name = none ∧
    ∀ held, aliases.lookup name = some held → word? m.2 = some held

variable {aliases : Aliases} {files : Directory} {path text : String}
  {members : List (LooseText × Json)}

/-- The members fit a table if all that they ask for can be added to it, each by itself. -/
theorem forall_fits_iff (hwords : ∀ m ∈ members, word? m.2 ≠ none) :
    (∀ m ∈ members, aliases.Fits m) ↔ ∀ e ∈ (AliasConfig.ofMembers members).pairs,
      Word.ofText? e.1 = none ∧ ∀ held, aliases.lookup e.1 = some held → held = e.2 := by
  constructor
  · rintro hfits ⟨name, w⟩ he
    obtain ⟨m, hm, hname, hw⟩ := AliasConfig.mem_pairs_ofMembers_iff.mp he
    obtain ⟨hfree, hagrees⟩ := hfits m hm name hname
    exact ⟨hfree, fun held hheld => Option.some.inj ((hagrees held hheld).symm.trans hw)⟩
  · intro hpairs m hm name hname
    obtain ⟨w, hw, hasked⟩ := AliasConfig.exists_pairs_of_mem hm (hwords m hm)
    obtain ⟨hfree, hagrees⟩ := hpairs _ (hasked name hname)
    refine ⟨hfree, fun held hheld => ?_⟩
    rw [hw, hagrees held hheld]

theorem accepts_ofMembers_iff (aliases : Aliases) (hwords : ∀ m ∈ members, word? m.2 ≠ none) :
    aliases.Accepts (AliasConfig.ofMembers members).pairs ↔
      ¬ Contradictory members ∧ ∀ m ∈ members, aliases.Fits m := by
  rw [AliasConfig.not_contradictory_iff hwords, forall_fits_iff hwords]
  constructor
  · intro haccepts
    exact ⟨haccepts.unique, fun e he => ⟨haccepts.notWord e he, haccepts.agrees e he⟩⟩
  · rintro ⟨hunique, hadds⟩
    exact ⟨fun e he => (hadds e he).1, fun e he => (hadds e he).2, hunique⟩

/-- A table takes of the members of each name the last one. -/
theorem load_eq_configure (hread : files.readText path = .ok text)
    (hwritten : Json.writtenMembers? text = some members) :
    aliases.load files path =
      aliases.configure (.ofMembers (Entries.putAll (· == ·) [] members)) := by
  have hparse := Json.parse?_eq_obj_iff.mpr ⟨members, hwritten, rfl⟩
  rw [load, hread]
  simp only [loadText, hparse, AliasConfig.ofJson?]
  rfl

/-- What a file of words asks for can be taken if its last members fit together and each of them
    fits the table. -/
theorem exists_requests_accepts_iff (aliases : Aliases)
    (hwords : ∀ m ∈ members, word? m.2 ≠ none) :
    ∃ requests,
      AliasConfig.requests (.ofMembers (Entries.putAll (· == ·) [] members)) = .ok requests ∧
      (aliases.Accepts requests ↔ ¬ Contradictory (Entries.lasts members) ∧
        ∀ m ∈ Entries.lasts members, aliases.Fits m) := by
  have hkept (m : LooseText × Json) :
      m ∈ Entries.putAll (· == ·) [] members ↔ m ∈ Entries.lasts members :=
    Entries.mem_putAll_nil_iff
  have hwords' : ∀ m ∈ Entries.putAll (· == ·) [] members, word? m.2 ≠ none := fun m hm =>
    hwords m ((Entries.lasts_sublist members).subset ((hkept m).mp hm))
  refine ⟨_, AliasConfig.requests_eq_pairs (List.forall_mem_map.mpr hwords'), ?_⟩
  have haccepts := accepts_ofMembers_iff aliases hwords'
  simp only [Contradictory, hkept] at haccepts
  exact haccepts

theorem exists_load_iff (aliases : Aliases) (hread : files.readText path = .ok text)
    (hwritten : Json.writtenMembers? text = some members)
    (hwords : ∀ m ∈ members, word? m.2 ≠ none) :
    (∃ aliases', aliases.load files path = .ok aliases') ↔
      ¬ Contradictory (Entries.lasts members) ∧
        ∀ m ∈ Entries.lasts members, aliases.Fits m := by
  obtain ⟨requests, hrequests, haccepts⟩ := exists_requests_accepts_iff aliases hwords
  rw [load_eq_configure hread hwritten, exists_configure_iff, ← haccepts, hrequests]
  simp

/-- A file of words that is refused is refused for its conflicts. -/
theorem exists_collisions_of_load (hread : files.readText path = .ok text)
    (hwritten : Json.writtenMembers? text = some members)
    (hwords : ∀ m ∈ members, word? m.2 ≠ none)
    (hrefused : ¬ ∃ aliases', aliases.load files path = .ok aliases') :
    ∃ conflicts, aliases.load files path = .error (.collisions conflicts) := by
  obtain ⟨requests, hrequests, -⟩ := exists_requests_accepts_iff aliases hwords
  rw [load_eq_configure hread hwritten] at hrefused ⊢
  have hsome : aliases.conflicts requests ≠ [] := fun hnone =>
    hrefused (exists_configure_of_conflicts_eq_nil hrequests hnone)
  exact ⟨_, configure_of_conflicts_ne_nil hrequests hsome⟩

/-- A file whose members are all for words is refused if two of its members give an alias different
    words and each is the last of its name, which every member is if no name is repeated. The table
    is the same then. Exactly if there are no such members, and none of the last ones is for a
    vocabulary word or for an alias of the table that stands for another word, the file is
    accepted. -/
theorem load_contradictory (aliases : Aliases) (files : Directory) (path text : String)
    (hread : files.readText path = .ok text) (members : List (LooseText × Json))
    (hwritten : Json.writtenMembers? text = some members)
    (hwords : ∀ m ∈ members, word? m.2 ≠ none) :
    (Contradictory (Entries.lasts members) →
      (∃ conflicts, aliases.load files path = .error (.collisions conflicts)) ∧
        aliases.after (.load files path) = aliases) ∧
      ((members.map Prod.fst).Nodup → Entries.lasts members = members) ∧
      ((∃ aliases', aliases.load files path = .ok aliases') ↔
        ¬ Contradictory (Entries.lasts members) ∧
          ∀ m ∈ Entries.lasts members, aliases.Fits m) := by
  have haccepted := exists_load_iff aliases hread hwritten hwords
  refine ⟨fun hcontradictory => ?_, Entries.lasts_of_nodup, haccepted⟩
  obtain ⟨conflicts, hload⟩ := exists_collisions_of_load hread hwritten hwords
    fun hload => (haccepted.mp hload).1 hcontradictory
  refine ⟨⟨conflicts, hload⟩, ?_⟩
  rw [after, AliasUpdate.run, hload]

/-- The alias is the second one of the first member, written in capitals, and the name of the third,
    with a surrogate in it. The second member repeats the name of the last and plays no part. -/
theorem load_contradictory_of_four_members :
    let text := "\x7b\"aka, K\\ud800A\": \"ala\", \"sinsin\": \"lon\", " ++
      "\"k\\uD800a\": \" ALE\", \"sinsin\": \"sin\"\x7d"
    let files : Directory := ⟨[(["a.json"], .file text.toUTF8)]⟩
    (∃ members, Json.writtenMembers? text = some members ∧ members.length = 4 ∧
        Contradictory (Entries.lasts members)) ∧
      (∃ conflicts, Aliases.defaults.load files "a.json" = .error (.collisions conflicts)) ∧
      Aliases.defaults.after (.load files "a.json") = Aliases.defaults := by
  intro text files
  have hread : files.readText "a.json" = .ok text :=
    Directory.readText_eq_ok ⟨by simp, by decide, by decide⟩ rfl rfl (by decide +kernel)
  have hwritten : ∃ members ∈ Json.writtenMembers? text, members.length = 4 ∧
      (∀ m ∈ members, word? m.2 ≠ none) ∧ Contradictory (Entries.lasts members) := by
    decide +kernel
  obtain ⟨members, hwritten, hlength, hwords, hcontradictory⟩ := hwritten
  obtain ⟨hrefused, -, -⟩ := load_contradictory _ files _ text hread members hwritten hwords
  exact ⟨⟨members, hwritten, hlength, hcontradictory⟩, hrefused hcontradictory⟩

/-- Two members of one name give an alias different words, and the last one is loaded. -/
theorem load_accepts_repeated_name :
    let text := "\x7b\"kaa\": \"ala\", \"kaa\": \"ale\"\x7d"
    let files : Directory := ⟨[(["a.json"], .file text.toUTF8)]⟩
    files.readText "a.json" = .ok text ∧
      (∃ members, Json.writtenMembers? text = some members ∧
        (∀ m ∈ members, word? m.2 ≠ none) ∧ Contradictory members) ∧
      Aliases.empty.load files "a.json" = .ok ⟨[("kaa", .ale)]⟩ := by
  intro text files
  have hread : files.readText "a.json" = .ok text :=
    Directory.readText_eq_ok ⟨by simp, by decide, by decide⟩ rfl rfl (by decide +kernel)
  have hwritten : ∃ members ∈ Json.writtenMembers? text,
      (∀ m ∈ members, word? m.2 ≠ none) ∧ Contradictory members := by
    decide +kernel
  refine ⟨hread, hwritten, ?_⟩
  rw [load, hread]
  decide +kernel

end Aliases

end TokiPona
