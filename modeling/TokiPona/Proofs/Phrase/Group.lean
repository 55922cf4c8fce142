import TokiPona.Phrase.Parser
import TokiPona.Proofs.Phrase.WellFormed

namespace TokiPona

/-- A `pi` behind the head starts a group that is read like any other. -/
theorem Group.parseTail_pi (head : Word) (modifiers words : List Word) :
    Group.parseTail head modifiers (.pi :: words) =
      (Group.parse words).map (.pi head modifiers) := by
  cases words with
  | nil => rfl
  | cons inner rest =>
    rw [Group.parseTail, Group.parse]
    split <;> rfl

theorem Group.parseTail_modifier (head : Word) (modifiers : List Word) {w : Word}
    (hw : w.isModifier) (rest : List Word) :
    Group.parseTail head modifiers (w :: rest) = Group.parseTail head (modifiers ++ [w]) rest := by
  rw [Word.isModifier, Bool.and_eq_true, Bool.not_eq_true', bne_iff_ne] at hw
  rw [Group.parseTail]
  · simp [hw.1]
  all_goals
    intros
    simp_all

/-- Modifiers are collected one by one. -/
theorem Group.parseTail_append (head : Word) (modifiers : List Word) {more : List Word}
    (hmore : ∀ w ∈ more, w.isModifier) (rest : List Word) :
    Group.parseTail head modifiers (more ++ rest) =
      Group.parseTail head (modifiers ++ more) rest := by
  induction more generalizing modifiers with
  | nil => simp
  | cons w more ih =>
    obtain ⟨hw, hmore⟩ := List.forall_mem_cons.mp hmore
    rw [List.cons_append, Group.parseTail_modifier head modifiers hw, ih _ hmore,
      List.append_assoc, List.singleton_append]

theorem Group.parse_words {g : Group} (hg : g.WellFormed) : Group.parse g.words = .ok g := by
  induction g with
  | flat head modifiers =>
    obtain ⟨hhead, hmodifiers⟩ := hg
    have hread := Group.parseTail_append head [] hmodifiers []
    simp only [List.append_nil, List.nil_append] at hread
    simp only [Group.words, Group.parse, hhead, Bool.false_eq_true, if_false]
    rw [hread, Group.parseTail]
  | pi head modifiers of ih =>
    obtain ⟨⟨hhead, hmodifiers⟩, hof⟩ := hg
    simp only [Group.words, Group.parse, List.cons_append, hhead, Bool.false_eq_true, if_false]
    rw [Group.parseTail_append head [] hmodifiers, Group.parseTail_pi, ih hof]
    rfl

/-- What has been read of a group and what is still to be read are the words of the result. -/
theorem Group.words_of_parseTail {head : Word} {modifiers rest : List Word} {g : Group}
    (hhead : head.isParticle = false) (hmodifiers : ∀ w ∈ modifiers, w.isModifier)
    (hparse : Group.parseTail head modifiers rest = .ok g) :
    g.words = head :: modifiers ++ rest ∧ g.WellFormed := by
  fun_induction Group.parseTail head modifiers rest generalizing g with
  | case1 head modifiers =>
    cases hparse
    exact ⟨(List.append_nil _).symm, hhead, hmodifiers⟩
  | case2 => cases hparse
  | case3 => cases hparse
  | case4 head modifiers inner rest hinner ih =>
    obtain ⟨of, hof, rfl⟩ := map_eq_ok_iff.mp hparse
    obtain ⟨hwords, hwellFormed⟩ := ih (by simpa using hinner) (by simp) hof
    refine ⟨?_, ⟨hhead, hmodifiers⟩, hwellFormed⟩
    simp [Group.words, hwords]
  | case5 => cases hparse
  | case6 head modifiers w rest hlast hinner hw ih =>
    have hpi : w ≠ .pi := by
      rintro rfl
      cases rest with
      | nil => exact hlast rfl rfl
      | cons inner rest => exact hinner inner rest rfl rfl
    have hmodifier : w.isModifier := by simp [Word.isModifier, hpi, hw]
    have hmodifiers' := List.forall_mem_append.mpr
      ⟨hmodifiers, List.forall_mem_singleton.mpr hmodifier⟩
    obtain ⟨hwords, hwellFormed⟩ := ih hhead hmodifiers' hparse
    exact ⟨by simpa using hwords, hwellFormed⟩

/-- A noun phrase is read from its own words and from no others, and only if it is well formed. -/
theorem Group.parse_eq_ok_iff (words : List Word) (g : Group) :
    Group.parse words = .ok g ↔ g.words = words ∧ g.WellFormed := by
  constructor
  · intro hparse
    cases words with
    | nil => cases hparse
    | cons head rest =>
      rw [Group.parse] at hparse
      split at hparse
      · cases hparse
      · next hhead =>
        exact Group.words_of_parseTail (by simpa using hhead) (by simp) hparse
  · rintro ⟨rfl, hg⟩
    exact Group.parse_words hg

/-- Groups that a marker joins are read apart again if none of them holds the marker. -/
theorem Group.mapM_parse_splitOn_eq_ok_iff (marker : Word) (words : List Word)
    (groups : List Group) :
    (words.splitOn marker).mapM Group.parse = .ok groups ↔
      groups ≠ [] ∧ Group.joined marker groups = words ∧
        ∀ g ∈ groups, g.WellFormed ∧ marker ∉ g.words := by
  rw [mapM_eq_ok_iff (fun piece _ => Group.parse_eq_ok_iff piece)]
  constructor
  · rintro ⟨hpieces, hwellFormed⟩
    have hjoined : Group.joined marker groups = words := by
      rw [Group.joined, hpieces, List.intercalate_splitOn]
    refine ⟨?_, hjoined, fun g hg => ⟨hwellFormed g hg, ?_⟩⟩
    · rintro rfl
      exact List.splitOn_ne_nil marker words hpieces.symm
    · exact not_mem_of_mem_splitOn (hpieces ▸ List.mem_map_of_mem hg)
  · rintro ⟨hne, rfl, hgroups⟩
    have hfree : ∀ piece ∈ groups.map Group.words, marker ∉ piece := by
      intro piece hpiece
      obtain ⟨g, hg, rfl⟩ := List.mem_map.mp hpiece
      exact (hgroups g hg).2
    rw [Group.joined, List.splitOn_intercalate marker hfree (by simpa using hne)]
    exact ⟨rfl, fun g hg => (hgroups g hg).1⟩

/-- All preverbs in front of a verb are cut off, and the verb keeps its last word. -/
theorem VerbPhrase.cutPreverbs_append {preverbs : List Word} {w : Word} {rest : List Word}
    (hpreverbs : ∀ v ∈ preverbs, v.isPreverb) (hbare : w.isPreverb → rest = []) :
    VerbPhrase.cutPreverbs (preverbs ++ w :: rest) = (preverbs, w :: rest) := by
  induction preverbs with
  | nil =>
    cases rest with
    | nil => rfl
    | cons next rest =>
      have hw : w.isPreverb = false := by
        rw [Bool.eq_false_iff]
        intro hw
        cases hbare hw
      simp [VerbPhrase.cutPreverbs, hw]
  | cons v preverbs ih =>
    obtain ⟨hv, hpreverbs⟩ := List.forall_mem_cons.mp hpreverbs
    have hcut := ih hpreverbs
    cases preverbs with
    | nil => simp_all [VerbPhrase.cutPreverbs]
    | cons next preverbs => simp_all [VerbPhrase.cutPreverbs]

/-- The cut loses no word, and leaves a preverb as the verb only if it is the last word. -/
theorem VerbPhrase.cutPreverbs_spec (words : List Word) :
    (VerbPhrase.cutPreverbs words).1 ++ (VerbPhrase.cutPreverbs words).2 = words ∧
      (∀ w ∈ (VerbPhrase.cutPreverbs words).1, w.isPreverb) ∧
      ∀ w rest, (VerbPhrase.cutPreverbs words).2 = w :: rest → w.isPreverb → rest = [] := by
  fun_induction VerbPhrase.cutPreverbs words with
  | case1 w next rest hw preverbs verb hcut ih =>
    rw [hcut] at ih
    obtain ⟨hwords, hpreverbs, hbare⟩ := ih
    exact ⟨congrArg (w :: ·) hwords, List.forall_mem_cons.mpr ⟨hw, hpreverbs⟩, hbare⟩
  | case2 w next rest hw =>
    refine ⟨rfl, by simp, ?_⟩
    rintro _ _ ⟨⟩ hpreverb
    exact absurd hpreverb hw
  | case3 words hshort =>
    refine ⟨rfl, by simp, ?_⟩
    rintro w rest rfl -
    cases rest with
    | nil => rfl
    | cons next rest => exact (hshort w next rest rfl).elim

/-- A verb phrase is read from its own words and from no others, and only if it is well formed. -/
theorem VerbPhrase.parse_eq_ok_iff (words : List Word) (v : VerbPhrase) :
    VerbPhrase.parse words = .ok v ↔ v.words = words ∧ v.WellFormed := by
  constructor
  · intro hparse
    obtain ⟨hwords, hpreverbs, hbare⟩ := VerbPhrase.cutPreverbs_spec words
    unfold VerbPhrase.parse at hparse
    split at hparse
    · cases hparse
    · obtain ⟨verb, hverb, rfl⟩ := map_eq_ok_iff.mp hparse
      obtain ⟨hverbWords, hverbWellFormed⟩ := (Group.parse_eq_ok_iff _ verb).mp hverb
      refine ⟨by rw [VerbPhrase.words, hverbWords, hwords], hpreverbs, hverbWellFormed, ?_⟩
      intro hhead
      rw [← Group.tail_words_eq_nil_iff]
      exact hbare verb.head verb.words.tail (hverbWords ▸ verb.words_eq_head_cons) hhead
  · rintro ⟨rfl, hv⟩
    have hcut : VerbPhrase.cutPreverbs v.words = (v.preverbs, v.verb.words) := by
      rw [VerbPhrase.words, v.verb.words_eq_head_cons]
      exact VerbPhrase.cutPreverbs_append hv.preverbs
        (fun hhead => (Group.tail_words_eq_nil_iff v.verb).mpr (hv.bare hhead))
    have hne : v.words.isEmpty = false := by simpa using v.words_ne_nil
    simp only [VerbPhrase.parse, hne, hcut, Bool.false_eq_true, if_false,
      Group.parse_words hv.verb]
    rfl

/-- By itself the reading lets the noun phrase hold further prepositions. -/
theorem Preposition.parse_eq_ok_iff (words : List Word) (p : Preposition) :
    Preposition.parse words = .ok p ↔
      p.words = words ∧ p.preposition.isPreposition ∧ p.noun.WellFormed := by
  cases words with
  | nil => simp [Preposition.parse, Preposition.words]
  | cons w rest =>
    rw [Preposition.parse]
    split
    · next hw =>
      simp only [map_eq_ok_iff, Group.parse_eq_ok_iff, Preposition.words, List.cons.injEq]
      constructor
      · rintro ⟨noun, ⟨hwords, hnoun⟩, rfl⟩
        exact ⟨⟨rfl, hwords⟩, hw, hnoun⟩
      · rintro ⟨⟨rfl, hwords⟩, -, hnoun⟩
        exact ⟨p.noun, ⟨hwords, hnoun⟩, rfl⟩
    · next hw =>
      simp only [reduceCtorEq, false_iff, Preposition.words, List.cons.injEq]
      rintro ⟨⟨rfl, -⟩, hpreposition, -⟩
      exact hw hpreposition

end TokiPona
