import TokiPona.Proofs.Phrase.Grammar

namespace TokiPona

/-- Words that are taken off the end of a predicate, one prepositional phrase after the other. -/
inductive Predicate.TrailsOff : List Word → Prop
  | nil : Predicate.TrailsOff []
  | phrase {words noun : List Word} {w : Word} (hwords : Predicate.TrailsOff words)
      (hw : w.isPreposition) (hne : noun ≠ [])
      (hnoun : ∀ v ∈ noun, v.isPreposition = false ∧ v ≠ .e) :
      Predicate.TrailsOff (words ++ w :: noun)

/-- Whether a `pi` behind these words makes a group by itself: the preposition before it is taken
    off together with it, or all words before it are preverbs. -/
def Predicate.Frees (before : List Word) (w : Word) : Prop :=
  (w.isPreposition ∧ Predicate.isDetachable before [.pi]) ∨ ∀ v ∈ before ++ [w], v.isPreverb

/-- A `pi` in a predicate loses its group to the trailing prepositional phrases. -/
def Predicate.Dangles (body : List Word) : Prop :=
  ∃ before w behind, body = before ++ w :: .pi :: behind ∧ Predicate.TrailsOff behind ∧
    ¬ Predicate.Frees before w

theorem Predicate.TrailsOff.e_not_mem {words : List Word} (hwords : Predicate.TrailsOff words) :
    .e ∉ words := by
  induction hwords with
  | nil => exact List.not_mem_nil
  | phrase hwords hw hne hnoun ih =>
    rw [List.mem_append, List.mem_cons]
    rintro (he | he | he)
    · exact ih he
    · rw [← he] at hw
      cases hw
    · exact (hnoun _ he).2 rfl

theorem Word.isPreverb_of_isPreposition {w : Word} (hw : w.isPreposition) :
    w.isPreverb = false := by
  unfold Word.isPreposition at hw
  split at hw <;> simp_all [Word.isPreverb]

/-- The last phrase that is taken off dangles itself, or what it leaves does. -/
theorem Predicate.dangles_append_iff {before noun : List Word} {w : Word} (hw : w.isPreposition)
    (hnoun : ∀ v ∈ noun, v.isPreposition = false)
    (hdetachable : Predicate.isDetachable before noun) :
    Predicate.Dangles (before ++ w :: noun) ↔ EndsInPi noun ∨ Predicate.Dangles before := by
  obtain ⟨hne, he, hbefore, hlast⟩ := (Predicate.isDetachable_iff before noun).mp hdetachable
  constructor
  · rintro ⟨lead, x, behind, hsplit, htrails, hfrees⟩
    cases htrails with
    | nil =>
      -- The `pi` ends the noun, which must have another word.
      have hpi : noun.getLast? = some .pi := by
        have hends := congrArg List.getLast? hsplit
        rwa [List.getLast?_append_cons, List.getLast?_append_cons,
          List.getLast?_cons_of_ne_nil hne] at hends
      obtain ⟨start, rfl⟩ := List.getLast?_eq_some_iff.mp hpi
      cases start with
      | nil =>
        obtain ⟨rfl, hpair⟩ := List.append_inj' hsplit rfl
        cases hpair
        refine absurd (Or.inl ⟨hw, ?_⟩) hfrees
        rw [Predicate.isDetachable_iff]
        exact ⟨by simp, by simp, hbefore, hlast⟩
      | cons v start => exact Or.inl (by simp [EndsInPi])
    | @phrase words noun' w' hwords hw' hne' hnoun' =>
      have hcut := cutLast?_append_cons hw hnoun before
      rw [hsplit, ← List.cons_append, ← List.cons_append, ← List.append_assoc,
        cutLast?_append_cons hw' (fun v hv => (hnoun' v hv).1)] at hcut
      cases hcut
      exact Or.inr ⟨lead, x, words, rfl, hwords, hfrees⟩
  · rintro (hends | ⟨lead, x, behind, rfl, htrails, hfrees⟩)
    · obtain ⟨start, x, rfl⟩ := hends.exists_append
      refine ⟨before ++ w :: start, x, [], by simp, .nil, ?_⟩
      rintro (⟨hx, -⟩ | hpreverbs)
      · rw [hnoun x (by simp)] at hx
        cases hx
      · have hpreverb := hpreverbs w (by simp)
        rw [Word.isPreverb_of_isPreposition hw] at hpreverb
        cases hpreverb
    · refine ⟨lead, x, behind ++ w :: noun, by simp, htrails.phrase hw hne ?_, hfrees⟩
      intro v hv
      refine ⟨hnoun v hv, ?_⟩
      rintro rfl
      exact he hv

/-- From a closed body nothing is taken off, so only its own end can dangle. -/
theorem Predicate.dangles_iff_of_closed {body : List Word} (hclosed : Predicate.Closed body) :
    Predicate.Dangles body ↔
      ∃ before, body = before ++ [.pi] ∧ ∃ v ∈ before, v.isPreverb = false := by
  constructor
  · rintro ⟨before, w, behind, rfl, htrails, hfrees⟩
    cases htrails with
    | nil =>
      rw [Predicate.Frees, not_or] at hfrees
      exact ⟨before ++ [w], by simp, by simpa using hfrees.2⟩
    | @phrase words noun v hwords hv hne hnoun =>
      exfalso
      have hcut : cutLast? Word.isPreposition (before ++ w :: .pi :: (words ++ v :: noun)) =
          some (before ++ w :: .pi :: words, v, noun) := by
        rw [cutLast?_eq_some_iff]
        exact ⟨by simp, hv, fun u hu => (hnoun u hu).1⟩
      have hdetachable : Predicate.isDetachable (before ++ w :: .pi :: words) noun := by
        rw [Predicate.isDetachable_iff]
        refine ⟨hne, fun he => (hnoun _ he).2 rfl, by simp, ?_⟩
        rw [List.getLast?_append_cons, List.getLast?_cons_cons, ne_eq,
          getLast?_cons_eq_some_iff (by decide)]
        exact fun he => hwords.e_not_mem (List.mem_of_getLast? he)
      rw [hclosed _ _ _ hcut] at hdetachable
      cases hdetachable
  · rintro ⟨init, rfl, v, hv, hpreverb⟩
    obtain ⟨before, w, rfl⟩ := (List.eq_nil_or_concat' init).resolve_left (List.ne_nil_of_mem hv)
    rw [List.append_assoc, List.singleton_append] at hclosed ⊢
    refine ⟨before, w, [], rfl, .nil, ?_⟩
    rintro (⟨hw, hdetachable⟩ | hpreverbs)
    · have hcut : cutLast? Word.isPreposition (before ++ [w, .pi]) = some (before, w, [.pi]) :=
        cutLast?_append_cons hw (by simp [Word.isPreposition]) before
      rw [hclosed _ _ _ hcut] at hdetachable
      cases hdetachable
    · rw [hpreverbs v hv] at hpreverb
      cases hpreverb

theorem Predicate.exists_parseCore_iff {first : List Word} {later : List (List Word)}
    (hfree : ∀ piece ∈ first :: later, .e ∉ piece) :
    (∃ core, Predicate.parseCore ([.e].intercalate (first :: later)) = .ok core) ↔
      (∃ v, VerbPhrase.parse first = .ok v) ∧ ∀ piece ∈ later, ∃ g, Group.parse piece = .ok g := by
  rw [Predicate.parseCore_intercalate hfree, exists_bind_eq_ok_iff, exists_mapM_eq_ok_iff]

/-- What stands before the last unit of a predicate: nothing, or a verb and objects that can be
    read, each followed by an `e`. -/
inductive Predicate.Lead : List Word → Prop
  | verb : Predicate.Lead []
  | object {first : List Word} {later : List (List Word)}
      (hfree : ∀ piece ∈ first :: later, .e ∉ piece)
      (hread : ∃ core, Predicate.parseCore ([.e].intercalate (first :: later)) = .ok core) :
      Predicate.Lead ([.e].intercalate (first :: later) ++ [.e])

theorem Predicate.Lead.getLast? {lead : List Word} (hlead : Predicate.Lead lead) :
    lead = [] ∨ lead.getLast? = some .e := by
  cases hlead with
  | verb => exact Or.inl rfl
  | object hfree hread => exact Or.inr (by simp)

/-- If nothing can be taken off its end, a predicate is read unless its last unit ends in a `pi`
    that does not make a group by itself. -/
theorem Predicate.exists_parseCore_iff_of_closed {lead tail : List Word} {first : Word}
    (hlead : Predicate.Lead lead) (hunit : Smooth (first :: tail)) (hfirst : first ≠ .pi)
    (hclosed : Predicate.Closed (lead ++ first :: tail)) :
    (∃ core, Predicate.parseCore (lead ++ first :: tail) = .ok core) ↔
      ¬ Predicate.Dangles (lead ++ first :: tail) := by
  have he := hunit.e_not_mem
  rw [Predicate.dangles_iff_of_closed hclosed]
  cases hlead with
  | verb =>
    have hcore := Predicate.exists_parseCore_iff (List.forall_mem_singleton.mpr he)
    rw [List.intercalate_singleton] at hcore
    rw [List.nil_append, hcore, VerbPhrase.exists_parse_iff hunit (List.cons_ne_nil first tail)]
    simp only [List.not_mem_nil, false_implies, implies_true, and_true, not_iff_not]
    constructor
    · rintro ⟨hlast, hpreverb⟩
      obtain ⟨before, hbefore⟩ := List.getLast?_eq_some_iff.mp hlast
      rw [hbefore, List.dropLast_concat] at hpreverb
      exact ⟨before, hbefore, hpreverb⟩
    · rintro ⟨before, hbefore, hpreverb⟩
      rw [hbefore, List.dropLast_concat]
      exact ⟨List.getLast?_concat, hpreverb⟩
  | @object verb later hfree hread =>
    obtain ⟨hverb, hlater⟩ := (Predicate.exists_parseCore_iff hfree).mp hread
    have hfree' : ∀ piece ∈ verb :: (later ++ [first :: tail]), .e ∉ piece := by
      rw [← List.cons_append]
      exact List.forall_mem_append.mpr ⟨hfree, List.forall_mem_singleton.mpr he⟩
    have hwords : [.e].intercalate (verb :: later) ++ [.e] ++ first :: tail =
        [.e].intercalate (verb :: (later ++ [first :: tail])) := by
      simp [intercalate_cons_eq_append]
    rw [hwords, Predicate.exists_parseCore_iff hfree', ← hwords]
    have hobject := Group.exists_parse_iff hunit (List.cons_ne_nil first tail)
    constructor
    · rintro ⟨-, hobjects⟩ ⟨before, hbefore, -⟩
      refine hobject.mp (hobjects _ (by simp)) ?_
      have hlast := congrArg List.getLast? hbefore
      rw [List.getLast?_append_cons, List.getLast?_concat,
        getLast?_cons_eq_some_iff hfirst] at hlast
      exact hlast
    · intro hdangles
      refine ⟨hverb, List.forall_mem_append.mpr ⟨hlater, List.forall_mem_singleton.mpr ?_⟩⟩
      refine hobject.mpr fun hends => hdangles ?_
      obtain ⟨unit, hunit⟩ := List.getLast?_eq_some_iff.mp hends.getLast?
      refine ⟨[.e].intercalate (verb :: later) ++ [.e] ++ unit, ?_, .e, by simp, rfl⟩
      rw [hunit, List.append_assoc _ unit]

theorem Preposition.exists_parse_iff {w : Word} (hw : w.isPreposition) (noun : List Word) :
    (∃ q, Preposition.parse (w :: noun) = .ok q) ↔ ∃ g, Group.parse noun = .ok g := by
  simp only [Preposition.parse, hw, if_true, exists_map_eq_ok_iff]

/-- The words behind the marker of a predicate can be read. -/
def Predicate.Readable (body : List Word) : Prop :=
  ∃ parts core, (Predicate.detach body).result = .ok parts ∧
    Predicate.parseCore parts.1 = .ok core

theorem Predicate.readable_iff_of_closed {body : List Word} (hclosed : Predicate.Closed body) :
    Predicate.Readable body ↔ ∃ core, Predicate.parseCore body = .ok core := by
  simp [Predicate.Readable, Predicate.detach_of_closed hclosed]

/-- Taking off one phrase leaves two parts that must both be read. -/
theorem Predicate.readable_append_iff {before noun : List Word} {w : Word} (hw : w.isPreposition)
    (hnoun : ∀ v ∈ noun, v.isPreposition = false)
    (hdetachable : Predicate.isDetachable before noun) :
    Predicate.Readable (before ++ w :: noun) ↔
      (∃ g, Group.parse noun = .ok g) ∧ Predicate.Readable before := by
  rw [Predicate.Readable, Predicate.result_detach_eq, cutLast?_append_cons hw hnoun,
    ← Preposition.exists_parse_iff hw]
  simp only [hdetachable, if_true, bind_eq_ok_iff]
  constructor
  · rintro ⟨parts', core, ⟨last, hlast, parts, hparts, hpure⟩, hcore⟩
    cases hpure
    exact ⟨⟨last, hlast⟩, parts, core, hparts, hcore⟩
  · rintro ⟨⟨last, hlast⟩, parts, core, hparts, hcore⟩
    exact ⟨_, core, ⟨last, hlast, parts, hparts, rfl⟩, hcore⟩

/-- A predicate is read unless one of its `pi` loses its group to a trailing phrase. -/
theorem Predicate.readable_iff {lead tail : List Word} {first : Word}
    (hlead : Predicate.Lead lead) (hunit : Smooth (first :: tail)) (hfirst : first ≠ .pi) :
    Predicate.Readable (lead ++ first :: tail) ↔ ¬ Predicate.Dangles (lead ++ first :: tail) := by
  -- Each phrase that is taken off leaves fewer words behind the first one of the last unit.
  induction hlength : tail.length using Nat.strong_induction_on generalizing tail with
  | h length ih =>
    have hfree := hunit.e_not_mem
    by_cases hclosed : Predicate.Closed (lead ++ first :: tail)
    · rw [Predicate.readable_iff_of_closed hclosed,
        Predicate.exists_parseCore_iff_of_closed hlead hunit hfirst hclosed]
    · rw [Predicate.closed_append_iff hlead.getLast? hfree] at hclosed
      cases hcut : cutLast? Word.isPreposition tail with
      | none => exact absurd (Or.inl (cutLast?_eq_none_iff.mp hcut)) hclosed
      | some cut =>
        obtain ⟨between, w, noun⟩ := cut
        obtain ⟨rfl, hw, hnoun⟩ := cutLast?_eq_some_iff.mp hcut
        rw [keepsPrepositions_iff_eq_nil hw hnoun] at hclosed
        have hdetachable := (Predicate.isDetachable_iff_ne_nil lead hfree).mpr hclosed
        have hbetween : Smooth (first :: between) :=
          hunit.infix (List.prefix_append (first :: between) (w :: noun)).isInfix
        have hsmooth : Smooth noun := hunit.infix ⟨first :: (between ++ [w]), [], by simp⟩
        have hrest := ih between.length (by simp [← hlength]) hbetween rfl
        rw [← List.cons_append, ← List.append_assoc,
          Predicate.readable_append_iff hw hnoun hdetachable,
          Predicate.dangles_append_iff hw hnoun hdetachable,
          Group.exists_parse_iff hsmooth hclosed, hrest, not_or]

theorem Predicate.exists_parse_iff_readable {w : Word} (hw : w.isPredicateMarker)
    (body : List Word) :
    (∃ p, Predicate.parse (w :: body) = .ok p) ↔ Predicate.Readable body := by
  rw [Predicate.parse_eq, hw, if_pos rfl]
  simp only [bind_eq_ok_iff]
  constructor
  · rintro ⟨-, parts, hparts, core, hcore, -⟩
    exact ⟨parts, core, hparts, hcore⟩
  · rintro ⟨parts, core, hparts, hcore⟩
    exact ⟨_, parts, hparts, core, hcore, rfl⟩

/-- The verb and the objects before the last unit of a derived predicate can be read. -/
theorem Predicate.Grammatical.exists_lead {p : Predicate} (hp : p.Grammatical) :
    ∃ lead, Predicate.coreWords p.verb p.objects = lead ++ p.lastUnit ∧ Predicate.Lead lead ∧
      Fluent p.lastUnit := by
  cases hobjects : p.objects using List.reverseRecOn with
  | nil =>
    refine ⟨[], by simp [Predicate.coreWords, Predicate.lastUnit, hobjects], .verb, ?_⟩
    simpa [Predicate.lastUnit, hobjects] using hp.verb.fluent
  | append_singleton objects g =>
    have hgroups := hp.objects
    rw [hobjects] at hgroups
    obtain ⟨hgroups, hg⟩ := List.forall_mem_append.mp hgroups
    have hfree : ∀ piece ∈ p.verb.words :: objects.map Group.words, .e ∉ piece := by
      refine List.forall_mem_cons.mpr ⟨hp.verb.fluent.e_not_mem, List.forall_mem_map.mpr ?_⟩
      exact fun g hg => (hgroups g hg).fluent.e_not_mem
    have hverb : ∃ v, VerbPhrase.parse p.verb.words = .ok v := by
      rw [VerbPhrase.exists_parse_iff hp.verb.fluent.toSmooth p.verb.words_ne_nil]
      exact fun hends => hp.verb.fluent.last hends.1
    refine ⟨[.e].intercalate (p.verb.words :: objects.map Group.words) ++ [.e], ?_,
      .object hfree ?_, ?_⟩
    · rw [← Predicate.coreWords_eq_intercalate]
      simp [Predicate.coreWords, Predicate.lastUnit, hobjects]
    · rw [Predicate.exists_parseCore_iff hfree]
      refine ⟨hverb, List.forall_mem_map.mpr fun g hg => ?_⟩
      exact ⟨g, Group.parse_words (hgroups g hg).wellFormed⟩
    · simpa [Predicate.lastUnit, hobjects] using (hg g (by simp)).fluent

theorem Predicate.Grammatical.exists_parse_iff {p : Predicate} (hp : p.Grammatical) :
    (∃ q, Predicate.parse p.words = .ok q) ↔ ¬ Predicate.Dangles p.words.tail := by
  obtain ⟨lead, hcore, hlead, hlast⟩ := hp.exists_lead
  have hprepositions : Fluent (p.prepositions.flatMap Preposition.words) :=
    Fluent.flatMap fun q hq => (hp.prepositions q hq).fluent
  have hunit := hlast.append hprepositions
  have hne : p.lastUnit ++ p.prepositions.flatMap Preposition.words ≠ [] :=
    List.append_ne_nil_of_left_ne_nil p.lastUnit_ne_nil _
  have hbody : p.words.tail =
      lead ++ (p.lastUnit ++ p.prepositions.flatMap Preposition.words) := by
    rw [Predicate.words, hcore]
    simp
  have hwords : p.words = p.marker :: p.words.tail := rfl
  rw [hwords, Predicate.exists_parse_iff_readable p.isPredicateMarker_marker, List.tail_cons, hbody]
  obtain ⟨first, tail, hfirst⟩ := List.exists_cons_of_ne_nil hne
  rw [hfirst] at hunit ⊢
  exact Predicate.readable_iff hlead hunit.toSmooth (by simpa using hunit.head)

/-- Between the marker of a derived predicate and its end, only an `e` is a particle. -/
theorem Predicate.Grammatical.eq_e_of_isParticle {p : Predicate} (hp : p.Grammatical) :
    ∀ w ∈ p.words.tail, w.isParticle → w = .e := by
  intro w hw hparticle
  simp only [Predicate.words, Predicate.coreWords, List.cons_append, List.tail_cons,
    List.mem_append, List.mem_flatMap, List.mem_cons] at hw
  rcases hw with (hw | ⟨g, hg, rfl | hw⟩) | ⟨q, hq, hw⟩
  · simp [hp.verb.fluent.particle w hw] at hparticle
  · rfl
  · simp [(hp.objects g hg).fluent.particle w hw] at hparticle
  · simp [(hp.prepositions q hq).fluent.particle w hw] at hparticle

theorem Predicate.Grammatical.isRun {p : Predicate} (hp : p.Grammatical) :
    IsRun Word.isPredicateMarker p.words := by
  refine ⟨p.isPredicateMarker_marker, fun w hw => ?_⟩
  rw [Bool.eq_false_iff]
  intro hmarker
  rw [hp.eq_e_of_isParticle w hw (Word.isParticle_of_isPredicateMarker hmarker)] at hmarker
  cases hmarker

theorem Clause.Grammatical.la_not_mem {c : Clause} (hc : c.Grammatical) : .la ∉ c.words := by
  intro hla
  simp only [Clause.words, List.mem_append, List.mem_flatMap] at hla
  rcases hla with hla | ⟨p, hp, hla⟩
  · cases Group.isParticle_joined (fun g hg => (hc.subjects.2 g hg).wellFormed) rfl .la hla
  · rcases List.mem_cons.mp hla with hla | hla
    · have hmarker := p.isPredicateMarker_marker
      rw [← hla] at hmarker
      cases hmarker
    · cases (hc.predicates.2 p hp).eq_e_of_isParticle .la hla rfl

/-- The subjects of a derived clause are always read. -/
theorem Clause.Grammatical.parseSubjects_words {c : Clause} (hc : c.Grammatical) :
    Clause.parseSubjects c.words = .ok (c.subjects, c.predicates.flatMap Predicate.words) := by
  obtain ⟨hne, hsubjects⟩ := hc.subjects
  obtain ⟨p, predicates, hpredicates⟩ := List.exists_cons_of_ne_nil hc.predicates.1
  have hwords : c.predicates.flatMap Predicate.words =
      p.marker :: (p.words.tail ++ predicates.flatMap Predicate.words) := by
    rw [hpredicates]
    rfl
  have hwellFormed : ∀ g ∈ c.subjects, g.WellFormed := fun g hg => (hsubjects g hg).wellFormed
  have hfree : ∀ w ∈ Group.joined .en c.subjects, w.isPredicateMarker = false := fun w hw =>
    Word.isPredicateMarker_of_not_isParticle (Group.isParticle_joined hwellFormed rfl w hw)
  have hread := (Group.mapM_parse_splitOn_eq_ok_iff .en _ c.subjects).mpr
    ⟨hne, rfl, fun g hg => ⟨hwellFormed g hg, (hsubjects g hg).en_not_mem⟩⟩
  rw [Clause.words, hwords, Clause.parseSubjects_marked (Group.joined_ne_nil hne) hfree
    p.isPredicateMarker_marker, hread]
  rfl

/-- Only a predicate can keep a derived clause from being read. -/
theorem Clause.Grammatical.exists_parse_iff {c : Clause} (hc : c.Grammatical) (fragment : Bool) :
    (∃ d, Clause.parse fragment c.words = .ok d) ↔
      ∀ p ∈ c.predicates, ¬ Predicate.Dangles p.words.tail := by
  obtain ⟨hne, hpredicates⟩ := hc.predicates
  have hruns : runs Word.isPredicateMarker (c.predicates.flatMap Predicate.words) =
      c.predicates.map Predicate.words := by
    rw [List.flatMap_def]
    exact runs_flatten (List.forall_mem_map.mpr fun p hp => (hpredicates p hp).isRun)
  have hread : (∃ predicates, (c.predicates.map Predicate.words).mapM Predicate.parse =
      .ok predicates) ↔ ∀ p ∈ c.predicates, ¬ Predicate.Dangles p.words.tail := by
    rw [exists_mapM_eq_ok_iff, List.forall_mem_map]
    exact forall₂_congr fun p hp => (hpredicates p hp).exists_parse_iff
  have hsome {predicates : List Predicate}
      (hparse : (c.predicates.map Predicate.words).mapM Predicate.parse = .ok predicates) :
      predicates ≠ [] := by
    rintro rfl
    obtain ⟨p, later, heq⟩ := List.exists_cons_of_ne_nil hne
    simp only [heq, List.map_cons, List.mapM_cons, bind_eq_ok_iff] at hparse
    obtain ⟨q, hq, later', hlater, hnil⟩ := hparse
    cases hnil
  rw [← hread]
  simp only [Clause.parse_eq_ok_iff_parts, hc.parseSubjects_words]
  constructor
  · rintro ⟨d, rest, heq, hparse, -⟩
    obtain ⟨-, rfl⟩ := Prod.mk.inj (Except.ok.inj heq)
    exact ⟨d.predicates, hruns ▸ hparse⟩
  · rintro ⟨predicates, hparse⟩
    exact ⟨⟨c.subjects, predicates⟩, _, rfl, hruns ▸ hparse, Or.inl (hsome hparse)⟩

/-- A derived sentence in a context is read if the context and the clause are. -/
theorem Sentence.exists_parse_append_iff (fragment : Bool) (before : List Word) {c : Clause}
    (hc : c.Grammatical) :
    (∃ t, Sentence.parse fragment (before ++ .la :: c.words) = .ok t) ↔
      (∃ context, Context.parse before = .ok context) ∧
        ∀ p ∈ c.predicates, ¬ Predicate.Dangles p.words.tail := by
  rw [← hc.exists_parse_iff fragment, Sentence.parse_append_la fragment before hc.la_not_mem]
  exact exists_bind_eq_ok_iff

theorem Group.Grammatical.exists_parse_context {g : Group} (hg : g.Grammatical) :
    ∃ context, Context.parse g.words = .ok context := by
  have hne : g.words.isEmpty = false := by simpa using g.words_ne_nil
  refine ⟨.nounPhrase g, ?_⟩
  rw [Context.parse_eq, hne, if_neg Bool.false_ne_true, if_neg hg.wellFormed.not_isSentence,
    Group.parse_words hg.wellFormed]
  rfl

theorem Sentence.Grammatical.isSentence {s : Sentence} (hs : s.Grammatical) :
    Context.isSentence s.words := by
  rw [Context.isSentence_iff]
  cases s with
  | plain c =>
    obtain ⟨p, predicates, heq⟩ := List.exists_cons_of_ne_nil (Clause.Grammatical.predicates hs).1
    refine Or.inr ⟨p.marker, ?_, p.isPredicateMarker_marker⟩
    simp [Sentence.words, Clause.words, heq, Predicate.words]
  | afterPhrase g c => exact Or.inl (by simp [Sentence.words])
  | afterSentence s c => exact Or.inl (by simp [Sentence.words])

theorem Sentence.Grammatical.exists_parse_context_iff {s : Sentence} (hs : s.Grammatical) :
    (∃ context, Context.parse s.words = .ok context) ↔
      ∃ t, Sentence.parse true s.words = .ok t := by
  have hsentence := hs.isSentence
  have hne : s.words.isEmpty = false := by
    rw [Bool.eq_false_iff, ne_eq, List.isEmpty_iff]
    intro hnil
    rw [hnil] at hsentence
    cases hsentence
  rw [Context.parse_eq, hne, if_neg Bool.false_ne_true, if_pos hsentence, exists_map_eq_ok_iff]

/-- A sentence of the grammar is read, as this or another tree, exactly if no `pi` in a predicate
    loses its group to a trailing prepositional phrase. -/
theorem Sentence.exists_parse_words_iff (fragment : Bool) (s : Sentence) (hs : s.Grammatical) :
    (∃ t, Sentence.parse fragment s.words = .ok t) ↔
      ∀ p ∈ s.allPredicates, ¬ Predicate.Dangles p.words.tail := by
  induction s generalizing fragment with
  | plain c =>
    rw [Sentence.words, Sentence.parse_eq,
      cutLast?_beq_of_not_mem (Clause.Grammatical.la_not_mem hs), Sentence.allPredicates,
      ← Clause.Grammatical.exists_parse_iff hs fragment]
    exact exists_map_eq_ok_iff
  | afterPhrase g c =>
    rw [Sentence.words, Sentence.exists_parse_append_iff fragment g.words hs.2,
      and_iff_right hs.1.exists_parse_context, Sentence.allPredicates]
  | afterSentence s c ih =>
    rw [Sentence.words, Sentence.exists_parse_append_iff fragment s.words hs.2,
      hs.1.exists_parse_context_iff, ih true hs.1, Sentence.allPredicates, List.forall_mem_append]

/-- Both sides at a verb that ends in `pi tawa`, where nothing can be taken off, and neither at
    one that ends in `pi tawa jan`. -/
theorem Sentence.exists_parse_words_iff_of_pi_tawa :
    let derived (of : Group) : Sentence :=
      .plain ⟨[.flat .jan []], [⟨false, ⟨[], .pi .moku [] of⟩, [], []⟩]⟩
    let free := derived (.flat .tawa [])
    let cut := derived (.flat .tawa [.jan])
    (free.Grammatical ∧ ∀ p ∈ free.allPredicates, ¬ Predicate.Dangles p.words.tail) ∧
      cut.Grammatical ∧ ¬ ∃ t, Sentence.parse false cut.words = .ok t := by
  intro derived free cut
  have hfree : free.Grammatical := by decide
  have hcut : cut.Grammatical := by decide
  refine ⟨⟨hfree, (Sentence.exists_parse_words_iff false free hfree).mp ⟨free, by cbv⟩⟩, hcut, ?_⟩
  rw [Sentence.exists_parse_words_iff false cut hcut]
  intro hnone
  have hphrase : Predicate.TrailsOff ([] ++ .tawa :: [.jan]) :=
    .phrase .nil rfl (by simp) (by decide)
  refine hnone _ (List.mem_singleton.mpr rfl) ⟨[], .moku, [.tawa, .jan], rfl, hphrase, ?_⟩
  simp [Predicate.Frees, Word.isPreposition, Word.isPreverb]

/-- The grammar has `jan li moku pi tawa jan`, in which `tawa jan` belongs to the verb, and it is
    refused for the group that is then missing behind `pi`. -/
theorem Sentence.grammatical_refused :
    ∃ s : Sentence, s.Grammatical ∧ s.words = [.jan, .li, .moku, .pi, .tawa, .jan] ∧
      Sentence.parse false s.words = .error .emptyNounPhrase := by
  refine ⟨.plain ⟨[.flat .jan []], [⟨false, ⟨[], .pi .moku [] (.flat .tawa [.jan])⟩, [], []⟩]⟩,
    by decide, rfl, ?_⟩
  cbv

end TokiPona
