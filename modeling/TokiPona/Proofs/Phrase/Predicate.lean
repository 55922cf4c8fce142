import Mathlib.Data.List.Basic
import Mathlib.Data.List.Induction
import TokiPona.Phrase.Reading
import TokiPona.Proofs.Phrase.Group

namespace TokiPona

/-- No prepositional phrase can be taken off the end of the words. -/
def Predicate.Closed (words : List Word) : Prop :=
  ∀ before w behind, cutLast? Word.isPreposition words = some (before, w, behind) →
    Predicate.isDetachable before behind = false

theorem Predicate.isDetachable_iff (before behind : List Word) :
    Predicate.isDetachable before behind ↔
      behind ≠ [] ∧ .e ∉ behind ∧ before ≠ [] ∧ before.getLast? ≠ some .e := by
  simp [Predicate.isDetachable, and_assoc]

theorem Predicate.detach_of_closed {words : List Word} (hclosed : Predicate.Closed words) :
    (Predicate.detach words).result = .ok (words, []) := by
  rw [Predicate.result_detach_eq]
  split
  · rfl
  · next before w behind hcut => simp [hclosed before w behind hcut]

/-- Taking phrases off loses no word and stops only when nothing more can be taken off. -/
theorem Predicate.append_of_detach {words core : List Word} {phrases : List Preposition}
    (hdetach : (Predicate.detach words).result = .ok (core, phrases)) :
    core ++ phrases.flatMap Preposition.words = words ∧ (∀ p ∈ phrases, p.WellFormed) ∧
      Predicate.Closed core := by
  induction words using Predicate.detach.induct generalizing core phrases with
  | case1 words hcut =>
    rw [Predicate.result_detach_eq, hcut] at hdetach
    cases hdetach
    refine ⟨by simp, by simp, ?_⟩
    intro before w behind hsome
    rw [hcut] at hsome
    cases hsome
  | case2 words before w behind hcut hdetachable ih =>
    rw [Predicate.result_detach_eq, hcut] at hdetach
    simp only [hdetachable, if_true, bind_eq_ok_iff] at hdetach
    obtain ⟨last, hlast, ⟨core', earlier⟩, hearlier, hpair⟩ := hdetach
    cases hpair
    obtain ⟨hwords, hwellFormed, hclosed⟩ := ih hearlier
    obtain ⟨hlastWords, hpreposition, hnoun⟩ := (Preposition.parse_eq_ok_iff _ last).mp hlast
    obtain ⟨hsplit, -, hplain⟩ := cutLast?_eq_some_iff.mp hcut
    have hlastWellFormed : last.WellFormed := by
      cases hlastWords
      exact ⟨hpreposition, hnoun, hplain⟩
    refine ⟨?_, List.forall_mem_append.mpr ⟨hwellFormed, by simpa using hlastWellFormed⟩, hclosed⟩
    rw [List.flatMap_append, ← List.append_assoc, hwords, List.flatMap_singleton, hlastWords,
      hsplit]
  | case3 words before w behind hcut hdetachable =>
    rw [Predicate.result_detach_eq, hcut] at hdetach
    simp only [hdetachable, if_false, Bool.false_eq_true] at hdetach
    cases hdetach
    refine ⟨by simp, by simp, ?_⟩
    intro before' w' behind' hsome
    rw [hcut] at hsome
    cases hsome
    simpa using hdetachable

/-- Words that are taken off when they stand at the end of a predicate: a preposition word and
    behind it words that are none. They need not be a noun phrase. -/
structure Predicate.Removable (phrase : Word × List Word) : Prop where
  preposition : phrase.1.isPreposition
  plain : ∀ w ∈ phrase.2, w.isPreposition = false
  nonempty : phrase.2 ≠ []
  unbroken : .e ∉ phrase.2

/-- Behind words that are closed and leave room for a phrase, all phrases are taken off, the last
    one first, and the first of them that cannot be read ends the reading. -/
theorem Predicate.result_detach_append {core : List Word} {phrases : List (Word × List Word)}
    (hclosed : Predicate.Closed core)
    (hcore : phrases ≠ [] → core ≠ [] ∧ core.getLast? ≠ some .e)
    (hphrases : ∀ phrase ∈ phrases, Predicate.Removable phrase) :
    (Predicate.detach (core ++ joinEach phrases)).result =
      (phrases.reverse.mapM fun phrase => Preposition.parse (phrase.1 :: phrase.2)).map
        fun taken => (core, taken.reverse) := by
  induction phrases using List.reverseRecOn with
  | nil =>
    rw [joinEach, List.flatMap_nil, List.append_nil, Predicate.detach_of_closed hclosed]
    rfl
  | append_singleton phrases last ih =>
    obtain ⟨hphrases, hlastPhrase⟩ := List.forall_mem_append.mp hphrases
    obtain ⟨hpreposition, hplain, hnonempty, hunbroken⟩ :=
      hlastPhrase last (List.mem_singleton_self last)
    obtain ⟨hne, hlast⟩ := hcore (by simp)
    have hbefore : (core ++ joinEach phrases).getLast? ≠ some .e := by
      intro he
      rw [List.getLast?_append, Option.or_eq_some_iff] at he
      rcases he with he | ⟨-, he⟩
      · obtain ⟨phrase, hmem, hword⟩ := List.mem_flatMap.mp (List.mem_of_getLast? he)
        have hphrase := hphrases phrase hmem
        rcases List.mem_cons.mp hword with hword | hword
        · cases hword ▸ hphrase.preposition
        · exact hphrase.unbroken hword
      · exact hlast he
    have hdetachable : Predicate.isDetachable (core ++ joinEach phrases) last.2 :=
      (Predicate.isDetachable_iff _ _).mpr ⟨hnonempty, hunbroken, by simp [hne], hbefore⟩
    have hjoin : core ++ joinEach (phrases ++ [last]) =
        core ++ joinEach phrases ++ last.1 :: last.2 := by
      simp [joinEach]
    rw [hjoin, Predicate.result_detach_eq, cutLast?_append_cons hpreposition hplain]
    simp only [hdetachable, if_true, ih (fun _ => ⟨hne, hlast⟩) hphrases, List.reverse_append,
      List.reverse_singleton, List.singleton_append, List.mapM_cons]
    cases Preposition.parse (last.1 :: last.2) with
    | error e => rfl
    | ok p =>
      cases phrases.reverse.mapM fun phrase => Preposition.parse (phrase.1 :: phrase.2) with
      | error e => rfl
      | ok taken => simp [Except.map, pure, Except.pure]

/-- A phrase as it stands among the words. -/
def Preposition.cut (p : Preposition) : Word × List Word := (p.preposition, p.noun.words)

theorem Preposition.parse_cut_eq_ok_iff (phrase : Word × List Word) (p : Preposition) :
    Preposition.parse (phrase.1 :: phrase.2) = .ok p ↔
      p.cut = phrase ∧ p.preposition.isPreposition ∧ p.noun.WellFormed := by
  rw [Preposition.parse_eq_ok_iff, Preposition.words, List.cons.injEq, Preposition.cut,
    Prod.ext_iff]

theorem Preposition.WellFormed.removable {p : Preposition} (hp : p.WellFormed) :
    Predicate.Removable p.cut :=
  ⟨hp.preposition, hp.plain, p.noun.words_ne_nil, fun he => by cases hp.noun.isParticle .e he⟩

/-- Behind a closed verb with its objects, exactly the trailing phrases are taken off. -/
theorem Predicate.detach_append {core : List Word} {phrases : List Preposition}
    (hclosed : Predicate.Closed core) (hne : core ≠ []) (hlast : core.getLast? ≠ some .e)
    (hphrases : ∀ p ∈ phrases, p.WellFormed) :
    (Predicate.detach (core ++ phrases.flatMap Preposition.words)).result =
      .ok (core, phrases) := by
  have hread : (phrases.map Preposition.cut).reverse.mapM
      (fun phrase => Preposition.parse (phrase.1 :: phrase.2)) = .ok phrases.reverse :=
    (mapM_eq_ok_iff (fun phrase _ => Preposition.parse_cut_eq_ok_iff phrase) _).mpr
      ⟨List.map_reverse, fun p hp =>
        let hp := hphrases p (List.mem_reverse.mp hp)
        ⟨hp.preposition, hp.noun⟩⟩
  have hjoin : joinEach (phrases.map Preposition.cut) = phrases.flatMap Preposition.words := by
    rw [joinEach, List.flatMap_map]
    rfl
  rw [← hjoin, Predicate.result_detach_append hclosed (fun _ => ⟨hne, hlast⟩)
    (List.forall_mem_map.mpr fun p hp => (hphrases p hp).removable), hread]
  exact congrArg (fun taken => Except.ok (core, taken)) phrases.reverse_reverse

theorem Predicate.coreWords_of_parseCore {words : List Word} {verb : VerbPhrase}
    {objects : List Group} (hparse : Predicate.parseCore words = .ok (verb, objects)) :
    Predicate.coreWords verb objects = words ∧ verb.WellFormed ∧ ∀ g ∈ objects, g.WellFormed := by
  unfold Predicate.parseCore at hparse
  split at hparse
  · simp only [bind_eq_ok_iff, VerbPhrase.parse_eq_ok_iff] at hparse
    obtain ⟨v, ⟨rfl, hv⟩, hpair⟩ := hparse
    cases hpair
    exact ⟨by simp [Predicate.coreWords], hv, by simp⟩
  · next mark rest hdrop =>
    simp only [bind_eq_ok_iff, VerbPhrase.parse_eq_ok_iff,
      Group.mapM_parse_splitOn_eq_ok_iff] at hparse
    obtain ⟨v, ⟨hverb, hv⟩, gs, ⟨hne, rfl, hgs⟩, hpair⟩ := hparse
    cases hpair
    have hmark : mark = .e := by
      have hhead := List.head?_dropWhile_not (· != .e) words
      simpa [hdrop] using hhead
    refine ⟨?_, hv, fun g hg => (hgs g hg).1⟩
    calc Predicate.coreWords verb objects
        = verb.words ++ .e :: Group.joined .e objects := by
          rw [Predicate.coreWords, Group.cons_joined hne]
      _ = words.takeWhile (· != .e) ++ words.dropWhile (· != .e) := by rw [hverb, hdrop, hmark]
      _ = words := List.takeWhile_append_dropWhile

/-- The words between the `e` of a predicate are read by themselves, the first of them as a verb
    phrase. -/
theorem Predicate.parseCore_intercalate {first : List Word} {later : List (List Word)}
    (hfree : ∀ piece ∈ first :: later, .e ∉ piece) :
    Predicate.parseCore ([.e].intercalate (first :: later)) = (do
      let verb ← VerbPhrase.parse first
      let objects ← later.mapM Group.parse
      pure (verb, objects)) := by
  obtain ⟨hfirst, hlater⟩ := List.forall_mem_cons.mp hfree
  have hbefore : ∀ w ∈ first, w != .e := by
    intro w hw
    rw [bne_iff_ne]
    rintro rfl
    exact hfirst hw
  cases later with
  | nil =>
    have hdrop : first.dropWhile (· != .e) = [] := List.dropWhile_eq_nil_iff.mpr hbefore
    rw [List.intercalate_singleton, Predicate.parseCore, hdrop]
    rfl
  | cons next later =>
    have hdrop : ([.e].intercalate (first :: next :: later)).dropWhile (· != .e) =
        .e :: [.e].intercalate (next :: later) := by
      rw [List.intercalate_cons_cons, List.append_assoc, List.dropWhile_append_of_pos hbefore]
      rfl
    have htake : ([.e].intercalate (first :: next :: later)).takeWhile (· != .e) = first := by
      rw [List.intercalate_cons_cons, List.append_assoc, List.takeWhile_append_of_pos hbefore]
      simp
    rw [Predicate.parseCore, hdrop]
    simp only [htake, List.splitOn_intercalate .e hlater (List.cons_ne_nil next later)]

theorem Predicate.coreWords_eq_intercalate (verb : VerbPhrase) (objects : List Group) :
    Predicate.coreWords verb objects =
      [.e].intercalate (verb.words :: objects.map Group.words) := by
  rw [intercalate_cons_eq_append, List.flatMap_map]
  rfl

theorem Predicate.parseCore_coreWords {verb : VerbPhrase} {objects : List Group}
    (hverb : verb.WellFormed) (hobjects : ∀ g ∈ objects, g.WellFormed) :
    Predicate.parseCore (Predicate.coreWords verb objects) = .ok (verb, objects) := by
  have hfree : ∀ piece ∈ verb.words :: objects.map Group.words, .e ∉ piece := by
    refine List.forall_mem_cons.mpr ⟨?_, List.forall_mem_map.mpr fun g hg => ?_⟩
    · exact fun he => by cases hverb.isParticle .e he
    · exact fun he => by cases (hobjects g hg).isParticle .e he
  have hreadVerb := (VerbPhrase.parse_eq_ok_iff _ verb).mpr ⟨rfl, hverb⟩
  have hreadObjects : (objects.map Group.words).mapM Group.parse = .ok objects :=
    (mapM_eq_ok_iff (fun piece _ => Group.parse_eq_ok_iff piece) objects).mpr ⟨rfl, hobjects⟩
  rw [Predicate.coreWords_eq_intercalate, Predicate.parseCore_intercalate hfree, hreadVerb,
    hreadObjects]
  rfl

/-- The words of a verb and its objects end in those of the last of them, and only an `e` can
    stand right before these. -/
theorem Predicate.exists_lead (p : Predicate) :
    ∃ lead, Predicate.coreWords p.verb p.objects = lead ++ p.lastUnit ∧
      (lead = [] ∨ lead.getLast? = some .e) := by
  cases hobjects : p.objects using List.reverseRecOn with
  | nil => exact ⟨[], by simp [Predicate.coreWords, Predicate.lastUnit, hobjects], Or.inl rfl⟩
  | append_singleton objects g =>
    refine ⟨Predicate.coreWords p.verb objects ++ [.e], ?_, by simp⟩
    simp [Predicate.coreWords, Predicate.lastUnit, hobjects]

theorem Predicate.lastUnit_ne_nil (p : Predicate) : p.lastUnit ≠ [] := by
  unfold Predicate.lastUnit
  split
  · next g _ => exact g.words_ne_nil
  · exact p.verb.words_ne_nil

theorem Predicate.WellFormed.e_not_mem_lastUnit {p : Predicate} (hp : p.WellFormed) :
    .e ∉ p.lastUnit := by
  unfold Predicate.lastUnit
  intro he
  split at he
  · next g hlast => cases (hp.objects g (List.mem_of_getLast? hlast)).isParticle .e he
  · cases hp.verb.isParticle .e he

/-- Only the last unit decides what can be taken off: a preposition before its second word has an
    `e` behind it, or nothing before it but an `e`. -/
theorem Predicate.closed_append_of_plain {lead tail : List Word} {first : Word}
    (hlead : lead = [] ∨ lead.getLast? = some .e)
    (htail : ∀ w ∈ tail, w.isPreposition = false) :
    Predicate.Closed (lead ++ first :: tail) := by
  intro before w behind hcut
  obtain ⟨hsplit, hw, -⟩ := cutLast?_eq_some_iff.mp hcut
  rw [Bool.eq_false_iff]
  intro hdetachable
  obtain ⟨-, hbehind, hbefore, hlast⟩ := (Predicate.isDetachable_iff before behind).mp hdetachable
  have hne : before ≠ lead := by
    rintro rfl
    exact hlead.elim hbefore hlast
  -- The cut is before the end of `lead` or behind it, since `hne` rules out the end itself.
  rcases List.append_eq_append_iff.mp hsplit with
    ⟨between, hbetween, hrest⟩ | ⟨between, hbetween, hrest⟩
  · cases between with
    | nil => exact hne (by simpa using hbetween.symm)
    | cons x between =>
      obtain ⟨rfl, rfl⟩ := List.cons.inj hrest
      have he : (before ++ w :: between).getLast? = some .e := by
        rw [← hbetween]
        exact hlead.resolve_left (by simp [hbetween])
      rw [List.getLast?_append_cons] at he
      rcases List.mem_cons.mp (List.mem_of_getLast? he) with rfl | he
      · cases hw
      · exact hbehind (List.mem_append_left _ he)
  · cases between with
    | nil => exact hne (by simpa using hbetween)
    | cons x between =>
      obtain ⟨-, rfl⟩ := List.cons.inj hrest
      simp [htail w (by simp)] at hw

/-- A preposition behind the first word of the last unit can be taken off if words follow it. -/
theorem Predicate.isDetachable_iff_ne_nil (lead : List Word) {between behind : List Word}
    {first w : Word} (hfree : .e ∉ first :: (between ++ w :: behind)) :
    Predicate.isDetachable (lead ++ first :: between) behind ↔ behind ≠ [] := by
  rw [Predicate.isDetachable_iff]
  constructor
  · rintro ⟨hne, -⟩
    exact hne
  · intro hne
    refine ⟨hne, ?_, by simp, ?_⟩
    · intro he
      exact hfree (by simp [he])
    · intro he
      rw [List.getLast?_append_cons] at he
      have hmem := List.mem_of_getLast? he
      rw [← List.cons_append] at hfree
      exact hfree (List.mem_append_left _ hmem)

theorem keepsPrepositions_iff_eq_nil {between behind : List Word} {first w : Word}
    (hw : w.isPreposition) (hbehind : ∀ v ∈ behind, v.isPreposition = false) :
    KeepsPrepositions (first :: (between ++ w :: behind)) ↔ behind = [] := by
  rw [KeepsPrepositions, List.tail_cons, List.getLast?_append_cons]
  constructor
  · rintro (hplain | hlast)
    · simp [hplain w (by simp)] at hw
    · by_contra hne
      obtain ⟨v, hv⟩ := Option.ne_none_iff_exists'.mp (mt List.getLast?_eq_none_iff.mp hne)
      rw [List.getLast?_cons_of_ne_nil hne, hv, Option.any_some,
        hbehind v (List.mem_of_getLast? hv)] at hlast
      cases hlast
  · rintro rfl
    exact Or.inr hw

/-- The words of a verb and its objects are closed exactly if the last unit keeps its
    prepositions. -/
theorem Predicate.closed_append_iff {lead tail : List Word} {first : Word}
    (hlead : lead = [] ∨ lead.getLast? = some .e) (hfree : .e ∉ first :: tail) :
    Predicate.Closed (lead ++ first :: tail) ↔ KeepsPrepositions (first :: tail) := by
  cases hcut : cutLast? Word.isPreposition tail with
  | none =>
    have htail := cutLast?_eq_none_iff.mp hcut
    exact iff_of_true (Predicate.closed_append_of_plain hlead htail) (Or.inl htail)
  | some cut =>
    obtain ⟨between, w, behind⟩ := cut
    obtain ⟨rfl, hw, hbehind⟩ := cutLast?_eq_some_iff.mp hcut
    have hwhole : cutLast? Word.isPreposition (lead ++ first :: (between ++ w :: behind)) =
        some (lead ++ first :: between, w, behind) := by
      rw [cutLast?_eq_some_iff]
      exact ⟨by simp, hw, hbehind⟩
    have hdetachable := Predicate.isDetachable_iff_ne_nil lead hfree
    rw [keepsPrepositions_iff_eq_nil hw hbehind]
    constructor
    · intro hclosed
      by_contra hne
      have hnot := hclosed _ _ _ hwhole
      rw [hdetachable.mpr hne] at hnot
      cases hnot
    · intro hnil before' w' behind' hcut'
      rw [hwhole] at hcut'
      cases hcut'
      rw [Bool.eq_false_iff]
      exact fun hdetach => hdetachable.mp hdetach hnil

theorem Predicate.closed_coreWords_iff {p : Predicate} (hp : p.WellFormed) :
    Predicate.Closed (Predicate.coreWords p.verb p.objects) ↔ p.Settled := by
  obtain ⟨lead, hwords, hlead⟩ := p.exists_lead
  obtain ⟨first, tail, hunit⟩ := List.exists_cons_of_ne_nil p.lastUnit_ne_nil
  have hfree := hp.e_not_mem_lastUnit
  rw [hunit] at hfree
  rw [Predicate.Settled, hwords, hunit, Predicate.closed_append_iff hlead hfree]

/-- A verb with its objects leaves room for a phrase behind it. -/
theorem Predicate.WellFormed.getLast?_coreWords_ne {p : Predicate} (hp : p.WellFormed) :
    (Predicate.coreWords p.verb p.objects).getLast? ≠ some .e := by
  obtain ⟨lead, hwords, -⟩ := p.exists_lead
  obtain ⟨first, tail, hunit⟩ := List.exists_cons_of_ne_nil p.lastUnit_ne_nil
  rw [hwords, hunit, List.getLast?_append_cons, ← hunit]
  intro he
  exact hp.e_not_mem_lastUnit (List.mem_of_getLast? he)

theorem Predicate.coreWords_ne_nil (p : Predicate) :
    Predicate.coreWords p.verb p.objects ≠ [] := by
  simp [Predicate.coreWords, p.verb.words_ne_nil]

/-- A run without a marker is read like one that begins with `li`. -/
theorem Predicate.parse_li_cons {w : Word} (hw : w.isPredicateMarker = false) (rest : List Word) :
    Predicate.parse (.li :: w :: rest) = Predicate.parse (w :: rest) := by
  have ho : (w == .o) = false := by
    rw [beq_eq_false_iff_ne]
    rintro rfl
    cases hw
  simp only [Predicate.parse_eq, hw, ho]
  rfl

theorem Predicate.marker_eq_iff (p : Predicate) {w : Word} (hw : w.isPredicateMarker) :
    p.marker = w ↔ p.imperative = (w == .o) := by
  rcases Word.eq_li_or_eq_o hw with rfl | rfl
  · cases himperative : p.imperative <;> simp [Predicate.marker, himperative]
  · cases himperative : p.imperative <;> simp [Predicate.marker, himperative]

/-- A predicate is read from its own words and from no others, and only if it is well formed and
    settled. -/
theorem Predicate.parse_eq_ok_iff {w : Word} (hw : w.isPredicateMarker) (rest : List Word)
    (p : Predicate) :
    Predicate.parse (w :: rest) = .ok p ↔ p.words = w :: rest ∧ p.WellFormed ∧ p.Settled := by
  rw [Predicate.parse_eq, hw, if_pos rfl]
  constructor
  · intro hparse
    simp only [bind_eq_ok_iff] at hparse
    obtain ⟨⟨core, phrases⟩, hdetach, ⟨verb, objects⟩, hcore, hp⟩ := hparse
    cases hp
    obtain ⟨rfl, hphrases, hclosed⟩ := Predicate.append_of_detach hdetach
    obtain ⟨rfl, hverb, hobjects⟩ := Predicate.coreWords_of_parseCore hcore
    have hwellFormed : Predicate.WellFormed ⟨w == .o, verb, objects, phrases⟩ :=
      ⟨hverb, hobjects, hphrases⟩
    refine ⟨?_, hwellFormed, (Predicate.closed_coreWords_iff hwellFormed).mp hclosed⟩
    rw [Predicate.words, (Predicate.marker_eq_iff _ hw).mpr rfl]
    rfl
  · rintro ⟨hwords, hp, hsettled⟩
    rw [Predicate.words, List.cons_append, List.cons.injEq] at hwords
    obtain ⟨hmarker, rfl⟩ := hwords
    have hdetach := Predicate.detach_append ((Predicate.closed_coreWords_iff hp).mpr hsettled)
      p.coreWords_ne_nil hp.getLast?_coreWords_ne hp.prepositions
    have hcore := Predicate.parseCore_coreWords hp.verb hp.objects
    rw [← (Predicate.marker_eq_iff p hw).mp hmarker]
    exact bind_eq_ok_iff.mpr ⟨_, hdetach, bind_eq_ok_iff.mpr ⟨_, hcore, rfl⟩⟩

end TokiPona
