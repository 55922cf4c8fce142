import TokiPona.Proofs.Phrase.Predicate

namespace TokiPona

/-- Puts `sina` in front of a leading `o`. -/
def Clause.withSubject : List Word → List Word
  | .o :: rest => .sina :: .o :: rest
  | words => words

/-- Puts `li` behind a leading `mi` or `sina` if other words follow, none of them a marker. -/
def Clause.withMarker : List Word → List Word
  | w :: next :: rest =>
    if w.isBarePronoun && !(w :: next :: rest).any Word.isPredicateMarker then
      w :: .li :: next :: rest
    else w :: next :: rest
  | words => words

/-- The words of a clause with those that it leaves out. -/
def Clause.writtenOut (words : List Word) : List Word :=
  Clause.withMarker (Clause.withSubject words)

/-- The parts of a clause that is read. -/
theorem Clause.parse_eq_ok_iff_parts (fragment : Bool) (words : List Word) (c : Clause) :
    Clause.parse fragment words = .ok c ↔
      ∃ rest, Clause.parseSubjects words = .ok (c.subjects, rest) ∧
        (runs Word.isPredicateMarker rest).mapM Predicate.parse = .ok c.predicates ∧
        (c.predicates ≠ [] ∨ fragment = true) := by
  rw [Clause.parse_eq]
  simp only [bind_eq_ok_iff]
  constructor
  · rintro ⟨⟨subjects, rest⟩, hsubjects, predicates, hpredicates, hclause⟩
    split at hclause
    · cases hclause
    · next hcomplete =>
      cases hclause
      refine ⟨rest, hsubjects, hpredicates, ?_⟩
      cases fragment <;> simp_all
  · rintro ⟨rest, hsubjects, hpredicates, hcomplete⟩
    refine ⟨(c.subjects, rest), hsubjects, c.predicates, hpredicates, ?_⟩
    rw [if_neg]
    · rfl
    · cases fragment <;> simp_all

/-- Before a marker stand the subjects, joined by `en`. -/
theorem Clause.parseSubjects_marked {before : List Word} {marker : Word} (hne : before ≠ [])
    (hbefore : ∀ w ∈ before, w.isPredicateMarker = false) (hmarker : marker.isPredicateMarker)
    (rest : List Word) :
    Clause.parseSubjects (before ++ marker :: rest) =
      ((before.splitOn .en).mapM Group.parse).map (fun subjects => (subjects, marker :: rest)) := by
  have hfree : ∀ w ∈ before, !w.isPredicateMarker := by simpa using hbefore
  have htake : (before ++ marker :: rest).takeWhile (!·.isPredicateMarker) = before := by
    rw [List.takeWhile_append_of_pos hfree]
    simp [hmarker]
  have hdrop : (before ++ marker :: rest).dropWhile (!·.isPredicateMarker) = marker :: rest := by
    rw [List.dropWhile_append_of_pos hfree]
    simp [hmarker]
  obtain ⟨w, before, rfl⟩ := List.exists_cons_of_ne_nil hne
  rw [Clause.parseSubjects, htake, hdrop]

/-- Without a marker, a bare pronoun is the subject and other words are all of one group. -/
theorem Clause.parseSubjects_unmarked {w : Word} {rest : List Word}
    (hfree : ∀ v ∈ w :: rest, v.isPredicateMarker = false) :
    Clause.parseSubjects (w :: rest) =
      if w.isBarePronoun then .ok ([Group.ofWord w], rest)
      else if w.isParticle then .error (.invalidSubject w)
      else (Group.parse (w :: rest)).map (fun subject => ([subject], [])) := by
  have hfree' : ∀ v ∈ w :: rest, !v.isPredicateMarker := by simpa using hfree
  rw [Clause.parseSubjects, List.takeWhile_eq_self_iff.mpr hfree',
    List.dropWhile_eq_nil_iff.mpr hfree']

/-- A predicate that begins with its marker is one run. -/
theorem Predicate.WellFormed.isRun {p : Predicate} (hp : p.WellFormed) :
    IsRun Word.isPredicateMarker p.words :=
  ⟨p.isPredicateMarker_marker, hp.isPredicateMarker_tail⟩

theorem Predicate.mapM_parse_runs_eq_ok_iff {words : List Word}
    (hwords : ∀ w, words.head? = some w → w.isPredicateMarker) (predicates : List Predicate) :
    (runs Word.isPredicateMarker words).mapM Predicate.parse = .ok predicates ↔
      predicates.flatMap Predicate.words = words ∧
        ∀ p ∈ predicates, p.WellFormed ∧ p.Settled := by
  have hread : ∀ run ∈ runs Word.isPredicateMarker words, ∀ p : Predicate,
      Predicate.parse run = .ok p ↔ p.words = run ∧ p.WellFormed ∧ p.Settled := by
    intro run hrun p
    have hisRun := isRun_of_mem_runs hwords hrun
    cases run with
    | nil => exact hisRun.elim
    | cons w rest => exact Predicate.parse_eq_ok_iff hisRun.1 rest p
  rw [mapM_eq_ok_iff hread]
  constructor
  · rintro ⟨hruns, hpredicates⟩
    refine ⟨?_, hpredicates⟩
    rw [List.flatMap_def, hruns, flatten_runs]
  · rintro ⟨rfl, hpredicates⟩
    refine ⟨?_, hpredicates⟩
    rw [List.flatMap_def, runs_flatten]
    intro run hrun
    obtain ⟨p, hp, rfl⟩ := List.mem_map.mp hrun
    exact (hpredicates p hp).1.isRun

/-- A leading `o` speaks to `sina`, whether this is said or not. -/
theorem Clause.parse_withSubject (fragment : Bool) (words : List Word) :
    Clause.parse fragment (Clause.withSubject words) = Clause.parse fragment words := by
  unfold Clause.withSubject
  split
  · next rest =>
    have himplicit : Clause.parseSubjects (.o :: rest) =
        .ok ([Group.ofWord .sina], .o :: rest) := rfl
    have hexplicit : Clause.parseSubjects (.sina :: .o :: rest) =
        .ok ([Group.ofWord .sina], .o :: rest) := rfl
    rw [Clause.parse_eq, Clause.parse_eq, himplicit, hexplicit]
  · rfl

theorem Clause.parse_withMarker (fragment : Bool) (words : List Word) :
    Clause.parse fragment (Clause.withMarker words) = Clause.parse fragment words := by
  unfold Clause.withMarker
  split
  · next w next rest =>
    split
    · next hbare =>
      rw [Bool.and_eq_true, Bool.not_eq_true', List.any_eq_false] at hbare
      obtain ⟨hw, hfree⟩ := hbare
      have hfree : ∀ v ∈ w :: next :: rest, v.isPredicateMarker = false := by simpa using hfree
      have hrest := (List.forall_mem_cons.mp hfree).2
      have himplicit : Clause.parseSubjects (w :: next :: rest) =
          .ok ([Group.ofWord w], next :: rest) := by
        rw [Clause.parseSubjects_unmarked hfree, if_pos hw]
      have hexplicit : Clause.parseSubjects (w :: .li :: next :: rest) =
          .ok ([Group.ofWord w], .li :: next :: rest) := by
        rcases Word.eq_mi_or_eq_sina hw with rfl | rfl <;> rfl
      have hrun : IsRun Word.isPredicateMarker (.li :: next :: rest) := ⟨rfl, hrest⟩
      have hpredicates : (runs Word.isPredicateMarker (.li :: next :: rest)).mapM Predicate.parse =
          (runs Word.isPredicateMarker (next :: rest)).mapM Predicate.parse := by
        rw [runs_of_isRun hrun, runs_of_unmarked (List.cons_ne_nil next rest) hrest, List.mapM_cons,
          List.mapM_cons, Predicate.parse_li_cons (hrest next List.mem_cons_self)]
      rw [Clause.parse_eq, Clause.parse_eq, himplicit, hexplicit]
      simp only [ok_bind, hpredicates]
    · rfl
  · rfl

/-- What a clause leaves out changes nothing about how it is read, and neither about why it is
    refused. -/
theorem Clause.parse_writtenOut (fragment : Bool) (words : List Word) :
    Clause.parse fragment (Clause.writtenOut words) = Clause.parse fragment words := by
  rw [Clause.writtenOut, Clause.parse_withMarker, Clause.parse_withSubject]

theorem Clause.withMarker_of_marked {words : List Word} {w : Word} (hw : w ∈ words)
    (hmarker : w.isPredicateMarker) : Clause.withMarker words = words := by
  unfold Clause.withMarker
  split
  · next v next rest =>
    have hany : (v :: next :: rest).any Word.isPredicateMarker :=
      List.any_eq_true.mpr ⟨w, hw, hmarker⟩
    simp [hany]
  · rfl

theorem Clause.withMarker_of_unmarked {w : Word} {rest : List Word}
    (hw : w.isBarePronoun = false) : Clause.withMarker (w :: rest) = w :: rest := by
  cases rest <;> simp [Clause.withMarker, hw]

theorem Clause.withSubject_of_ne {w : Word} {rest : List Word} (hw : w ≠ .o) :
    Clause.withSubject (w :: rest) = w :: rest := by
  unfold Clause.withSubject
  split
  · next heq =>
    cases heq
    exact absurd rfl hw
  · rfl

theorem Clause.exists_marker (words : List Word) :
    (∀ w ∈ words, w.isPredicateMarker = false) ∨
      ∃ before marker rest, words = before ++ marker :: rest ∧
        (∀ w ∈ before, w.isPredicateMarker = false) ∧ marker.isPredicateMarker := by
  have happend := List.takeWhile_append_dropWhile (p := (!·.isPredicateMarker)) (l := words)
  have hbefore : ∀ w ∈ words.takeWhile (!·.isPredicateMarker), w.isPredicateMarker = false := by
    intro w hw
    simpa using List.mem_takeWhile_imp hw
  cases hdrop : words.dropWhile (!·.isPredicateMarker) with
  | nil =>
    rw [hdrop, List.append_nil] at happend
    exact Or.inl (happend ▸ hbefore)
  | cons marker rest =>
    rw [hdrop] at happend
    have hmarker := List.head?_dropWhile_not (!·.isPredicateMarker) words
    refine Or.inr ⟨_, marker, rest, happend.symm, hbefore, ?_⟩
    simpa [hdrop] using hmarker

/-- What the words of a clause can look like when they are written out. Those of the first two
    kinds are refused. -/
inductive Clause.Shape : List Word → Prop
  | empty : Clause.Shape []
  | headless (rest : List Word) : Clause.Shape (.li :: rest)
  | unmarked {w : Word} {rest : List Word}
      (hfree : ∀ v ∈ w :: rest, v.isPredicateMarker = false)
      (hbare : w.isBarePronoun → rest = []) : Clause.Shape (w :: rest)
  | marked {before : List Word} {marker : Word} (rest : List Word) (hne : before ≠ [])
      (hbefore : ∀ w ∈ before, w.isPredicateMarker = false)
      (hmarker : marker.isPredicateMarker) : Clause.Shape (before ++ marker :: rest)

theorem Clause.shape_writtenOut (words : List Word) :
    Clause.Shape (Clause.writtenOut words) := by
  rcases Clause.exists_marker words with hfree | ⟨before, marker, rest, rfl, hbefore, hmarker⟩
  · cases words with
    | nil => exact .empty
    | cons w rest =>
      have ho : w ≠ .o := by
        rintro rfl
        cases hfree .o List.mem_cons_self
      rw [Clause.writtenOut, Clause.withSubject_of_ne ho]
      cases hbare : w.isBarePronoun with
      | false =>
        rw [Clause.withMarker_of_unmarked hbare]
        exact .unmarked hfree (by simp [hbare])
      | true =>
        cases rest with
        | nil => exact .unmarked hfree (fun _ => rfl)
        | cons next rest =>
          have hany : (w :: next :: rest).any Word.isPredicateMarker = false := by
            simpa using hfree
          have hout : Clause.withMarker (w :: next :: rest) = [w] ++ .li :: next :: rest := by
            simp [Clause.withMarker, hbare, hany]
          rw [hout]
          exact .marked _ (by simp) (by simpa using hfree w List.mem_cons_self) rfl
  · cases before with
    | nil =>
      rcases Word.eq_li_or_eq_o hmarker with rfl | rfl
      · have hout : Clause.writtenOut (.li :: rest) = .li :: rest :=
          Clause.withMarker_of_unmarked rfl
        rw [List.nil_append, hout]
        exact .headless rest
      · have hout : Clause.writtenOut (.o :: rest) = [.sina] ++ .o :: rest :=
          Clause.withMarker_of_marked (w := .o) (by simp [Clause.withSubject]) rfl
        rw [List.nil_append, hout]
        exact .marked rest (by simp) (by simp [Word.isPredicateMarker]) rfl
    | cons w before =>
      have ho : w ≠ .o := by
        rintro rfl
        cases hbefore .o List.mem_cons_self
      rw [Clause.writtenOut, List.cons_append, Clause.withSubject_of_ne ho, ← List.cons_append,
        Clause.withMarker_of_marked (by simp) hmarker]
      exact .marked rest (List.cons_ne_nil w before) hbefore hmarker

/-- With a marker in them, the words before it are the subjects and the rest are predicates. -/
theorem Clause.words_of_parse_marked {fragment : Bool} {before rest : List Word} {marker : Word}
    {c : Clause} (hne : before ≠ []) (hbefore : ∀ w ∈ before, w.isPredicateMarker = false)
    (hmarker : marker.isPredicateMarker)
    (hparse : Clause.parse fragment (before ++ marker :: rest) = .ok c) :
    c.words = before ++ marker :: rest ∧ c.WellFormed ∧ c.Settled := by
  obtain ⟨rest', hsubjects, hpredicates, -⟩ := (Clause.parse_eq_ok_iff_parts _ _ c).mp hparse
  rw [Clause.parseSubjects_marked hne hbefore hmarker] at hsubjects
  obtain ⟨subjects, hread, hpair⟩ := map_eq_ok_iff.mp hsubjects
  cases hpair
  obtain ⟨hsome, hjoined, hgroups⟩ := (Group.mapM_parse_splitOn_eq_ok_iff _ _ _).mp hread
  have hhead : ∀ w, (marker :: rest).head? = some w → w.isPredicateMarker := by simpa using hmarker
  obtain ⟨hwords, hall⟩ := (Predicate.mapM_parse_runs_eq_ok_iff hhead _).mp hpredicates
  refine ⟨by rw [Clause.words, hjoined, hwords], ?_, fun p hp => (hall p hp).2⟩
  have hpredicatesNe : c.predicates ≠ [] := by
    intro hnil
    rw [hnil] at hwords
    cases hwords
  exact ⟨fun g hg => (hgroups g hg).1, hsome, fun _ g hg => (hgroups g hg).2,
    fun hnil => absurd hnil hpredicatesNe, fun hnil => absurd hnil hpredicatesNe,
    fun p hp => (hall p hp).1⟩

theorem Clause.subject_of_unmarked {w : Word} {rest rest' : List Word} {subjects : List Group}
    (hfree : ∀ v ∈ w :: rest, v.isPredicateMarker = false) (hbare : w.isBarePronoun → rest = [])
    (hparse : Clause.parseSubjects (w :: rest) = .ok (subjects, rest')) :
    rest' = [] ∧ ∃ g, subjects = [g] ∧ g.words = w :: rest ∧ g.WellFormed ∧
      (g.head.isBarePronoun → g = Group.ofWord g.head) := by
  rw [Clause.parseSubjects_unmarked hfree] at hparse
  split at hparse
  · next hw =>
    cases hparse
    obtain rfl := hbare hw
    have hparticle : w.isParticle = false := by
      rcases Word.eq_mi_or_eq_sina hw with rfl | rfl <;> rfl
    exact ⟨rfl, Group.ofWord w, rfl, rfl, ⟨hparticle, by simp⟩, fun _ => rfl⟩
  · next hw =>
    split at hparse
    · cases hparse
    · obtain ⟨g, hg, hpair⟩ := map_eq_ok_iff.mp hparse
      cases hpair
      obtain ⟨hwords, hwellFormed⟩ := (Group.parse_eq_ok_iff _ g).mp hg
      refine ⟨rfl, g, rfl, hwords, hwellFormed, fun hhead => ?_⟩
      rw [g.words_eq_head_cons, List.cons.injEq] at hwords
      exact absurd (hwords.1 ▸ hhead) hw

/-- Without a marker all words are one subject. -/
theorem Clause.words_of_parse_unmarked {fragment : Bool} {w : Word} {rest : List Word} {c : Clause}
    (hfree : ∀ v ∈ w :: rest, v.isPredicateMarker = false) (hbare : w.isBarePronoun → rest = [])
    (hparse : Clause.parse fragment (w :: rest) = .ok c) :
    c.words = w :: rest ∧ c.WellFormed ∧ c.Settled := by
  obtain ⟨rest', hsubjects, hpredicates, -⟩ := (Clause.parse_eq_ok_iff_parts _ _ c).mp hparse
  obtain ⟨rfl, g, hsubject, hwords, hg, halone⟩ :=
    Clause.subject_of_unmarked hfree hbare hsubjects
  have hnone : c.predicates = [] := (Except.ok.inj hpredicates).symm
  refine ⟨?_, ⟨?_, ?_, ?_, ?_, ?_, ?_⟩, ?_⟩
  · simp [Clause.words, hsubject, hnone, hwords]
  · simpa [hsubject] using hg
  · simp [hsubject]
  · exact fun hsome => absurd hnone hsome
  · simp [hsubject]
  · simpa [hsubject] using fun _ => halone
  · simp [hnone]
  · simp [Clause.Settled, hnone]

theorem Clause.words_of_parse {fragment : Bool} {words : List Word} {c : Clause}
    (hparse : Clause.parse fragment words = .ok c) :
    c.words = Clause.writtenOut words ∧ c.WellFormed ∧ c.Settled := by
  rw [← Clause.parse_writtenOut] at hparse
  have hshape := Clause.shape_writtenOut words
  generalize Clause.writtenOut words = out at hparse hshape ⊢
  cases hshape with
  | empty =>
    obtain ⟨rest, hsubjects, -⟩ := (Clause.parse_eq_ok_iff_parts _ _ c).mp hparse
    cases hsubjects
  | headless rest =>
    obtain ⟨rest', hsubjects, -⟩ := (Clause.parse_eq_ok_iff_parts _ _ c).mp hparse
    cases hsubjects
  | unmarked hfree hbare => exact Clause.words_of_parse_unmarked hfree hbare hparse
  | marked rest hne hbefore hmarker =>
    exact Clause.words_of_parse_marked hne hbefore hmarker hparse

/-- The subjects of a clause hold no marker. -/
theorem Clause.WellFormed.isPredicateMarker_joined {c : Clause} (hc : c.WellFormed) :
    ∀ w ∈ Group.joined .en c.subjects, w.isPredicateMarker = false := by
  intro w hw
  have hparticle := Group.isParticle_joined hc.subjects rfl w hw
  exact Word.isPredicateMarker_of_not_isParticle hparticle

theorem Clause.parse_words_of_predicates {c : Clause} (hc : c.WellFormed) (hsettled : c.Settled)
    (hsome : c.predicates ≠ []) (fragment : Bool) : Clause.parse fragment c.words = .ok c := by
  obtain ⟨p, predicates, hpredicates⟩ := List.exists_cons_of_ne_nil hsome
  have hwords : c.predicates.flatMap Predicate.words =
      p.marker :: (p.words.tail ++ predicates.flatMap Predicate.words) := by
    rw [hpredicates]
    rfl
  have hread := (Group.mapM_parse_splitOn_eq_ok_iff .en _ c.subjects).mpr
    ⟨hc.nonempty, rfl, fun g hg => ⟨hc.subjects g hg, hc.conjoined hsome g hg⟩⟩
  have hhead : ∀ w, (c.predicates.flatMap Predicate.words).head? = some w →
      w.isPredicateMarker := by
    rw [hwords]
    simpa using p.isPredicateMarker_marker
  rw [Clause.parse_eq_ok_iff_parts]
  refine ⟨c.predicates.flatMap Predicate.words, ?_, ?_, Or.inl hsome⟩
  · rw [Clause.words, hwords,
      Clause.parseSubjects_marked (Group.joined_ne_nil hc.nonempty) hc.isPredicateMarker_joined
        p.isPredicateMarker_marker, hread]
    rfl
  · rw [Predicate.mapM_parse_runs_eq_ok_iff hhead]
    exact ⟨rfl, fun q hq => ⟨hc.predicates q hq, hsettled q hq⟩⟩

theorem Clause.parse_words_of_subject {c : Clause} (hc : c.WellFormed)
    (hnone : c.predicates = []) : Clause.parse true c.words = .ok c := by
  obtain ⟨g, hsubject, hg, halone⟩ := hc.exists_subject hnone
  have hwords : c.words = g.head :: g.words.tail := by
    rw [← g.words_eq_head_cons]
    simp [Clause.words, hsubject, hnone]
  have hfree : ∀ w ∈ g.head :: g.words.tail, w.isPredicateMarker = false := by
    have hjoined := hc.isPredicateMarker_joined
    rwa [hsubject, Group.joined_singleton, g.words_eq_head_cons] at hjoined
  rw [Clause.parse_eq_ok_iff_parts]
  refine ⟨[], ?_, ?_, Or.inr rfl⟩
  · rw [hwords, Clause.parseSubjects_unmarked hfree, hsubject]
    by_cases hbare : g.head.isBarePronoun
    · have htail : g.words.tail = [] := by
        rw [halone hbare]
        rfl
      rw [if_pos hbare, htail, ← halone hbare]
    · have hparticle : g.head.isParticle = false := by
        apply hg.isParticle
        rw [g.words_eq_head_cons]
        exact List.mem_cons_self
      rw [if_neg hbare, hparticle, ← g.words_eq_head_cons, Group.parse_words hg]
      rfl
  · rw [hnone]
    rfl

theorem Clause.parse_words {fragment : Bool} {c : Clause} (hc : c.WellFormed)
    (hsettled : c.Settled) (hcomplete : c.predicates ≠ [] ∨ fragment = true) :
    Clause.parse fragment c.words = .ok c := by
  by_cases hnone : c.predicates = []
  · obtain rfl : fragment = true := hcomplete.resolve_left (not_not_intro hnone)
    exact Clause.parse_words_of_subject hc hnone
  · exact Clause.parse_words_of_predicates hc hsettled hnone fragment

theorem Clause.WellFormed.withSubject_words {c : Clause} (hc : c.WellFormed) :
    Clause.withSubject c.words = c.words := by
  obtain ⟨g, subjects, hsubjects⟩ := List.exists_cons_of_ne_nil hc.nonempty
  have hg : g.WellFormed := hc.subjects g (by simp [hsubjects])
  rw [Clause.words, hsubjects, Group.joined_cons, g.words_eq_head_cons]
  apply Clause.withSubject_of_ne
  intro ho
  have hparticle := hg.isParticle g.head (g.words_eq_head_cons ▸ List.mem_cons_self)
  rw [ho] at hparticle
  cases hparticle

/-- A well-formed clause leaves nothing out. -/
theorem Clause.WellFormed.writtenOut_words {c : Clause} (hc : c.WellFormed) :
    Clause.writtenOut c.words = c.words := by
  rw [Clause.writtenOut, hc.withSubject_words]
  by_cases hnone : c.predicates = []
  · obtain ⟨g, hsubject, -, halone⟩ := hc.exists_subject hnone
    have hwords : c.words = g.words := by simp [Clause.words, hsubject, hnone]
    rw [hwords]
    cases hbare : g.head.isBarePronoun with
    | true =>
      rw [halone hbare]
      rfl
    | false =>
      rw [g.words_eq_head_cons, Clause.withMarker_of_unmarked hbare]
  · obtain ⟨p, predicates, hpredicates⟩ := List.exists_cons_of_ne_nil hnone
    apply Clause.withMarker_of_marked _ p.isPredicateMarker_marker
    simp [Clause.words, hpredicates, Predicate.words]

/-- A clause is read from the words that write out as its own and from no others, and only if it
    is well formed and settled. Without predicates it is read only as a fragment. -/
theorem Clause.parse_eq_ok_iff (fragment : Bool) (words : List Word) (c : Clause) :
    Clause.parse fragment words = .ok c ↔
      c.words = Clause.writtenOut words ∧ c.WellFormed ∧ c.Settled ∧
        (c.predicates ≠ [] ∨ fragment = true) := by
  constructor
  · intro hparse
    obtain ⟨-, -, -, hcomplete⟩ := (Clause.parse_eq_ok_iff_parts _ _ c).mp hparse
    obtain ⟨hwords, hc, hsettled⟩ := Clause.words_of_parse hparse
    exact ⟨hwords, hc, hsettled, hcomplete⟩
  · rintro ⟨hwords, hc, hsettled, hcomplete⟩
    rw [← Clause.parse_writtenOut, ← hwords]
    exact Clause.parse_words hc hsettled hcomplete

end TokiPona
