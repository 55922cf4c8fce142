import TokiPona.Proofs.Phrase.Segments

namespace TokiPona

theorem Word.eq_e_or_eq_a {w : Word} (hparticle : w.isParticle)
    (hmarker : w.isPredicateMarker = false) (hla : w ≠ .la) : w = .e ∨ w = .a := by
  unfold Word.isParticle at hparticle
  split at hparticle <;> simp_all [Word.isPredicateMarker]

/-- Reads the words before a `la`, and gives what a context is to be made of. -/
def Context.readParts (words : List Word) : Except ParseError (Option Sentence × Option Group) :=
  (Context.traceAs (fun s => (some s, none)) (fun g => (none, some g)) (Sentence.trace true words)
    words).result

/-- A context can be made of whatever is read for it. -/
theorem Context.map_ofParts?_readParts (words : List Word) :
    (Context.readParts words).map (fun parts => Context.ofParts? parts.1 parts.2) =
      (Context.parse words).map some := by
  rw [Context.readParts, Context.parse, Context.result_traceAs, Context.result_traceAs]
  split
  · rfl
  · split
    · cases (Sentence.trace true words).result <;> rfl
    · cases Group.parse words <;> rfl

/-- The runs of words that a sentence hands over to be read as predicates, those of its contexts
    first. -/
def Sentence.predicateRuns (words : List Word) : List (List Word) :=
  match _ : cutLast? (· == .la) words with
  | none => Clause.predicateRuns words
  | some (before, _, behind) =>
    (if Context.isSentence before then Sentence.predicateRuns before else []) ++
      Clause.predicateRuns behind
termination_by words.length
decreasing_by exact length_lt_of_cutLast? ‹_›

/-- Reads a sentence with `read` in place of the reading of a predicate. -/
def Sentence.parseBy (read : List Word → Except ParseError Predicate) (fragment : Bool)
    (words : List Word) : Except ParseError Sentence :=
  (Sentence.traceBy (fun run => Traced.lift (read run)) fragment words).result

/-- A word of these words that is neither a predicate marker nor `la`. -/
def IsContent (words : List Word) (w : Word) : Prop :=
  w ∈ words ∧ w.isPredicateMarker = false ∧ w ≠ .la

section IsContent

variable {words words' : List Word} {w : Word}

theorem IsContent.of_la_not_mem (hla : .la ∉ words)
    (hw : w ∈ words ∧ w.isPredicateMarker = false) : IsContent words w := by
  refine ⟨hw.1, hw.2, ?_⟩
  rintro rfl
  exact hla hw.1

theorem IsContent.mono (hw : IsContent words w) (hwords : words ⊆ words') : IsContent words' w :=
  ⟨hwords hw.1, hw.2⟩

theorem IsContent.eq_e_or_eq_a (hw : IsContent words w) (hparticle : w.isParticle) :
    w ∈ words ∧ (w = .e ∨ w = .a) :=
  ⟨hw.1, Word.eq_e_or_eq_a hparticle hw.2.1 hw.2.2⟩

end IsContent

theorem Sentence.predicateRuns_eq (words : List Word) :
    Sentence.predicateRuns words =
      match cutLast? (· == .la) words with
      | none => Clause.predicateRuns words
      | some (before, _, behind) =>
        (if Context.isSentence before then Sentence.predicateRuns before else []) ++
          Clause.predicateRuns behind := by
  rw [Sentence.predicateRuns]
  split <;> next hcut => rw [hcut]

theorem Sentence.predicateRuns_of_la_not_mem {words : List Word} (hla : .la ∉ words) :
    Sentence.predicateRuns words = Clause.predicateRuns words := by
  rw [Sentence.predicateRuns_eq, cutLast?_beq_of_not_mem hla]

theorem Sentence.predicateRuns_append_la {before behind : List Word} (hla : .la ∉ behind) :
    Sentence.predicateRuns (before ++ .la :: behind) =
      (if Context.isSentence before then Sentence.predicateRuns before else []) ++
        Clause.predicateRuns behind := by
  rw [Sentence.predicateRuns_eq, cutLast?_beq_append hla]

section Congruence

variable {read read' : List Word → Traced Predicate} {words : List Word}

theorem Clause.result_traceBy_congr
    (hread : ∀ run ∈ Clause.predicateRuns words, (read run).result = (read' run).result)
    (fragment : Bool) :
    (Clause.traceBy read fragment words).result = (Clause.traceBy read' fragment words).result := by
  rw [Clause.result_traceBy, Clause.result_traceBy]
  unfold Clause.predicateRuns at hread
  cases hsubjects : Clause.parseSubjects words with
  | error e => rfl
  | ok opening =>
    rw [hsubjects] at hread
    simp only [ok_bind, mapM_congr hread]

/-- What a sentence is read as, and why it is refused, rests on its runs as the only words that are
    ever read as a predicate. -/
theorem Sentence.result_traceBy_congr
    (hread : ∀ run ∈ Sentence.predicateRuns words, (read run).result = (read' run).result)
    (fragment : Bool) :
    (Sentence.traceBy read fragment words).result =
      (Sentence.traceBy read' fragment words).result := by
  induction words using last_mark_induction Word.la generalizing fragment with
  | unmarked words hla =>
    rw [Sentence.predicateRuns_of_la_not_mem hla] at hread
    rw [Sentence.result_traceBy_of_la_not_mem read fragment hla,
      Sentence.result_traceBy_of_la_not_mem read' fragment hla, Clause.result_traceBy_congr hread]
  | marked before behind hla ih =>
    rw [Sentence.predicateRuns_append_la hla, List.forall_mem_append] at hread
    obtain ⟨hbefore, hbehind⟩ := hread
    rw [Sentence.result_traceBy_append_la read fragment before hla,
      Sentence.result_traceBy_append_la read' fragment before hla,
      Clause.result_traceBy_congr hbehind, Context.result_traceAs, Context.result_traceAs]
    by_cases hkind : Context.isSentence before
    · rw [if_pos hkind] at hbefore
      rw [ih hbefore]
    · simp only [if_neg hkind]

end Congruence

/-- No run is empty, and behind the marker that it may begin with it holds content only. -/
theorem Sentence.exists_of_mem_predicateRuns {words run : List Word}
    (hrun : run ∈ Sentence.predicateRuns words) :
    ∃ w rest, run = w :: rest ∧ ∀ v ∈ Predicate.body w rest, IsContent words v := by
  induction words using last_mark_induction Word.la with
  | unmarked words hla =>
    rw [Sentence.predicateRuns_of_la_not_mem hla] at hrun
    obtain ⟨w, rest, rfl, hbody⟩ := Clause.exists_of_mem_predicateRuns hrun
    exact ⟨w, rest, rfl, fun v hv => .of_la_not_mem hla (hbody v hv)⟩
  | marked before behind hla ih =>
    rw [Sentence.predicateRuns_append_la hla, List.mem_append] at hrun
    rcases hrun with hbefore | hbehind
    · split at hbefore
      · obtain ⟨w, rest, rfl, hbody⟩ := ih hbefore
        exact ⟨w, rest, rfl, fun v hv => (hbody v hv).mono (List.subset_append_left before _)⟩
      · cases hbefore
    · obtain ⟨w, rest, rfl, hbody⟩ := Clause.exists_of_mem_predicateRuns hbehind
      exact ⟨w, rest, rfl, fun v hv => (IsContent.of_la_not_mem hla (hbody v hv)).mono (by simp)⟩

theorem Clause.forall₂_predicates {fragment : Bool} {words : List Word} {c : Clause}
    (hparse : Clause.parse fragment words = .ok c) :
    List.Forall₂ (fun run p => Predicate.parse run = .ok p) (Clause.predicateRuns words)
      c.predicates := by
  obtain ⟨rest, hsubjects, hpredicates, -⟩ := (Clause.parse_eq_ok_iff_parts _ _ c).mp hparse
  rw [Clause.predicateRuns, hsubjects]
  exact mapM_eq_ok_iff_forall₂.mp hpredicates

/-- The predicates of a sentence that is read are those of its runs, one for each. -/
theorem Sentence.forall₂_allPredicates {fragment : Bool} {words : List Word} {s : Sentence}
    (hparse : Sentence.parse fragment words = .ok s) :
    List.Forall₂ (fun run p => Predicate.parse run = .ok p) (Sentence.predicateRuns words)
      s.allPredicates := by
  induction words using last_mark_induction Word.la generalizing fragment s with
  | unmarked words hla =>
    rw [Sentence.parse_of_la_not_mem fragment hla] at hparse
    obtain ⟨c, hc, rfl⟩ := map_eq_ok_iff.mp hparse
    rw [Sentence.predicateRuns_of_la_not_mem hla]
    exact Clause.forall₂_predicates hc
  | marked before behind hla ih =>
    rw [Sentence.parse_append_la fragment before hla] at hparse
    obtain ⟨context, hcontext, hbehind⟩ := bind_eq_ok_iff.mp hparse
    obtain ⟨c, hc, hs⟩ := bind_eq_ok_iff.mp hbehind
    cases hs
    have hclause := Clause.forall₂_predicates hc
    rw [Sentence.predicateRuns_append_la hla]
    rw [Context.parse_eq] at hcontext
    split at hcontext
    · cases hcontext
    · split at hcontext
      · next hkind =>
        obtain ⟨inner, hinner, rfl⟩ := map_eq_ok_iff.mp hcontext
        rw [if_pos hkind]
        exact List.rel_append (ih hinner) hclause
      · next hkind =>
        obtain ⟨g, -, rfl⟩ := map_eq_ok_iff.mp hcontext
        rw [if_neg hkind]
        exact hclause

theorem Context.failsOnly_parse {words : List Word}
    (hsentence : FailsOnly (fun e => e = .emptyContext ∨ e.OfClause true (IsContent words))
      (Sentence.parse true words)) :
    FailsOnly (fun e => e = .emptyContext ∨ e.OfClause true (IsContent words))
      (Context.parse words) := by
  rw [Context.parse_eq]
  split
  · exact .error (.inl rfl)
  · split
    · exact hsentence.map _
    · next hkind =>
      rw [Context.isSentence_iff, not_or] at hkind
      obtain ⟨hla, hmarkers⟩ := hkind
      refine ((Group.failsOnly_parse words).map _).mono fun e he =>
        .inr (.phrase (he.mono fun w hw => .of_la_not_mem hla ⟨hw, ?_⟩))
      simpa using fun hmarker => hmarkers ⟨w, hw, hmarker⟩

/-- Beyond a missing context, a sentence is refused for what a clause can be refused for, and a word
    that is at fault is part of its content. -/
theorem Sentence.failsOnly_parse (fragment : Bool) (words : List Word) :
    FailsOnly (fun e => e = .emptyContext ∨ e.OfClause fragment (IsContent words))
      (Sentence.parse fragment words) := by
  induction words using last_mark_induction Word.la generalizing fragment with
  | unmarked words hla =>
    rw [Sentence.parse_of_la_not_mem fragment hla]
    exact ((Clause.failsOnly_parse fragment words).map _).mono fun e he =>
      .inr (he.mono id fun w => .of_la_not_mem hla)
  | marked before behind hla ih =>
    rw [Sentence.parse_append_la fragment before hla]
    refine .bind ?_ fun context _ => .bind ?_ fun c _ => .ok _
    · refine (Context.failsOnly_parse (ih true)).mono fun e he => he.imp_right fun he => ?_
      exact he.mono nofun fun w hw => hw.mono (List.subset_append_left before _)
    · exact (Clause.failsOnly_parse fragment behind).mono fun e he =>
        .inr (he.mono id fun w hw => (IsContent.of_la_not_mem hla hw).mono (by simp))

/-- A predicate that a sentence hands over has words, and none of them but `a` is refused as a
    noun. -/
theorem Sentence.invalidNoun_of_mem_predicateRuns {words run : List Word}
    (hrun : run ∈ Sentence.predicateRuns words) :
    run ≠ [] ∧
      ∀ w, Predicate.parse run = .error (.invalidNoun w) → w ∈ words ∧ w = .a := by
  obtain ⟨v, rest, rfl, hbody⟩ := Sentence.exists_of_mem_predicateRuns hrun
  refine ⟨List.cons_ne_nil v rest, fun w herror => ?_⟩
  obtain - | - | ⟨⟨hw, hne⟩, hparticle⟩ := Predicate.failsOnly_parse v rest _ herror
  obtain ⟨hmem, heither⟩ := (hbody w hw).eq_e_or_eq_a hparticle
  exact ⟨hmem, heither.resolve_left hne⟩

/-- A sentence is never refused for a prepositional phrase without its preposition, and a fragment
    never for its predicates. A word that is refused as a noun or as a subject is an `e` or an `a`
    of the sentence, in a predicate an `a`. Every predicate is read from some words, and every
    context is made of either a sentence or a noun phrase. -/
theorem Sentence.parse_refuses_only_particles (fragment : Bool) (words : List Word) :
    (∀ e, Sentence.parse fragment words = .error e →
      e ≠ .emptyPreposition ∧ (∀ w, e ≠ .invalidPreposition w) ∧
        (∀ w, e = .invalidNoun w ∨ e = .invalidSubject w → w ∈ words ∧ (w = .e ∨ w = .a)) ∧
        (fragment = true → e ≠ .emptyPredicate)) ∧
    (∀ run ∈ Sentence.predicateRuns words,
      run ≠ [] ∧ ∀ w, Predicate.parse run = .error (.invalidNoun w) → w ∈ words ∧ w = .a) ∧
    (∀ read, (∀ run ∈ Sentence.predicateRuns words, read run = Predicate.parse run) →
      Sentence.parseBy read fragment words = Sentence.parse fragment words) ∧
    (∀ s, Sentence.parse fragment words = .ok s →
      List.Forall₂ (fun run p => Predicate.parse run = .ok p) (Sentence.predicateRuns words)
        s.allPredicates) ∧
    ∀ before, (Context.readParts before).map (fun parts => Context.ofParts? parts.1 parts.2) =
      (Context.parse before).map some := by
  refine ⟨fun e herror => ?_, fun run => Sentence.invalidNoun_of_mem_predicateRuns,
    fun read hread => Sentence.result_traceBy_congr hread fragment,
    fun s => Sentence.forall₂_allPredicates, Context.map_ofParts?_readParts⟩
  rcases Sentence.failsOnly_parse fragment words e herror with rfl | hclause
  · simp
  · cases hclause with
    | emptySubject => simp
    | emptyPredicate hcomplete => simp [hcomplete]
    | invalidSubject hmem hparticle => simpa using hmem.eq_e_or_eq_a hparticle
    | phrase hphrase =>
      cases hphrase with
      | emptyNounPhrase => simp
      | emptyVerbPhrase => simp
      | invalidNoun hmem hparticle => simpa using hmem.eq_e_or_eq_a hparticle

/-- The subject of `jan e li moku` is refused for its `e`, and the last predicate of
    `mi li pona la jan li moku a` for its `a`. -/
theorem Sentence.parse_refuses_only_particles_of_both :
    let subject : List Word := [.jan, .e, .li, .moku]
    let predicate : List Word := [.mi, .li, .pona, .la, .jan, .li, .moku, .a]
    let run : List Word := [.li, .moku, .a]
    Sentence.parse true subject = .error (.invalidNoun .e) ∧
      (Word.e ∈ subject ∧ (Word.e = .e ∨ Word.e = .a)) ∧
      ParseError.invalidNoun .e ≠ .emptyPredicate ∧
      Sentence.predicateRuns predicate = [[.li, .pona], run] ∧
      Predicate.parse run = .error (.invalidNoun .a) ∧ run ≠ [] ∧ Word.a ∈ predicate := by
  intro subject predicate run
  have hsubject : Sentence.parse true subject = .error (.invalidNoun .e) := by cbv
  have hruns : Sentence.predicateRuns predicate = [[.li, .pona], run] := by cbv
  have hrun : Predicate.parse run = .error (.invalidNoun .a) := by cbv
  obtain ⟨-, -, hword, hcomplete⟩ :=
    (Sentence.parse_refuses_only_particles true subject).1 _ hsubject
  obtain ⟨hne, hnoun⟩ :=
    (Sentence.parse_refuses_only_particles false predicate).2.1 run (by simp [hruns])
  exact ⟨hsubject, hword .e (.inl rfl), hcomplete rfl, hruns, hrun, hne, (hnoun .a hrun).1⟩

end TokiPona
