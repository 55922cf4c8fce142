import TokiPona.Proofs.Phrase.Attachment
import TokiPona.Proofs.Phrase.Clause

namespace TokiPona

/-- What noun phrases and verb phrases can be refused for that are made of these words. -/
inductive ParseError.OfPhrase (Among : Word → Prop) : ParseError → Prop
  | emptyNounPhrase : OfPhrase Among .emptyNounPhrase
  | emptyVerbPhrase : OfPhrase Among .emptyVerbPhrase
  | invalidNoun {w : Word} (hmem : Among w) (hparticle : w.isParticle) :
    OfPhrase Among (.invalidNoun w)

/-- What a clause can be refused for that is made of these words. Only a fragment may lack its
    predicates. -/
inductive ParseError.OfClause (fragment : Bool) (Among : Word → Prop) : ParseError → Prop
  | emptySubject : OfClause fragment Among .emptySubject
  | emptyPredicate (hcomplete : fragment = false) : OfClause fragment Among .emptyPredicate
  | invalidSubject {w : Word} (hmem : Among w) (hparticle : w.isParticle) :
    OfClause fragment Among (.invalidSubject w)
  | phrase {e : ParseError} (hphrase : e.OfPhrase Among) : OfClause fragment Among e

/-- What some clause can be refused for. -/
def ParseError.isOfClause : ParseError → Bool
  | .emptyNounPhrase | .emptySubject | .emptyPredicate | .emptyVerbPhrase => true
  | .invalidSubject _ | .invalidNoun _ => true
  | _ => false

section Among

variable {Among Among' : Word → Prop} {e : ParseError}

theorem ParseError.OfPhrase.mono (he : e.OfPhrase Among) (hmono : ∀ w, Among w → Among' w) :
    e.OfPhrase Among' := by
  cases he with
  | emptyNounPhrase => exact .emptyNounPhrase
  | emptyVerbPhrase => exact .emptyVerbPhrase
  | invalidNoun hmem hparticle => exact .invalidNoun (hmono _ hmem) hparticle

theorem ParseError.OfClause.mono {fragment fragment' : Bool} (he : e.OfClause fragment Among)
    (hfragment : fragment = false → fragment' = false) (hmono : ∀ w, Among w → Among' w) :
    e.OfClause fragment' Among' := by
  cases he with
  | emptySubject => exact .emptySubject
  | emptyPredicate hcomplete => exact .emptyPredicate (hfragment hcomplete)
  | invalidSubject hmem hparticle => exact .invalidSubject (hmono _ hmem) hparticle
  | phrase hphrase => exact .phrase (hphrase.mono hmono)

theorem ParseError.OfPhrase.isOfClause (he : e.OfPhrase Among) : e.isOfClause := by
  cases he <;> rfl

theorem ParseError.OfClause.isOfClause {fragment : Bool} (he : e.OfClause fragment Among) :
    e.isOfClause := by
  cases he with
  | emptySubject => rfl
  | emptyPredicate => rfl
  | invalidSubject => rfl
  | phrase hphrase => exact hphrase.isOfClause

end Among

theorem Group.failsOnly_parse (words : List Word) :
    FailsOnly (ParseError.OfPhrase (· ∈ words)) (Group.parse words) := by
  have htail (head : Word) (modifiers rest : List Word) :
      FailsOnly (ParseError.OfPhrase (· ∈ rest)) (Group.parseTail head modifiers rest) := by
    fun_induction Group.parseTail head modifiers rest with
    | case1 head modifiers => exact .ok _
    | case2 => exact .error .emptyNounPhrase
    | case3 head modifiers inner rest hinner => exact .error (.invalidNoun (by simp) hinner)
    | case4 head modifiers inner rest hinner ih =>
      exact (ih.map _).mono fun e he => he.mono (by simp +contextual)
    | case5 head modifiers w rest _ _ hw => exact .error (.invalidNoun (by simp) hw)
    | case6 head modifiers w rest _ _ hw ih =>
      exact ih.mono fun e he => he.mono (by simp +contextual)
  unfold Group.parse
  split
  · exact .error .emptyNounPhrase
  · next head rest =>
    split
    · next hhead => exact .error (.invalidNoun List.mem_cons_self hhead)
    · exact (htail head [] rest).mono fun e he => he.mono fun w => List.mem_cons_of_mem head

theorem VerbPhrase.failsOnly_parse (words : List Word) :
    FailsOnly (ParseError.OfPhrase (· ∈ words)) (VerbPhrase.parse words) := by
  unfold VerbPhrase.parse
  split
  · exact .error .emptyVerbPhrase
  · have hwords := (VerbPhrase.cutPreverbs_spec words).1
    refine ((Group.failsOnly_parse _).map _).mono fun e he => he.mono fun w hw => ?_
    rw [← hwords]
    exact List.mem_append_right _ hw

/-- Every `e` of a predicate parts its pieces, so none can be the fault of a piece. -/
theorem Predicate.failsOnly_parse (w : Word) (rest : List Word) :
    FailsOnly (ParseError.OfPhrase fun v => v ∈ Predicate.body w rest ∧ v ≠ .e)
      (Predicate.parse (w :: rest)) := by
  obtain ⟨core, hbody, hdetach⟩ := Predicate.exists_detach_eq (Predicate.body w rest)
  obtain ⟨verb, objects, hsplit⟩ := List.exists_cons_of_ne_nil (List.splitOn_ne_nil .e core)
  have hphrase : ∀ phrase ∈ Predicate.attached (Predicate.body w rest), ∀ v ∈ phrase.2,
      v ∈ Predicate.body w rest ∧ v ≠ .e := by
    intro phrase hphrase v hv
    refine ⟨?_, ?_⟩
    · rw [← hbody]
      exact List.mem_append_right _
        (List.mem_flatMap.mpr ⟨phrase, hphrase, List.mem_cons_of_mem _ hv⟩)
    · rintro rfl
      exact (Predicate.removable_of_mem_attached hphrase).unbroken hv
  have hpiece : ∀ piece ∈ verb :: objects, ∀ v ∈ piece, v ∈ Predicate.body w rest ∧ v ≠ .e := by
    intro piece hpiece v hv
    rw [← hsplit] at hpiece
    refine ⟨?_, ?_⟩
    · rw [← hbody]
      exact List.mem_append_left _ (mem_of_mem_splitOn hpiece hv)
    · rintro rfl
      exact not_mem_of_mem_splitOn hpiece hv
  obtain ⟨hverb, hobjects⟩ := List.forall_mem_cons.mp hpiece
  rw [Predicate.parse_eq_readPieces hdetach hsplit, Predicate.readPieces, Predicate.readPhrases]
  refine .bind (.map (.mapM fun phrase hmem => .map ?_ _) _) fun prepositions _ =>
    .bind ?_ fun v _ => .bind (.mapM fun piece hmem => ?_) fun groups _ => .ok _
  · exact (Group.failsOnly_parse phrase.2).mono fun e he =>
      he.mono (hphrase phrase (List.mem_reverse.mp hmem))
  · exact (VerbPhrase.failsOnly_parse verb).mono fun e he => he.mono hverb
  · exact (Group.failsOnly_parse piece).mono fun e he => he.mono (hobjects piece hmem)

/-- The runs of words that a clause hands over to be read as its predicates. -/
def Clause.predicateRuns (words : List Word) : List (List Word) :=
  match Clause.parseSubjects words with
  | .ok (_, rest) => runs Word.isPredicateMarker rest
  | .error _ => []

/-- The words that the subjects leave are the last ones of the clause. -/
theorem Clause.suffix_of_parseSubjects {words rest : List Word} {subjects : List Group}
    (hsubjects : Clause.parseSubjects words = .ok (subjects, rest)) : rest <:+ words := by
  rcases Clause.exists_marker words with hfree | ⟨before, marker, behind, rfl, hbefore, hmarker⟩
  · cases words with
    | nil => cases hsubjects
    | cons w words =>
      rw [Clause.parseSubjects_unmarked hfree] at hsubjects
      split at hsubjects
      · cases hsubjects
        exact List.suffix_cons w rest
      · split at hsubjects
        · cases hsubjects
        · obtain ⟨g, -, hpair⟩ := map_eq_ok_iff.mp hsubjects
          cases hpair
          exact List.nil_suffix
  · by_cases hne : before = []
    · subst hne
      rcases Word.eq_li_or_eq_o hmarker with rfl | rfl
      · cases hsubjects
      · cases hsubjects
        exact List.suffix_rfl
    · rw [Clause.parseSubjects_marked hne hbefore hmarker] at hsubjects
      obtain ⟨groups, -, hpair⟩ := map_eq_ok_iff.mp hsubjects
      cases hpair
      exact List.suffix_append before _

/-- No run is empty, and behind the marker that it may begin with it holds none. -/
theorem Clause.exists_of_mem_predicateRuns {words run : List Word}
    (hrun : run ∈ Clause.predicateRuns words) :
    ∃ w rest, run = w :: rest ∧
      ∀ v ∈ Predicate.body w rest, v ∈ words ∧ v.isPredicateMarker = false := by
  unfold Clause.predicateRuns at hrun
  split at hrun
  · next subjects behind hsubjects =>
    obtain ⟨w, rest, rfl, hfree, hmem⟩ := exists_cons_of_mem_runs hrun
    refine ⟨w, rest, rfl, fun v hv => ?_⟩
    unfold Predicate.body at hv
    split at hv
    · exact ⟨(Clause.suffix_of_parseSubjects hsubjects).mem (hmem v (List.mem_cons_of_mem w hv)),
        hfree v hv⟩
    · next hw =>
      exact ⟨(Clause.suffix_of_parseSubjects hsubjects).mem (hmem v hv),
        List.forall_mem_cons.mpr ⟨by simpa using hw, hfree⟩ v hv⟩
  · cases hrun

theorem Clause.failsOnly_parseSubjects (fragment : Bool) (words : List Word) :
    FailsOnly (ParseError.OfClause fragment fun v => v ∈ words ∧ v.isPredicateMarker = false)
      (Clause.parseSubjects words) := by
  rcases Clause.exists_marker words with hfree | ⟨before, marker, behind, rfl, hbefore, hmarker⟩
  · cases words with
    | nil => exact .error .emptySubject
    | cons w words =>
      rw [Clause.parseSubjects_unmarked hfree]
      split
      · exact .ok _
      · split
        · next hparticle =>
          exact .error (.invalidSubject ⟨List.mem_cons_self, hfree w List.mem_cons_self⟩ hparticle)
        · exact ((Group.failsOnly_parse _).map _).mono fun e he =>
            .phrase (he.mono fun v hv => ⟨hv, hfree v hv⟩)
  · by_cases hne : before = []
    · subst hne
      rcases Word.eq_li_or_eq_o hmarker with rfl | rfl
      · exact .error .emptySubject
      · exact .ok _
    · rw [Clause.parseSubjects_marked hne hbefore hmarker]
      refine .map (.mapM fun piece hpiece => (Group.failsOnly_parse piece).mono fun e he => ?_) _
      refine .phrase (he.mono fun v hv => ?_)
      have hv := mem_of_mem_splitOn hpiece hv
      exact ⟨List.mem_append_left _ hv, hbefore v hv⟩

/-- The predicates of a clause are read from its runs, one for each. -/
theorem Clause.parse_eq_predicateRuns (fragment : Bool) (words : List Word) :
    Clause.parse fragment words = (do
      let opening ← Clause.parseSubjects words
      let predicates ← (Clause.predicateRuns words).mapM Predicate.parse
      if predicates.isEmpty && !fragment then throw .emptyPredicate
      else pure ⟨opening.1, predicates⟩) := by
  rw [Clause.parse_eq, Clause.predicateRuns]
  cases Clause.parseSubjects words <;> rfl

theorem Clause.failsOnly_parse (fragment : Bool) (words : List Word) :
    FailsOnly (ParseError.OfClause fragment fun v => v ∈ words ∧ v.isPredicateMarker = false)
      (Clause.parse fragment words) := by
  rw [Clause.parse_eq_predicateRuns]
  refine (Clause.failsOnly_parseSubjects fragment words).bind fun opening _ =>
    .bind (.mapM fun run hrun => ?_) fun predicates _ => ?_
  · obtain ⟨w, rest, rfl, hbody⟩ := Clause.exists_of_mem_predicateRuns hrun
    exact (Predicate.failsOnly_parse w rest).mono fun e he =>
      .phrase (he.mono fun v hv => hbody v hv.1)
  · split
    · next hempty =>
      exact .error (.emptyPredicate (by simpa using (Bool.and_eq_true_iff.mp hempty).2))
    · exact .ok _

theorem Group.isOfClause_of_parse {words : List Word} {e : ParseError}
    (herror : Group.parse words = .error e) : e.isOfClause :=
  (Group.failsOnly_parse words e herror).isOfClause

theorem Clause.isOfClause_of_parse {fragment : Bool} {words : List Word} {e : ParseError}
    (herror : Clause.parse fragment words = .error e) : e.isOfClause :=
  (Clause.failsOnly_parse fragment words e herror).isOfClause

end TokiPona
