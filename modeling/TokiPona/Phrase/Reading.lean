import TokiPona.Phrase.Parser

/-!
The outcomes of the readings, without their notes.

`Sentence.parse_eq`, `Clause.parse_eq`, `Predicate.parse_eq` and `Predicate.result_detach_eq` give
each outcome by the outcomes of its parts, so that no later proof has to look at a note.
-/

namespace TokiPona

/-- The trailing phrases are read from the right, and the first that fails ends the reading. -/
theorem Predicate.result_detach_eq (words : List Word) :
    (Predicate.detach words).result =
      (match cutLast? Word.isPreposition words with
      | none => Except.ok (words, [])
      | some (before, w, behind) =>
        if Predicate.isDetachable before behind then do
          let last ← Preposition.parse (w :: behind)
          let rest ← (Predicate.detach before).result
          pure (rest.1, rest.2 ++ [last])
        else Except.ok (words, [])) := by
  rw [Predicate.detach]
  split
  · next hcut => rw [hcut]; rfl
  · next before w behind hcut =>
    rw [hcut]
    by_cases hdetach : Predicate.isDetachable before behind
    · simp only [hdetach, if_true, Traced.result_bind, Traced.result_note, Traced.result_lift]
      rfl
    · simp only [hdetach, if_false, Bool.false_eq_true]
      rfl

theorem Predicate.parse_eq (w : Word) (rest : List Word) :
    Predicate.parse (w :: rest) = (do
      let parts ← (Predicate.detach (if w.isPredicateMarker then rest else w :: rest)).result
      let core ← Predicate.parseCore parts.1
      pure ⟨w == .o, core.1, core.2, parts.2⟩) := by
  simp only [Predicate.parse, Predicate.trace, Traced.result_bind, Traced.result_lift]
  rfl

theorem Clause.result_traceBy (read : List Word → Traced Predicate) (fragment : Bool)
    (words : List Word) :
    (Clause.traceBy read fragment words).result = (do
      let opening ← Clause.parseSubjects words
      let predicates ← (runs Word.isPredicateMarker opening.2).mapM fun run => (read run).result
      if predicates.isEmpty && !fragment then throw .emptyPredicate
      else pure ⟨opening.1, predicates⟩) := by
  simp only [Clause.traceBy, Traced.result_bind, Traced.result_lift, Traced.result_mapM]
  congr
  funext opening
  congr
  funext predicates
  split <;> rfl

theorem Clause.parse_eq (fragment : Bool) (words : List Word) :
    Clause.parse fragment words = (do
      let opening ← Clause.parseSubjects words
      let predicates ← (runs Word.isPredicateMarker opening.2).mapM Predicate.parse
      if predicates.isEmpty && !fragment then throw .emptyPredicate
      else pure ⟨opening.1, predicates⟩) :=
  Clause.result_traceBy Predicate.trace fragment words

theorem Context.result_traceAs {α : Type} (ofSentence : Sentence → α) (ofGroup : Group → α)
    (inner : Traced Sentence) (words : List Word) :
    (Context.traceAs ofSentence ofGroup inner words).result =
      if words.isEmpty then .error .emptyContext
      else if Context.isSentence words then inner.result.map ofSentence
      else (Group.parse words).map ofGroup := by
  unfold Context.traceAs
  by_cases hempty : words.isEmpty
  · simp only [hempty, if_true, Traced.result_fail]
  · by_cases hsentence : Context.isSentence words
    · simp only [hempty, hsentence, if_true, if_false, Traced.result_bind, Bool.false_eq_true]
      cases inner.result <;> rfl
    · simp only [hempty, hsentence, if_false, Traced.result_lift, Bool.false_eq_true]

/-- The words before a `la` are a sentence or a noun phrase, or there are none. -/
theorem Context.parse_eq (words : List Word) :
    Context.parse words =
      if words.isEmpty then .error .emptyContext
      else if Context.isSentence words then (Sentence.parse true words).map .sentence
      else (Group.parse words).map .nounPhrase :=
  Context.result_traceAs _ _ _ words

/-- A sentence is its clause, or its context and its clause around the last `la`. -/
theorem Sentence.result_traceBy (read : List Word → Traced Predicate) (fragment : Bool)
    (words : List Word) :
    (Sentence.traceBy read fragment words).result =
      (match cutLast? (· == .la) words with
      | none => (Clause.traceBy read fragment words).result.map .plain
      | some (before, _, behind) => do
        let context ← (Context.traceAs .sentence .nounPhrase
          (Sentence.traceBy read true before) before).result
        let clause ← (Clause.traceBy read fragment behind).result
        pure (Sentence.inContext (some context) clause)) := by
  rw [Sentence.traceBy]
  split
  · next hcut =>
    simp only [hcut, Traced.result_bind]
    cases (Clause.traceBy read fragment words).result <;> rfl
  · next before w behind hcut =>
    simp only [hcut, Traced.result_bind, Traced.result_note]
    rfl

theorem Sentence.parse_eq (fragment : Bool) (words : List Word) :
    Sentence.parse fragment words =
      (match cutLast? (· == .la) words with
      | none => (Clause.parse fragment words).map .plain
      | some (before, _, behind) => do
        let context ← Context.parse before
        let clause ← Clause.parse fragment behind
        pure (Sentence.inContext (some context) clause)) :=
  Sentence.result_traceBy Predicate.trace fragment words

end TokiPona
