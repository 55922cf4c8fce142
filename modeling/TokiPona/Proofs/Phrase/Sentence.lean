import TokiPona.Proofs.Phrase.Clause

namespace TokiPona

/-- The segments before a `la`, written out. The first of them may be a noun phrase that begins
    with `mi` or `sina`, so it is never given a `li`. -/
def Context.writtenOutSegments : List (List Word) → List (List Word)
  | [] => []
  | first :: later => Clause.withSubject first :: later.map Clause.writtenOut

/-- The segments of a sentence, written out. A segment that is not alone and comes first stands
    before a `la`. -/
def Sentence.writtenOutSegments : List (List Word) → List (List Word)
  | [only] => [Clause.writtenOut only]
  | segments => Context.writtenOutSegments segments

/-- The words before a `la` with those that they leave out. -/
def Context.writtenOut (words : List Word) : List Word :=
  [.la].intercalate (Context.writtenOutSegments (words.splitOn .la))

/-- The words of a sentence with those that it leaves out. -/
def Sentence.writtenOut (words : List Word) : List Word :=
  [.la].intercalate (Sentence.writtenOutSegments (words.splitOn .la))

theorem Sentence.writtenOut_of_la_not_mem {words : List Word} (hla : .la ∉ words) :
    Sentence.writtenOut words = Clause.writtenOut words := by
  rw [Sentence.writtenOut, List.splitOn_eq_singleton hla]
  exact List.intercalate_singleton

theorem Context.writtenOut_of_la_not_mem {words : List Word} (hla : .la ∉ words) :
    Context.writtenOut words = Clause.withSubject words := by
  rw [Context.writtenOut, List.splitOn_eq_singleton hla]
  exact List.intercalate_singleton

/-- The last segment is written out like a clause of its own. -/
theorem Context.writtenOut_append {before behind : List Word} (hla : .la ∉ behind) :
    Context.writtenOut (before ++ .la :: behind) =
      Context.writtenOut before ++ .la :: Clause.writtenOut behind := by
  obtain ⟨first, later, hbefore⟩ := List.exists_cons_of_ne_nil (List.splitOn_ne_nil .la before)
  rw [Context.writtenOut, Context.writtenOut, List.splitOn_append_cons_self,
    List.splitOn_eq_singleton hla, hbefore, List.cons_append]
  simp [Context.writtenOutSegments, intercalate_cons_eq_append]

theorem Sentence.writtenOut_append {before behind : List Word} (hla : .la ∉ behind) :
    Sentence.writtenOut (before ++ .la :: behind) =
      Context.writtenOut before ++ .la :: Clause.writtenOut behind := by
  rw [← Context.writtenOut_append hla, Sentence.writtenOut, Context.writtenOut,
    List.splitOn_append_cons_self, List.splitOn_eq_singleton hla]
  obtain ⟨first, later, hbefore⟩ := List.exists_cons_of_ne_nil (List.splitOn_ne_nil .la before)
  rw [hbefore]
  cases later <;> rfl

theorem Sentence.result_traceBy_of_la_not_mem (read : List Word → Traced Predicate)
    (fragment : Bool) {words : List Word} (hla : .la ∉ words) :
    (Sentence.traceBy read fragment words).result =
      (Clause.traceBy read fragment words).result.map .plain := by
  rw [Sentence.result_traceBy, cutLast?_beq_of_not_mem hla]

theorem Sentence.result_traceBy_append_la (read : List Word → Traced Predicate) (fragment : Bool)
    (before : List Word) {behind : List Word} (hla : .la ∉ behind) :
    (Sentence.traceBy read fragment (before ++ .la :: behind)).result = (do
      let context ← (Context.traceAs .sentence .nounPhrase
        (Sentence.traceBy read true before) before).result
      let clause ← (Clause.traceBy read fragment behind).result
      pure (.inContext (some context) clause)) := by
  rw [Sentence.result_traceBy, cutLast?_beq_append hla]

/-- Without a `la` the words of a sentence are one clause. -/
theorem Sentence.parse_of_la_not_mem (fragment : Bool) {words : List Word} (hla : .la ∉ words) :
    Sentence.parse fragment words = (Clause.parse fragment words).map .plain :=
  Sentence.result_traceBy_of_la_not_mem Predicate.trace fragment hla

/-- The clause of a sentence stands behind its last `la`. -/
theorem Sentence.parse_append_la (fragment : Bool) (before : List Word) {behind : List Word}
    (hla : .la ∉ behind) :
    Sentence.parse fragment (before ++ .la :: behind) = (do
      let context ← Context.parse before
      let clause ← Clause.parse fragment behind
      pure (.inContext (some context) clause)) :=
  Sentence.result_traceBy_append_la Predicate.trace fragment before hla

theorem Context.isSentence_iff (words : List Word) :
    Context.isSentence words ↔ .la ∈ words ∨ ∃ w ∈ words, w.isPredicateMarker := by
  simp only [Context.isSentence, List.any_eq_true, Bool.or_eq_true, beq_iff_eq]
  constructor
  · rintro ⟨w, hw, hmarker | rfl⟩
    · exact Or.inr ⟨w, hw, hmarker⟩
    · exact Or.inl hw
  · rintro (hla | ⟨w, hw, hmarker⟩)
    · exact ⟨.la, hla, Or.inr rfl⟩
    · exact ⟨w, hw, Or.inl hmarker⟩

theorem Clause.mem_withSubject {words : List Word} {w : Word} (hw : w ∈ words) :
    w ∈ Clause.withSubject words := by
  unfold Clause.withSubject
  split
  · exact List.mem_cons_of_mem _ hw
  · exact hw

/-- A sentence before a `la` is written out like any other sentence. -/
theorem Context.writtenOut_of_isSentence {words : List Word} (hwords : Context.isSentence words) :
    Context.writtenOut words = Sentence.writtenOut words := by
  rcases not_mem_or_exists_last .la words with hla | ⟨before, behind, rfl, hla⟩
  · obtain ⟨w, hw, hmarker⟩ := ((Context.isSentence_iff words).mp hwords).resolve_left hla
    rw [Context.writtenOut_of_la_not_mem hla, Sentence.writtenOut_of_la_not_mem hla,
      Clause.writtenOut, Clause.withMarker_of_marked (Clause.mem_withSubject hw) hmarker]
  · rw [Context.writtenOut_append hla, Sentence.writtenOut_append hla]

/-- A noun phrase before a `la` leaves nothing out. -/
theorem Context.writtenOut_of_not_isSentence {words : List Word}
    (hwords : ¬ Context.isSentence words) : Context.writtenOut words = words := by
  rw [Context.isSentence_iff, not_or] at hwords
  obtain ⟨hla, hmarkers⟩ := hwords
  rw [Context.writtenOut_of_la_not_mem hla]
  cases words with
  | nil => rfl
  | cons w rest =>
    apply Clause.withSubject_of_ne
    rintro rfl
    exact hmarkers ⟨.o, List.mem_cons_self, rfl⟩

/-- Writing out takes no `la` and no marker away. -/
theorem Context.isSentence_writtenOut {words : List Word} (hwords : Context.isSentence words) :
    Context.isSentence (Context.writtenOut words) := by
  rw [Context.isSentence_iff]
  rcases not_mem_or_exists_last .la words with hla | ⟨before, behind, rfl, hla⟩
  · obtain ⟨w, hw, hmarker⟩ := ((Context.isSentence_iff words).mp hwords).resolve_left hla
    rw [Context.writtenOut_of_la_not_mem hla]
    exact Or.inr ⟨w, Clause.mem_withSubject hw, hmarker⟩
  · rw [Context.writtenOut_append hla]
    exact Or.inl (by simp)

theorem Clause.la_not_mem_writtenOut {words : List Word} (hla : .la ∉ words) :
    .la ∉ Clause.writtenOut words := by
  have hsubject : .la ∉ Clause.withSubject words := by
    unfold Clause.withSubject
    split <;> simpa using hla
  unfold Clause.writtenOut Clause.withMarker
  split
  · next hwords =>
    rw [hwords] at hsubject
    split
    · simpa using hsubject
    · exact hsubject
  · exact hsubject

theorem Group.WellFormed.not_isSentence {g : Group} (hg : g.WellFormed) :
    ¬ Context.isSentence g.words := by
  rw [Context.isSentence_iff]
  rintro (hla | ⟨w, hw, hmarker⟩)
  · cases hg.isParticle .la hla
  · rw [Word.isPredicateMarker_of_not_isParticle (hg.isParticle w hw)] at hmarker
    cases hmarker

theorem Clause.WellFormed.exists_marker_iff {c : Clause} (hc : c.WellFormed) :
    (∃ w ∈ c.words, w.isPredicateMarker) ↔ c.predicates ≠ [] := by
  constructor
  · rintro ⟨w, hw, hmarker⟩ hnone
    rw [Clause.words, hnone, List.flatMap_nil, List.append_nil] at hw
    rw [hc.isPredicateMarker_joined w hw] at hmarker
    cases hmarker
  · intro hsome
    obtain ⟨p, predicates, hpredicates⟩ := List.exists_cons_of_ne_nil hsome
    refine ⟨p.marker, ?_, p.isPredicateMarker_marker⟩
    simp [Clause.words, hpredicates, Predicate.words]

/-- Its words tell a sentence from a noun phrase exactly if it has a context or a predicate. -/
theorem Sentence.isSentence_words_iff {s : Sentence} (hs : s.PartsWellFormed) :
    Context.isSentence s.words ↔ s.IsClausal := by
  rw [Context.isSentence_iff]
  cases s with
  | plain c =>
    simp only [Sentence.words, Sentence.IsClausal, Sentence.context?, Sentence.clause,
      (Clause.WellFormed.la_not_mem hs), Clause.WellFormed.exists_marker_iff hs,
      Option.isSome_none, Bool.false_eq_true]
  | afterPhrase g c => simp [Sentence.words, Sentence.IsClausal, Sentence.context?]
  | afterSentence s c => simp [Sentence.words, Sentence.IsClausal, Sentence.context?]

theorem Clause.WellFormed.words_ne_nil {c : Clause} (hc : c.WellFormed) : c.words ≠ [] := by
  intro hnil
  exact Group.joined_ne_nil hc.nonempty (List.append_eq_nil_iff.mp hnil).1

theorem Context.WellFormed.words_ne_nil {context : Context} (hcontext : context.WellFormed) :
    context.words ≠ [] := by
  cases context with
  | nounPhrase g => exact g.words_ne_nil
  | sentence s =>
    cases s with
    | plain c => exact Clause.WellFormed.words_ne_nil hcontext.1
    | afterPhrase g c => simp [Context.words, Sentence.words]
    | afterSentence s c => simp [Context.words, Sentence.words]

/-- A context is read from the words that write out as its own, provided that a sentence is read
    in this way from the same words. -/
theorem Context.parse_eq_ok_iff_of_sentence {words : List Word}
    (hsentence : ∀ s, Sentence.parse true words = .ok s ↔
      s.words = Sentence.writtenOut words ∧ s.WellFormed true ∧ s.Settled) (context : Context) :
    Context.parse words = .ok context ↔
      context.words = Context.writtenOut words ∧ context.WellFormed ∧ context.Settled := by
  rw [Context.parse_eq]
  by_cases hempty : words = []
  · subst hempty
    simp only [List.isEmpty_nil, if_true, reduceCtorEq, false_iff]
    rintro ⟨hwords, hcontext, -⟩
    exact hcontext.words_ne_nil hwords
  · have hne : words.isEmpty = false := by simpa using hempty
    by_cases hkind : Context.isSentence words
    · have hout := Context.writtenOut_of_isSentence hkind
      have hkind' := Context.isSentence_writtenOut hkind
      simp only [hne, hkind, Bool.false_eq_true, if_false, if_true, map_eq_ok_iff, hsentence]
      constructor
      · rintro ⟨s, ⟨hwords, hs, hsettled⟩, rfl⟩
        rw [hout, ← hwords] at hkind'
        exact ⟨hout ▸ hwords, ⟨hs.parts, (Sentence.isSentence_words_iff hs.parts).mp hkind'⟩,
          hsettled⟩
      · rintro ⟨hwords, hcontext, hsettled⟩
        cases context with
        | sentence s =>
          exact ⟨s, ⟨hout ▸ hwords, ⟨hcontext.1, Or.inr rfl⟩, hsettled⟩, rfl⟩
        | nounPhrase g =>
          rw [← hwords] at hkind'
          exact absurd hkind' (Group.WellFormed.not_isSentence hcontext)
    · have hout := Context.writtenOut_of_not_isSentence hkind
      simp only [hne, hkind, Bool.false_eq_true, if_false, map_eq_ok_iff, hout,
        Group.parse_eq_ok_iff]
      constructor
      · rintro ⟨g, ⟨hwords, hg⟩, rfl⟩
        exact ⟨hwords, hg, trivial⟩
      · rintro ⟨hwords, hcontext, -⟩
        cases context with
        | sentence s =>
          rw [← hwords] at hkind
          exact absurd ((Sentence.isSentence_words_iff hcontext.1).mpr hcontext.2) hkind
        | nounPhrase g => exact ⟨g, ⟨hwords, hcontext⟩, rfl⟩

theorem Sentence.inContext_wellFormed_iff (fragment : Bool) (context : Context) (c : Clause) :
    (Sentence.inContext (some context) c).WellFormed fragment ↔
      context.WellFormed ∧ c.WellFormed ∧ (c.predicates ≠ [] ∨ fragment = true) := by
  constructor
  · rintro ⟨hparts, hcomplete⟩
    cases context <;> exact ⟨hparts.1, hparts.2, hcomplete⟩
  · rintro ⟨hcontext, hc, hcomplete⟩
    cases context <;> exact ⟨⟨hcontext, hc⟩, hcomplete⟩

theorem Sentence.inContext_settled_iff (context : Context) (c : Clause) :
    (Sentence.inContext (some context) c).Settled ↔ context.Settled ∧ c.Settled := by
  cases context with
  | sentence s => rfl
  | nounPhrase g => exact ⟨fun hc => ⟨trivial, hc⟩, fun hc => hc.2⟩

theorem Sentence.exists_inContext_of_la_mem {fragment : Bool} {s : Sentence}
    (hs : s.WellFormed fragment) (hla : .la ∈ s.words) :
    ∃ context, s = Sentence.inContext (some context) s.clause := by
  cases s with
  | plain c => exact absurd hla (Clause.WellFormed.la_not_mem hs.parts)
  | afterPhrase g c => exact ⟨.nounPhrase g, rfl⟩
  | afterSentence s c => exact ⟨.sentence s, rfl⟩

theorem Sentence.eq_plain_of_la_not_mem {s : Sentence} (hla : .la ∉ s.words) :
    s = .plain s.clause := by
  cases s with
  | plain c => rfl
  | afterPhrase g c => simp [Sentence.words] at hla
  | afterSentence s c => simp [Sentence.words] at hla

/-- A sentence is read from the words that write out as its own and from no others, and only if
    it is well formed and settled. -/
theorem Sentence.parse_eq_ok_iff (fragment : Bool) (words : List Word) (s : Sentence) :
    Sentence.parse fragment words = .ok s ↔
      s.words = Sentence.writtenOut words ∧ s.WellFormed fragment ∧ s.Settled := by
  induction words using last_mark_induction Word.la generalizing fragment s with
  | unmarked words hla =>
    rw [Sentence.parse_of_la_not_mem fragment hla, Sentence.writtenOut_of_la_not_mem hla]
    simp only [map_eq_ok_iff, Clause.parse_eq_ok_iff]
    constructor
    · rintro ⟨c, ⟨hwords, hc, hsettled, hcomplete⟩, rfl⟩
      exact ⟨hwords, ⟨hc, hcomplete⟩, hsettled⟩
    · rintro ⟨hwords, hs, hsettled⟩
      have hplain := Sentence.eq_plain_of_la_not_mem
        (hwords ▸ Clause.la_not_mem_writtenOut hla)
      rw [hplain] at hwords hs hsettled
      exact ⟨s.clause, ⟨hwords, hs.parts, hsettled, hs.complete⟩, hplain.symm⟩
  | marked before behind hla ih =>
    rw [Sentence.parse_append_la fragment before hla, Sentence.writtenOut_append hla]
    simp only [bind_eq_ok_iff, Context.parse_eq_ok_iff_of_sentence (ih true),
      Clause.parse_eq_ok_iff]
    constructor
    · rintro ⟨context, ⟨hbefore, hcontext, hset⟩, c, ⟨hbehind, hc, hsettled, hcomplete⟩, heq⟩
      cases heq
      rw [Sentence.words_inContext, Sentence.inContext_wellFormed_iff,
        Sentence.inContext_settled_iff, hbefore, hbehind]
      exact ⟨rfl, ⟨hcontext, hc, hcomplete⟩, hset, hsettled⟩
    · rintro ⟨hwords, hs, hsettled⟩
      obtain ⟨context, hsplit⟩ := Sentence.exists_inContext_of_la_mem hs (by simp [hwords])
      rw [hsplit, Sentence.words_inContext] at hwords
      rw [hsplit, Sentence.inContext_wellFormed_iff] at hs
      rw [hsplit, Sentence.inContext_settled_iff] at hsettled
      obtain ⟨hcontext, hc, hcomplete⟩ := hs
      obtain ⟨hbefore, hbehind⟩ := append_cons_inj_of_not_mem hc.la_not_mem
        (Clause.la_not_mem_writtenOut hla) hwords
      exact ⟨context, ⟨hbefore, hcontext, hsettled.1⟩, s.clause,
        ⟨hbehind, hc, hsettled.2, hcomplete⟩, congrArg Except.ok hsplit.symm⟩

end TokiPona
