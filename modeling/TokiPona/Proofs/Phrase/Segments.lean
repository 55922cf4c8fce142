import TokiPona.Proofs.Phrase.Errors
import TokiPona.Proofs.Phrase.Sentence

namespace TokiPona

/-- The first segment of several: a sentence if a predicate marker is in it, and otherwise a noun
    phrase. -/
def Context.ofSegment (segment : List Word) : Except ParseError Context :=
  if segment.isEmpty then .error .emptyContext
  else if segment.any Word.isPredicateMarker then
    (Clause.parse true segment).map (fun clause => .sentence (.plain clause))
  else (Group.parse segment).map .nounPhrase

/-- Reads segments behind a context. All but the last of them are fragments, and each makes the
    context of the next one. -/
def Sentence.parseBehind (fragment : Bool) (context : Context) (segment : List Word) :
    List (List Word) → Except ParseError Sentence
  | [] => (Clause.parse fragment segment).map (.inContext (some context))
  | next :: later => do
    let clause ← Clause.parse true segment
    Sentence.parseBehind fragment (.sentence (.inContext (some context) clause)) next later

/-- Reads the segments of a sentence from left to right. There is always one at least. -/
def Sentence.parseSegments (fragment : Bool) : List (List Word) → Except ParseError Sentence
  | [] => .error .emptySubject
  | [only] => (Clause.parse fragment only).map .plain
  | first :: second :: later => do
    let context ← Context.ofSegment first
    Sentence.parseBehind fragment context second later

/-- The last segment is read in the context that all others make. -/
theorem Sentence.parseBehind_append (fragment : Bool) (context : Context) (segment : List Word)
    (later : List (List Word)) (last : List Word) :
    Sentence.parseBehind fragment context segment (later ++ [last]) = (do
      let s ← Sentence.parseBehind true context segment later
      let clause ← Clause.parse fragment last
      pure (.inContext (some (.sentence s)) clause)) := by
  induction later generalizing context segment with
  | nil =>
    simp only [List.nil_append, Sentence.parseBehind]
    cases Clause.parse true segment with
    | error e => rfl
    | ok clause => cases Clause.parse fragment last <;> rfl
  | cons next later ih =>
    simp only [List.cons_append, Sentence.parseBehind]
    cases Clause.parse true segment with
    | error e => rfl
    | ok clause => exact ih _ next

theorem Sentence.parseSegments_append (fragment : Bool) (first second : List Word)
    (later : List (List Word)) (last : List Word) :
    Sentence.parseSegments fragment (first :: second :: later ++ [last]) = (do
      let s ← Sentence.parseSegments true (first :: second :: later)
      let clause ← Clause.parse fragment last
      pure (.inContext (some (.sentence s)) clause)) := by
  simp only [List.cons_append, Sentence.parseSegments]
  cases Context.ofSegment first with
  | error e => rfl
  | ok context => exact Sentence.parseBehind_append fragment context second later last

theorem Sentence.exists_segments_of_la_mem {words : List Word} (hla : .la ∈ words) :
    ∃ first second later, words.splitOn .la = first :: second :: later := by
  obtain ⟨before, behind, rfl⟩ := List.append_of_mem hla
  obtain ⟨first, others, hbefore⟩ := List.exists_cons_of_ne_nil (List.splitOn_ne_nil .la before)
  have hne : others ++ behind.splitOn .la ≠ [] :=
    List.append_ne_nil_of_right_ne_nil others (List.splitOn_ne_nil .la behind)
  obtain ⟨second, later, hsecond⟩ := List.exists_cons_of_ne_nil hne
  refine ⟨first, second, later, ?_⟩
  rw [List.splitOn_append_cons_self, hbefore, List.cons_append, hsecond]

theorem Context.parse_of_la_not_mem {words : List Word} (hla : .la ∉ words) :
    Context.parse words = Context.ofSegment words := by
  have hkind : Context.isSentence words = words.any Word.isPredicateMarker := by
    rw [Bool.eq_iff_iff, Context.isSentence_iff, List.any_eq_true]
    simp [hla]
  rw [Context.parse_eq, Context.ofSegment, hkind, Sentence.parse_of_la_not_mem true hla]
  cases Clause.parse true words <;> rfl

theorem Context.parse_of_la_mem {words : List Word} (hla : .la ∈ words) :
    Context.parse words = (Sentence.parse true words).map .sentence := by
  have hne : words.isEmpty = false := by simpa using List.ne_nil_of_mem hla
  have hkind : Context.isSentence words := (Context.isSentence_iff words).mpr (.inl hla)
  rw [Context.parse_eq, hne, hkind]
  rfl

/-- Going back from the last `la` reads the same as going through the segments in order. -/
theorem Sentence.parse_eq_parseSegments (fragment : Bool) (words : List Word) :
    Sentence.parse fragment words = Sentence.parseSegments fragment (words.splitOn .la) := by
  -- What stands before the last `la` has all segments but the last one.
  induction words using last_mark_induction Word.la generalizing fragment with
  | unmarked words hla =>
    rw [Sentence.parse_of_la_not_mem fragment hla, List.splitOn_eq_singleton hla]
    rfl
  | marked before behind hla ih =>
    rw [Sentence.parse_append_la fragment before hla, List.splitOn_append_cons_self,
      List.splitOn_eq_singleton hla]
    by_cases hcontext : .la ∈ before
    · obtain ⟨first, second, later, hsegments⟩ := Sentence.exists_segments_of_la_mem hcontext
      have hbefore := ih true
      rw [hsegments] at hbefore ⊢
      rw [Sentence.parseSegments_append, ← hbefore]
      simp only [Context.parse_of_la_mem hcontext]
      cases Sentence.parse true before <;> rfl
    · rw [List.splitOn_eq_singleton hcontext]
      simp only [Context.parse_of_la_not_mem hcontext, List.singleton_append,
        Sentence.parseSegments, Sentence.parseBehind]
      cases Context.ofSegment before with
      | error e => rfl
      | ok context => cases Clause.parse fragment behind <;> rfl

/-- The errors of the segments behind a context, each read by itself. -/
def Sentence.laterErrors (fragment : Bool) (segment : List Word) :
    List (List Word) → List ParseError
  | [] => (failure? (Clause.parse fragment segment)).toList
  | next :: later =>
    (failure? (Clause.parse true segment)).toList ++ Sentence.laterErrors fragment next later

/-- The errors of the segments of a sentence from left to right, each read by itself. -/
def Sentence.segmentErrors (fragment : Bool) : List (List Word) → List ParseError
  | [] => [.emptySubject]
  | [only] => (failure? (Clause.parse fragment only)).toList
  | first :: second :: later =>
    (failure? (Context.ofSegment first)).toList ++ Sentence.laterErrors fragment second later

theorem Sentence.failure?_parseBehind (fragment : Bool) (context : Context)
    (segment : List Word) (later : List (List Word)) :
    failure? (Sentence.parseBehind fragment context segment later) =
      (Sentence.laterErrors fragment segment later).head? := by
  induction later generalizing context segment with
  | nil =>
    rw [Sentence.parseBehind, Sentence.laterErrors, failure?_map]
    cases failure? (Clause.parse fragment segment) <;> rfl
  | cons next later ih =>
    rw [Sentence.parseBehind, Sentence.laterErrors]
    cases Clause.parse true segment with
    | error e => rfl
    | ok clause => exact ih _ next

theorem Sentence.failure?_parseSegments (fragment : Bool) (segments : List (List Word)) :
    failure? (Sentence.parseSegments fragment segments) =
      (Sentence.segmentErrors fragment segments).head? := by
  match segments with
  | [] => rfl
  | [only] =>
    rw [Sentence.parseSegments, Sentence.segmentErrors, failure?_map]
    cases failure? (Clause.parse fragment only) <;> rfl
  | first :: second :: later =>
    rw [Sentence.parseSegments, Sentence.segmentErrors]
    cases Context.ofSegment first with
    | error e => rfl
    | ok context => exact Sentence.failure?_parseBehind fragment context second later

theorem Context.ofSegment_eq_emptyContext_iff (segment : List Word) :
    Context.ofSegment segment = .error .emptyContext ↔ segment = [] := by
  unfold Context.ofSegment
  split
  · next hempty => simpa using hempty
  · next hne =>
    refine iff_of_false ?_ (by simpa using hne)
    intro herror
    split at herror
    · cases Clause.isOfClause_of_parse (map_eq_error_iff.mp herror)
    · cases Group.isOfClause_of_parse (map_eq_error_iff.mp herror)

theorem Sentence.isOfClause_of_parseBehind {fragment : Bool} {context : Context}
    {segment : List Word} {later : List (List Word)} {e : ParseError}
    (herror : Sentence.parseBehind fragment context segment later = .error e) : e.isOfClause := by
  induction later generalizing context segment with
  | nil => exact Clause.isOfClause_of_parse (map_eq_error_iff.mp herror)
  | cons next later ih =>
    rcases bind_eq_error_iff.mp herror with hsegment | ⟨clause, -, hlater⟩
    · exact Clause.isOfClause_of_parse hsegment
    · exact ih hlater

/-- Only a leading `la` lacks its context. -/
theorem Sentence.parse_eq_emptyContext_iff (fragment : Bool) (words : List Word) :
    Sentence.parse fragment words = .error .emptyContext ↔ words.head? = some .la := by
  by_cases hla : .la ∈ words
  · obtain ⟨first, second, later, hsegments⟩ := Sentence.exists_segments_of_la_mem hla
    rw [Sentence.parse_eq_parseSegments, ← head?_eq_iff_of_splitOn hsegments, hsegments,
      ← Context.ofSegment_eq_emptyContext_iff, Sentence.parseSegments, bind_eq_error_iff]
    refine or_iff_left ?_
    rintro ⟨context, -, herror⟩
    cases Sentence.isOfClause_of_parseBehind herror
  · rw [Sentence.parse_eq_parseSegments, List.splitOn_eq_singleton hla]
    refine iff_of_false ?_ (fun hhead => hla (List.mem_of_mem_head? hhead))
    intro herror
    cases Clause.isOfClause_of_parse (map_eq_error_iff.mp herror)

/-- The number of contexts within a context. -/
def Context.depth : Context → Nat
  | .sentence s => s.contexts.length
  | .nounPhrase _ => 0

theorem Sentence.length_contexts_inContext (context : Context) (clause : Clause) :
    (Sentence.inContext (some context) clause).contexts.length = context.depth + 1 := by
  cases context <;> rfl

theorem Context.depth_of_ofSegment {segment : List Word} {context : Context}
    (hsegment : Context.ofSegment segment = .ok context) : context.depth = 0 := by
  unfold Context.ofSegment at hsegment
  split at hsegment
  · cases hsegment
  · split at hsegment <;> obtain ⟨part, -, rfl⟩ := map_eq_ok_iff.mp hsegment <;> rfl

theorem Sentence.length_contexts_of_parseBehind {fragment : Bool} {context : Context}
    {segment : List Word} {later : List (List Word)} {s : Sentence}
    (hparse : Sentence.parseBehind fragment context segment later = .ok s) :
    s.contexts.length = context.depth + 1 + later.length := by
  induction later generalizing context segment with
  | nil =>
    obtain ⟨clause, -, rfl⟩ := map_eq_ok_iff.mp hparse
    exact Sentence.length_contexts_inContext context clause
  | cons next later ih =>
    obtain ⟨clause, -, hlater⟩ := bind_eq_ok_iff.mp hparse
    rw [ih hlater, Context.depth, Sentence.length_contexts_inContext, List.length_cons]
    omega

/-- Every `la` of a sentence ends one of its contexts. -/
theorem Sentence.length_contexts_of_parse {fragment : Bool} {words : List Word} {s : Sentence}
    (hparse : Sentence.parse fragment words = .ok s) :
    s.contexts.length = words.count .la := by
  have hlength := length_splitOn Word.la words
  rw [Sentence.parse_eq_parseSegments] at hparse
  match hsegments : words.splitOn .la with
  | [] => exact absurd hsegments (List.splitOn_ne_nil .la words)
  | [only] =>
    rw [hsegments] at hparse hlength
    obtain ⟨clause, -, rfl⟩ := map_eq_ok_iff.mp hparse
    exact (Nat.succ.inj hlength)
  | first :: second :: later =>
    rw [hsegments] at hparse hlength
    obtain ⟨context, hcontext, hbehind⟩ := bind_eq_ok_iff.mp hparse
    rw [Sentence.length_contexts_of_parseBehind hbehind, Context.depth_of_ofSegment hcontext]
    simp only [List.length_cons] at hlength
    omega

/-- A sentence is read as its segments are from left to right, to the same tree or the same error.
    The error is that of the first segment that cannot be read, it is a missing context exactly
    for a leading `la`, and a tree that is read has as many contexts, one within the other, as
    there are `la` in its words. -/
theorem Sentence.parse_leftToRight (fragment : Bool) (words : List Word) :
    Sentence.parse fragment words = Sentence.parseSegments fragment (words.splitOn .la) ∧
      failure? (Sentence.parse fragment words) =
        (Sentence.segmentErrors fragment (words.splitOn .la)).head? ∧
      (Sentence.parse fragment words = .error .emptyContext ↔ words.head? = some .la) ∧
      ∀ s, Sentence.parse fragment words = .ok s → s.contexts.length = words.count .la := by
  have hsegments := Sentence.parse_eq_parseSegments fragment words
  refine ⟨hsegments, ?_, Sentence.parse_eq_emptyContext_iff fragment words,
    fun s => Sentence.length_contexts_of_parse⟩
  rw [hsegments, Sentence.failure?_parseSegments]

/-- Both the first and the third segment of `jan e la mi moku la li pona` are refused by
    themselves, and the first decides. Without these faults there are two contexts. -/
theorem Sentence.parse_leftToRight_of_three_segments :
    let wrong : List Word := [.jan, .e, .la, .mi, .moku, .la, .li, .pona]
    let right : List Word := [.jan, .la, .mi, .moku, .la, .ni, .li, .pona]
    let s : Sentence := .afterSentence
      (.afterPhrase (.flat .jan []) ⟨[.flat .mi []], [⟨false, ⟨[], .flat .moku []⟩, [], []⟩]⟩)
      ⟨[.flat .ni []], [⟨false, ⟨[], .flat .pona []⟩, [], []⟩]⟩
    failure? (Sentence.parse false wrong) = some (.invalidNoun .e) ∧
      Sentence.segmentErrors false (wrong.splitOn .la) = [.invalidNoun .e, .emptySubject] ∧
      Sentence.parse false right = .ok s ∧ s.contexts.length = right.count .la := by
  intro wrong right s
  have herrors : Sentence.segmentErrors false (wrong.splitOn .la) =
      [.invalidNoun .e, .emptySubject] := by cbv
  have hright : Sentence.parse false right = .ok s := by cbv
  refine ⟨?_, herrors, hright, (Sentence.parse_leftToRight false right).2.2.2 s hright⟩
  rw [(Sentence.parse_leftToRight false wrong).2.1, herrors]
  rfl

end TokiPona
