import TokiPona.Proofs.Phrase.Segments

namespace TokiPona

/-- What stands before a `la` can be replaced by words that are the same context. -/
theorem Sentence.parse_append_la_congr {words words' : List Word}
    (hcontext : Context.parse words = Context.parse words') (fragment : Bool) (more : List Word) :
    Sentence.parse fragment (words ++ .la :: more) =
      Sentence.parse fragment (words' ++ .la :: more) := by
  induction more using last_mark_induction Word.la generalizing fragment with
  | unmarked more hla =>
    rw [Sentence.parse_append_la fragment words hla, Sentence.parse_append_la fragment words' hla,
      hcontext]
  | marked before behind hla ih =>
    have hbefore : Context.parse (words ++ .la :: before) =
        Context.parse (words' ++ .la :: before) := by
      rw [Context.parse_of_la_mem (by simp), Context.parse_of_la_mem (by simp), ih true]
    rw [← List.cons_append, ← List.append_assoc, ← List.append_assoc,
      Sentence.parse_append_la fragment _ hla, Sentence.parse_append_la fragment _ hla, hbefore]

/-- Two clauses that are read alike, each within one segment of a sentence. -/
structure Clause.Alike (segment segment' : List Word) : Prop where
  la_not_mem : .la ∉ segment
  la_not_mem' : .la ∉ segment'
  parse_eq : ∀ fragment, Clause.parse fragment segment = Clause.parse fragment segment'

namespace Clause.Alike

variable {segment segment' front : List Word}

/-- At the end of a sentence a clause can be replaced by one that is read alike. -/
theorem sentence_parse (halike : Clause.Alike segment segment')
    (hfront : front = [] ∨ front.getLast? = some .la) (fragment : Bool) :
    Sentence.parse fragment (front ++ segment) = Sentence.parse fragment (front ++ segment') := by
  rcases hfront with rfl | hlast
  · rw [List.nil_append, List.nil_append, Sentence.parse_of_la_not_mem fragment halike.la_not_mem,
      Sentence.parse_of_la_not_mem fragment halike.la_not_mem', halike.parse_eq]
  · obtain ⟨before, rfl⟩ := List.getLast?_eq_some_iff.mp hlast
    rw [List.append_assoc, List.append_assoc, List.singleton_append, List.singleton_append,
      Sentence.parse_append_la fragment before halike.la_not_mem,
      Sentence.parse_append_la fragment before halike.la_not_mem', halike.parse_eq]

/-- Behind a `la` the clause is part of a sentence, whatever its words are. -/
theorem context_parse_of_la (halike : Clause.Alike segment segment')
    (hfront : front.getLast? = some .la) :
    Context.parse (front ++ segment) = Context.parse (front ++ segment') := by
  have hla : .la ∈ front := List.mem_of_getLast? hfront
  rw [Context.parse_of_la_mem (List.mem_append_left _ hla),
    Context.parse_of_la_mem (List.mem_append_left _ hla), halike.sentence_parse (.inr hfront)]

/-- In the first segment a predicate marker tells the clause from a noun phrase. -/
theorem context_parse_of_marker (halike : Clause.Alike segment segment')
    (hmarker : segment.any Word.isPredicateMarker)
    (hmarker' : segment'.any Word.isPredicateMarker) :
    Context.parse segment = Context.parse segment' := by
  have hne {words : List Word} (hany : words.any Word.isPredicateMarker) :
      words.isEmpty = false := by
    cases words with
    | nil => cases hany
    | cons w rest => rfl
  rw [Context.parse_of_la_not_mem halike.la_not_mem, Context.parse_of_la_not_mem halike.la_not_mem']
  simp only [Context.ofSegment, hne hmarker, hne hmarker', hmarker, hmarker', halike.parse_eq,
    Bool.false_eq_true, if_false, if_true]

end Clause.Alike

theorem Clause.alike_sina {rest : List Word} (hla : .la ∉ rest) :
    Clause.Alike (.o :: rest) (.sina :: .o :: rest) :=
  ⟨by simpa using hla, by simpa using hla,
    fun fragment => (Clause.parse_withSubject fragment (.o :: rest)).symm⟩

theorem Clause.alike_li {p : Word} {rest : List Word} (hp : p.isBarePronoun) (hne : rest ≠ [])
    (hrest : ∀ w ∈ rest, w.isPredicateMarker = false) (hla : .la ∉ rest) :
    Clause.Alike (p :: rest) (p :: .li :: rest) := by
  obtain ⟨next, rest, rfl⟩ := List.exists_cons_of_ne_nil hne
  have hpla : .la ≠ p := by
    rintro rfl
    cases hp
  have hpmarker : p.isPredicateMarker = false := by
    rcases Word.eq_mi_or_eq_sina hp with rfl | rfl <;> rfl
  have hany : (p :: next :: rest).any Word.isPredicateMarker = false := by
    simpa [hpmarker] using hrest
  have hmarked : Clause.withMarker (p :: next :: rest) = p :: .li :: next :: rest := by
    rw [Clause.withMarker, hp, hany]
    rfl
  refine ⟨List.not_mem_cons_of_ne_of_not_mem hpla hla, ?_, fun fragment => ?_⟩
  · exact List.not_mem_cons_of_ne_of_not_mem hpla
      (List.not_mem_cons_of_ne_of_not_mem (by decide) hla)
  · rw [← hmarked, Clause.parse_withMarker]

/-- A `sina` that is left out before `o`, and a `li` that is left out behind `mi` or `sina`, can be
    put back at the start of any segment of a sentence. The tree or the error stays the same. The
    first may have further segments behind it, and the second too unless it stands in the first
    segment, where a noun phrase becomes a clause by its `li`. -/
theorem Sentence.parse_putBack (fragment : Bool) (front : List Word)
    (hfront : front = [] ∨ front.getLast? = some .la) :
    (∀ rest, Sentence.parse fragment (front ++ .o :: rest) =
        Sentence.parse fragment (front ++ .sina :: .o :: rest)) ∧
      ∀ p rest, p = .mi ∨ p = .sina → rest ≠ [] → .li ∉ rest → .o ∉ rest → .la ∉ rest →
        Sentence.parse fragment (front ++ p :: rest) =
            Sentence.parse fragment (front ++ p :: .li :: rest) ∧
          (front ≠ [] → ∀ more,
            Sentence.parse fragment (front ++ p :: rest ++ .la :: more) =
              Sentence.parse fragment (front ++ p :: .li :: rest ++ .la :: more)) := by
  refine ⟨fun rest => ?_, fun p rest hp hne hli ho hla => ?_⟩
  · by_cases hla : .la ∈ rest
    · obtain ⟨segment, more, rfl, hsegment⟩ := List.eq_append_cons_of_mem hla
      have halike := Clause.alike_sina hsegment
      have hcontext : Context.parse (front ++ .o :: segment) =
          Context.parse (front ++ .sina :: .o :: segment) := by
        rcases hfront with rfl | hlast
        · exact halike.context_parse_of_marker rfl rfl
        · exact halike.context_parse_of_la hlast
      have hparse := Sentence.parse_append_la_congr hcontext fragment more
      rwa [List.append_assoc, List.append_assoc] at hparse
    · exact (Clause.alike_sina hla).sentence_parse hfront fragment
  · have hrest : ∀ w ∈ rest, w.isPredicateMarker = false := by
      intro w hw
      rw [Bool.eq_false_iff]
      intro hmarker
      rcases Word.eq_li_or_eq_o hmarker with rfl | rfl
      · exact hli hw
      · exact ho hw
    have hbare : p.isBarePronoun := by
      rcases hp with rfl | rfl <;> rfl
    have halike := Clause.alike_li hbare hne hrest hla
    refine ⟨halike.sentence_parse hfront fragment, fun hsome more => ?_⟩
    exact Sentence.parse_append_la_congr
      (halike.context_parse_of_la (hfront.resolve_left hsome)) fragment more

/-- The first clause of `o moku la sina pona e a la mi wile` and the second leave a word out. The
    object of the second is refused with and without it. -/
theorem Sentence.parse_putBack_of_three_segments :
    let first : List Word := [.o, .moku, .la]
    let second : List Word := [.sina, .pona, .e, .a]
    let third : List Word := [.la, .mi, .wile]
    (first.getLast? = some .la ∧ .li ∉ second.tail ∧ .o ∉ second.tail ∧ .la ∉ second.tail) ∧
      Sentence.parse false (first ++ second ++ third) = .error (.invalidNoun .a) ∧
      Sentence.parse false (first ++ .sina :: .li :: second.tail ++ third) =
        .error (.invalidNoun .a) ∧
      Sentence.parse false (.sina :: first ++ second ++ third) = .error (.invalidNoun .a) ∧
      Sentence.parse true first.dropLast = Sentence.parse true (.sina :: first.dropLast) := by
  intro first second third
  have hfirst : first.getLast? = some .la := rfl
  have hli : .li ∉ second.tail := by decide
  have ho : .o ∉ second.tail := by decide
  have hla : .la ∉ second.tail := by decide
  have hparse : Sentence.parse false (first ++ second ++ third) = .error (.invalidNoun .a) := by
    cbv
  refine ⟨⟨hfirst, hli, ho, hla⟩, hparse, ?_, ?_, (Sentence.parse_putBack true [] (.inl rfl)).1 _⟩
  · rw [← hparse]
    exact (((Sentence.parse_putBack false first (.inr hfirst)).2 .sina second.tail (.inr rfl)
      (by decide) hli ho hla).2 (by decide) third.tail).symm
  · rw [← hparse]
    exact ((Sentence.parse_putBack false [] (.inl rfl)).1 _).symm

/-- In the first of several segments a `li` makes a clause of what is a noun phrase without it. -/
example :
    (Sentence.parse true [.mi, .moku, .la, .ona]).map Sentence.context? =
        .ok (some (.nounPhrase (.flat .mi [.moku]))) ∧
      (Sentence.parse true [.mi, .li, .moku, .la, .ona]).map Sentence.context? =
        .ok (some (.sentence (.plain
          ⟨[.flat .mi []], [⟨false, ⟨[], .flat .moku []⟩, [], []⟩]⟩))) := by
  constructor <;> cbv

end TokiPona
