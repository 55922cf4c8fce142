import TokiPona.Proofs.Phrase.Unambiguous

namespace TokiPona

namespace Text

/-- From left to right no bracket closes that has not been opened, and none is left open. -/
structure Balanced (text : List Char) : Prop where
  count_eq : text.count '(' = text.count ')'
  count_le : ∀ n, (text.take n).count ')' ≤ (text.take n).count '('

/-- The first character opens a bracket that the last one closes, and no other does. -/
structure Enclosed (text : List Char) : Prop extends Balanced text where
  head? : text.head? = some '('
  count_lt : ∀ n, 0 < n → n < text.length → (text.take n).count ')' < (text.take n).count '('

variable {α : Type} {text text' : List Char}

theorem balanced_nil : Balanced [] := ⟨rfl, fun n => by simp⟩

theorem balanced_of_isLower (htext : ∀ c ∈ text, c.isLower) : Balanced text := by
  have hcount {c : Char} (hc : IsBracket c) {part : List Char} (hpart : part ⊆ text) :
      part.count c = 0 := by
    refine List.count_eq_zero.mpr fun hmem => ?_
    have hlower := htext c (hpart hmem)
    rw [hc.not_isLower] at hlower
    cases hlower
  refine ⟨?_, fun n => ?_⟩
  · rw [hcount (.inl rfl) (List.Subset.refl text), hcount (.inr rfl) (List.Subset.refl text)]
  · rw [hcount (.inr rfl) (List.take_subset n text)]
    exact Nat.zero_le _

theorem Balanced.append (htext : Balanced text) (htext' : Balanced text') :
    Balanced (text ++ text') := by
  refine ⟨?_, fun n => ?_⟩
  · rw [List.count_append, List.count_append, htext.count_eq, htext'.count_eq]
  · rw [List.take_append, List.count_append, List.count_append]
    exact Nat.add_le_add (htext.count_le n) (htext'.count_le (n - text.length))

theorem Balanced.flatMap {items : List α} {part : α → List Char}
    (hitems : ∀ a ∈ items, Balanced (part a)) : Balanced (items.flatMap part) := by
  induction items with
  | nil => exact balanced_nil
  | cons a items ih =>
    obtain ⟨ha, hitems⟩ := List.forall_mem_cons.mp hitems
    exact ha.append (ih hitems)

/-- Up to the last character the bracket in front is still open. -/
theorem Balanced.enclosed (htext : Balanced text) : Enclosed ('(' :: (text ++ [')'])) := by
  have hcount : ('(' :: (text ++ [')'])).count '(' = ('(' :: (text ++ [')'])).count ')' := by
    simp [htext.count_eq]
  have hlt (n : Nat) (hn : 0 < n) (hlast : n < ('(' :: (text ++ [')'])).length) :
      (('(' :: (text ++ [')'])).take n).count ')' <
        (('(' :: (text ++ [')'])).take n).count '(' := by
    obtain ⟨m, rfl⟩ := Nat.exists_eq_add_of_le' hn
    have hm : m ≤ text.length := by
      simp only [List.length_cons, List.length_append, List.length_nil] at hlast
      omega
    rw [List.take_succ_cons, List.take_append_of_le_length hm, List.count_cons_self,
      List.count_cons_of_ne (by decide)]
    exact Nat.lt_succ_of_le (htext.count_le m)
  refine ⟨⟨hcount, fun n => ?_⟩, rfl, hlt⟩
  rcases Nat.eq_zero_or_pos n with rfl | hn
  · simp
  · rcases Nat.lt_or_ge n ('(' :: (text ++ [')'])).length with hlast | hwhole
    · exact (hlt n hn hlast).le
    · rw [List.take_of_length_le hwhole]
      exact hcount.ge

end Text

theorem Word.balanced_letters (w : Word) : Text.Balanced w.letters :=
  Text.balanced_of_isLower w.isLower_spelling

namespace Group

/-- The last modifier closes the bracket that was opened first. -/
theorem bracketed_flat_concat (head : Word) (modifiers : List Word) (w : Word) :
    (Group.flat head (modifiers ++ [w])).bracketed =
      '(' :: ((Group.flat head modifiers).bracketed ++ w.letters ++ [')']) := by
  simp [bracketed, opening, closing, List.replicate_succ]

/-- A `pi` group stands inside the bracket that was opened first. -/
theorem bracketed_pi (head : Word) (modifiers : List Word) (of : Group) :
    (Group.pi head modifiers of).bracketed =
      '(' :: ((Group.flat head modifiers).bracketed ++ (Word.pi.letters ++ of.bracketed) ++
        [')']) := by
  simp [bracketed]

theorem enclosed_flat (head : Word) (modifiers : List Word) :
    Text.Enclosed (Group.flat head modifiers).bracketed := by
  induction modifiers using List.reverseRecOn with
  | nil => exact head.balanced_letters.enclosed
  | append_singleton modifiers w ih =>
    rw [bracketed_flat_concat]
    exact (ih.toBalanced.append w.balanced_letters).enclosed

theorem enclosed (g : Group) : Text.Enclosed g.bracketed := by
  induction g with
  | flat head modifiers => exact enclosed_flat head modifiers
  | pi head modifiers of ih =>
    rw [bracketed_pi]
    have hof := (Word.balanced_letters .pi).append ih.toBalanced
    exact ((enclosed_flat head modifiers).toBalanced.append hof).enclosed

theorem balanced_behind (w : Word) (g : Group) : Text.Balanced (w.letters ++ g.bracketed) :=
  w.balanced_letters.append g.enclosed.toBalanced

end Group

theorem VerbPhrase.enclosed (v : VerbPhrase) : Text.Enclosed v.bracketed := by
  obtain ⟨preverbs, verb⟩ := v
  induction preverbs with
  | nil =>
    have hverb : (⟨[], verb⟩ : VerbPhrase).bracketed = verb.bracketed := by
      simp [VerbPhrase.bracketed]
    exact hverb ▸ verb.enclosed
  | cons w preverbs ih =>
    rw [VerbPhrase.bracketed_cons, ← List.append_assoc]
    exact (w.balanced_letters.append ih.toBalanced).enclosed

theorem Preposition.balanced (p : Preposition) : Text.Balanced p.bracketed :=
  Group.balanced_behind p.preposition p.noun

theorem Predicate.balanced (p : Predicate) : Text.Balanced p.bracketed :=
  ((p.marker.balanced_letters.append p.verb.enclosed.toBalanced).append
    (.flatMap fun g _ => Group.balanced_behind .e g)).append (.flatMap fun q _ => q.balanced)

theorem Clause.balanced (c : Clause) : Text.Balanced c.bracketed := by
  obtain ⟨subjects, predicates⟩ := c
  have hpredicates : Text.Balanced (predicates.flatMap Predicate.bracketed) :=
    .flatMap fun p _ => p.balanced
  cases subjects with
  | nil => exact hpredicates
  | cons g subjects =>
    rw [Clause.bracketed_cons]
    exact (g.enclosed.toBalanced.append
      (.flatMap fun g' _ => Group.balanced_behind .en g')).append hpredicates

theorem Sentence.balanced (s : Sentence) : Text.Balanced s.bracketed := by
  induction s with
  | plain clause => exact clause.balanced
  | afterPhrase g clause =>
    exact (g.enclosed.toBalanced.append (Word.balanced_letters .la)).append clause.balanced
  | afterSentence s clause ih =>
    have hcontext := ih.enclosed.toBalanced.append (Word.balanced_letters .la)
    simpa [Sentence.bracketed] using hcontext.append clause.balanced

theorem Context.balanced (c : Context) : Text.Balanced c.bracketed := by
  cases c with
  | sentence s => exact s.balanced.enclosed.toBalanced
  | nounPhrase g => exact g.enclosed.toBalanced

/-- In the canonical form of every part of a tree the brackets are balanced. That of a group or of
    a verb phrase is one bracketed unit: the bracket that opens it is closed by its last
    character. -/
theorem canonical_balanced :
    (∀ g : Group, Text.Enclosed g.canonical.toList) ∧
      (∀ v : VerbPhrase, Text.Enclosed v.canonical.toList) ∧
      (∀ p : Preposition, Text.Balanced p.canonical.toList) ∧
      (∀ p : Predicate, Text.Balanced p.canonical.toList) ∧
      (∀ c : Context, Text.Balanced c.canonical.toList) ∧
      ∀ s : Sentence, Text.Balanced s.canonical.toList := by
  simp only [Group.canonical, VerbPhrase.canonical, Preposition.canonical, Predicate.canonical,
    Context.canonical, Sentence.canonical, String.toList_ofList]
  exact ⟨Group.enclosed, VerbPhrase.enclosed, Preposition.balanced, Predicate.balanced,
    Context.balanced, Sentence.balanced⟩

end TokiPona
