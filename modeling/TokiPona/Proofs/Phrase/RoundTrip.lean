import TokiPona.Proofs.Phrase.Sentence

namespace TokiPona

/-- A well-formed sentence leaves nothing out. -/
theorem Sentence.PartsWellFormed.writtenOut_words {s : Sentence} (hs : s.PartsWellFormed) :
    Sentence.writtenOut s.words = s.words := by
  induction s with
  | plain c =>
    have hc : c.WellFormed := hs
    rw [Sentence.words, Sentence.writtenOut_of_la_not_mem hc.la_not_mem, hc.writtenOut_words]
  | afterPhrase g c =>
    obtain ⟨hg, hc⟩ := hs
    rw [Sentence.words, Sentence.writtenOut_append hc.la_not_mem,
      Context.writtenOut_of_not_isSentence hg.not_isSentence, hc.writtenOut_words]
  | afterSentence s c ih =>
    obtain ⟨⟨hparts, hclausal⟩, hc⟩ := hs
    have hkind := (Sentence.isSentence_words_iff hparts).mpr hclausal
    rw [Sentence.words, Sentence.writtenOut_append hc.la_not_mem,
      Context.writtenOut_of_isSentence hkind, ih hparts, hc.writtenOut_words]

theorem Sentence.parse_words {fragment : Bool} {s : Sentence} (hs : s.WellFormed fragment)
    (hsettled : s.Settled) : Sentence.parse fragment s.words = .ok s := by
  rw [Sentence.parse_eq_ok_iff, hs.parts.writtenOut_words]
  exact ⟨rfl, hs, hsettled⟩

/-- No word is lost, doubled, moved or made up: the words of the sentence that is read are those
    given, apart from a `sina` before `o` and a `li` behind `mi` or `sina` where they are left
    out. -/
theorem Sentence.words_eq_writtenOut_of_parse (fragment : Bool) (words : List Word) (s : Sentence)
    (hparse : Sentence.parse fragment words = .ok s) : s.words = Sentence.writtenOut words :=
  ((Sentence.parse_eq_ok_iff fragment words s).mp hparse).1

/-- In `mi pona la sina lukin la o kama pana e kili pi jan pona tawa mi`, the second segment gets
    its `li` and the third its `sina`, while the first is a noun phrase. -/
theorem Sentence.words_eq_writtenOut_of_three_segments :
    let words : List Word := [.mi, .pona, .la, .sina, .lukin, .la, .o, .kama, .pana, .e, .kili,
      .pi, .jan, .pona, .tawa, .mi]
    let s : Sentence := .afterSentence
      (.afterPhrase (.flat .mi [.pona])
        ⟨[.flat .sina []], [⟨false, ⟨[], .flat .lukin []⟩, [], []⟩]⟩)
      ⟨[.flat .sina []], [⟨true, ⟨[.kama], .flat .pana []⟩,
        [.pi .kili [] (.flat .jan [.pona])], [⟨.tawa, .flat .mi []⟩]⟩]⟩
    Sentence.parse false words = .ok s ∧ s.words = Sentence.writtenOut words := by
  intro words s
  have hparse : Sentence.parse false words = .ok s := by cbv
  exact ⟨hparse, Sentence.words_eq_writtenOut_of_parse false words s hparse⟩

/-- Reading a sentence and writing it out are inverse to each other on exactly the trees that are
    well formed and settled. -/
theorem Sentence.parse_words_eq_self_iff (fragment : Bool) (s : Sentence) :
    Sentence.parse fragment s.words = .ok s ↔ s.WellFormed fragment ∧ s.Settled := by
  constructor
  · intro hparse
    exact ((Sentence.parse_eq_ok_iff fragment s.words s).mp hparse).2
  · rintro ⟨hs, hsettled⟩
    exact Sentence.parse_words hs hsettled

/-- A place that ends in a preposition is kept in the verb, one that words follow is not. -/
example :
    (⟨false, ⟨[], .flat .moku [.lon]⟩, [], []⟩ : Predicate).Settled ∧
      ¬ (⟨false, ⟨[], .flat .moku [.lon, .tomo]⟩, [], []⟩ : Predicate).Settled := by
  decide

/-- Every tree that is read is well formed, at any depth, and each of its contexts holds one of a
    sentence and a noun phrase. -/
theorem Sentence.wellFormed_of_parse (fragment : Bool) (words : List Word) (s : Sentence)
    (hparse : Sentence.parse fragment words = .ok s) :
    s.WellFormed fragment ∧ ∀ context ∈ s.contexts,
      Context.ofParts? context.sentence? context.nounPhrase? = some context := by
  obtain ⟨-, hs, -⟩ := (Sentence.parse_eq_ok_iff fragment words s).mp hparse
  exact ⟨hs, fun context _ => context.ofParts?_parts⟩

/-- A fragment whose only subject keeps an `en`, in the context of a sentence that keeps a
    preposition in its verb. -/
theorem Sentence.wellFormed_of_parse_fragment :
    let words : List Word := [.jan, .li, .wile, .kama, .lon, .la, .meli, .en, .mije]
    let s : Sentence := .afterSentence
      (.plain ⟨[.flat .jan []], [⟨false, ⟨[.wile, .kama], .flat .lon []⟩, [], []⟩]⟩)
      ⟨[.flat .meli [.en, .mije]], []⟩
    Sentence.parse true words = .ok s ∧ s.WellFormed true ∧ ∀ context ∈ s.contexts,
      Context.ofParts? context.sentence? context.nounPhrase? = some context := by
  intro words s
  have hparse : Sentence.parse true words = .ok s := by cbv
  exact ⟨hparse, Sentence.wellFormed_of_parse true words s hparse⟩

end TokiPona
