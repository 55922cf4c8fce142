import Mathlib.Data.List.Chain
import TokiPona.Proofs.Phrase.Sentence

namespace TokiPona

/-- Whether the grammar lets a word head or modify a noun phrase. -/
def Word.isContent (w : Word) : Bool := !w.isParticle && w != .pi && w != .en

def Group.Grammatical : Group → Prop
  | .flat head modifiers => ∀ w ∈ head :: modifiers, w.isContent
  | .pi head modifiers of => (∀ w ∈ head :: modifiers, w.isContent) ∧ of.Grammatical

structure VerbPhrase.Grammatical (v : VerbPhrase) : Prop where
  preverbs : ∀ w ∈ v.preverbs, w.isPreverb
  verb : v.verb.Grammatical

structure Preposition.Grammatical (q : Preposition) : Prop where
  preposition : q.preposition.isPreposition
  noun : q.noun.Grammatical

structure Predicate.Grammatical (p : Predicate) : Prop where
  verb : p.verb.Grammatical
  objects : ∀ g ∈ p.objects, g.Grammatical
  prepositions : ∀ q ∈ p.prepositions, q.Grammatical

structure Clause.Grammatical (c : Clause) : Prop where
  subjects : c.subjects ≠ [] ∧ ∀ g ∈ c.subjects, g.Grammatical
  predicates : c.predicates ≠ [] ∧ ∀ p ∈ c.predicates, p.Grammatical

/-- The tree is a derivation of a sentence of the grammar. -/
def Sentence.Grammatical : Sentence → Prop
  | .plain clause => clause.Grammatical
  | .afterPhrase g clause => g.Grammatical ∧ clause.Grammatical
  | .afterSentence s clause => s.Grammatical ∧ clause.Grammatical

instance Group.decidableGrammatical : (g : Group) → Decidable g.Grammatical
  | .flat head modifiers => inferInstanceAs (Decidable (∀ w ∈ head :: modifiers, w.isContent))
  | .pi head modifiers of =>
    have := of.decidableGrammatical
    inferInstanceAs (Decidable ((∀ w ∈ head :: modifiers, w.isContent) ∧ of.Grammatical))

instance (v : VerbPhrase) : Decidable v.Grammatical :=
  decidable_of_iff ((∀ w ∈ v.preverbs, w.isPreverb) ∧ v.verb.Grammatical)
    ⟨fun ⟨h₁, h₂⟩ => ⟨h₁, h₂⟩, fun ⟨h₁, h₂⟩ => ⟨h₁, h₂⟩⟩

instance (q : Preposition) : Decidable q.Grammatical :=
  decidable_of_iff (q.preposition.isPreposition ∧ q.noun.Grammatical)
    ⟨fun ⟨h₁, h₂⟩ => ⟨h₁, h₂⟩, fun ⟨h₁, h₂⟩ => ⟨h₁, h₂⟩⟩

instance (p : Predicate) : Decidable p.Grammatical :=
  decidable_of_iff (p.verb.Grammatical ∧ (∀ g ∈ p.objects, g.Grammatical) ∧
      ∀ q ∈ p.prepositions, q.Grammatical)
    ⟨fun ⟨h₁, h₂, h₃⟩ => ⟨h₁, h₂, h₃⟩, fun ⟨h₁, h₂, h₃⟩ => ⟨h₁, h₂, h₃⟩⟩

instance (c : Clause) : Decidable c.Grammatical :=
  decidable_of_iff ((c.subjects ≠ [] ∧ ∀ g ∈ c.subjects, g.Grammatical) ∧
      c.predicates ≠ [] ∧ ∀ p ∈ c.predicates, p.Grammatical)
    ⟨fun ⟨h₁, h₂⟩ => ⟨h₁, h₂⟩, fun ⟨h₁, h₂⟩ => ⟨h₁, h₂⟩⟩

instance Sentence.decidableGrammatical : (s : Sentence) → Decidable s.Grammatical
  | .plain clause => inferInstanceAs (Decidable clause.Grammatical)
  | .afterPhrase g clause => inferInstanceAs (Decidable (g.Grammatical ∧ clause.Grammatical))
  | .afterSentence s clause =>
    have := s.decidableGrammatical
    inferInstanceAs (Decidable (s.Grammatical ∧ clause.Grammatical))

/-- Words with no particle among them and no `pi` right behind another one. -/
structure Smooth (words : List Word) : Prop where
  particle : ∀ w ∈ words, w.isParticle = false
  chain : words.IsChain (fun v w => v ≠ .pi ∨ w ≠ .pi)

/-- Smooth words with no `pi` in front or at the end, as those of a derived group are. -/
structure Fluent (words : List Word) : Prop extends Smooth words where
  head : words.head? ≠ some .pi
  last : words.getLast? ≠ some .pi

theorem Smooth.infix {words part : List Word} (hwords : Smooth words) (hpart : part <:+: words) :
    Smooth part :=
  ⟨fun w hw => hwords.particle w (hpart.subset hw), hwords.chain.infix hpart⟩

theorem Smooth.tail {w : Word} {rest : List Word} (hwords : Smooth (w :: rest)) : Smooth rest :=
  hwords.infix (List.suffix_cons w rest).isInfix

theorem Smooth.e_not_mem {words : List Word} (hwords : Smooth words) : .e ∉ words :=
  fun he => by cases hwords.particle _ he

theorem Fluent.nil : Fluent [] := ⟨⟨by simp, .nil⟩, by simp, by simp⟩

theorem Fluent.append {words words' : List Word} (hwords : Fluent words)
    (hwords' : Fluent words') : Fluent (words ++ words') where
  particle := List.forall_mem_append.mpr ⟨hwords.particle, hwords'.particle⟩
  chain := by
    refine List.isChain_append.mpr ⟨hwords.chain, hwords'.chain, ?_⟩
    rintro v hv - -
    left
    rintro rfl
    exact hwords.last hv
  head := by
    rw [List.head?_append]
    intro hpi
    rcases Option.or_eq_some_iff.mp hpi with hpi | ⟨-, hpi⟩
    · exact hwords.head hpi
    · exact hwords'.head hpi
  last := by
    rw [List.getLast?_append]
    intro hpi
    rcases Option.or_eq_some_iff.mp hpi with hpi | ⟨-, hpi⟩
    · exact hwords'.last hpi
    · exact hwords.last hpi

/-- A `pi` may stand between fluent words. -/
theorem Fluent.append_pi {words words' : List Word} (hwords : Fluent words)
    (hwords' : Fluent words') (hne : words ≠ []) (hne' : words' ≠ []) :
    Fluent (words ++ .pi :: words') where
  particle := List.forall_mem_append.mpr
    ⟨hwords.particle, List.forall_mem_cons.mpr ⟨rfl, hwords'.particle⟩⟩
  chain := by
    refine List.isChain_append.mpr ⟨hwords.chain, ?_, ?_⟩
    · refine List.isChain_cons.mpr ⟨?_, hwords'.chain⟩
      rintro w hw
      right
      rintro rfl
      exact hwords'.head hw
    · rintro v hv - -
      left
      rintro rfl
      exact hwords.last hv
  head := by
    rw [List.head?_append_of_ne_nil words hne]
    exact hwords.head
  last := by
    rw [List.getLast?_append_cons, List.getLast?_cons_of_ne_nil hne']
    exact hwords'.last

theorem Fluent.flatMap {α : Type} {items : List α} {words : α → List Word}
    (hitems : ∀ a ∈ items, Fluent (words a)) : Fluent (items.flatMap words) := by
  induction items with
  | nil => exact Fluent.nil
  | cons a items ih =>
    obtain ⟨ha, hitems⟩ := List.forall_mem_cons.mp hitems
    exact ha.append (ih hitems)

theorem Fluent.of_isModifier {words : List Word} (hwords : ∀ w ∈ words, w.isModifier) :
    Fluent words := by
  have hword : ∀ w ∈ words, Fluent [w] := by
    intro w hw
    have hpi : w ≠ .pi := by
      rintro rfl
      cases hwords _ hw
    exact ⟨⟨by simpa using Word.isParticle_of_isModifier (hwords w hw), .singleton w⟩,
      by simpa using hpi, by simpa using hpi⟩
  simpa using Fluent.flatMap hword

theorem Word.isModifier_of_isContent {w : Word} (hw : w.isContent) : w.isModifier := by
  simp only [Word.isContent, Bool.and_eq_true] at hw
  rw [Word.isModifier, Bool.and_eq_true]
  exact hw.1

theorem Group.Grammatical.fluent {g : Group} (hg : g.Grammatical) : Fluent g.words := by
  induction g with
  | flat head modifiers =>
    exact Fluent.of_isModifier (fun w hw => Word.isModifier_of_isContent (hg w hw))
  | pi head modifiers of ih =>
    obtain ⟨hwords, hof⟩ := hg
    exact (Fluent.of_isModifier (fun w hw => Word.isModifier_of_isContent (hwords w hw))).append_pi
      (ih hof) (List.cons_ne_nil head modifiers) of.words_ne_nil

theorem Group.Grammatical.wellFormed {g : Group} (hg : g.Grammatical) : g.WellFormed := by
  have hwords {head : Word} {modifiers : List Word}
      (hcontent : ∀ w ∈ head :: modifiers, w.isContent) :
      head.isParticle = false ∧ ∀ w ∈ modifiers, w.isModifier := by
    obtain ⟨hhead, hmodifiers⟩ := List.forall_mem_cons.mp hcontent
    exact ⟨Word.isParticle_of_isModifier (Word.isModifier_of_isContent hhead),
      fun w hw => Word.isModifier_of_isContent (hmodifiers w hw)⟩
  induction g with
  | flat head modifiers => exact hwords hg
  | pi head modifiers of ih => exact ⟨hwords hg.1, ih hg.2⟩

theorem Group.Grammatical.en_not_mem {g : Group} (hg : g.Grammatical) : .en ∉ g.words := by
  have hwords {words : List Word} (hcontent : ∀ w ∈ words, w.isContent) : .en ∉ words :=
    fun hen => by cases hcontent _ hen
  induction g with
  | flat head modifiers => exact hwords hg
  | pi head modifiers of ih => simpa [Group.words, ih hg.2] using hwords hg.1

theorem VerbPhrase.Grammatical.fluent {v : VerbPhrase} (hv : v.Grammatical) : Fluent v.words := by
  refine (Fluent.of_isModifier fun w hw => ?_).append hv.verb.fluent
  have hpreverb := hv.preverbs w hw
  unfold Word.isPreverb at hpreverb
  split at hpreverb <;> simp_all [Word.isModifier, Word.isParticle]

theorem Preposition.Grammatical.fluent {q : Preposition} (hq : q.Grammatical) :
    Fluent q.words := by
  have hpreposition : ∀ w ∈ [q.preposition], w.isModifier := by
    have hpreposition := hq.preposition
    unfold Word.isPreposition at hpreposition
    split at hpreposition <;> simp_all [Word.isModifier, Word.isParticle]
  exact (Fluent.of_isModifier hpreposition).append hq.noun.fluent

theorem getLast?_cons_eq_some_iff {α : Type} {a b : α} (hne : a ≠ b) (l : List α) :
    (a :: l).getLast? = some b ↔ l.getLast? = some b := by
  cases l with
  | nil => simpa using hne
  | cons c l => rw [List.getLast?_cons_cons]

/-- Behind its head, a group is read from smooth words unless they end in a `pi`. -/
theorem Group.exists_parseTail_iff {rest : List Word} (hrest : Smooth rest) (head : Word)
    (modifiers : List Word) :
    (∃ g, Group.parseTail head modifiers rest = .ok g) ↔ rest.getLast? ≠ some .pi := by
  fun_induction Group.parseTail head modifiers rest with
  | case1 head modifiers => simp
  | case2 head modifiers => simp
  | case3 head modifiers inner rest hinner =>
    simp [hrest.particle inner (by simp)] at hinner
  | case4 head modifiers inner rest hinner ih =>
    have hpi : inner ≠ .pi := by
      simpa using (List.isChain_cons_cons.mp hrest.chain).1
    have hread := ih hrest.tail.tail
    rw [List.getLast?_cons_cons, ne_eq, getLast?_cons_eq_some_iff hpi, ← ne_eq, ← hread,
      exists_map_eq_ok_iff]
  | case5 head modifiers w rest hlast hinner hw =>
    simp [hrest.particle w (by simp)] at hw
  | case6 head modifiers w rest hlast hinner hw ih =>
    have hpi : w ≠ .pi := by
      rintro rfl
      cases rest with
      | nil => exact hlast rfl rfl
      | cons inner rest => exact hinner inner rest rfl rfl
    rw [ne_eq, getLast?_cons_eq_some_iff hpi]
    exact ih hrest.tail

/-- Words that end in a `pi` with others before it, as no group does. -/
def EndsInPi (words : List Word) : Prop := words.tail.getLast? = some .pi

theorem Group.exists_parse_iff {words : List Word} (hwords : Smooth words) (hne : words ≠ []) :
    (∃ g, Group.parse words = .ok g) ↔ ¬ EndsInPi words := by
  obtain ⟨head, rest, rfl⟩ := List.exists_cons_of_ne_nil hne
  have hhead := hwords.particle head List.mem_cons_self
  simpa [Group.parse, hhead, EndsInPi] using Group.exists_parseTail_iff hwords.tail head []

theorem EndsInPi.getLast? {words : List Word} (hends : EndsInPi words) :
    words.getLast? = some .pi := by
  cases words with
  | nil => cases hends
  | cons w rest =>
    have hne : rest ≠ [] := by
      rintro rfl
      cases hends
    rw [List.getLast?_cons_of_ne_nil hne]
    exact hends

theorem EndsInPi.exists_append {words : List Word} (hends : EndsInPi words) :
    ∃ before x, words = before ++ [x, .pi] := by
  cases words with
  | nil => cases hends
  | cons w rest =>
    obtain ⟨rest', rfl⟩ := List.getLast?_eq_some_iff.mp hends
    have hsplit := List.dropLast_concat_getLast (List.cons_ne_nil w rest')
    refine ⟨(w :: rest').dropLast, (w :: rest').getLast (List.cons_ne_nil w rest'), ?_⟩
    rw [← List.cons_append]
    nth_rewrite 1 [← hsplit]
    simp

theorem VerbPhrase.cutPreverbs_ne_nil {words : List Word} (hne : words ≠ []) :
    (VerbPhrase.cutPreverbs words).2 ≠ [] := by
  fun_induction VerbPhrase.cutPreverbs words with
  | case1 w next rest hw preverbs verb hcut ih =>
    rw [hcut] at ih
    exact ih (List.cons_ne_nil next rest)
  | case2 w next rest hw => exact hne
  | case3 words hshort => exact hne

/-- A verb phrase is read unless its verb ends in a `pi`. A `pi` behind nothing but preverbs is
    the verb itself. -/
theorem VerbPhrase.exists_parse_iff {words : List Word} (hwords : Smooth words)
    (hne : words ≠ []) :
    (∃ v, VerbPhrase.parse words = .ok v) ↔
      ¬ (words.getLast? = some .pi ∧ ∃ w ∈ words.dropLast, w.isPreverb = false) := by
  obtain ⟨happend, hpreverbs, hbare⟩ := VerbPhrase.cutPreverbs_spec words
  have hverbNe := VerbPhrase.cutPreverbs_ne_nil hne
  have hparse : (∃ v, VerbPhrase.parse words = .ok v) ↔
      ∃ g, Group.parse (VerbPhrase.cutPreverbs words).2 = .ok g := by
    have hempty : words.isEmpty = false := by simpa using hne
    simp only [VerbPhrase.parse, hempty, Bool.false_eq_true, if_false, exists_map_eq_ok_iff]
  have hverb : Smooth (VerbPhrase.cutPreverbs words).2 :=
    hwords.infix ⟨_, [], by rw [happend, List.append_nil]⟩
  rw [hparse, Group.exists_parse_iff hverb hverbNe, not_iff_not]
  generalize (VerbPhrase.cutPreverbs words).1 = preverbs at happend hpreverbs
  generalize (VerbPhrase.cutPreverbs words).2 = verb at happend hverb hverbNe hbare
  subst happend
  obtain ⟨w, rest, rfl⟩ := List.exists_cons_of_ne_nil hverbNe
  rw [List.getLast?_append_cons, List.dropLast_append_cons]
  constructor
  · intro hends
    have hrest : rest ≠ [] := by
      rintro rfl
      cases hends
    refine ⟨hends.getLast?, w, ?_, ?_⟩
    · rw [List.dropLast_cons_of_ne_nil hrest]
      exact List.mem_append_right _ List.mem_cons_self
    · rw [Bool.eq_false_iff]
      exact fun hw => hrest (hbare w rest rfl hw)
  · rintro ⟨hlast, v, hv, hpreverb⟩
    cases rest with
    | nil =>
      rw [List.dropLast_singleton, List.append_nil] at hv
      rw [hpreverbs v hv] at hpreverb
      cases hpreverb
    | cons next rest =>
      rw [List.getLast?_cons_cons] at hlast
      exact hlast

end TokiPona
