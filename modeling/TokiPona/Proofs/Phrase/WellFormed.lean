import TokiPona.Proofs.Phrase.Words

namespace TokiPona

/-- Whether a word may modify the head of a noun phrase. -/
def Word.isModifier (w : Word) : Bool := !w.isParticle && w != .pi

/-- No particle heads or modifies a group at any depth, and no `pi` is a modifier. -/
def Group.WellFormed : Group → Prop
  | .flat head modifiers => head.isParticle = false ∧ ∀ w ∈ modifiers, w.isModifier
  | .pi head modifiers of =>
    (head.isParticle = false ∧ ∀ w ∈ modifiers, w.isModifier) ∧ of.WellFormed

/-- Preverbs are preverb words, and a verb that is headed by one is that word alone, since
    otherwise its head would be a further preverb. -/
structure VerbPhrase.WellFormed (v : VerbPhrase) : Prop where
  preverbs : ∀ w ∈ v.preverbs, w.isPreverb
  verb : v.verb.WellFormed
  bare : v.verb.head.isPreverb → v.verb.modifiers = [] ∧ v.verb.of? = none

/-- A preposition word governs a noun phrase with no preposition word in it at any depth. -/
structure Preposition.WellFormed (p : Preposition) : Prop where
  preposition : p.preposition.isPreposition
  noun : p.noun.WellFormed
  plain : ∀ w ∈ p.noun.words, w.isPreposition = false

structure Predicate.WellFormed (p : Predicate) : Prop where
  verb : p.verb.WellFormed
  objects : ∀ g ∈ p.objects, g.WellFormed
  prepositions : ∀ q ∈ p.prepositions, q.WellFormed

/-- A clause has subjects. Before predicates none of them holds an `en`, which would part it in
    two. Without predicates there is one subject, and `mi` or `sina` heads it only alone, since
    otherwise a predicate would follow. -/
structure Clause.WellFormed (c : Clause) : Prop where
  subjects : ∀ g ∈ c.subjects, g.WellFormed
  nonempty : c.subjects ≠ []
  conjoined : c.predicates ≠ [] → ∀ g ∈ c.subjects, .en ∉ g.words
  alone : c.predicates = [] → c.subjects.length = 1
  bare : c.predicates = [] → ∀ g ∈ c.subjects, g.head.isBarePronoun → g = Group.ofWord g.head
  predicates : ∀ p ∈ c.predicates, p.WellFormed

theorem Clause.WellFormed.exists_subject {c : Clause} (hc : c.WellFormed)
    (hnone : c.predicates = []) :
    ∃ g, c.subjects = [g] ∧ g.WellFormed ∧ (g.head.isBarePronoun → g = Group.ofWord g.head) := by
  obtain ⟨g, hg⟩ := List.length_eq_one_iff.mp (hc.alone hnone)
  have hmem : g ∈ c.subjects := by simp [hg]
  exact ⟨g, hg, hc.subjects g hmem, hc.bare hnone g hmem⟩

/-- A sentence with a context of its own or with a predicate. Only such a one is told from a noun
    phrase when a `la` follows. -/
def Sentence.IsClausal (s : Sentence) : Prop :=
  s.context?.isSome ∨ s.clause.predicates ≠ []

/-- All contexts of a sentence, from its own inwards. -/
def Sentence.contexts : Sentence → List Context
  | .plain _ => []
  | .afterPhrase g _ => [.nounPhrase g]
  | .afterSentence s _ => .sentence s :: s.contexts

/-- The predicates of a sentence and of the sentences that are its contexts. -/
def Sentence.allPredicates : Sentence → List Predicate
  | .plain clause => clause.predicates
  | .afterPhrase _ clause => clause.predicates
  | .afterSentence s clause => s.allPredicates ++ clause.predicates

def Context.sentence? : Context → Option Sentence
  | .sentence s => some s
  | .nounPhrase _ => none

def Context.nounPhrase? : Context → Option Group
  | .sentence _ => none
  | .nounPhrase g => some g

theorem Context.ofParts?_parts (context : Context) :
    Context.ofParts? context.sentence? context.nounPhrase? = some context := by
  cases context <;> rfl

/-- All clauses and contexts of a sentence are well formed. -/
def Sentence.PartsWellFormed : Sentence → Prop
  | .plain clause => clause.WellFormed
  | .afterPhrase g clause => g.WellFormed ∧ clause.WellFormed
  | .afterSentence s clause => (s.PartsWellFormed ∧ s.IsClausal) ∧ clause.WellFormed

/-- A context is a well-formed noun phrase or a sentence that is told from one. -/
def Context.WellFormed : Context → Prop
  | .sentence s => s.PartsWellFormed ∧ s.IsClausal
  | .nounPhrase g => g.WellFormed

/-- A sentence is well formed in all its parts and, unless it is a fragment, has a predicate. -/
structure Sentence.WellFormed (fragment : Bool) (s : Sentence) : Prop where
  parts : s.PartsWellFormed
  complete : s.clause.predicates ≠ [] ∨ fragment = true

/-- The words of the last object or, without objects, of the verb. -/
def Predicate.lastUnit (p : Predicate) : List Word :=
  match p.objects.getLast? with
  | some g => g.words
  | none => p.verb.words

/-- Behind their first word, the words hold no preposition word or end in one. In no other case
    do they keep all their words when trailing prepositional phrases are taken off. -/
def KeepsPrepositions (unit : List Word) : Prop :=
  (∀ w ∈ unit.tail, w.isPreposition = false) ∨ unit.tail.getLast?.any Word.isPreposition

def Predicate.Settled (p : Predicate) : Prop := KeepsPrepositions p.lastUnit

def Clause.Settled (c : Clause) : Prop := ∀ p ∈ c.predicates, p.Settled

/-- Every predicate of the sentence and of its contexts is settled. -/
def Sentence.Settled : Sentence → Prop
  | .plain clause => clause.Settled
  | .afterPhrase _ clause => clause.Settled
  | .afterSentence s clause => s.Settled ∧ clause.Settled

def Context.Settled : Context → Prop
  | .sentence s => s.Settled
  | .nounPhrase _ => True

instance Group.decidableWellFormed : (g : Group) → Decidable g.WellFormed
  | .flat head modifiers =>
    inferInstanceAs (Decidable (head.isParticle = false ∧ ∀ w ∈ modifiers, w.isModifier))
  | .pi head modifiers of =>
    have := of.decidableWellFormed
    inferInstanceAs (Decidable
      ((head.isParticle = false ∧ ∀ w ∈ modifiers, w.isModifier) ∧ of.WellFormed))

instance (v : VerbPhrase) : Decidable v.WellFormed :=
  decidable_of_iff ((∀ w ∈ v.preverbs, w.isPreverb) ∧ v.verb.WellFormed ∧
      (v.verb.head.isPreverb → v.verb.modifiers = [] ∧ v.verb.of? = none))
    ⟨fun ⟨h₁, h₂, h₃⟩ => ⟨h₁, h₂, h₃⟩, fun ⟨h₁, h₂, h₃⟩ => ⟨h₁, h₂, h₃⟩⟩

instance (p : Preposition) : Decidable p.WellFormed :=
  decidable_of_iff (p.preposition.isPreposition ∧ p.noun.WellFormed ∧
      ∀ w ∈ p.noun.words, w.isPreposition = false)
    ⟨fun ⟨h₁, h₂, h₃⟩ => ⟨h₁, h₂, h₃⟩, fun ⟨h₁, h₂, h₃⟩ => ⟨h₁, h₂, h₃⟩⟩

instance (p : Predicate) : Decidable p.WellFormed :=
  decidable_of_iff (p.verb.WellFormed ∧ (∀ g ∈ p.objects, g.WellFormed) ∧
      ∀ q ∈ p.prepositions, q.WellFormed)
    ⟨fun ⟨h₁, h₂, h₃⟩ => ⟨h₁, h₂, h₃⟩, fun ⟨h₁, h₂, h₃⟩ => ⟨h₁, h₂, h₃⟩⟩

instance (c : Clause) : Decidable c.WellFormed :=
  decidable_of_iff ((∀ g ∈ c.subjects, g.WellFormed) ∧ c.subjects ≠ [] ∧
      (c.predicates ≠ [] → ∀ g ∈ c.subjects, .en ∉ g.words) ∧
      (c.predicates = [] → c.subjects.length = 1) ∧
      (c.predicates = [] → ∀ g ∈ c.subjects, g.head.isBarePronoun → g = Group.ofWord g.head) ∧
      ∀ p ∈ c.predicates, p.WellFormed)
    ⟨fun ⟨h₁, h₂, h₃, h₄, h₅, h₆⟩ => ⟨h₁, h₂, h₃, h₄, h₅, h₆⟩,
      fun ⟨h₁, h₂, h₃, h₄, h₅, h₆⟩ => ⟨h₁, h₂, h₃, h₄, h₅, h₆⟩⟩

instance (s : Sentence) : Decidable s.IsClausal :=
  inferInstanceAs (Decidable (_ ∨ _))

instance Sentence.decidablePartsWellFormed : (s : Sentence) → Decidable s.PartsWellFormed
  | .plain clause => inferInstanceAs (Decidable clause.WellFormed)
  | .afterPhrase g clause => inferInstanceAs (Decidable (g.WellFormed ∧ clause.WellFormed))
  | .afterSentence s clause =>
    have := s.decidablePartsWellFormed
    inferInstanceAs (Decidable ((s.PartsWellFormed ∧ s.IsClausal) ∧ clause.WellFormed))

instance (fragment : Bool) (s : Sentence) : Decidable (s.WellFormed fragment) :=
  decidable_of_iff (s.PartsWellFormed ∧ (s.clause.predicates ≠ [] ∨ fragment = true))
    ⟨fun ⟨h₁, h₂⟩ => ⟨h₁, h₂⟩, fun ⟨h₁, h₂⟩ => ⟨h₁, h₂⟩⟩

instance (p : Predicate) : Decidable p.Settled :=
  inferInstanceAs (Decidable (_ ∨ _))

instance (c : Clause) : Decidable c.Settled :=
  inferInstanceAs (Decidable (∀ p ∈ c.predicates, p.Settled))

instance Sentence.decidableSettled : (s : Sentence) → Decidable s.Settled
  | .plain clause => inferInstanceAs (Decidable clause.Settled)
  | .afterPhrase _ clause => inferInstanceAs (Decidable clause.Settled)
  | .afterSentence s clause =>
    have := s.decidableSettled
    inferInstanceAs (Decidable (s.Settled ∧ clause.Settled))

theorem Word.isParticle_of_isModifier {w : Word} (hw : w.isModifier) : w.isParticle = false := by
  simp only [Word.isModifier, Bool.and_eq_true, Bool.not_eq_true'] at hw
  exact hw.1

theorem Word.isParticle_of_isPreverb {w : Word} (hw : w.isPreverb) : w.isParticle = false := by
  unfold Word.isPreverb at hw
  split at hw <;> simp_all [Word.isParticle]

theorem Word.isParticle_of_isPreposition {w : Word} (hw : w.isPreposition) :
    w.isParticle = false := by
  unfold Word.isPreposition at hw
  split at hw <;> simp_all [Word.isParticle]

theorem Word.eq_li_or_eq_o {w : Word} (hw : w.isPredicateMarker) : w = .li ∨ w = .o := by
  unfold Word.isPredicateMarker at hw
  split at hw <;> simp_all

theorem Word.eq_mi_or_eq_sina {w : Word} (hw : w.isBarePronoun) : w = .mi ∨ w = .sina := by
  unfold Word.isBarePronoun at hw
  split at hw <;> simp_all

theorem Word.isParticle_of_isPredicateMarker {w : Word} (hw : w.isPredicateMarker) :
    w.isParticle := by
  rcases Word.eq_li_or_eq_o hw with rfl | rfl <;> rfl

theorem Word.isPredicateMarker_of_not_isParticle {w : Word} (hw : w.isParticle = false) :
    w.isPredicateMarker = false := by
  rw [Bool.eq_false_iff]
  intro hmarker
  rw [Word.isParticle_of_isPredicateMarker hmarker] at hw
  cases hw

theorem Group.WellFormed.isParticle {g : Group} (hg : g.WellFormed) :
    ∀ w ∈ g.words, w.isParticle = false := by
  induction g with
  | flat head modifiers =>
    obtain ⟨hhead, hmodifiers⟩ := hg
    exact List.forall_mem_cons.mpr
      ⟨hhead, fun w hw => Word.isParticle_of_isModifier (hmodifiers w hw)⟩
  | pi head modifiers of ih =>
    obtain ⟨⟨hhead, hmodifiers⟩, hof⟩ := hg
    intro w hw
    simp only [Group.words, List.cons_append, List.mem_cons, List.mem_append] at hw
    rcases hw with rfl | hw | rfl | hw
    · exact hhead
    · exact Word.isParticle_of_isModifier (hmodifiers w hw)
    · rfl
    · exact ih hof w hw

theorem VerbPhrase.WellFormed.isParticle {v : VerbPhrase} (hv : v.WellFormed) :
    ∀ w ∈ v.words, w.isParticle = false := by
  intro w hw
  rcases List.mem_append.mp hw with hw | hw
  · exact Word.isParticle_of_isPreverb (hv.preverbs w hw)
  · exact hv.verb.isParticle w hw

theorem Preposition.WellFormed.isParticle {p : Preposition} (hp : p.WellFormed) :
    ∀ w ∈ p.words, w.isParticle = false :=
  List.forall_mem_cons.mpr
    ⟨Word.isParticle_of_isPreposition hp.preposition, hp.noun.isParticle⟩

/-- An `e` is the only particle between the marker of a predicate and its end. -/
theorem Predicate.WellFormed.eq_e_of_isParticle {p : Predicate} (hp : p.WellFormed) :
    ∀ w ∈ p.words.tail, w.isParticle → w = .e := by
  intro w hw hparticle
  simp only [Predicate.words, Predicate.coreWords, List.cons_append, List.tail_cons,
    List.mem_append, List.mem_flatMap, List.mem_cons] at hw
  rcases hw with (hw | ⟨g, hg, rfl | hw⟩) | ⟨q, hq, hw⟩
  · simp [hp.verb.isParticle w hw] at hparticle
  · rfl
  · simp [(hp.objects g hg).isParticle w hw] at hparticle
  · simp [(hp.prepositions q hq).isParticle w hw] at hparticle

theorem Predicate.WellFormed.isPredicateMarker_tail {p : Predicate} (hp : p.WellFormed) :
    ∀ w ∈ p.words.tail, w.isPredicateMarker = false := by
  intro w hw
  rw [Bool.eq_false_iff]
  intro hmarker
  rw [hp.eq_e_of_isParticle w hw (Word.isParticle_of_isPredicateMarker hmarker)] at hmarker
  cases hmarker

theorem Predicate.isPredicateMarker_marker (p : Predicate) : p.marker.isPredicateMarker := by
  unfold Predicate.marker
  split <;> rfl

/-- The subjects hold no particle, whatever joins them. -/
theorem Group.isParticle_joined {marker : Word} {groups : List Group}
    (hgroups : ∀ g ∈ groups, g.WellFormed) (hmarker : marker.isParticle = false) :
    ∀ w ∈ Group.joined marker groups, w.isParticle = false := by
  cases groups with
  | nil =>
    intro w hw
    cases hw
  | cons g groups =>
    obtain ⟨hg, hgroups⟩ := List.forall_mem_cons.mp hgroups
    intro w hw
    simp only [Group.joined_cons, List.mem_append, List.mem_flatMap, List.mem_cons] at hw
    rcases hw with hw | ⟨g', hg', rfl | hw⟩
    · exact hg.isParticle w hw
    · exact hmarker
    · exact (hgroups g' hg').isParticle w hw

theorem Clause.WellFormed.la_not_mem {c : Clause} (hc : c.WellFormed) : .la ∉ c.words := by
  intro hla
  simp only [Clause.words, List.mem_append, List.mem_flatMap] at hla
  rcases hla with hla | ⟨p, hp, hla⟩
  · cases Group.isParticle_joined hc.subjects rfl .la hla
  · rcases List.mem_cons.mp hla with hla | hla
    · have hmarker := p.isPredicateMarker_marker
      rw [← hla] at hmarker
      cases hmarker
    · cases (hc.predicates p hp).eq_e_of_isParticle .la hla rfl

end TokiPona
