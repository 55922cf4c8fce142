import TokiPona.Phrase.Canonical
import TokiPona.Proofs.Split

namespace TokiPona

def Group.words : Group → List Word
  | .flat head modifiers => head :: modifiers
  | .pi head modifiers of => head :: modifiers ++ .pi :: of.words

def VerbPhrase.words (v : VerbPhrase) : List Word := v.preverbs ++ v.verb.words

def Preposition.words (p : Preposition) : List Word := p.preposition :: p.noun.words

/-- The words of a verb and its objects, each object behind its `e`. -/
def Predicate.coreWords (verb : VerbPhrase) (objects : List Group) : List Word :=
  verb.words ++ objects.flatMap (fun g => .e :: g.words)

def Predicate.words (p : Predicate) : List Word :=
  p.marker :: Predicate.coreWords p.verb p.objects ++ p.prepositions.flatMap Preposition.words

/-- The words of several groups, joined by a marker. -/
def Group.joined (marker : Word) (groups : List Group) : List Word :=
  [marker].intercalate (groups.map Group.words)

def Clause.words (c : Clause) : List Word :=
  Group.joined .en c.subjects ++ c.predicates.flatMap Predicate.words

def Sentence.words : Sentence → List Word
  | .plain clause => clause.words
  | .afterPhrase g clause => g.words ++ .la :: clause.words
  | .afterSentence s clause => s.words ++ .la :: clause.words

def Context.words : Context → List Word
  | .sentence s => s.words
  | .nounPhrase g => g.words

theorem Sentence.words_inContext (context : Context) (clause : Clause) :
    (Sentence.inContext (some context) clause).words = context.words ++ .la :: clause.words := by
  cases context <;> rfl

/-- The words of a group are its head and what follows it. -/
theorem Group.words_eq_head_cons (g : Group) : g.words = g.head :: g.words.tail := by
  cases g <;> rfl

theorem Group.words_ne_nil (g : Group) : g.words ≠ [] := by
  rw [g.words_eq_head_cons]
  exact List.cons_ne_nil _ _

theorem VerbPhrase.words_ne_nil (v : VerbPhrase) : v.words ≠ [] := by
  intro hnil
  exact v.verb.words_ne_nil (List.append_eq_nil_iff.mp hnil).2

theorem Group.tail_words_eq_nil_iff (g : Group) :
    g.words.tail = [] ↔ g.modifiers = [] ∧ g.of? = none := by
  cases g <;> simp [Group.words, Group.modifiers, Group.of?]

@[simp]
theorem Group.joined_singleton (marker : Word) (g : Group) :
    Group.joined marker [g] = g.words := by
  simp [Group.joined]

theorem Group.joined_cons (marker : Word) (g : Group) (groups : List Group) :
    Group.joined marker (g :: groups) =
      g.words ++ groups.flatMap (fun g => marker :: g.words) := by
  rw [Group.joined, List.map_cons, intercalate_cons_eq_append, List.flatMap_map]
  rfl

theorem Group.joined_ne_nil {marker : Word} {groups : List Group} (hne : groups ≠ []) :
    Group.joined marker groups ≠ [] := by
  obtain ⟨g, groups, rfl⟩ := List.exists_cons_of_ne_nil hne
  simp [Group.joined_cons, g.words_ne_nil]

theorem Group.cons_joined {marker : Word} {groups : List Group} (hne : groups ≠ []) :
    marker :: Group.joined marker groups = groups.flatMap (fun g => marker :: g.words) := by
  obtain ⟨g, groups, rfl⟩ := List.exists_cons_of_ne_nil hne
  rw [Group.joined_cons]
  rfl

end TokiPona
