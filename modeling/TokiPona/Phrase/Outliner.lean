import TokiPona.Phrase.Outline

namespace TokiPona

/-- The lines written so far, and the depth of the line to come. -/
structure Outliner where
  lines : List String
  depth : Nat
  deriving DecidableEq, Repr

namespace Outliner

def new : Outliner := ⟨[], 0⟩

/-- All lines so far as one text. -/
def output (o : Outliner) : String := "\n".intercalate o.lines

/-- Writes one line. -/
def emitLine (o : Outliner) (label : OutlineLabel) : Outliner :=
  { o with lines := o.lines ++ [OutlineLine.text ⟨o.depth, label⟩] }

def deepen (o : Outliner) : Outliner := { o with depth := o.depth + 1 }

def rise (o : Outliner) : Outliner := { o with depth := o.depth - 1 }

/-- Writes a line, and the parts of its node one level deeper. -/
def nested (o : Outliner) (label : OutlineLabel) (parts : Outliner → Outliner) : Outliner :=
  (parts (o.emitLine label).deepen).rise

/-- Writes the line for the modifiers of a group, which is missing if there are none. -/
def emitModifiers (o : Outliner) (modifiers : List Word) : Outliner :=
  if modifiers.isEmpty then o else o.emitLine (.modifiers modifiers)

def emitGroup (o : Outliner) : Group → Outliner
  | .flat head modifiers => o.nested (.group head) (fun o => o.emitModifiers modifiers)
  | .pi head modifiers of =>
    o.nested (.group head) (fun o =>
      (o.emitModifiers modifiers).nested .pi (fun o => o.emitGroup of))

/-- Writes a group below a line that says what it is there for. -/
def emitRole (label : OutlineLabel) (o : Outliner) (g : Group) : Outliner :=
  o.nested label (fun o => o.emitGroup g)

def emitPreverb (o : Outliner) (w : Word) : Outliner := o.emitLine (.preverb w)

def emitVerbPhrase (o : Outliner) (v : VerbPhrase) : Outliner :=
  o.nested .verb (fun o => (v.preverbs.foldl emitPreverb o).emitGroup v.verb)

def emitPreposition (o : Outliner) (p : Preposition) : Outliner :=
  emitRole (.preposition p.preposition) o p.noun

def emitPredicate (o : Outliner) (p : Predicate) : Outliner :=
  o.nested (.predicate p.imperative) (fun o =>
    p.prepositions.foldl emitPreposition
      (p.objects.foldl (emitRole .object) (o.emitVerbPhrase p.verb)))

/-- Writes subjects and predicates, which have no line in common. -/
def emitClause (o : Outliner) (c : Clause) : Outliner :=
  c.predicates.foldl emitPredicate (c.subjects.foldl (emitRole .subject) o)

def emitSentence (o : Outliner) : Sentence → Outliner
  | .plain clause => o.nested .sentence (fun o => o.emitClause clause)
  | .afterPhrase g clause =>
    o.nested .sentence (fun o => (emitRole .context o g).emitClause clause)
  | .afterSentence s clause =>
    o.nested .sentence (fun o =>
      (o.nested .context (fun o => o.emitSentence s)).emitClause clause)

def emitContext (o : Outliner) : Context → Outliner
  | .sentence s => o.nested .context (fun o => o.emitSentence s)
  | .nounPhrase g => emitRole .context o g

end Outliner

end TokiPona
