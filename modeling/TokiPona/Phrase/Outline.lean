import TokiPona.Phrase.Canonical

namespace TokiPona

/-- What a line of an outline says. -/
inductive OutlineLabel where
  | sentence
  | context
  | subject
  | group (head : Word)
  | modifiers (words : List Word)
  | pi
  | predicate (imperative : Bool)
  | verb
  | preverb (word : Word)
  | object
  | preposition (word : Word)
  deriving DecidableEq, Repr

/-- A line of an outline. -/
structure OutlineLine where
  depth : Nat
  label : OutlineLabel
  deriving DecidableEq, Repr

def OutlineLabel.text : OutlineLabel → String
  | .sentence => "sentence"
  | .context => "context"
  | .subject => "subject"
  | .group head => "group " ++ head.spelling
  | .modifiers words => "modifiers: " ++ spell words
  | .pi => "pi"
  | .predicate imperative => "predicate " ++ if imperative then "o" else "li"
  | .verb => "verb"
  | .preverb w => "preverb " ++ w.spelling
  | .object => "object"
  | .preposition w => "preposition " ++ w.spelling

/-- A line with two blanks for each level of depth. -/
def OutlineLine.text (line : OutlineLine) : String :=
  String.ofList (List.replicate (2 * line.depth) ' ') ++ line.label.text

/-- The line for the modifiers of a group, which is missing if there are none. -/
def Group.modifiersOutline (depth : Nat) : List Word → List OutlineLine
  | [] => []
  | w :: rest => [⟨depth, .modifiers (w :: rest)⟩]

def Group.outline (depth : Nat) : Group → List OutlineLine
  | .flat head modifiers =>
    ⟨depth, .group head⟩ :: Group.modifiersOutline (depth + 1) modifiers
  | .pi head modifiers of =>
    ⟨depth, .group head⟩ :: Group.modifiersOutline (depth + 1) modifiers ++
      ⟨depth + 1, .pi⟩ :: of.outline (depth + 2)

def VerbPhrase.outline (depth : Nat) (v : VerbPhrase) : List OutlineLine :=
  ⟨depth, .verb⟩ :: v.preverbs.map (fun w => ⟨depth + 1, .preverb w⟩) ++
    v.verb.outline (depth + 1)

def Preposition.outline (depth : Nat) (p : Preposition) : List OutlineLine :=
  ⟨depth, .preposition p.preposition⟩ :: p.noun.outline (depth + 1)

def Predicate.outline (depth : Nat) (p : Predicate) : List OutlineLine :=
  ⟨depth, .predicate p.imperative⟩ :: p.verb.outline (depth + 1) ++
    p.objects.flatMap (fun g => ⟨depth + 1, .object⟩ :: g.outline (depth + 2)) ++
    p.prepositions.flatMap (Preposition.outline (depth + 1))

def Clause.outline (depth : Nat) (c : Clause) : List OutlineLine :=
  c.subjects.flatMap (fun g => ⟨depth, .subject⟩ :: g.outline (depth + 1)) ++
    c.predicates.flatMap (Predicate.outline depth)

def Sentence.outline (depth : Nat) : Sentence → List OutlineLine
  | .plain clause => ⟨depth, .sentence⟩ :: clause.outline (depth + 1)
  | .afterPhrase g clause =>
    ⟨depth, .sentence⟩ :: ⟨depth + 1, .context⟩ :: g.outline (depth + 2) ++
      clause.outline (depth + 1)
  | .afterSentence s clause =>
    ⟨depth, .sentence⟩ :: ⟨depth + 1, .context⟩ :: s.outline (depth + 2) ++
      clause.outline (depth + 1)

def Context.outline (depth : Nat) : Context → List OutlineLine
  | .sentence s => ⟨depth, .context⟩ :: s.outline (depth + 1)
  | .nounPhrase g => ⟨depth, .context⟩ :: g.outline (depth + 1)

/-- The text of an outline. -/
def outlineText (lines : List OutlineLine) : String :=
  "\n".intercalate (lines.map OutlineLine.text)

end TokiPona
