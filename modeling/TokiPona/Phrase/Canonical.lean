import TokiPona.Phrase.Basic

namespace TokiPona

def Word.letters (w : Word) : List Char := w.spelling.toList

namespace Group

/-- The brackets that the modifiers of a group close. -/
def opening (modifiers : List Word) : List Char := List.replicate modifiers.length '('

/-- Modifiers, each with its closing bracket. -/
def closing (modifiers : List Word) : List Char :=
  modifiers.flatMap (fun w => w.letters ++ [')'])

/-- A group in brackets that show what belongs together. Each modifier closes one that opens before
    the head, `jan pona mute` being `(((jan)pona)mute)`, and a `pi` group closes one around all. -/
def bracketed : Group → List Char
  | .flat head modifiers => opening modifiers ++ '(' :: head.letters ++ ')' :: closing modifiers
  | .pi head modifiers of =>
    '(' :: opening modifiers ++ '(' :: head.letters ++ ')' :: closing modifiers ++
      Word.pi.letters ++ of.bracketed ++ [')']

end Group

def VerbPhrase.bracketed (v : VerbPhrase) : List Char :=
  v.preverbs.flatMap (fun w => '(' :: w.letters) ++ v.verb.bracketed ++
    List.replicate v.preverbs.length ')'

def Preposition.bracketed (p : Preposition) : List Char :=
  p.preposition.letters ++ p.noun.bracketed

/-- The word that introduces a predicate. -/
def Predicate.marker (p : Predicate) : Word := if p.imperative then .o else .li

def Predicate.bracketed (p : Predicate) : List Char :=
  p.marker.letters ++ p.verb.bracketed ++
    p.objects.flatMap (fun g => Word.e.letters ++ g.bracketed) ++
    p.prepositions.flatMap Preposition.bracketed

def Clause.bracketed (c : Clause) : List Char :=
  Word.en.letters.intercalate (c.subjects.map Group.bracketed) ++
    c.predicates.flatMap Predicate.bracketed

def Sentence.bracketed : Sentence → List Char
  | .plain clause => clause.bracketed
  | .afterPhrase g clause => g.bracketed ++ Word.la.letters ++ clause.bracketed
  | .afterSentence s clause =>
    '(' :: s.bracketed ++ ')' :: Word.la.letters ++ clause.bracketed

def Context.bracketed : Context → List Char
  | .sentence s => '(' :: s.bracketed ++ [')']
  | .nounPhrase g => g.bracketed

def Group.canonical (g : Group) : String := String.ofList g.bracketed

def VerbPhrase.canonical (v : VerbPhrase) : String := String.ofList v.bracketed

def Preposition.canonical (p : Preposition) : String := String.ofList p.bracketed

def Predicate.canonical (p : Predicate) : String := String.ofList p.bracketed

def Context.canonical (c : Context) : String := String.ofList c.bracketed

def Sentence.canonical (s : Sentence) : String := String.ofList s.bracketed

end TokiPona
