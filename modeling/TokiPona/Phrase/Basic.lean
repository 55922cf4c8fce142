import TokiPona.Word

namespace TokiPona

/-- A noun phrase: a head with flat modifiers, and possibly a further group that `pi` introduces
    and that modifies the whole. -/
inductive Group where
  | flat (head : Word) (modifiers : List Word)
  | pi (head : Word) (modifiers : List Word) (of : Group)
  deriving DecidableEq, Repr

namespace Group

/-- The noun phrase of a single word. -/
def ofWord (w : Word) : Group := .flat w []

def head : Group → Word
  | .flat head _ => head
  | .pi head _ _ => head

def modifiers : Group → List Word
  | .flat _ modifiers => modifiers
  | .pi _ modifiers _ => modifiers

/-- The group that `pi` introduces, if there is one. -/
def of? : Group → Option Group
  | .flat _ _ => none
  | .pi _ _ of => some of

end Group

/-- A verb with the preverbs in front of it. -/
structure VerbPhrase where
  preverbs : List Word
  verb : Group
  deriving DecidableEq, Repr

/-- A preposition and the noun phrase it governs. -/
structure Preposition where
  preposition : Word
  noun : Group
  deriving DecidableEq, Repr

/-- What one `li` or `o` says of the subjects: the verb, its objects, each behind an `e`, and the
    trailing prepositional phrases, both from left to right. -/
structure Predicate where
  imperative : Bool
  verb : VerbPhrase
  objects : List Group
  prepositions : List Preposition
  deriving DecidableEq, Repr

/-- Subjects joined by `en`, and the predicates they share. -/
structure Clause where
  subjects : List Group
  predicates : List Predicate
  deriving DecidableEq, Repr

/-- A clause, alone or in the context that `la` puts in front of it. The context is a noun phrase
    or a sentence, which may have a context of its own. -/
inductive Sentence where
  | plain (clause : Clause)
  | afterPhrase (context : Group) (clause : Clause)
  | afterSentence (context : Sentence) (clause : Clause)
  deriving DecidableEq, Repr

/-- What stands in front of a `la`. -/
inductive Context where
  | sentence (sentence : Sentence)
  | nounPhrase (group : Group)
  deriving DecidableEq, Repr

/-- A context holds exactly one of a sentence and a noun phrase. -/
def Context.ofParts? : Option Sentence → Option Group → Option Context
  | some s, none => some (.sentence s)
  | none, some g => some (.nounPhrase g)
  | _, _ => none

namespace Sentence

/-- A clause in a context, if there is one. -/
def inContext : Option Context → Clause → Sentence
  | none, clause => .plain clause
  | some (.nounPhrase g), clause => .afterPhrase g clause
  | some (.sentence s), clause => .afterSentence s clause

def context? : Sentence → Option Context
  | .plain _ => none
  | .afterPhrase g _ => some (.nounPhrase g)
  | .afterSentence s _ => some (.sentence s)

def clause : Sentence → Clause
  | .plain clause => clause
  | .afterPhrase _ clause => clause
  | .afterSentence _ clause => clause

@[simp]
theorem inContext_context?_clause (s : Sentence) : inContext s.context? s.clause = s := by
  cases s <;> rfl

end Sentence

end TokiPona
