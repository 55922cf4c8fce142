import TokiPona.Word
import TokiPona.Text.Quoted

namespace TokiPona

/-- The causes for which a line is refused. The first one met ends the reading of the line. -/
inductive ParseError where
  | unrecognizedWord (text : String)
  | emptyNounPhrase
  | emptyContext
  | emptySubject
  | emptyPredicate
  | emptyVerbPhrase
  | emptyPreposition
  | invalidSubject (word : Word)
  | invalidNoun (word : Word)
  | invalidPreposition (word : Word)
  deriving DecidableEq, Repr

namespace ParseError

/-- The name of the cause. -/
def kind : ParseError → String
  | .unrecognizedWord _ => "UnrecognizedWord"
  | .emptyNounPhrase => "EmptyNounPhrase"
  | .emptyContext => "EmptyContext"
  | .emptySubject => "EmptySubject"
  | .emptyPredicate => "EmptyPredicate"
  | .emptyVerbPhrase => "EmptyVerbPhrase"
  | .emptyPreposition => "EmptyPreposition"
  | .invalidSubject _ => "InvalidSubject"
  | .invalidNoun _ => "InvalidNoun"
  | .invalidPreposition _ => "InvalidPreposition"

/-- The vocabulary word at fault, for the causes that have one. -/
def word? : ParseError → Option Word
  | .invalidSubject w | .invalidNoun w | .invalidPreposition w => some w
  | _ => none

/-- What the user is told: the name of the cause, with the text or the word at fault in
    brackets. -/
def message : ParseError → String
  | .unrecognizedWord text => "UnrecognizedWord(" ++ Text.quoted text ++ ")"
  | e =>
    match e.word? with
    | some w => e.kind ++ "(" ++ w.spelling ++ ")"
    | none => e.kind

end ParseError

end TokiPona
