import TokiPona.Word
import TokiPona.Text.Quoted

namespace TokiPona

/-- The parts of the tool that take notes. -/
inductive Component where
  | lexer
  | parser
  | batch
  | logging
  deriving DecidableEq, Repr

/-- One note. The words in it are those the component had before it. -/
inductive Note where
  | tokenized (line : String) (words : List Word)
  | contextSplit (before behind : List Word)
  | trailingPreposition (words : List Word)
  | lineFailed (number : Nat) (line : String)
  | debugEnabled
  deriving DecidableEq, Repr

namespace Note

def component : Note → Component
  | .tokenized _ _ => .lexer
  | .contextSplit _ _ => .parser
  | .trailingPreposition _ => .parser
  | .lineFailed _ _ => .batch
  | .debugEnabled => .logging

def message : Note → String
  | .tokenized line words => "tokenized " ++ Text.quoted line ++ " -> " ++ spell words
  | .contextSplit before behind =>
    "context split: " ++ Text.quoted (spell before) ++ " | " ++ Text.quoted (spell behind)
  | .trailingPreposition words => "trailing preposition: " ++ Text.quoted (spell words)
  | .lineFailed number line => "line " ++ toString number ++ " failed: " ++ Text.quoted line
  | .debugEnabled => "debug logging enabled"

end Note

end TokiPona
