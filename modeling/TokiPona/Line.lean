import TokiPona.Phrase.Parser
import TokiPona.Token

namespace TokiPona

/-- Reads a line and notes how. -/
def traceLine (aliases : Aliases) (line : String) : Traced Sentence := do
  let words ← traceTokens aliases line
  Sentence.trace false words

/-- The sentence that a line is. -/
def parseLine (aliases : Aliases) (line : String) : Except ParseError Sentence :=
  (traceLine aliases line).result

end TokiPona
