import TokiPona.Aliases.Basic
import TokiPona.ParseError
import TokiPona.Text.Blank
import TokiPona.Traced

namespace TokiPona

/-- A word as it stands in a line: the chunk between blanks, the chunk without the punctuation at
    its ends, and its number in the line. -/
structure Token where
  word : Word
  text : String
  raw : String
  position : Int
  deriving DecidableEq, Repr

namespace Token

/-- A token whose chunk is its text if none is given. -/
def make (word : Word) (text raw : String) (position : Int) : Token :=
  ⟨word, text, if raw.isEmpty then text else raw, position⟩

/-- How diagnostics show a token. -/
def describe (token : Token) : String :=
  "Token(" ++ token.word.spelling ++ ", " ++ Text.quoted token.raw ++ ")"

end Token

/-- A chunk without what stands before its first and behind its last ASCII letter. -/
def stripChunk (chunk : String) : String :=
  String.ofList (Text.dropEnds (fun c => !c.isAlpha) chunk.toList)

/-- The word that a text names in any letter case. Aliases are looked up first. -/
def classify (aliases : Aliases) (text : String) : Except ParseError Word :=
  let lowered := Text.lower text
  match (aliases.resolve lowered).or (Word.ofSpelling? lowered) with
  | some w => .ok w
  | none => .error (.unrecognizedWord text)

/-- Reads one chunk. A chunk with no letter in it is reported as it is. -/
def Token.ofChunk (aliases : Aliases) (position : Nat) (chunk : String) :
    Except ParseError Token :=
  let text := stripChunk chunk
  if text.isEmpty then .error (.unrecognizedWord chunk)
  else (classify aliases text).map (fun w => ⟨w, text, chunk, position⟩)

/-- Reads chunks up to the first that is no word. -/
def Token.scanFrom (aliases : Aliases) (position : Nat) :
    List String → List Token × Option ParseError
  | [] => ([], none)
  | chunk :: rest =>
    match Token.ofChunk aliases position chunk with
    | .error e => ([], some e)
    | .ok token =>
      let (tokens, error) := Token.scanFrom aliases (position + 1) rest
      (token :: tokens, error)

/-- The tokens of a line, and the error that ended them if there is one. -/
def Token.scan (aliases : Aliases) (line : String) : List Token × Option ParseError :=
  Token.scanFrom aliases 0 (Text.chunks line)

/-- The words of a line. -/
def tokenize (aliases : Aliases) (line : String) : Except ParseError (List Word) :=
  match Token.scan aliases line with
  | (tokens, none) => .ok (tokens.map Token.word)
  | (_, some e) => .error e

/-- The words of a line, with a note if there is no error among them. -/
def traceTokens (aliases : Aliases) (line : String) : Traced (List Word) := do
  let words ← Traced.lift (tokenize aliases line)
  Traced.note (.tokenized line words)
  pure words

end TokiPona
