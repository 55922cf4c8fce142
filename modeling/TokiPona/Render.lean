import TokiPona.Json.Printer
import TokiPona.Phrase.Canonical
import TokiPona.Phrase.Document
import TokiPona.Phrase.Outliner
import TokiPona.Text.Lower

namespace TokiPona

/-- The output formats: the canonical form, the outline, and JSON. -/
inductive Target where
  | canonical
  | tree
  | json
  deriving DecidableEq, Repr

/-- Why a format is not found: none has the name that is asked for, or no name is given. -/
inductive TargetError where
  | unknown (name : String)
  | unnamed
  deriving DecidableEq, Repr

def TargetError.message : TargetError → String
  | .unknown name => "Unknown render target: " ++ Text.quoted name
  | .unnamed => "'list' object has no attribute 'lower'"

namespace Target

def name : Target → String
  | .canonical => "canonical"
  | .tree => "tree"
  | .json => "json"

def all : List Target := [.canonical, .tree, .json]

/-- The format of exactly this name. -/
def ofName? (name : String) : Option Target :=
  all.find? (fun t => t.name == name)

/-- The format of this name in any letter case. -/
def read (name : String) : Except TargetError Target :=
  match ofName? (Text.lower name) with
  | some target => .ok target
  | none => .error (.unknown (Text.lower name))

/-- The format of a name that may be left out. -/
def choose : Option String → Except TargetError Target
  | some name => read name
  | none => .error .unnamed

/-- The rendering of one sentence. -/
def render : Target → Sentence → String
  | .canonical, s => s.canonical
  | .tree, s => outlineText (s.outline 0)
  | .json, s => s.toJson.render none

end Target

/-- A sentence rendered in the format of this name. -/
def renderSentence (s : Sentence) (target : Option String) : Except TargetError String := do
  let target ← Target.choose target
  pure (target.render s)

/-- What the renderings of sentences are written to, one after the other. The canonical form and
    JSON take a text for each sentence, JSON with its indent, and an outline takes many lines. -/
inductive Backend where
  | canonical (lines : List String)
  | tree (outliner : Outliner)
  | json (indent : Option Int) (lines : List String)
  deriving DecidableEq, Repr

namespace Backend

/-- The empty backend of a format. -/
def new : Target → Backend
  | .canonical => .canonical []
  | .tree => .tree .new
  | .json => .json none []

/-- Writes a sentence. -/
def emit : Backend → Sentence → Backend
  | .canonical lines, s => .canonical (lines ++ [s.canonical])
  | .tree outliner, s => .tree (outliner.emitSentence s)
  | .json indent lines, s => .json indent (lines ++ [s.toJson.render indent])

/-- All that was written. -/
def output : Backend → String
  | .canonical lines => "\n".intercalate lines
  | .tree outliner => outliner.output
  | .json _ lines => "\n".intercalate lines

end Backend

/-- A renderer has one backend for all sentences it is given. -/
structure Renderer where
  target : Target
  backend : Backend
  deriving DecidableEq, Repr

/-- What a renderer may be given: a sentence, or a thing that is none. -/
inductive RenderItem where
  | sentence (s : Sentence)
  | foreign
  deriving DecidableEq, Repr

/-- A renderer was given something other than sentences. -/
structure NotASentence where
  deriving DecidableEq, Repr

def NotASentence.message (_ : NotASentence) : String :=
  "All items to render must be Sentence instances."

/-- The sentence that an item is. -/
def RenderItem.read : RenderItem → Except NotASentence Sentence
  | .sentence s => .ok s
  | .foreign => .error ⟨⟩

namespace Renderer

def new (target : Target) : Renderer := ⟨target, .new target⟩

/-- All renderings so far, one after the other. -/
def output (r : Renderer) : String := r.backend.output

/-- Adds the renderings of some sentences. -/
def emit (r : Renderer) (sentences : List Sentence) : Renderer :=
  { r with backend := sentences.foldl Backend.emit r.backend }

/-- Renders items: the renderer after it, and all its renderings so far. If one of the items is no
    sentence, none is rendered. -/
def render (r : Renderer) (items : List RenderItem) : Renderer × Except NotASentence String :=
  match items.mapM RenderItem.read with
  | .error e => (r, .error e)
  | .ok sentences =>
    let r := r.emit sentences
    (r, .ok r.output)

end Renderer

/-- Sentences as JSON with the given indent, one after the other. -/
def renderJson (indent : Option Int) (sentences : List Sentence) : String :=
  (sentences.foldl Backend.emit (.json indent [])).output

end TokiPona
