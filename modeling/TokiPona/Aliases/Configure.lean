import TokiPona.Aliases.Basic
import TokiPona.Files
import TokiPona.Json.Display

namespace TokiPona

/-- A key of a configuration names the aliases of a group, and its target the word they stand
    for. Both are any JSON value, and keys keep their order. -/
abbrev AliasConfig := List (Json × Json)

/-- Why an alias cannot be added: it is a vocabulary word itself, or it already stands for another
    word. -/
inductive AliasConflict where
  | shadows (name : LooseText)
  | clash (name : LooseText) (held wanted : Word)
  deriving DecidableEq, Repr

/-- Why a configuration is refused. -/
inductive MappingError where
  | unreadable (e : FileError)
  | malformed
  | notAnObject
  | notAMapping
  | unknownWord (shown : LooseText)
  | collisions (conflicts : List AliasConflict)
  deriving DecidableEq, Repr

def AliasConflict.describe : AliasConflict → LooseText
  | .shadows name => "'" ++ name ++ "' → shadows the vocabulary word"
  | .clash name held wanted =>
    "'" ++ name ++ "' → conflict between " ++ held.spelling ++ " and " ++ wanted.spelling

namespace MappingError

/-- What is said of an error, without the words of the reader for a text that is not JSON. -/
def message : MappingError → LooseText
  | .unreadable e => "Failed to load alias file: " ++ e.message
  | .malformed => "Failed to load alias file"
  | .notAnObject => "Alias file must contain a JSON object"
  | .notAMapping => "Configuration must be a dict"
  | .unknownWord shown => "Unknown vocabulary word: " ++ shown
  | .collisions _ => "Alias collision(s) detected"

/-- A line for each conflict, in the order of the configuration. -/
def conflicts : MappingError → List LooseText
  | .collisions conflicts => conflicts.map AliasConflict.describe
  | _ => []

end MappingError

namespace AliasConfig

/-- A number or a truth value as it counts when keys are compared: an integer if it is one. -/
def numeral : Json → Option (Int ⊕ Binary64)
  | .bool b => some (.inl (if b then 1 else 0))
  | .int n => some (.inl n)
  | .float x =>
    match x.toInt? with
    | some n => some (.inl n)
    | none => some (.inr x)
  | _ => none

mutual

/-- Whether two keys are the same. Numbers and truth values are compared by value. -/
def sameKey : Json → Json → Bool
  | .str a, .str b => a == b
  | .null, .null => true
  | .arr a, .arr b => sameKeys a b
  | a, b =>
    match numeral a, numeral b with
    | some m, some n => m == n
    | _, _ => false

def sameKeys : List Json → List Json → Bool
  | [], [] => true
  | a :: as, b :: bs => sameKey a b && sameKeys as bs
  | _, _ => false

end

/-- The configuration with these entries, of which the last one of each key counts. -/
def ofPairs (pairs : List (Json × Json)) : AliasConfig :=
  Entries.putAll sameKey [] pairs

/-- The configuration that a JSON object is. -/
def ofJson? : Json → Option AliasConfig
  | .obj members => some (members.map (fun (name, target) => (.str name, target)))
  | _ => none

/-- The aliases in a text: its parts between commas, trimmed and in lower case. Empty parts are
    none. -/
def aliasesIn (text : LooseText) : List LooseText :=
  (((text.splitOn ',').map LooseText.trim).filter (fun part => !part.isEmpty)).map LooseText.lower

mutual

/-- The aliases that a key names: those of its texts, however deep they are nested in lists. A key
    of another kind names none. -/
def keyAliases : Json → List LooseText
  | .str text => aliasesIn text
  | .arr items => allKeyAliases items
  | _ => []

def allKeyAliases : List Json → List LooseText
  | [] => []
  | item :: items => keyAliases item ++ allKeyAliases items

end

/-- The word that a target names, trimmed and in lower case. -/
def targetWord (target : Json) : Except MappingError Word :=
  match Word.ofText? target.display.trim.lower with
  | some w => .ok w
  | none => .error (.unknownWord target.display)

/-- The pairs of alias and word that a configuration asks for, in its order. The first target that
    is no word ends it. -/
def requests (config : AliasConfig) : Except MappingError (List (LooseText × Word)) := do
  let groups ← config.mapM (fun (key, target) => do
    let w ← targetWord target
    pure ((keyAliases key).map (fun name => (name, w))))
  pure groups.flatten

end AliasConfig

namespace Aliases

/-- The state of taking requests one by one: those granted and the conflicts met. -/
structure Draft where
  granted : List (LooseText × Word)
  conflicts : List AliasConflict

/-- Takes one request. An alias may be asked for again with the word it already has. -/
def Draft.take (aliases : Aliases) (draft : Draft) (request : LooseText × Word) : Draft :=
  let (name, w) := request
  if (Word.ofText? name).isSome then
    { draft with conflicts := draft.conflicts ++ [.shadows name] }
  else
    match (draft.granted.lookup name).or (aliases.lookup name) with
    | some held =>
      if held = w then { draft with granted := Entries.put (· == ·) draft.granted name w }
      else { draft with conflicts := draft.conflicts ++ [.clash name held w] }
    | none => { draft with granted := Entries.put (· == ·) draft.granted name w }

/-- Adds the aliases of a configuration. A target outside the vocabulary is reported before any
    conflict, all conflicts are reported together, and an error changes nothing. -/
def configure (aliases : Aliases) (config : AliasConfig) : Except MappingError Aliases := do
  let requests ← config.requests
  let draft := requests.foldl (Draft.take aliases) ⟨[], []⟩
  if draft.conflicts.isEmpty then pure (aliases.extend draft.granted)
  else throw (.collisions draft.conflicts)

/-- Adds the aliases of a JSON value, which must be an object. -/
def configureJson (aliases : Aliases) (value : Json) : Except MappingError Aliases :=
  match AliasConfig.ofJson? value with
  | some config => aliases.configure config
  | none => .error .notAMapping

/-- The aliases that are always there. -/
def defaults : Aliases := ⟨[("ali", .ale)]⟩

end Aliases

end TokiPona
