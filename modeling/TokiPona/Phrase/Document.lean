import TokiPona.Json.Basic
import TokiPona.Phrase.Basic

namespace TokiPona

/-- A list of words as a JSON value. -/
def wordsJson (words : List Word) : Json :=
  .arr (words.map (fun w => .str w.spelling))

def Group.toJson : Group → Json
  | .flat head modifiers =>
    .obj [("kind", .str "group"), ("word", .str head.spelling),
      ("modifiers", wordsJson modifiers), ("of", .null)]
  | .pi head modifiers of =>
    .obj [("kind", .str "group"), ("word", .str head.spelling),
      ("modifiers", wordsJson modifiers), ("of", of.toJson)]

def VerbPhrase.toJson (v : VerbPhrase) : Json :=
  .obj [("kind", .str "verb_phrase"), ("preverbs", wordsJson v.preverbs),
    ("verb", v.verb.toJson)]

def Preposition.toJson (p : Preposition) : Json :=
  .obj [("kind", .str "preposition"), ("preposition", .str p.preposition.spelling),
    ("noun", p.noun.toJson)]

def Predicate.toJson (p : Predicate) : Json :=
  .obj [("kind", .str "predicate"), ("imperative", .bool p.imperative),
    ("verb", p.verb.toJson), ("objects", .arr (p.objects.map Group.toJson)),
    ("prepositions", .arr (p.prepositions.map Preposition.toJson))]

/-- The name of the kind of a context. -/
def Context.kind : Context → String
  | .sentence _ => "sentence"
  | .nounPhrase _ => "noun_phrase"

/-- A context of the given kind around its value. -/
def contextJson (kind : String) (value : Json) : Json :=
  .obj [("kind", .str "context"), ("type", .str kind), ("value", value)]

/-- A clause with its context, which may be missing. -/
def sentenceJson (context : Json) (clause : Clause) : Json :=
  .obj [("kind", .str "sentence"), ("context", context),
    ("subjects", .arr (clause.subjects.map Group.toJson)),
    ("predicates", .arr (clause.predicates.map Predicate.toJson))]

def Sentence.toJson : Sentence → Json
  | .plain clause => sentenceJson .null clause
  | .afterPhrase g clause => sentenceJson (contextJson "noun_phrase" g.toJson) clause
  | .afterSentence s clause => sentenceJson (contextJson "sentence" s.toJson) clause

def Context.toJson : Context → Json
  | .sentence s => contextJson "sentence" s.toJson
  | .nounPhrase g => contextJson "noun_phrase" g.toJson

end TokiPona
