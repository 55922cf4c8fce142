import TokiPona.Phrase.Basic
import TokiPona.Split
import TokiPona.Traced

/-!
Reading words as a phrase tree.

    sentence    ::= [context la] subjects predicates
    context     ::= sentence | group
    subjects    ::= group (en group)*
    predicate   ::= (li | o) verb-phrase (e group)* preposition*
    verb-phrase ::= preverb* group
    preposition ::= PREPOSITION group
    group       ::= head modifier* (pi group)?

The last `la` ends the context, so contexts nest to the left. Trailing prepositional phrases are
taken off a predicate from the right, one at a time, while each leaves the verb and the last
object whole. In a group the first `pi` behind the head starts the group within.
-/

namespace TokiPona

/-- Reads on behind the head and some modifiers of a group. -/
def Group.parseTail (head : Word) (modifiers : List Word) : List Word → Except ParseError Group
  | [] => .ok (.flat head modifiers)
  | [.pi] => .error .emptyNounPhrase
  | .pi :: inner :: rest =>
    if inner.isParticle then .error (.invalidNoun inner)
    else (Group.parseTail inner [] rest).map (.pi head modifiers)
  | w :: rest =>
    if w.isParticle then .error (.invalidNoun w)
    else Group.parseTail head (modifiers ++ [w]) rest

/-- Reads a noun phrase. A particle is neither head nor modifier, while any other word may be
    either, but a `pi` behind the head opens a further group, which must not be empty. -/
def Group.parse : List Word → Except ParseError Group
  | [] => .error .emptyNounPhrase
  | head :: rest =>
    if head.isParticle then .error (.invalidNoun head) else Group.parseTail head [] rest

/-- The leading preverbs of a verb, and the verb. The last word is always the verb's. -/
def VerbPhrase.cutPreverbs : List Word → List Word × List Word
  | w :: next :: rest =>
    if w.isPreverb then
      let (preverbs, verb) := VerbPhrase.cutPreverbs (next :: rest)
      (w :: preverbs, verb)
    else ([], w :: next :: rest)
  | words => ([], words)

/-- Reads preverbs and the group of the verb. -/
def VerbPhrase.parse (words : List Word) : Except ParseError VerbPhrase :=
  if words.isEmpty then .error .emptyVerbPhrase
  else
    let (preverbs, verb) := VerbPhrase.cutPreverbs words
    (Group.parse verb).map (VerbPhrase.mk preverbs)

/-- Reads a preposition and the group it governs. -/
def Preposition.parse : List Word → Except ParseError Preposition
  | [] => .error .emptyPreposition
  | w :: rest =>
    if w.isPreposition then (Group.parse rest).map (Preposition.mk w)
    else .error (.invalidPreposition w)

/-- Whether a preposition may be taken off the end of a predicate together with what follows it.
    Something must follow it, no object may begin behind it, and before it there must be a verb
    and no `e` that would lose its object. -/
def Predicate.isDetachable (before behind : List Word) : Bool :=
  !behind.isEmpty && !behind.contains .e && !before.isEmpty && before.getLast? != some .e

/-- Takes the trailing prepositional phrases off a predicate, the last one first. The result has
    the words that are left and the phrases in the order of the words. -/
def Predicate.detach (words : List Word) : Traced (List Word × List Preposition) :=
  match _ : cutLast? Word.isPreposition words with
  | none => pure (words, [])
  | some (before, w, behind) =>
    if Predicate.isDetachable before behind then do
      Traced.note (.trailingPreposition (w :: behind))
      let last ← Traced.lift (Preposition.parse (w :: behind))
      let (core, earlier) ← Predicate.detach before
      pure (core, earlier ++ [last])
    else pure (words, [])
termination_by words.length
decreasing_by exact length_lt_of_cutLast? ‹_›

/-- Reads a verb and the objects behind it, each introduced by an `e`. -/
def Predicate.parseCore (words : List Word) : Except ParseError (VerbPhrase × List Group) := do
  match words.dropWhile (· != .e) with
  | [] =>
    let verb ← VerbPhrase.parse words
    pure (verb, [])
  | _ :: rest =>
    let verb ← VerbPhrase.parse (words.takeWhile (· != .e))
    let objects ← (rest.splitOn .e).mapM Group.parse
    pure (verb, objects)

/-- Reads a predicate from its `li` or `o` on, which is missing behind a bare pronoun. -/
def Predicate.trace : List Word → Traced Predicate
  | [] => Traced.fail .emptyPredicate
  | w :: rest => do
    let body := if w.isPredicateMarker then rest else w :: rest
    let (core, prepositions) ← Predicate.detach body
    let (verb, objects) ← Traced.lift (Predicate.parseCore core)
    pure ⟨w == .o, verb, objects, prepositions⟩

/-- The predicate that these words make. -/
def Predicate.parse (words : List Word) : Except ParseError Predicate :=
  (Predicate.trace words).result

/-- Reads the subjects of a clause, and gives the words left for its predicates. A leading `o`
    speaks to `sina`. Without any marker, `mi` or `sina` is the whole subject and the predicate
    follows at once, while any other word begins a group that takes all words. -/
def Clause.parseSubjects (words : List Word) : Except ParseError (List Group × List Word) :=
  match words.takeWhile (!·.isPredicateMarker), words.dropWhile (!·.isPredicateMarker) with
  | [], [] => .error .emptySubject
  | [], marker :: rest =>
    if marker == .o then .ok ([Group.ofWord .sina], marker :: rest) else .error .emptySubject
  | w :: rest, [] =>
    if w.isBarePronoun then .ok ([Group.ofWord w], rest)
    else if w.isParticle then .error (.invalidSubject w)
    else (Group.parse (w :: rest)).map (fun subject => ([subject], []))
  | before, predicates =>
    ((before.splitOn .en).mapM Group.parse).map (fun subjects => (subjects, predicates))

/-- Reads a clause, with `read` for each of its predicates. Only in a fragment, which a `la`
    follows, may the predicates be missing. -/
def Clause.traceBy (read : List Word → Traced Predicate) (fragment : Bool) (words : List Word) :
    Traced Clause := do
  let (subjects, rest) ← Traced.lift (Clause.parseSubjects words)
  let predicates ← (runs Word.isPredicateMarker rest).mapM read
  if predicates.isEmpty && !fragment then Traced.fail .emptyPredicate
  else pure ⟨subjects, predicates⟩

/-- The clause that these words make. -/
def Clause.parse (fragment : Bool) (words : List Word) : Except ParseError Clause :=
  (Clause.traceBy Predicate.trace fragment words).result

/-- Whether the words before a `la` are a sentence and not only a noun phrase. -/
def Context.isSentence (words : List Word) : Bool :=
  words.any (fun w => w.isPredicateMarker || w == .la)

/-- Reads the words before a `la`: a sentence if a predicate marker or a further `la` is among
    them, and a noun phrase otherwise. The reading as a sentence is given, and so is what is made of
    either. -/
def Context.traceAs {α : Type} (ofSentence : Sentence → α) (ofGroup : Group → α)
    (inner : Traced Sentence) (words : List Word) : Traced α :=
  if words.isEmpty then Traced.fail .emptyContext
  else if Context.isSentence words then do
    let sentence ← inner
    pure (ofSentence sentence)
  else Traced.lift ((Group.parse words).map ofGroup)

/-- Reads a sentence, with `read` for each of its predicates. The last `la`, if there is one,
    separates its context from its clause. -/
def Sentence.traceBy (read : List Word → Traced Predicate) (fragment : Bool) (words : List Word) :
    Traced Sentence :=
  match _ : cutLast? (· == .la) words with
  | none => do
    let clause ← Clause.traceBy read fragment words
    pure (.plain clause)
  | some (before, _, behind) => do
    Traced.note (.contextSplit before behind)
    let context ←
      Context.traceAs .sentence .nounPhrase (Sentence.traceBy read true before) before
    let clause ← Clause.traceBy read fragment behind
    pure (.inContext (some context) clause)
termination_by words.length
decreasing_by exact length_lt_of_cutLast? ‹_›

/-- Reads a sentence. A fragment may consist of subjects only. -/
def Sentence.trace : Bool → List Word → Traced Sentence := Sentence.traceBy Predicate.trace

/-- The sentence that these words make. -/
def Sentence.parse (fragment : Bool) (words : List Word) : Except ParseError Sentence :=
  (Sentence.trace fragment words).result

/-- The context that these words make. -/
def Context.parse (words : List Word) : Except ParseError Context :=
  (Context.traceAs .sentence .nounPhrase (Sentence.trace true words) words).result

end TokiPona
