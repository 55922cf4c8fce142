import TokiPona.Proofs.Aliases.Reachable
import TokiPona.Proofs.Token.Chunk

namespace TokiPona

namespace Aliases

/-- A table with every alias of another one, at the same word. -/
def Extends (aliases' aliases : Aliases) : Prop :=
  ∀ name w, aliases.lookup name = some w → aliases'.lookup name = some w

theorem extends_empty (aliases : Aliases) : aliases.Extends Aliases.empty := by
  intro name w hlookup
  cases hlookup

theorem extends_afterAll (aliases : Aliases) (updates : List AliasUpdate) :
    (aliases.afterAll updates).Extends aliases :=
  fun _ _ hlookup => lookup_afterAll hlookup updates

theorem Reachable.afterAll {aliases : Aliases} (haliases : aliases.Reachable)
    (updates : List AliasUpdate) : (aliases.afterAll updates).Reachable := by
  induction updates generalizing aliases with
  | nil => exact haliases
  | cons update updates ih => exact ih (haliases.after update)

/-- No alias shadows a vocabulary word. -/
theorem Valid.lookup_spelling {aliases : Aliases} (haliases : aliases.Valid) (w : Word) :
    aliases.lookup w.spelling = none := by
  cases hlookup : aliases.lookup w.spelling with
  | none => rfl
  | some held =>
    have hnone := (haliases _ (Entries.mem_of_lookup hlookup)).notWord
    rw [Word.ofText?_ofString, Word.ofSpelling?_spelling] at hnone
    cases hnone

end Aliases

/-- With a valid table a text names the word of its alias or the word that it spells, and there is
    at most one of the two. -/
theorem classify_eq_ok_iff {aliases : Aliases} (haliases : aliases.Valid) (text : String)
    (w : Word) :
    classify aliases text = .ok w ↔
      aliases.lookup (Text.lower text) = some w ∨ Text.lower text = w.spelling := by
  have hresolve : aliases.resolve (Text.lower text) = aliases.lookup (Text.lower text) := by
    rw [Aliases.resolve, LooseText.lower_ofString, Text.lower_lower]
  rw [classify, hresolve, ← Word.ofSpelling?_eq_some_iff]
  cases hlookup : aliases.lookup (Text.lower text) with
  | none => cases hword : Word.ofSpelling? (Text.lower text) <;> simp
  | some held =>
    have hword : Word.ofSpelling? (Text.lower text) = none := by
      rw [Option.eq_none_iff_forall_ne_some]
      intro v hv
      rw [(Word.ofSpelling?_eq_some_iff _ v).mp hv, haliases.lookup_spelling v] at hlookup
      cases hlookup
    simp [hword]

section Extension

variable {aliases aliases' : Aliases} (haliases : aliases.Valid) (haliases' : aliases'.Valid)
  (hextends : aliases'.Extends aliases)

include haliases haliases' hextends

theorem classify_of_extends {text : String} {w : Word} (hclassify : classify aliases text = .ok w) :
    classify aliases' text = .ok w := by
  rw [classify_eq_ok_iff haliases] at hclassify
  rw [classify_eq_ok_iff haliases']
  exact hclassify.imp_left (hextends _ w)

theorem Token.ofChunk_of_extends {position : Nat} {chunk : String} {token : Token}
    (hchunk : Token.ofChunk aliases position chunk = .ok token) :
    Token.ofChunk aliases' position chunk = .ok token := by
  rw [Token.ofChunk_eq_ok_iff] at hchunk ⊢
  obtain ⟨hcore, hclassify, hplace⟩ := hchunk
  exact ⟨hcore, classify_of_extends haliases haliases' hextends hclassify, hplace⟩

/-- A scan that meets no unknown chunk gives the same tokens with every table that extends the
    first. -/
theorem Token.scanFrom_of_extends {position : Nat} {chunks : List String} {tokens : List Token}
    (hscan : Token.scanFrom aliases position chunks = (tokens, none)) :
    Token.scanFrom aliases' position chunks = (tokens, none) := by
  rw [Token.scanFrom_eq_none_iff] at hscan ⊢
  exact hscan.imp fun _ _ => Token.ofChunk_of_extends haliases haliases' hextends

theorem tokenize_of_extends {line : String} {words : List Word}
    (htokenize : tokenize aliases line = .ok words) : tokenize aliases' line = .ok words := by
  rw [tokenize_eq_ok_iff] at htokenize ⊢
  obtain ⟨tokens, hscan, hwords⟩ := htokenize
  exact ⟨tokens, Token.scanFrom_of_extends haliases haliases' hextends hscan, hwords⟩

end Extension

theorem Token.exists_text_of_scanFrom {aliases : Aliases} {position : Nat} {chunks : List String}
    {tokens : List Token} {e : ParseError}
    (hscan : Token.scanFrom aliases position chunks = (tokens, some e)) :
    ∃ text, e = .unrecognizedWord text := by
  obtain ⟨before, chunk, behind, -, -, herror⟩ := (Token.scanFrom_eq_some_iff _ _ _ _ _).mp hscan
  obtain ⟨-, text, -, rfl⟩ := (Token.ofChunk_eq_error_iff _ _ _ _).mp herror
  exact ⟨text, rfl⟩

/-- The only error that the words of a line can end with is an unknown word. -/
theorem tokenize_eq_error {aliases : Aliases} {line : String} {e : ParseError}
    (htokenize : tokenize aliases line = .error e) : ∃ text, e = .unrecognizedWord text := by
  obtain ⟨tokens, hscan⟩ := (tokenize_eq_error_iff _ _ _).mp htokenize
  exact Token.exists_text_of_scanFrom hscan

/-- A line that has words with one table has them with another one, and the same tree or the same
    error. Only a line that stops at an unknown word can be read in another way. -/
structure KeepsReading (aliases aliases' : Aliases) (line : String) : Prop where
  words : ∀ words, tokenize aliases line = .ok words → tokenize aliases' line = .ok words
  reading : ∀ words, tokenize aliases line = .ok words →
    parseLine aliases' line = parseLine aliases line
  affected : parseLine aliases' line ≠ parseLine aliases line →
    ∃ text, parseLine aliases line = .error (.unrecognizedWord text)

theorem keepsReading_of_extends {aliases aliases' : Aliases} (haliases : aliases.Valid)
    (haliases' : aliases'.Valid) (hextends : aliases'.Extends aliases) (line : String) :
    KeepsReading aliases aliases' line := by
  have hwords : ∀ words, tokenize aliases line = .ok words → tokenize aliases' line = .ok words :=
    fun words => tokenize_of_extends haliases haliases' hextends
  have hreading : ∀ words, tokenize aliases line = .ok words →
      parseLine aliases' line = parseLine aliases line := by
    intro words htokenize
    rw [parseLine_eq, parseLine_eq, htokenize, hwords words htokenize]
  refine ⟨hwords, hreading, fun hne => ?_⟩
  cases htokenize : tokenize aliases line with
  | ok words => exact absurd (hreading words htokenize) hne
  | error e =>
    obtain ⟨text, rfl⟩ := tokenize_eq_error htokenize
    exact ⟨text, by rw [parseLine_eq, htokenize]; rfl⟩

/-- Aliases that are added later, in any number of updates, leave every line alone that has words
    already, and so does any table against none at all. -/
theorem Aliases.keepsReading_of_reachable (aliases : Aliases) (haliases : aliases.Reachable)
    (updates : List AliasUpdate) (line : String) :
    KeepsReading aliases (aliases.afterAll updates) line ∧
      KeepsReading Aliases.empty aliases line := by
  constructor
  · exact keepsReading_of_extends haliases.valid (haliases.afterAll updates).valid
      (aliases.extends_afterAll updates) line
  · exact keepsReading_of_extends Valid.empty haliases.valid aliases.extends_empty line

/-- The first line has an alias in capitals and a Kelvin sign for a `k`; the second one is read
    only when its alias is there. The second update is refused. -/
theorem Aliases.keepsReading_of_new_alias :
    let updates : List AliasUpdate :=
      [.configure [(.str "Nimisin", .str "sin")], .configure [(.str "ali", .str "ala")]]
    let aliases' := Aliases.defaults.afterAll updates
    Aliases.defaults.Reachable ∧
      tokenize Aliases.defaults "ALI li pa\u212Aala!" = .ok [.ale, .li, .pakala] ∧
      tokenize aliases' "ALI li pa\u212Aala!" = .ok [.ale, .li, .pakala] ∧
      parseLine aliases' "ALI li pa\u212Aala!" = parseLine Aliases.defaults "ALI li pa\u212Aala!" ∧
      tokenize aliases' "nimisin li pona" = .ok [.sin, .li, .pona] ∧
      ∃ text, parseLine Aliases.defaults "nimisin li pona" = .error (.unrecognizedWord text) := by
  intro updates aliases'
  have hline : tokenize Aliases.defaults "ALI li pa\u212Aala!" = .ok [.ale, .li, .pakala] := by
    decide +kernel
  have hnew : tokenize aliases' "nimisin li pona" = .ok [.sin, .li, .pona] := by decide +kernel
  have hchanged : parseLine aliases' "nimisin li pona" ≠
      parseLine Aliases.defaults "nimisin li pona" := by
    decide +kernel
  have hkept := (keepsReading_of_reachable _ .defaults updates "ALI li pa\u212Aala!").1
  have haffected := (keepsReading_of_reachable _ .defaults updates "nimisin li pona").1.affected
  exact ⟨.defaults, hline, hkept.words _ hline, hkept.reading _ hline, hnew, haffected hchanged⟩

end TokiPona
