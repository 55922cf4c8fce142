import TokiPona.Proofs.Aliases.Conservative
import TokiPona.Proofs.Text.LetterForm
import TokiPona.Proofs.Token.Chunk

namespace TokiPona

/-- A text in which the letters of a spelling are written one by one. -/
def Word.IsWritten (w : Word) (text : String) : Prop :=
  List.Forall₂ Text.Writes text.toList w.spelling.toList

/-- A chunk that names a word without an alias. -/
def Word.IsNamedBy (w : Word) (chunk : String) : Prop :=
  ∃ core, Text.IsCore chunk core ∧ w.IsWritten core

/-- A token with what it says of its chunk and of the place of the chunk in the line. -/
structure Token.Reads (token : Token) (chunk : String) (position : Nat) : Prop where
  raw : token.raw = chunk
  position : token.position = position
  text : Text.IsCore chunk token.text
  word : token.word.IsWritten token.text

theorem Word.lower_eq_spelling_iff (w : Word) (text : String) :
    Text.lower text = w.spelling ↔ w.IsWritten text := by
  rw [Text.lower_eq_iff, Text.lowerFrom_eq_iff w.isLower_spelling, Word.IsWritten]

theorem classify_empty_eq_ok_iff (text : String) (w : Word) :
    classify Aliases.empty text = .ok w ↔ w.IsWritten text := by
  have hnone : Aliases.empty.lookup (Text.lower text) = none := rfl
  rw [classify_eq_ok_iff Aliases.Valid.empty, hnone, Word.lower_eq_spelling_iff]
  simp

theorem Token.ofChunk_empty_eq_ok_iff (position : Nat) (chunk : String) (token : Token) :
    Token.ofChunk Aliases.empty position chunk = .ok token ↔ token.Reads chunk position := by
  rw [Token.ofChunk_eq_ok_iff, classify_empty_eq_ok_iff]
  constructor
  · rintro ⟨htext, hword, hraw, hposition⟩
    exact ⟨hraw, hposition, htext, hword⟩
  · rintro ⟨hraw, hposition, htext, hword⟩
    exact ⟨htext, hword, hraw, hposition⟩

theorem Token.ofChunk_empty_eq_error_iff (position : Nat) (chunk : String) (e : ParseError) :
    Token.ofChunk Aliases.empty position chunk = .error e ↔
      (∀ w : Word, ¬ w.IsNamedBy chunk) ∧
        ∃ text, Text.IsToldOf chunk text ∧ e = .unrecognizedWord text := by
  simp only [Token.ofChunk_eq_error_iff, ne_eq, classify_empty_eq_ok_iff, Word.IsNamedBy,
    not_exists, not_and]
  exact and_congr_left fun _ => forall_comm

/-- The words of a chunk are those of the tokens that read it. -/
theorem Word.isNamedBy_iff (w : Word) (chunk : String) (position : Nat) :
    w.IsNamedBy chunk ↔ ∃ token : Token, token.Reads chunk position ∧ token.word = w := by
  constructor
  · rintro ⟨core, hcore, hwritten⟩
    exact ⟨⟨w, core, chunk, position⟩, ⟨rfl, rfl, hcore, hwritten⟩, rfl⟩
  · rintro ⟨token, hreads, rfl⟩
    exact ⟨token.text, hreads.text, hreads.word⟩

/-- Words are named by a row of chunks exactly if tokens with these words read it. -/
theorem Token.exists_reads_iff (words : List Word) (chunks : List String) (position : Nat) :
    (∃ tokens : List Token,
        List.Forall₂ (fun token entry => token.Reads entry.1 entry.2) tokens
          (chunks.zipIdx position) ∧ tokens.map Token.word = words) ↔
      List.Forall₂ Word.IsNamedBy words chunks := by
  induction chunks generalizing words position with
  | nil => simp [eq_comm]
  | cons chunk rest ih =>
    simp only [List.zipIdx_cons, List.forall₂_cons_right_iff]
    constructor
    · rintro ⟨_, ⟨token, tokens, hreads, htokens, rfl⟩, rfl⟩
      exact ⟨token.word, tokens.map Token.word,
        (Word.isNamedBy_iff _ chunk position).mpr ⟨token, hreads, rfl⟩,
        (ih _ (position + 1)).mp ⟨tokens, htokens, rfl⟩, rfl⟩
    · rintro ⟨w, words, hw, hwords, rfl⟩
      obtain ⟨token, hreads, rfl⟩ := (Word.isNamedBy_iff w chunk position).mp hw
      obtain ⟨tokens, htokens, rfl⟩ := (ih words (position + 1)).mpr hwords
      exact ⟨token :: tokens, ⟨token, tokens, hreads, htokens, rfl⟩, rfl⟩

theorem Token.scan_empty_eq_none_iff (line : String) (tokens : List Token) :
    Token.scan Aliases.empty line = (tokens, none) ↔
      List.Forall₂ (fun token entry => token.Reads entry.1 entry.2) tokens
        (Text.chunks line).zipIdx := by
  simp only [Token.scan, Token.scanFrom_eq_none_iff, Token.ofChunk_empty_eq_ok_iff]

theorem Token.scan_empty_eq_some_iff (line : String) (tokens : List Token) (e : ParseError) :
    Token.scan Aliases.empty line = (tokens, some e) ↔
      ∃ before chunk behind text, Text.chunks line = before ++ chunk :: behind ∧
        List.Forall₂ (fun token entry => token.Reads entry.1 entry.2) tokens before.zipIdx ∧
        (∀ w : Word, ¬ w.IsNamedBy chunk) ∧
        Text.IsToldOf chunk text ∧ e = .unrecognizedWord text := by
  simp only [Token.scan, Token.scanFrom_eq_some_iff, Token.ofChunk_empty_eq_ok_iff,
    Token.ofChunk_empty_eq_error_iff]
  constructor
  · rintro ⟨before, chunk, behind, hchunks, htokens, hnone, text, htold, herror⟩
    exact ⟨before, chunk, behind, text, hchunks, htokens, hnone, htold, herror⟩
  · rintro ⟨before, chunk, behind, text, hchunks, htokens, hnone, htold, herror⟩
    exact ⟨before, chunk, behind, hchunks, htokens, hnone, text, htold, herror⟩

/-- Tokens read a row of chunks exactly if each chunk names a word. -/
theorem Token.exists_forall₂_reads_iff (chunks : List String) (position : Nat) :
    (∃ tokens : List Token,
        List.Forall₂ (fun token entry => token.Reads entry.1 entry.2) tokens
          (chunks.zipIdx position)) ↔ ∀ chunk ∈ chunks, ∃ w : Word, w.IsNamedBy chunk := by
  constructor
  · rintro ⟨tokens, htokens⟩ chunk hchunk
    have hwords := (Token.exists_reads_iff _ chunks position).mp ⟨tokens, htokens, rfl⟩
    obtain ⟨w, -, hw⟩ := exists_of_forall₂_left hwords.flip hchunk
    exact ⟨w, hw⟩
  · intro hnamed
    obtain ⟨words, hwords⟩ := exists_forall₂_iff.mpr hnamed
    obtain ⟨tokens, htokens, -⟩ := (Token.exists_reads_iff _ chunks position).mpr hwords.flip
    exact ⟨tokens, htokens⟩

/-- A line without aliases is a row of words exactly if each of its chunks names one. If not, the
    first chunk that names none is told, and the tokens before it have been read. Outside ASCII
    only the Kelvin sign can stand for a letter. -/
theorem tokenize_exact (line : String) :
    (∀ words, tokenize Aliases.empty line = .ok words ↔
      List.Forall₂ Word.IsNamedBy words (Text.chunks line)) ∧
    (∀ tokens, Token.scan Aliases.empty line = (tokens, none) ↔
      List.Forall₂ (fun token entry => token.Reads entry.1 entry.2) tokens
        (Text.chunks line).zipIdx) ∧
    (∀ e, tokenize Aliases.empty line = .error e ↔
      ∃ before chunk behind text, Text.chunks line = before ++ chunk :: behind ∧
        (∀ named ∈ before, ∃ w : Word, w.IsNamedBy named) ∧ (∀ w : Word, ¬ w.IsNamedBy chunk) ∧
        Text.IsToldOf chunk text ∧ e = .unrecognizedWord text) ∧
    (∀ tokens e, Token.scan Aliases.empty line = (tokens, some e) ↔
      ∃ before chunk behind text, Text.chunks line = before ++ chunk :: behind ∧
        List.Forall₂ (fun token entry => token.Reads entry.1 entry.2) tokens before.zipIdx ∧
        (∀ w : Word, ¬ w.IsNamedBy chunk) ∧
        Text.IsToldOf chunk text ∧ e = .unrecognizedWord text) ∧
    ∀ c : Char, 0x80 ≤ c.toNat →
      ((∃ letter : Char, letter.isAlpha ∧
        Text.lower (String.singleton c) = String.singleton letter) ↔ c = '\u212A') := by
  refine ⟨fun words => ?_, Token.scan_empty_eq_none_iff line, fun e => ?_,
    Token.scan_empty_eq_some_iff line, fun c hc => Text.lower_singleton_eq_iff hc⟩
  · simp only [tokenize_eq_ok_iff, Token.scan_empty_eq_none_iff]
    exact Token.exists_reads_iff words (Text.chunks line) 0
  · simp only [tokenize_eq_error_iff, Token.scan_empty_eq_some_iff,
      ← Token.exists_forall₂_reads_iff _ 0]
    constructor
    · rintro ⟨tokens, before, chunk, behind, text, hchunks, htokens, hstop⟩
      exact ⟨before, chunk, behind, text, hchunks, ⟨tokens, htokens⟩, hstop⟩
    · rintro ⟨before, chunk, behind, text, hchunks, ⟨tokens, htokens⟩, hstop⟩
      exact ⟨tokens, before, chunk, behind, text, hchunks, htokens, hstop⟩

/-- A sign of Kelvin stands for a `k` inside a word. The Cyrillic letter at the end of the second
    chunk looks like an `a`, but it is stripped. -/
example : Token.scan Aliases.empty "(PaKala) tokа" =
    ([⟨.pakala, "PaKala", "(PaKala)", 0⟩], some (.unrecognizedWord "tok")) := by
  decide +kernel

end TokiPona
