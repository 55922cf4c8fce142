import Mathlib.Data.List.Forall2
import TokiPona.Line
import TokiPona.Proofs.Split
import TokiPona.Proofs.Text.Chunks
import TokiPona.Proofs.Text.Lower
import TokiPona.Word.Lemmas

namespace TokiPona

/-- No case run meets the lower-case ASCII letters. -/
theorem Text.isLowered_of_isLower {c : Char} (hc : c.isLower) : Text.IsLowered c := by
  have hbounds := (Text.isLower_iff c).mp hc
  have hruns : ∀ run ∈ Text.caseRuns, run.last < 97 ∨ 122 < run.first := by decide +kernel
  refine ⟨by omega, fun run hrun => ?_⟩
  have hout := hruns run hrun
  rw [Text.CaseRun.lower?, if_neg]
  simp only [Bool.and_eq_true, decide_eq_true_eq, not_and]
  omega

theorem Word.isLower_spelling (w : Word) : ∀ c ∈ w.spelling.toList, c.isLower := by
  have hall : Word.all.all (fun w => w.spelling.toList.all Char.isLower) := by decide +kernel
  exact List.all_eq_true.mp (List.all_eq_true.mp hall w (mem_all w))

theorem Word.spelling_ne_empty (w : Word) : w.spelling.toList ≠ [] := by
  have hall : Word.all.all (fun w => !w.spelling.toList.isEmpty) := by decide +kernel
  simpa using List.all_eq_true.mp hall w (mem_all w)

theorem stripChunk_spelling (w : Word) : stripChunk w.spelling = w.spelling := by
  have hends : Text.dropEnds (fun c => !c.isAlpha) w.spelling.toList = w.spelling.toList := by
    apply Text.dropEnds_of_forall
    intro c hc
    simp [Text.isAlpha_of_isLower (w.isLower_spelling c hc)]
  rw [stripChunk, hends, String.ofList_toList]

theorem lower_spelling (w : Word) : Text.lower w.spelling = w.spelling := by
  have hchars : ∀ c ∈ w.spelling.toList, Text.IsLowered c :=
    fun c hc => Text.isLowered_of_isLower (w.isLower_spelling c hc)
  rw [Text.lower, Text.lowerFrom_of_isLowered hchars, String.ofList_toList]

theorem classify_spelling (w : Word) : classify Aliases.empty w.spelling = .ok w := by
  have hnone : Aliases.empty.resolve w.spelling = none := rfl
  simp only [classify, lower_spelling, hnone, Option.none_or, Word.ofSpelling?_spelling]

theorem Token.ofChunk_spelling (position : Nat) (w : Word) :
    Token.ofChunk Aliases.empty position w.spelling =
      .ok ⟨w, w.spelling, w.spelling, position⟩ := by
  have hne : w.spelling.isEmpty = false := by
    simpa [← String.toList_eq_nil_iff] using w.spelling_ne_empty
  simp [Token.ofChunk, stripChunk_spelling, hne, classify_spelling, Except.map]

/-- A scan that reads all chunks has a token for each, in their order. -/
theorem Token.scanFrom_eq_none_iff (aliases : Aliases) (position : Nat) (chunks : List String)
    (tokens : List Token) :
    Token.scanFrom aliases position chunks = (tokens, none) ↔
      List.Forall₂ (fun token entry => Token.ofChunk aliases entry.2 entry.1 = .ok token) tokens
        (chunks.zipIdx position) := by
  induction chunks generalizing position tokens with
  | nil => simp [Token.scanFrom, eq_comm]
  | cons chunk rest ih =>
    rw [Token.scanFrom, List.zipIdx_cons, List.forall₂_cons_right_iff]
    cases Token.ofChunk aliases position chunk with
    | error e => simp
    | ok token =>
      simp only [← ih, Except.ok.injEq, Prod.mk.injEq]
      constructor
      · rintro ⟨rfl, hnone⟩
        exact ⟨token, _, rfl, Prod.ext rfl hnone, rfl⟩
      · rintro ⟨_, later, rfl, hlater, rfl⟩
        rw [hlater]
        exact ⟨rfl, rfl⟩

/-- A scan that stops has tokens for the chunks before the one that it could not read. -/
theorem Token.scanFrom_eq_some_iff (aliases : Aliases) (position : Nat) (chunks : List String)
    (tokens : List Token) (e : ParseError) :
    Token.scanFrom aliases position chunks = (tokens, some e) ↔
      ∃ before chunk behind, chunks = before ++ chunk :: behind ∧
        List.Forall₂ (fun token entry => Token.ofChunk aliases entry.2 entry.1 = .ok token) tokens
          (before.zipIdx position) ∧
        Token.ofChunk aliases (position + before.length) chunk = .error e := by
  induction chunks generalizing position tokens with
  | nil => simp [Token.scanFrom]
  | cons chunk rest ih =>
    rw [Token.scanFrom]
    cases hchunk : Token.ofChunk aliases position chunk with
    | error e' =>
      constructor
      · rintro ⟨⟩
        exact ⟨[], chunk, rest, rfl, .nil, hchunk⟩
      · rintro ⟨before, last, behind, hsplit, htokens, herror⟩
        cases before with
        | nil =>
          cases hsplit
          cases htokens
          cases hchunk.symm.trans herror
          rfl
        | cons first before =>
          cases hsplit
          cases htokens with
          | cons htoken _ => cases hchunk.symm.trans htoken
    | ok token =>
      simp only [Prod.mk.injEq]
      constructor
      · rintro ⟨rfl, hsome⟩
        obtain ⟨before, last, behind, rfl, htokens, herror⟩ :=
          (ih (position + 1) _).mp (Prod.ext rfl hsome)
        refine ⟨chunk :: before, last, behind, rfl, .cons hchunk htokens, ?_⟩
        rwa [List.length_cons, Nat.add_comm before.length, ← Nat.add_assoc]
      · rintro ⟨before, last, behind, hsplit, htokens, herror⟩
        cases before with
        | nil =>
          cases hsplit
          cases hchunk.symm.trans herror
        | cons first before =>
          cases hsplit
          rw [List.zipIdx_cons, List.forall₂_cons_right_iff] at htokens
          obtain ⟨first', later, hfirst, hlater, rfl⟩ := htokens
          cases hchunk.symm.trans hfirst
          rw [List.length_cons, Nat.add_comm before.length, ← Nat.add_assoc] at herror
          rw [(ih (position + 1) later).mpr ⟨before, last, behind, rfl, hlater, herror⟩]
          exact ⟨rfl, rfl⟩

theorem tokenize_eq_ok_iff (aliases : Aliases) (line : String) (words : List Word) :
    tokenize aliases line = .ok words ↔
      ∃ tokens, Token.scan aliases line = (tokens, none) ∧ tokens.map Token.word = words := by
  rw [tokenize]
  split <;> simp [*]

theorem tokenize_eq_error_iff (aliases : Aliases) (line : String) (e : ParseError) :
    tokenize aliases line = .error e ↔ ∃ tokens, Token.scan aliases line = (tokens, some e) := by
  rw [tokenize]
  split <;> simp [*]

/-- Scanning the spellings of words never stops early. -/
theorem Token.scanFrom_spellings (position : Nat) (words : List Word) :
    ∃ tokens, Token.scanFrom Aliases.empty position (words.map Word.spelling) = (tokens, none) ∧
      tokens.map Token.word = words := by
  induction words generalizing position with
  | nil => exact ⟨[], rfl, rfl⟩
  | cons w rest ih =>
    obtain ⟨tokens, hscan, hwords⟩ := ih (position + 1)
    refine ⟨⟨w, w.spelling, w.spelling, position⟩ :: tokens, ?_, ?_⟩
    · rw [List.map_cons, Token.scanFrom, Token.ofChunk_spelling]
      simp only [hscan]
    · rw [List.map_cons, hwords]

/-- A line whose chunks are the spellings of words is read as these words. -/
theorem tokenize_of_chunks {line : String} {words : List Word}
    (hchunks : Text.chunks line = words.map Word.spelling) :
    tokenize Aliases.empty line = .ok words := by
  obtain ⟨tokens, hscan, hwords⟩ := Token.scanFrom_spellings 0 words
  simp only [tokenize, Token.scan, hchunks, hscan, hwords]

/-- A line is read as its words are. -/
theorem parseLine_eq (aliases : Aliases) (line : String) :
    parseLine aliases line = tokenize aliases line >>= Sentence.parse false := by
  have hread : ∀ words, (Sentence.trace false words).result = Sentence.parse false words :=
    fun _ => rfl
  simp [parseLine, traceLine, traceTokens, hread]

theorem tokenize_trim (aliases : Aliases) (line : String) :
    tokenize aliases (Text.trim line) = tokenize aliases line := by
  simp only [tokenize, Token.scan, Text.chunks_trim]

theorem parseLine_trim (aliases : Aliases) (line : String) :
    parseLine aliases (Text.trim line) = parseLine aliases line := by
  rw [parseLine_eq, parseLine_eq, tokenize_trim]

end TokiPona
