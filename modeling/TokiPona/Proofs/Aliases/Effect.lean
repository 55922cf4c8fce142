import TokiPona.Proofs.Aliases.Conservative
import TokiPona.Proofs.Token.Chunk

namespace TokiPona

/-- A text that a chunk of a line can have for its core. -/
structure Text.IsUtterable (text : String) : Prop extends Text.HasLetterEnds text where
  solid : ∀ c ∈ text.toList, Text.isBlank c = false

theorem Text.IsUtterable.chunks_eq {text : String} (htext : Text.IsUtterable text) :
    Text.chunks text = [text] := by
  have hne : text.toList ≠ [] := by
    rw [ne_eq, String.toList_eq_nil_iff]
    exact htext.ne_empty
  rw [Text.chunks_eq, Text.chunkChars_of_solid hne htext.solid, List.map_singleton,
    String.ofList_toList]

/-- What the table is asked for when a chunk of a line is read. -/
theorem Text.IsUtterable.lower_core {line chunk core : String} (hchunk : chunk ∈ Text.chunks line)
    (hcore : Text.IsCore chunk core) : Text.IsUtterable (Text.lower core) := by
  obtain ⟨before, behind, heq, -, -, hends⟩ := hcore
  refine ⟨hends.lower, Text.isBlank_of_mem_lower fun c hc => ?_⟩
  refine Text.isBlank_of_mem_chunks hchunk c ?_
  simp [← heq, hc]

namespace Aliases

/-- A table without one of its aliases. -/
def without (aliases : Aliases) (name : LooseText) : Aliases :=
  ⟨aliases.entries.filter (fun e => e.1 != name)⟩

theorem lookup_without_of_ne (aliases : Aliases) {name other : LooseText} (hother : other ≠ name) :
    (aliases.without name).lookup other = aliases.lookup other :=
  Entries.lookup_filter_ne aliases.entries hother

end Aliases

theorem classify_without_of_ne (aliases : Aliases) {name : LooseText} {text : String}
    (htext : ↑(Text.lower text) ≠ name) :
    classify (aliases.without name) text = classify aliases text := by
  have hresolve : (aliases.without name).resolve (Text.lower text) =
      aliases.resolve (Text.lower text) := by
    rw [Aliases.resolve, Aliases.resolve, LooseText.lower_ofString, Text.lower_lower,
      aliases.lookup_without_of_ne htext]
  rw [classify, classify, hresolve]

/-- A chunk is read by the word of its core. -/
theorem Token.ofChunk_congr {aliases aliases' : Aliases} {chunk : String}
    (hcore : ∀ core, Text.IsCore chunk core → classify aliases' core = classify aliases core)
    (position : Nat) :
    Token.ofChunk aliases' position chunk = Token.ofChunk aliases position chunk := by
  by_cases hempty : stripChunk chunk = ""
  · rw [Token.ofChunk_of_empty _ _ hempty, Token.ofChunk_of_empty _ _ hempty]
  · rw [Token.ofChunk_of_ne_empty _ _ hempty, Token.ofChunk_of_ne_empty _ _ hempty,
      hcore _ ((Text.isCore_iff chunk _).mpr ⟨rfl, hempty⟩)]

theorem Token.scanFrom_congr {aliases aliases' : Aliases} {chunks : List String}
    (hchunks : ∀ chunk ∈ chunks, ∀ position,
      Token.ofChunk aliases' position chunk = Token.ofChunk aliases position chunk)
    (position : Nat) :
    Token.scanFrom aliases' position chunks = Token.scanFrom aliases position chunks := by
  induction chunks generalizing position with
  | nil => rfl
  | cons chunk rest ih =>
    obtain ⟨hchunk, hrest⟩ := List.forall_mem_cons.mp hchunks
    rw [Token.scanFrom, Token.scanFrom, hchunk position, ih hrest]

/-- No line asks for an alias that no chunk can have for its core. -/
theorem Token.scan_without (aliases : Aliases) {name : LooseText}
    (hname : ∀ text : String, name = text → ¬ Text.IsUtterable text) (line : String) :
    Token.scan (aliases.without name) line = Token.scan aliases line := by
  refine Token.scanFrom_congr (fun chunk hchunk => Token.ofChunk_congr fun core hcore => ?_) 0
  refine classify_without_of_ne aliases fun hsame => ?_
  exact hname _ hsame.symm (Text.IsUtterable.lower_core hchunk hcore)

theorem tokenize_without (aliases : Aliases) {name : LooseText}
    (hname : ∀ text : String, name = text → ¬ Text.IsUtterable text) (line : String) :
    tokenize (aliases.without name) line = tokenize aliases line := by
  rw [tokenize, tokenize, Token.scan_without aliases hname]

namespace Aliases

end Aliases

end TokiPona
