import TokiPona.Proofs.Phrase.RoundTrip
import TokiPona.Proofs.Text.Chunks
import TokiPona.Proofs.Token

namespace TokiPona

/-- A blank in place of a bracket, any other character as it is. -/
def Text.unbracketChar (c : Char) : Char := if c == '(' || c == ')' then ' ' else c

/-- A text with a blank in place of every bracket. -/
def Text.unbracket (text : String) : String := text.map Text.unbracketChar

def Text.IsBracket (c : Char) : Prop := c = '(' ∨ c = ')'

theorem Text.unbracketChar_of_isBracket {c : Char} (hc : Text.IsBracket c) :
    Text.unbracketChar c = ' ' := by
  obtain rfl | rfl := hc <;> rfl

theorem Text.unbracketChar_of_isLower {c : Char} (hc : c.isLower) : Text.unbracketChar c = c := by
  have hopen : c ≠ '(' := by
    rintro rfl
    cases hc
  have hclose : c ≠ ')' := by
    rintro rfl
    cases hc
  simp [Text.unbracketChar, hopen, hclose]

theorem Word.map_unbracketChar_letters (w : Word) :
    w.letters.map Text.unbracketChar = w.letters := by
  have hsame : w.letters.map Text.unbracketChar = w.letters.map id := by
    apply List.map_congr_left
    intro c hc
    exact Text.unbracketChar_of_isLower (w.isLower_spelling c hc)
  rw [hsame, List.map_id]

/-- With blanks for brackets, the text has the words as its chunks, and its last chunk ends
    within it. -/
def Reads (text : List Char) (words : List Word) : Prop :=
  ∀ rest : List Char, Text.chunkChars (text.map Text.unbracketChar ++ rest) =
    words.map Word.letters ++ Text.chunkChars rest

theorem Reads.nil : Reads [] [] := fun _ => rfl

theorem Reads.append {text₁ text₂ : List Char} {words₁ words₂ : List Word}
    (h₁ : Reads text₁ words₁) (h₂ : Reads text₂ words₂) :
    Reads (text₁ ++ text₂) (words₁ ++ words₂) := by
  intro rest
  rw [List.map_append, List.append_assoc, h₁, h₂, List.map_append, List.append_assoc]

theorem Reads.flatMap {α : Type} {items : List α} {text : α → List Char}
    {words : α → List Word} (hitems : ∀ a ∈ items, Reads (text a) (words a)) :
    Reads (items.flatMap text) (items.flatMap words) := by
  induction items with
  | nil => exact Reads.nil
  | cons a items ih =>
    obtain ⟨ha, hrest⟩ := List.forall_mem_cons.mp hitems
    exact ha.append (ih hrest)

theorem Reads.bracket {c : Char} (hc : Text.IsBracket c) {text : List Char} {words : List Word}
    (htext : Reads text words) : Reads (c :: text) words := by
  intro rest
  rw [List.map_cons, Text.unbracketChar_of_isBracket hc, List.cons_append,
    Text.chunkChars_cons (by decide), htext]

theorem Reads.brackets {c : Char} (hc : Text.IsBracket c) (n : Nat) :
    Reads (List.replicate n c) [] := by
  induction n with
  | zero => exact Reads.nil
  | succ n ih => exact ih.bracket hc

/-- A word is a chunk if a bracket stands behind it. -/
theorem Reads.word (w : Word) {c : Char} (hc : Text.IsBracket c) {text : List Char}
    {words : List Word} (htext : Reads (c :: text) words) :
    Reads (w.letters ++ c :: text) (w :: words) := by
  intro rest
  have hne : w.letters ≠ [] := w.spelling_ne_empty
  have hsolid : ∀ c ∈ w.letters, Text.isBlank c = false := fun c hc =>
    Text.isBlank_of_isAlpha (Text.isAlpha_of_isLower (w.isLower_spelling c hc))
  have hchunks := htext rest
  rw [List.map_cons, Text.unbracketChar_of_isBracket hc, List.cons_append] at hchunks
  rw [List.map_append, w.map_unbracketChar_letters, List.map_cons,
    Text.unbracketChar_of_isBracket hc, List.append_assoc, List.cons_append,
    Text.chunkChars_solid_append hne hsolid (by decide), hchunks]
  rfl

/-- The text starts with a bracket, so that a word may stand right before it. -/
def Text.Opens (text : List Char) : Prop := ∃ behind, text = '(' :: behind

theorem Reads.behind (w : Word) {text : List Char} {words : List Word} (hopens : Text.Opens text)
    (htext : Reads text words) : Reads (w.letters ++ text) (w :: words) := by
  obtain ⟨behind, rfl⟩ := hopens
  exact Reads.word w (.inl rfl) htext

theorem Text.Opens.append {text : List Char} (hopens : Text.Opens text) (behind : List Char) :
    Text.Opens (text ++ behind) := by
  obtain ⟨rest, rfl⟩ := hopens
  exact ⟨rest ++ behind, rfl⟩

theorem Group.opens (g : Group) : Text.Opens g.bracketed := by
  cases g with
  | flat head modifiers =>
    cases modifiers with
    | nil => exact ⟨_, rfl⟩
    | cons w modifiers => exact ⟨_, rfl⟩
  | pi head modifiers of => exact ⟨_, rfl⟩

theorem Group.reads_closing (modifiers : List Word) :
    Reads (Group.closing modifiers) modifiers := by
  have hclosed : ∀ w ∈ modifiers, Reads (w.letters ++ [')']) [w] := fun w _ =>
    Reads.word w (.inr rfl) (Reads.nil.bracket (.inr rfl))
  simpa [Group.closing] using Reads.flatMap hclosed

theorem Group.reads_flat (head : Word) (modifiers : List Word) :
    Reads (Group.flat head modifiers).bracketed (head :: modifiers) := by
  have hhead : Reads ('(' :: head.letters ++ ')' :: Group.closing modifiers) (head :: modifiers) :=
    (Reads.word head (.inr rfl) ((Group.reads_closing modifiers).bracket (.inr rfl))).bracket
      (.inl rfl)
  simpa [Group.bracketed, Group.opening] using
    (Reads.brackets (.inl rfl) modifiers.length).append hhead

theorem Group.reads (g : Group) : Reads g.bracketed g.words := by
  induction g with
  | flat head modifiers => exact Group.reads_flat head modifiers
  | pi head modifiers of ih =>
    have hof : Reads (Word.pi.letters ++ of.bracketed ++ [')']) (.pi :: of.words) := by
      simpa using (ih.behind .pi of.opens).append (Reads.nil.bracket (.inr rfl))
    have hwhole := (Group.reads_flat head modifiers).append hof
    simpa [Group.bracketed, Group.words] using hwhole.bracket (.inl rfl)

theorem Group.reads_behind (w : Word) (g : Group) :
    Reads (w.letters ++ g.bracketed) (w :: g.words) :=
  g.reads.behind w g.opens

theorem VerbPhrase.opens (v : VerbPhrase) : Text.Opens v.bracketed := by
  obtain ⟨preverbs, verb⟩ := v
  cases preverbs with
  | nil => exact verb.opens.append _
  | cons w preverbs => exact ⟨_, rfl⟩

/-- Preverbs each have the bracket of the next one, or that of the verb, behind them. -/
theorem VerbPhrase.reads_preverbs (preverbs : List Word) (verb : Group) :
    Reads (preverbs.flatMap (fun w => '(' :: w.letters) ++ verb.bracketed)
      (preverbs ++ verb.words) := by
  induction preverbs with
  | nil => exact verb.reads
  | cons w preverbs ih =>
    have hopens : Text.Opens (preverbs.flatMap (fun w => '(' :: w.letters) ++ verb.bracketed) := by
      cases preverbs with
      | nil => exact verb.opens
      | cons next preverbs => exact ⟨_, rfl⟩
    simpa using (ih.behind w hopens).bracket (.inl rfl)

theorem VerbPhrase.reads (v : VerbPhrase) : Reads v.bracketed v.words := by
  have hclosed := (VerbPhrase.reads_preverbs v.preverbs v.verb).append
    (Reads.brackets (.inr rfl) v.preverbs.length)
  simpa [VerbPhrase.bracketed, VerbPhrase.words] using hclosed

theorem Preposition.reads (p : Preposition) : Reads p.bracketed p.words :=
  Group.reads_behind p.preposition p.noun

theorem Predicate.reads (p : Predicate) : Reads p.bracketed p.words := by
  have hverb := p.verb.reads.behind p.marker p.verb.opens
  have hobjects : Reads (p.objects.flatMap (fun g => Word.e.letters ++ g.bracketed))
      (p.objects.flatMap (fun g => .e :: g.words)) :=
    Reads.flatMap (fun g _ => g.reads_behind .e)
  have hprepositions : Reads (p.prepositions.flatMap Preposition.bracketed)
      (p.prepositions.flatMap Preposition.words) :=
    Reads.flatMap (fun q _ => q.reads)
  exact (hverb.append hobjects).append hprepositions

/-- All subjects but the first stand behind an `en`. -/
theorem Clause.bracketed_cons (g : Group) (groups : List Group) (predicates : List Predicate) :
    (⟨g :: groups, predicates⟩ : Clause).bracketed =
      g.bracketed ++ groups.flatMap (fun g => Word.en.letters ++ g.bracketed) ++
        predicates.flatMap Predicate.bracketed := by
  rw [Clause.bracketed, List.map_cons, intercalate_cons_eq_append, List.flatMap_map]

theorem Clause.opens {c : Clause} (hsubjects : c.subjects ≠ []) : Text.Opens c.bracketed := by
  obtain ⟨subjects, predicates⟩ := c
  obtain ⟨g, groups, rfl⟩ := List.exists_cons_of_ne_nil hsubjects
  rw [Clause.bracketed_cons, List.append_assoc]
  exact g.opens.append _

theorem Sentence.opens {s : Sentence} (hs : s.PartsWellFormed) : Text.Opens s.bracketed := by
  cases s with
  | plain c =>
    have hc : c.WellFormed := hs
    exact Clause.opens hc.nonempty
  | afterPhrase g c =>
    rw [Sentence.bracketed, List.append_assoc]
    exact g.opens.append _
  | afterSentence s c => exact ⟨_, rfl⟩

theorem Clause.reads {c : Clause} (hsubjects : c.subjects ≠ []) : Reads c.bracketed c.words := by
  obtain ⟨subjects, predicates⟩ := c
  obtain ⟨g, groups, rfl⟩ := List.exists_cons_of_ne_nil hsubjects
  have hgroups : Reads (groups.flatMap (fun g => Word.en.letters ++ g.bracketed))
      (groups.flatMap (fun g => .en :: g.words)) :=
    Reads.flatMap (fun g _ => g.reads_behind .en)
  have hpredicates : Reads (predicates.flatMap Predicate.bracketed)
      (predicates.flatMap Predicate.words) :=
    Reads.flatMap (fun p _ => p.reads)
  rw [Clause.bracketed_cons, Clause.words, Group.joined_cons]
  exact (g.reads.append hgroups).append hpredicates

theorem Sentence.reads {s : Sentence} (hs : s.PartsWellFormed) : Reads s.bracketed s.words := by
  induction s with
  | plain c =>
    have hc : c.WellFormed := hs
    exact Clause.reads hc.nonempty
  | afterPhrase g c =>
    obtain ⟨-, hc⟩ := hs
    have hclause := (Clause.reads hc.nonempty).behind .la (Clause.opens hc.nonempty)
    simpa [Sentence.bracketed, Sentence.words] using g.reads.append hclause
  | afterSentence s c ih =>
    obtain ⟨⟨hparts, -⟩, hc⟩ := hs
    have hclause := (Clause.reads hc.nonempty).behind .la (Clause.opens hc.nonempty)
    have hcontext := (ih hparts).append (hclause.bracket (.inr rfl))
    simpa [Sentence.bracketed, Sentence.words] using hcontext.bracket (.inl rfl)

theorem Sentence.chunks_unbracket_canonical {s : Sentence} (hs : s.PartsWellFormed) :
    Text.chunks (Text.unbracket s.canonical) = s.words.map Word.spelling := by
  have hchunks := Sentence.reads hs []
  rw [List.append_nil, Text.chunkChars_nil, List.append_nil] at hchunks
  rw [Text.chunks_eq, Text.unbracket, String.toList_map, Sentence.canonical, String.toList_ofList,
    hchunks, List.map_map]
  apply List.map_congr_left
  intro w _
  exact String.ofList_toList

theorem Sentence.partsWellFormed_of_parseLine {aliases : Aliases} {line : String} {s : Sentence}
    (hparse : parseLine aliases line = .ok s) : s.PartsWellFormed := by
  rw [parseLine_eq, bind_eq_ok_iff] at hparse
  obtain ⟨words, -, hwords⟩ := hparse
  exact ((Sentence.parse_eq_ok_iff false words s).mp hwords).2.1.parts

/-- The canonical form of a sentence that is read, with blanks for its brackets, is read as the
    same sentence again and needs no aliases for it. -/
theorem parseLine_unbracket_canonical (aliases : Aliases) (line : String) (s : Sentence)
    (hparse : parseLine aliases line = .ok s) :
    parseLine Aliases.empty (Text.unbracket s.canonical) = .ok s := by
  rw [parseLine_eq, bind_eq_ok_iff] at hparse
  obtain ⟨words, -, hwords⟩ := hparse
  obtain ⟨-, hs, hsettled⟩ := (Sentence.parse_eq_ok_iff false words s).mp hwords
  have htokens := tokenize_of_chunks (Sentence.chunks_unbracket_canonical hs.parts)
  rw [parseLine_eq, htokens, ok_bind, Sentence.parse_words hs hsettled]

/-- A line with capitals, marks, an alias and a `sina` left out. -/
theorem parseLine_unbracket_canonical_of_alias :
    let aliases : Aliases := ⟨[("fren", .jan)]⟩
    let line := "Fren pona li wile moku la, o tawa tomo pi fren sina!"
    let s : Sentence := .afterSentence
      (.plain ⟨[.flat .jan [.pona]], [⟨false, ⟨[.wile], .flat .moku []⟩, [], []⟩]⟩)
      ⟨[.flat .sina []], [⟨true, ⟨[], .pi .tawa [.tomo] (.flat .jan [.sina])⟩, [], []⟩]⟩
    parseLine aliases line = .ok s ∧
      parseLine Aliases.empty (Text.unbracket s.canonical) = .ok s := by
  intro aliases line s
  have hparse : parseLine aliases line = .ok s := by decide +kernel
  exact ⟨hparse, parseLine_unbracket_canonical aliases line s hparse⟩

end TokiPona
