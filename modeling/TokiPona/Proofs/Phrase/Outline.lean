import TokiPona.Proofs.Renderer
import TokiPona.Proofs.Text.Cut
import TokiPona.Proofs.Text.Plain

/-!
An outline tells what was outlined.

The text of an outline can be read line by line (`readOutline?_outlineText`), as no label has a
line break in it and the blanks in front of a label give its depth. If two outlines at the same
depth begin the same lines, then they are of the same tree and the same lines stand behind them
(`Outlined`). All parts of a node stand deeper than the node, so it ends where a line is not
deeper, and a list of parts ends where a label of another kind follows.
-/

namespace TokiPona

section Reading

/-- The label with this first word, and with this text behind it. -/
def OutlineLabel.ofParts? (keyword argument : String) : Option OutlineLabel :=
  match keyword with
  | "sentence" => some .sentence
  | "context" => some .context
  | "subject" => some .subject
  | "group" => (Word.ofSpelling? argument).map .group
  | "modifiers:" => ((Text.chunks argument).mapM Word.ofSpelling?).map .modifiers
  | "pi" => some .pi
  | "predicate" => (Word.ofSpelling? argument).map fun w => .predicate (w == .o)
  | "verb" => some .verb
  | "preverb" => (Word.ofSpelling? argument).map .preverb
  | "object" => some .object
  | "preposition" => (Word.ofSpelling? argument).map .preposition
  | _ => none

def OutlineLabel.read? (text : List Char) : Option OutlineLabel :=
  ofParts? (String.ofList (text.takeWhile (· != ' ')))
    (String.ofList ((text.dropWhile (· != ' ')).drop 1))

/-- The line that a text is: the blanks in front of its label tell its depth. -/
def OutlineLine.read? (text : String) : Option OutlineLine :=
  let blanks := text.toList.takeWhile (· == ' ')
  (OutlineLabel.read? (text.toList.dropWhile (· == ' '))).map (⟨blanks.length / 2, ·⟩)

/-- The lines of an outline. -/
def readOutline? (text : String) : Option (List OutlineLine) :=
  (Text.lines text).mapM OutlineLine.read?

/-- The first blank ends the first word. -/
theorem OutlineLabel.read?_append (keyword : String)
    (hkeyword : ' ' ∉ keyword.toList) (argument : String) :
    read? (keyword ++ " " ++ argument).toList = ofParts? keyword argument := by
  have hall := Text.bne_of_not_mem hkeyword
  have htext : (keyword ++ " " ++ argument).toList = keyword.toList ++ ' ' :: argument.toList := by
    simp only [String.toList_append, List.append_assoc]
    rfl
  have htake : (' ' :: argument.toList).takeWhile (· != ' ') = [] := rfl
  have hdrop : ((' ' :: argument.toList).dropWhile (· != ' ')).drop 1 = argument.toList := rfl
  rw [read?, htext, List.takeWhile_append_of_pos hall, List.dropWhile_append_of_pos hall,
    htake, hdrop, List.append_nil, String.ofList_toList, String.ofList_toList]

/-- What can be read one by one can be read all together. -/
theorem mapM_map_eq_some {α β : Type} {read? : β → Option α} {write : α → β}
    (hread : ∀ a, read? (write a) = some a) (items : List α) :
    (items.map write).mapM read? = some items := by
  induction items with
  | nil => rfl
  | cons a items ih => simp [hread, ih]

theorem OutlineLabel.read?_text (label : OutlineLabel) : read? label.text.toList = some label := by
  cases label with
  | group head =>
    have hread := read?_append "group" (by decide) head.spelling
    exact hread.trans (by simp only [ofParts?, Word.ofSpelling?_spelling, Option.map_some])
  | modifiers words =>
    have hread := read?_append "modifiers:" (by decide) (spell words)
    exact hread.trans (by simp only [ofParts?, chunks_spell,
      mapM_map_eq_some Word.ofSpelling?_spelling, Option.map_some])
  | preverb w =>
    have hread := read?_append "preverb" (by decide) w.spelling
    exact hread.trans (by simp only [ofParts?, Word.ofSpelling?_spelling, Option.map_some])
  | preposition w =>
    have hread := read?_append "preposition" (by decide) w.spelling
    exact hread.trans (by simp only [ofParts?, Word.ofSpelling?_spelling, Option.map_some])
  | predicate imperative => cases imperative <;> decide +kernel
  | sentence => decide +kernel
  | context => decide +kernel
  | subject => decide +kernel
  | pi => decide +kernel
  | verb => decide +kernel
  | object => decide +kernel

theorem OutlineLabel.plain_text (label : OutlineLabel) : Text.Plain label.text.toList := by
  have happend (keyword : String) {argument : String} (hkeyword : Text.Plain keyword.toList)
      (hargument : Text.Plain argument.toList) : Text.Plain (keyword ++ argument).toList := by
    rw [String.toList_append]
    exact Text.plain_append.mpr ⟨hkeyword, hargument⟩
  cases label with
  | group head => exact happend "group " (by decide) head.plain_spelling
  | modifiers words => exact happend "modifiers: " (by decide) (plain_spell words)
  | preverb w => exact happend "preverb " (by decide) w.plain_spelling
  | preposition w => exact happend "preposition " (by decide) w.plain_spelling
  | predicate imperative => cases imperative <;> decide +kernel
  | sentence => decide
  | context => decide
  | subject => decide
  | pi => decide
  | verb => decide
  | object => decide

theorem OutlineLabel.head?_text (label : OutlineLabel) :
    ∃ c, label.text.toList.head? = some c ∧ c ≠ ' ' := by
  have happend (keyword argument : String) {c : Char} (hkeyword : keyword.toList.head? = some c)
      (hc : c ≠ ' ') : ∃ c, (keyword ++ argument).toList.head? = some c ∧ c ≠ ' ' := by
    rw [String.toList_append, List.head?_append, hkeyword]
    exact ⟨c, rfl, hc⟩
  cases label with
  | group head => exact happend "group " _ rfl (by decide)
  | modifiers words => exact happend "modifiers: " _ rfl (by decide)
  | preverb w => exact happend "preverb " _ rfl (by decide)
  | preposition w => exact happend "preposition " _ rfl (by decide)
  | predicate imperative => exact happend "predicate " _ rfl (by decide)
  | sentence => exact ⟨_, rfl, by decide⟩
  | context => exact ⟨_, rfl, by decide⟩
  | subject => exact ⟨_, rfl, by decide⟩
  | pi => exact ⟨_, rfl, by decide⟩
  | verb => exact ⟨_, rfl, by decide⟩
  | object => exact ⟨_, rfl, by decide⟩

theorem OutlineLine.toList_text (line : OutlineLine) :
    line.text.toList = List.replicate (2 * line.depth) ' ' ++ line.label.text.toList := by
  rw [text, String.toList_append, String.toList_ofList]

theorem OutlineLine.read?_text (line : OutlineLine) : read? line.text = some line := by
  obtain ⟨c, hhead, hc⟩ := line.label.head?_text
  obtain ⟨rest, hlabel⟩ : ∃ rest, line.label.text.toList = c :: rest :=
    List.head?_eq_some_iff.mp hhead
  have hblanks : ∀ c ∈ List.replicate (2 * line.depth) ' ', (c == ' ') = true := by
    intro c hc
    rw [List.eq_of_mem_replicate hc]
    rfl
  have hfirst : (c == ' ') = false := beq_eq_false_iff_ne.mpr hc
  rw [read?, toList_text, List.takeWhile_append_of_pos hblanks,
    List.dropWhile_append_of_pos hblanks, hlabel, List.takeWhile_cons, List.dropWhile_cons]
  simp only [hfirst, Bool.false_eq_true, if_false, List.append_nil, List.length_replicate,
    Nat.mul_div_cancel_left line.depth Nat.two_pos]
  rw [← hlabel, OutlineLabel.read?_text]
  rfl

theorem OutlineLine.isLine_text (line : OutlineLine) : Text.IsLine line.text := by
  have hblanks : Text.Plain (List.replicate (2 * line.depth) ' ') := by
    intro c hc
    rw [List.eq_of_mem_replicate hc]
    decide
  rw [Text.IsLine, toList_text]
  exact (Text.plain_append.mpr ⟨hblanks, line.label.plain_text⟩).isLineBreak

theorem OutlineLine.text_ne_empty (line : OutlineLine) : line.text ≠ "" := by
  intro hempty
  have hread := line.read?_text
  rw [hempty] at hread
  cases hread

/-- All lines of an outline can be read from its text. -/
theorem readOutline?_outlineText (lines : List OutlineLine) :
    readOutline? (outlineText lines) = some lines := by
  have hlines : Text.lines (outlineText lines) = lines.map OutlineLine.text := by
    refine Text.lines_intercalate ?_ ?_
    · exact List.forall_mem_map.mpr fun line _ => line.isLine_text
    · exact List.forall_mem_map.mpr fun line _ => line.text_ne_empty
  rw [readOutline?, hlines]
  exact mapM_map_eq_some OutlineLine.read?_text lines

end Reading

section Trees

/-- What a line of an outline is about, apart from its words. -/
inductive OutlineKind where
  | sentence | context | subject | group | modifiers | pi | predicate | verb | preverb | object
  | preposition
  deriving DecidableEq

def OutlineLabel.kind : OutlineLabel → OutlineKind
  | .sentence => .sentence
  | .context => .context
  | .subject => .subject
  | .group _ => .group
  | .modifiers _ => .modifiers
  | .pi => .pi
  | .predicate _ => .predicate
  | .verb => .verb
  | .preverb _ => .preverb
  | .object => .object
  | .preposition _ => .preposition

/-- The lines behind a node are not among its parts: the first of them is not deeper. -/
def Ends (depth : Nat) (rest : List OutlineLine) : Prop :=
  ∀ line ∈ rest.head?, line.depth ≤ depth

/-- The lines behind a list of parts at some depth: the first of them is less deep, or a part of
    one of the given kinds. -/
def Follows (depth : Nat) (kinds : List OutlineKind) (rest : List OutlineLine) : Prop :=
  ∀ line ∈ rest.head?, line.depth < depth ∨ line.depth = depth ∧ line.label.kind ∈ kinds

variable {depth : Nat} {kind : OutlineKind} {kinds : List OutlineKind}
  {rest rest' : List OutlineLine}

theorem Ends.deeper (hrest : Ends depth rest) {depth' : Nat} (hdepth : depth ≤ depth') :
    Ends depth' rest :=
  fun line hline => (hrest line hline).trans hdepth

theorem Ends.follows (hrest : Ends depth rest) : Follows (depth + 1) kinds rest :=
  fun line hline => Or.inl (Nat.lt_succ_of_le (hrest line hline))

theorem Follows.nil : Follows depth kinds [] := by
  intro line hline
  cases hline

theorem Follows.cons {label : OutlineLabel} (hlabel : label.kind ∈ kinds) :
    Follows depth kinds (⟨depth, label⟩ :: rest) := by
  rintro line ⟨⟩
  exact Or.inr ⟨rfl, hlabel⟩

theorem Follows.ends (hrest : Follows depth kinds rest) : Ends depth rest := by
  intro line hline
  rcases hrest line hline with hless | ⟨hsame, -⟩
  · exact hless.le
  · exact hsame.le

theorem Follows.kind_mem {label : OutlineLabel}
    (hrest : Follows depth kinds (⟨depth, label⟩ :: rest)) : label.kind ∈ kinds := by
  rcases hrest _ rfl with hless | ⟨-, hlabel⟩
  · exact absurd hless (Nat.lt_irrefl depth)
  · exact hlabel

variable {α : Type}

/-- Parts at one depth, each with a line of the given kind in front, that are told from what stands
    behind them. -/
structure Outlined (item : α → List OutlineLine) (depth : Nat) (kind : OutlineKind) : Prop where
  lead : ∀ a, ∃ label parts, label.kind = kind ∧ item a = ⟨depth, label⟩ :: parts
  append_inj : ∀ {a b : α} {rest rest' : List OutlineLine}, Ends depth rest → Ends depth rest' →
    item a ++ rest = item b ++ rest' → a = b ∧ rest = rest'

namespace Outlined

variable {item : α → List OutlineLine}

theorem follows_append (hitem : Outlined item depth kind) (a : α) (rest : List OutlineLine) :
    Follows depth [kind] (item a ++ rest) := by
  obtain ⟨label, parts, hlabel, ha⟩ := hitem.lead a
  rw [ha]
  exact .cons (List.mem_singleton.mpr hlabel)

theorem follows (hitem : Outlined item depth kind) (items : List α)
    (hrest : Follows depth kinds rest) :
    Follows depth (kind :: kinds) (items.flatMap item ++ rest) := by
  cases items with
  | nil =>
    intro line hline
    exact (hrest line hline).imp_right fun ⟨hdepth, hmem⟩ =>
      ⟨hdepth, List.mem_cons_of_mem kind hmem⟩
  | cons a items =>
    obtain ⟨label, parts, hlabel, ha⟩ := hitem.lead a
    rw [List.flatMap_cons, ha]
    exact .cons (hlabel ▸ List.mem_cons_self)

theorem ne_append (hitem : Outlined item depth kind) (hapart : kind ∉ kinds)
    (hrest : Follows depth kinds rest) (a : α) (behind : List OutlineLine) :
    rest ≠ item a ++ behind := by
  rintro rfl
  obtain ⟨label, parts, rfl, ha⟩ := hitem.lead a
  rw [ha, List.cons_append] at hrest
  exact hapart hrest.kind_mem

/-- A list of parts ends where a line of another kind follows. -/
theorem flatMap_append_inj (hitem : Outlined item depth kind) (hapart : kind ∉ kinds)
    (hrest : Follows depth kinds rest) (hrest' : Follows depth kinds rest') {items items' : List α}
    (heq : items.flatMap item ++ rest = items'.flatMap item ++ rest') :
    items = items' ∧ rest = rest' := by
  induction items generalizing items' with
  | nil =>
    cases items' with
    | nil => exact ⟨rfl, heq⟩
    | cons b items' =>
      rw [List.flatMap_cons, List.append_assoc] at heq
      exact absurd heq (hitem.ne_append hapart hrest b _)
  | cons a items ih =>
    cases items' with
    | nil =>
      rw [List.flatMap_cons, List.append_assoc] at heq
      exact absurd heq.symm (hitem.ne_append hapart hrest' a _)
    | cons b items' =>
      rw [List.flatMap_cons, List.flatMap_cons, List.append_assoc, List.append_assoc] at heq
      obtain ⟨rfl, hlater⟩ := hitem.append_inj (hitem.follows items hrest).ends
        (hitem.follows items' hrest').ends heq
      obtain ⟨rfl, hrests⟩ := ih hlater
      exact ⟨rfl, hrests⟩

/-- Parts below a line of their own. -/
theorem nested (hitem : Outlined item (depth + 1) kind) (label : OutlineLabel) :
    Outlined (fun a => ⟨depth, label⟩ :: item a) depth label.kind where
  lead := fun a => ⟨label, item a, rfl, rfl⟩
  append_inj := by
    intro a b rest rest' hrest hrest' heq
    exact hitem.append_inj (hrest.deeper (Nat.le_succ depth)) (hrest'.deeper (Nat.le_succ depth))
      (List.cons.inj heq).2

end Outlined

/-- A group up to its `pi`. -/
theorem Group.outline_front_inj {head head' : Word} {modifiers modifiers' : List Word}
    (hrest : Follows (depth + 1) [.pi] rest) (hrest' : Follows (depth + 1) [.pi] rest')
    (heq : ⟨depth, .group head⟩ :: modifiersOutline (depth + 1) modifiers ++ rest =
      ⟨depth, .group head'⟩ :: modifiersOutline (depth + 1) modifiers' ++ rest') :
    head = head' ∧ modifiers = modifiers' ∧ rest = rest' := by
  obtain ⟨hline, hbehind⟩ := List.cons.inj heq
  obtain rfl : head = head' := by
    cases hline
    rfl
  cases modifiers with
  | nil =>
    cases modifiers' with
    | nil => exact ⟨rfl, rfl, hbehind⟩
    | cons w words =>
      obtain rfl : rest = _ := hbehind
      cases List.mem_singleton.mp hrest.kind_mem
  | cons w words =>
    cases modifiers' with
    | nil =>
      obtain rfl : _ = rest' := hbehind
      cases List.mem_singleton.mp hrest'.kind_mem
    | cons w' words' =>
      cases hbehind
      exact ⟨rfl, rfl, rfl⟩

/-- A `pi` one level deeper belongs to the group. -/
theorem Ends.ne_pi (hrest : Ends depth rest) (behind : List OutlineLine) :
    rest ≠ ⟨depth + 1, .pi⟩ :: behind := by
  rintro rfl
  exact Nat.not_succ_le_self depth (hrest _ rfl)

theorem Group.outline_append_inj {g g' : Group} (hrest : Ends depth rest)
    (hrest' : Ends depth rest') (heq : g.outline depth ++ rest = g'.outline depth ++ rest') :
    g = g' ∧ rest = rest' := by
  have hpi : OutlineLabel.pi.kind ∈ [OutlineKind.pi] := List.mem_singleton_self _
  induction g generalizing g' depth with
  | flat head modifiers =>
    cases g' with
    | flat head' modifiers' =>
      obtain ⟨rfl, rfl, hrests⟩ := outline_front_inj hrest.follows hrest'.follows heq
      exact ⟨rfl, hrests⟩
    | pi head' modifiers' of' =>
      rw [outline, outline, List.append_assoc] at heq
      obtain ⟨-, -, hbehind⟩ := outline_front_inj hrest.follows (.cons hpi) heq
      exact absurd hbehind (hrest.ne_pi _)
  | pi head modifiers of ih =>
    rw [outline, List.append_assoc] at heq
    cases g' with
    | flat head' modifiers' =>
      obtain ⟨-, -, hbehind⟩ := outline_front_inj (.cons hpi) hrest'.follows heq
      exact absurd hbehind.symm (hrest'.ne_pi _)
    | pi head' modifiers' of' =>
      rw [outline, List.append_assoc] at heq
      obtain ⟨rfl, rfl, hbehind⟩ := outline_front_inj (.cons hpi) (.cons hpi) heq
      obtain ⟨rfl, hrests⟩ := ih (hrest.deeper (Nat.le_add_right depth 2))
        (hrest'.deeper (Nat.le_add_right depth 2)) (List.cons.inj hbehind).2
      exact ⟨rfl, hrests⟩

theorem Group.outlined (depth : Nat) : Outlined (Group.outline depth) depth .group where
  lead := by
    intro g
    cases g <;> exact ⟨_, _, rfl, rfl⟩
  append_inj := outline_append_inj

theorem Word.outlined_preverb (depth : Nat) :
    Outlined (fun w : Word => [⟨depth, .preverb w⟩]) depth .preverb where
  lead := fun w => ⟨.preverb w, [], rfl, rfl⟩
  append_inj := by
    intro w w' rest rest' _ _ heq
    cases heq
    exact ⟨rfl, rfl⟩

theorem VerbPhrase.outlined (depth : Nat) : Outlined (VerbPhrase.outline depth) depth .verb where
  lead := fun v => ⟨.verb, _, rfl, rfl⟩
  append_inj := by
    rintro ⟨preverbs, verb⟩ ⟨preverbs', verb'⟩ rest rest' hrest hrest' heq
    simp only [VerbPhrase.outline, List.map_eq_flatMap, List.cons_append, List.append_assoc,
      List.cons.injEq, true_and] at heq
    obtain ⟨rfl, hverb⟩ := (Word.outlined_preverb (depth + 1)).flatMap_append_inj (by decide)
      ((Group.outlined (depth + 1)).follows_append verb rest)
      ((Group.outlined (depth + 1)).follows_append verb' rest') heq
    obtain ⟨rfl, hrests⟩ := Group.outline_append_inj (hrest.deeper (Nat.le_succ depth))
      (hrest'.deeper (Nat.le_succ depth)) hverb
    exact ⟨rfl, hrests⟩

theorem Preposition.outlined (depth : Nat) :
    Outlined (Preposition.outline depth) depth .preposition where
  lead := fun p => ⟨.preposition p.preposition, _, rfl, rfl⟩
  append_inj := by
    rintro ⟨w, g⟩ ⟨w', g'⟩ rest rest' hrest hrest' heq
    obtain ⟨hline, hnoun⟩ := List.cons.inj heq
    obtain ⟨rfl, hrests⟩ := Group.outline_append_inj (hrest.deeper (Nat.le_succ depth))
      (hrest'.deeper (Nat.le_succ depth)) hnoun
    cases hline
    exact ⟨rfl, hrests⟩

theorem Predicate.outlined (depth : Nat) :
    Outlined (Predicate.outline depth) depth .predicate where
  lead := fun p => ⟨.predicate p.imperative, _, rfl, rfl⟩
  append_inj := by
    rintro ⟨imperative, verb, objects, prepositions⟩ ⟨imperative', verb', objects', prepositions'⟩
      rest rest' hrest hrest' heq
    simp only [Predicate.outline, List.cons_append, List.append_assoc] at heq
    obtain ⟨hline, hverb⟩ := List.cons.inj heq
    have hobject := (Group.outlined (depth + 2)).nested .object
    have hpreposition := Preposition.outlined (depth + 1)
    have hend : Follows (depth + 1) [] rest := hrest.follows
    have hend' : Follows (depth + 1) [] rest' := hrest'.follows
    have hbehind := hpreposition.follows prepositions hend
    have hbehind' := hpreposition.follows prepositions' hend'
    obtain ⟨rfl, hobjects⟩ := (VerbPhrase.outlined (depth + 1)).append_inj
      (hobject.follows objects hbehind).ends (hobject.follows objects' hbehind').ends hverb
    obtain ⟨rfl, hprepositions⟩ :=
      hobject.flatMap_append_inj (by decide) hbehind hbehind' hobjects
    obtain ⟨rfl, hrests⟩ := hpreposition.flatMap_append_inj (by decide) hend hend' hprepositions
    cases hline
    exact ⟨rfl, hrests⟩

theorem Clause.outline_follows (c : Clause) (hrest : Follows depth [] rest) :
    Follows depth [.subject, .predicate] (c.outline depth ++ rest) := by
  rw [Clause.outline, List.append_assoc]
  exact ((Group.outlined (depth + 1)).nested .subject).follows c.subjects
    ((Predicate.outlined depth).follows c.predicates hrest)

theorem Clause.outline_append_inj {c c' : Clause} (hrest : Follows depth [] rest)
    (hrest' : Follows depth [] rest') (heq : c.outline depth ++ rest = c'.outline depth ++ rest') :
    c = c' ∧ rest = rest' := by
  obtain ⟨subjects, predicates⟩ := c
  obtain ⟨subjects', predicates'⟩ := c'
  simp only [Clause.outline, List.append_assoc] at heq
  have hpredicate := Predicate.outlined depth
  obtain ⟨rfl, hparts⟩ := ((Group.outlined (depth + 1)).nested .subject).flatMap_append_inj
    (by decide) (hpredicate.follows predicates hrest) (hpredicate.follows predicates' hrest') heq
  obtain ⟨rfl, hrests⟩ := hpredicate.flatMap_append_inj (by decide) hrest hrest' hparts
  exact ⟨rfl, hrests⟩

/-- No context stands in front of a clause unless it is written there. -/
theorem Clause.outline_ne_context (c : Clause) (hrest : Follows depth [] rest)
    (behind : List OutlineLine) : c.outline depth ++ rest ≠ ⟨depth, .context⟩ :: behind := by
  intro heq
  have hfollows := c.outline_follows hrest
  rw [heq] at hfollows
  exact absurd hfollows.kind_mem (by decide)

theorem Sentence.outline_ne_group (s : Sentence) (g : Group) (rest rest' : List OutlineLine) :
    s.outline depth ++ rest ≠ g.outline depth ++ rest' := by
  cases s <;> cases g <;> simp [Sentence.outline, Group.outline]

theorem Sentence.outline_append_inj {s s' : Sentence} (hrest : Ends depth rest)
    (hrest' : Ends depth rest') (heq : s.outline depth ++ rest = s'.outline depth ++ rest') :
    s = s' ∧ rest = rest' := by
  have hclause (c : Clause) {depth : Nat} {rest : List OutlineLine} (hrest : Ends depth rest) :
      Ends (depth + 2) (c.outline (depth + 1) ++ rest) :=
    (c.outline_follows hrest.follows).ends.deeper (Nat.le_succ _)
  induction s generalizing s' depth rest rest' with
  | plain c =>
    cases s' with
    | plain c' =>
      obtain ⟨rfl, hrests⟩ := Clause.outline_append_inj hrest.follows hrest'.follows
        (List.cons.inj heq).2
      exact ⟨rfl, hrests⟩
    | afterPhrase g' c' =>
      exact absurd (List.cons.inj heq).2 (c.outline_ne_context hrest.follows _)
    | afterSentence s' c' =>
      exact absurd (List.cons.inj heq).2 (c.outline_ne_context hrest.follows _)
  | afterPhrase g c =>
    cases s' with
    | plain c' =>
      exact absurd (List.cons.inj heq).2.symm (c'.outline_ne_context hrest'.follows _)
    | afterPhrase g' c' =>
      simp only [Sentence.outline, List.cons_append, List.append_assoc, List.cons.injEq,
        true_and] at heq
      obtain ⟨rfl, hclauses⟩ := Group.outline_append_inj (hclause c hrest) (hclause c' hrest') heq
      obtain ⟨rfl, hrests⟩ := Clause.outline_append_inj hrest.follows hrest'.follows hclauses
      exact ⟨rfl, hrests⟩
    | afterSentence s' c' =>
      simp only [Sentence.outline, List.cons_append, List.append_assoc, List.cons.injEq,
        true_and] at heq
      exact absurd heq.symm (s'.outline_ne_group g _ _)
  | afterSentence s c ih =>
    cases s' with
    | plain c' =>
      exact absurd (List.cons.inj heq).2.symm (c'.outline_ne_context hrest'.follows _)
    | afterPhrase g' c' =>
      simp only [Sentence.outline, List.cons_append, List.append_assoc, List.cons.injEq,
        true_and] at heq
      exact absurd heq (s.outline_ne_group g' _ _)
    | afterSentence s' c' =>
      simp only [Sentence.outline, List.cons_append, List.append_assoc, List.cons.injEq,
        true_and] at heq
      obtain ⟨rfl, hclauses⟩ := ih (hclause c hrest) (hclause c' hrest') heq
      obtain ⟨rfl, hrests⟩ := Clause.outline_append_inj hrest.follows hrest'.follows hclauses
      exact ⟨rfl, hrests⟩

theorem Sentence.outlined (depth : Nat) : Outlined (Sentence.outline depth) depth .sentence where
  lead := by
    intro s
    cases s <;> exact ⟨_, _, rfl, rfl⟩
  append_inj := Sentence.outline_append_inj

end Trees

/-- What the renderer of outlines returns is the text of one outline with the lines of all
    sentences. -/
theorem Renderer.render_tree (sentences : List Sentence) :
    ((Renderer.new .tree).render (sentences.map .sentence)).2 =
      .ok (outlineText (sentences.flatMap (Sentence.outline 0))) := by
  rw [Renderer.render_sentences, Renderer.output_emit_new, ← Backend.intercalate_outlines,
    outlineText, List.map_flatMap]

/-- No two lists of trees have the same outline, whatever words stand in them and wherever a
    clause has no subject. -/
theorem Renderer.render_tree_eq_iff (sentences sentences' : List Sentence) :
    ((Renderer.new .tree).render (sentences.map .sentence)).2 =
        ((Renderer.new .tree).render (sentences'.map .sentence)).2 ↔
      sentences = sentences' := by
  constructor
  · intro heq
    rw [Renderer.render_tree, Renderer.render_tree, Except.ok.injEq] at heq
    have hlines : sentences.flatMap (Sentence.outline 0) =
        sentences'.flatMap (Sentence.outline 0) := by
      rw [← Option.some_inj, ← readOutline?_outlineText, heq, readOutline?_outlineText]
    exact ((Sentence.outlined 0).flatMap_append_inj List.not_mem_nil .nil .nil
      (congrArg (· ++ []) hlines)).1
  · rintro rfl
    rfl

end TokiPona
