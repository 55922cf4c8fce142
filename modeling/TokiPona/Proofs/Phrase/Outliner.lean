import TokiPona.Phrase.Outliner

namespace TokiPona

/-- A line with two blanks in front of it for each level. -/
def indented (levels : Nat) (text : String) : String :=
  String.ofList (List.replicate (2 * levels) ' ') ++ text

def OutlineLine.lower (levels : Nat) (line : OutlineLine) : OutlineLine :=
  { line with depth := line.depth + levels }

theorem OutlineLine.text_lower (levels : Nat) (line : OutlineLine) :
    (line.lower levels).text = indented levels line.text := by
  have hblanks : List.replicate (2 * (line.depth + levels)) ' ' =
      List.replicate (2 * levels) ' ' ++ List.replicate (2 * line.depth) ' ' := by
    rw [List.replicate_append_replicate, Nat.mul_add, Nat.add_comm]
  simp only [text, lower, indented, hblanks, String.ofList_append, String.append_assoc]

namespace Outliner

/-- The emitter writes the lines that the outline has at the current depth, whatever was written
    before, and only their indentation depends on the depth. -/
structure Writes (emit : Outliner → Outliner) (outline : Nat → List OutlineLine) : Prop where
  emit_eq (o : Outliner) :
    emit o = ⟨o.lines ++ (outline o.depth).map OutlineLine.text, o.depth⟩
  outline_add (depth levels : Nat) :
    outline (depth + levels) = (outline depth).map (OutlineLine.lower levels)

theorem Writes.refl : Writes id (fun _ => []) where
  emit_eq := by simp
  outline_add := by simp

theorem writes_emitLine (label : OutlineLabel) :
    Writes (fun o => o.emitLine label) (fun depth => [⟨depth, label⟩]) where
  emit_eq := fun _ => rfl
  outline_add := fun _ _ => rfl

section Closure

variable {emit emit' : Outliner → Outliner} {outline outline' : Nat → List OutlineLine}

theorem Writes.andThen (hemit : Writes emit outline) (hemit' : Writes emit' outline') :
    Writes (fun o => emit' (emit o)) (fun depth => outline depth ++ outline' depth) where
  emit_eq := by
    intro o
    rw [hemit.emit_eq, hemit'.emit_eq, List.map_append, List.append_assoc]
  outline_add := by
    intro depth levels
    rw [hemit.outline_add, hemit'.outline_add, List.map_append]

/-- Behind the parts of a node the depth is the one in front of them. -/
theorem Writes.nested (hemit : Writes emit outline) (label : OutlineLabel) :
    Writes (fun o => o.nested label emit)
      (fun depth => ⟨depth, label⟩ :: outline (depth + 1)) where
  emit_eq := by
    intro o
    rw [Outliner.nested, hemit.emit_eq]
    simp [rise, deepen, emitLine]
  outline_add := by
    intro depth levels
    rw [Nat.add_right_comm, hemit.outline_add]
    rfl

theorem Writes.foldl {α : Type} {emit : Outliner → α → Outliner}
    {outline : Nat → α → List OutlineLine}
    (hemit : ∀ a, Writes (fun o => emit o a) (fun depth => outline depth a)) (items : List α) :
    Writes (fun o => items.foldl emit o) (fun depth => items.flatMap (outline depth)) := by
  induction items with
  | nil => exact .refl
  | cons a items ih => exact (hemit a).andThen ih

/-- Wherever an emitter starts, it appends the lines it writes on an empty page, indented by the
    depth, and comes back to the depth. -/
theorem Writes.indents (hemit : Writes emit outline) (o : Outliner) :
    emit o = ⟨o.lines ++ (emit new).lines.map (indented o.depth), o.depth⟩ := by
  have htexts : (outline o.depth).map OutlineLine.text =
      ((outline 0).map OutlineLine.text).map (indented o.depth) := by
    have houtline := hemit.outline_add 0 o.depth
    rw [Nat.zero_add] at houtline
    rw [houtline, List.map_map, List.map_map]
    exact List.map_congr_left fun line _ => line.text_lower o.depth
  rw [hemit.emit_eq o, hemit.emit_eq new, htexts]
  rfl

end Closure

theorem writes_emitModifiers (modifiers : List Word) :
    Writes (fun o => o.emitModifiers modifiers)
      (fun depth => Group.modifiersOutline depth modifiers) := by
  cases modifiers with
  | nil => exact .refl
  | cons w modifiers => exact writes_emitLine _

theorem writes_emitGroup (g : Group) :
    Writes (fun o => o.emitGroup g) (fun depth => g.outline depth) := by
  induction g with
  | flat head modifiers => exact (writes_emitModifiers modifiers).nested (.group head)
  | pi head modifiers of ih =>
    exact ((writes_emitModifiers modifiers).andThen (ih.nested .pi)).nested (.group head)

theorem writes_emitRole (label : OutlineLabel) (g : Group) :
    Writes (fun o => emitRole label o g)
      (fun depth => ⟨depth, label⟩ :: g.outline (depth + 1)) :=
  (writes_emitGroup g).nested label

theorem writes_emitVerbPhrase (v : VerbPhrase) :
    Writes (fun o => o.emitVerbPhrase v) (fun depth => v.outline depth) := by
  have hpreverbs := Writes.foldl (fun w => writes_emitLine (.preverb w)) v.preverbs
  simp only [← List.map_eq_flatMap] at hpreverbs
  exact (hpreverbs.andThen (writes_emitGroup v.verb)).nested .verb

theorem writes_emitPreposition (p : Preposition) :
    Writes (fun o => o.emitPreposition p) (fun depth => p.outline depth) :=
  writes_emitRole (.preposition p.preposition) p.noun

theorem writes_emitPredicate (p : Predicate) :
    Writes (fun o => o.emitPredicate p) (fun depth => p.outline depth) := by
  have hobjects := Writes.foldl (writes_emitRole .object) p.objects
  have hprepositions := Writes.foldl writes_emitPreposition p.prepositions
  exact (((writes_emitVerbPhrase p.verb).andThen hobjects).andThen hprepositions).nested
    (.predicate p.imperative)

theorem writes_emitClause (c : Clause) :
    Writes (fun o => o.emitClause c) (fun depth => c.outline depth) := by
  have hsubjects := Writes.foldl (writes_emitRole .subject) c.subjects
  exact hsubjects.andThen (Writes.foldl writes_emitPredicate c.predicates)

theorem writes_emitSentence (s : Sentence) :
    Writes (fun o => o.emitSentence s) (fun depth => s.outline depth) := by
  induction s with
  | plain c => exact (writes_emitClause c).nested .sentence
  | afterPhrase g c =>
    exact ((writes_emitRole .context g).andThen (writes_emitClause c)).nested .sentence
  | afterSentence s c ih =>
    exact ((ih.nested .context).andThen (writes_emitClause c)).nested .sentence

theorem writes_emitContext (c : Context) :
    Writes (fun o => o.emitContext c) (fun depth => c.outline depth) := by
  cases c with
  | sentence s => exact (writes_emitSentence s).nested .context
  | nounPhrase g => exact writes_emitRole .context g

end Outliner

end TokiPona
