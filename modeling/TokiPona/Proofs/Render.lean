import TokiPona.Proofs.Phrase.Canonical
import TokiPona.Proofs.Phrase.Outliner
import TokiPona.Render

namespace TokiPona

namespace Target

theorem ofName?_name (target : Target) : ofName? target.name = some target := by
  cases target <;> decide

/-- A name in any letter case is the name of its format. -/
theorem choose_of_lower {name : String} {target : Target} (hname : Text.lower name = target.name) :
    choose (some name) = .ok target := by
  rw [choose, read, hname, ofName?_name]

/-- The first character of every rendering. -/
def opening : Target → Char
  | .canonical => '('
  | .tree => 's'
  | .json => '\x7b'

theorem head?_render {s : Sentence} (hs : s.PartsWellFormed) (target : Target) :
    (target.render s).toList.head? = some target.opening := by
  cases target with
  | canonical =>
    obtain ⟨behind, hopens⟩ := Sentence.opens hs
    rw [render, Sentence.canonical, String.toList_ofList, hopens]
    rfl
  | tree =>
    obtain ⟨rest, houtline⟩ : ∃ rest, s.outline 0 = ⟨0, .sentence⟩ :: rest := by
      cases s <;> exact ⟨_, rfl⟩
    rw [render, outlineText, houtline, String.toList_intercalate, List.map_cons, List.map_cons,
      intercalate_cons_eq_append, List.head?_append]
    rfl
  | json =>
    obtain ⟨context, hjson⟩ : ∃ context, s.toJson = sentenceJson context s.clause := by
      cases s <;> exact ⟨_, rfl⟩
    rw [render, hjson, Json.render, String.toList_ofList, sentenceJson, Json.write]
    rfl

theorem render_ne_empty {s : Sentence} (hs : s.PartsWellFormed) (target : Target) :
    target.render s ≠ "" := by
  intro hempty
  have hhead := head?_render hs target
  rw [hempty] at hhead
  cases hhead

end Target

namespace Backend

/-- The backend of a format to which these sentences were written. -/
def holding : Target → List Sentence → Backend
  | .canonical, sentences => .canonical (sentences.map Sentence.canonical)
  | .tree, sentences => .tree ⟨sentences.flatMap fun s => (s.outline 0).map OutlineLine.text, 0⟩
  | .json, sentences => .json none (sentences.map fun s => s.toJson.render none)

theorem holding_nil (target : Target) : holding target [] = new target := by
  cases target <;> rfl

/-- A sentence is written behind the others, as if it were the first one. -/
theorem emit_holding (target : Target) (sentences : List Sentence) (s : Sentence) :
    (holding target sentences).emit s = holding target (sentences ++ [s]) := by
  cases target with
  | canonical => simp [holding, emit]
  | tree =>
    simp only [holding, emit, (Outliner.writes_emitSentence s).emit_eq, List.flatMap_append,
      List.flatMap_singleton]
  | json => simp [holding, emit]

theorem foldl_emit_holding (target : Target) (sentences added : List Sentence) :
    added.foldl emit (holding target sentences) = holding target (sentences ++ added) := by
  induction added generalizing sentences with
  | nil => rw [List.foldl_nil, List.append_nil]
  | cons s added ih =>
    rw [List.foldl_cons, emit_holding, ih, List.append_assoc, List.singleton_append]

/-- The lines of several outlines below each other are the outlines below each other. -/
theorem intercalate_outlines (sentences : List Sentence) :
    "\n".intercalate (sentences.flatMap fun s => (s.outline 0).map OutlineLine.text) =
      "\n".intercalate (sentences.map Target.tree.render) := by
  induction sentences with
  | nil => rfl
  | cons s sentences ih =>
    have hne (s : Sentence) : (s.outline 0).map OutlineLine.text ≠ [] := by
      cases s <;> simp [Sentence.outline]
    rw [List.flatMap_cons, List.map_cons]
    cases sentences with
    | nil =>
      rw [List.flatMap_nil, List.append_nil, List.map_nil, String.intercalate_singleton]
      rfl
    | cons next sentences =>
      have hrest : (next :: sentences).flatMap
          (fun s => (s.outline 0).map OutlineLine.text) ≠ [] := by
        rw [List.flatMap_cons]
        exact List.append_ne_nil_of_left_ne_nil (hne next) _
      rw [String.intercalate_append_of_ne_nil (hne s) hrest, ih, List.map_cons,
        String.intercalate_cons_cons]
      rfl

theorem output_holding (target : Target) (sentences : List Sentence) :
    (holding target sentences).output = "\n".intercalate (sentences.map target.render) := by
  cases target with
  | canonical => rfl
  | tree => exact intercalate_outlines sentences
  | json => rfl

end Backend

namespace Renderer

theorem emit_new (target : Target) (sentences : List Sentence) :
    (Renderer.new target).emit sentences = ⟨target, .holding target sentences⟩ := by
  rw [Renderer.new, emit, ← Backend.holding_nil, Backend.foldl_emit_holding, List.nil_append]

theorem output_emit_new (target : Target) (sentences : List Sentence) :
    ((Renderer.new target).emit sentences).output =
      "\n".intercalate (sentences.map target.render) := by
  rw [emit_new, output, Backend.output_holding]

theorem output_emit_singleton (target : Target) (s : Sentence) :
    ((Renderer.new target).emit [s]).output = target.render s := by
  rw [output_emit_new, List.map_singleton, String.intercalate_singleton]

/-- Renderings leave nothing behind only if there are none. -/
theorem intercalate_eq_empty_iff {separator : String} {texts : List String}
    (htexts : ∀ text ∈ texts, text ≠ "") : separator.intercalate texts = "" ↔ texts = [] := by
  constructor
  · intro hempty
    cases texts with
    | nil => rfl
    | cons text texts =>
      rw [← String.toList_eq_nil_iff, String.toList_intercalate, List.map_cons,
        intercalate_cons_eq_append, List.append_eq_nil_iff, String.toList_eq_nil_iff] at hempty
      exact absurd hempty.1 (htexts text List.mem_cons_self)
  · rintro rfl
    rfl

end Renderer

end TokiPona
