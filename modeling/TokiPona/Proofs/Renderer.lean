import TokiPona.Proofs.Render

namespace TokiPona

namespace RenderItem

def sentence? : RenderItem → Option Sentence
  | .sentence s => some s
  | .foreign => none

/-- The sentences that a call adds: its items, but none if one of them is no sentence. -/
def accepted (items : List RenderItem) : List Sentence :=
  if .foreign ∈ items then [] else items.filterMap sentence?

theorem mapM_read (items : List RenderItem) :
    items.mapM read = if .foreign ∈ items then .error ⟨⟩ else .ok (items.filterMap sentence?) := by
  induction items with
  | nil => rfl
  | cons item items ih =>
    rw [List.mapM_cons, ih]
    cases item with
    | sentence s =>
      by_cases hforeign : .foreign ∈ items
      · simp only [hforeign, List.mem_cons, or_true, if_true]
        rfl
      · simp only [hforeign, List.mem_cons, reduceCtorEq, or_false, if_false]
        rfl
    | foreign =>
      rw [if_pos List.mem_cons_self]
      rfl

end RenderItem

namespace Renderer

/-- One call after the other: the renderer after them, and what each of them returned. -/
def renderAll (r : Renderer) :
    List (List RenderItem) → Renderer × List (Except NotASentence String)
  | [] => (r, [])
  | items :: calls =>
    let (r, result) := r.render items
    let (r, results) := r.renderAll calls
    (r, result :: results)

theorem render_of_foreign (r : Renderer) {items : List RenderItem} (hforeign : .foreign ∈ items) :
    r.render items = (r, .error ⟨⟩) := by
  rw [render, RenderItem.mapM_read, if_pos hforeign]

theorem render_sentences (r : Renderer) (sentences : List Sentence) :
    r.render (sentences.map .sentence) = (r.emit sentences, .ok (r.emit sentences).output) := by
  have hforeign : .foreign ∉ sentences.map RenderItem.sentence := by simp
  have hread : (sentences.map RenderItem.sentence).filterMap RenderItem.sentence? = sentences := by
    rw [List.filterMap_map]
    exact List.filterMap_some
  rw [render, RenderItem.mapM_read, if_neg hforeign, hread]

/-- A sentence as a fresh backend renders it. -/
def fresh (target : Target) (s : Sentence) : String := ((Renderer.new target).emit [s]).output

theorem fresh_eq (target : Target) : fresh target = target.render :=
  funext (output_emit_singleton target)

/-- A call on a renderer that holds the sentences of earlier ones. -/
theorem render_holding (target : Target) (earlier : List Sentence) (items : List RenderItem) :
    let sentences := earlier ++ RenderItem.accepted items
    render ⟨target, .holding target earlier⟩ items =
      (⟨target, .holding target sentences⟩,
        if .foreign ∈ items then .error ⟨⟩
        else .ok ("\n".intercalate (sentences.map (fresh target)))) := by
  intro sentences
  by_cases hforeign : .foreign ∈ items
  · have hsentences : sentences = earlier := by
      simp only [sentences, RenderItem.accepted, if_pos hforeign, List.append_nil]
    rw [render_of_foreign _ hforeign, if_pos hforeign, hsentences]
  · have hsentences : sentences = earlier ++ items.filterMap RenderItem.sentence? := by
      simp only [sentences, RenderItem.accepted, if_neg hforeign]
    simp only [render, RenderItem.mapM_read, if_neg hforeign, emit, output,
      Backend.foldl_emit_holding, Backend.output_holding, fresh_eq, hsentences]

theorem renderAll_holding (target : Target) (earlier : List Sentence)
    (calls : List (List RenderItem)) {i : Nat} {items : List RenderItem}
    (hcall : calls[i]? = some items) :
    (renderAll ⟨target, .holding target earlier⟩ calls).2[i]? =
      some (if .foreign ∈ items then .error ⟨⟩
        else .ok ("\n".intercalate
          ((earlier ++ (calls.take (i + 1)).flatMap RenderItem.accepted).map (fresh target)))) := by
  induction calls generalizing earlier i with
  | nil => cases hcall
  | cons first calls ih =>
    simp only [renderAll, render_holding]
    cases i with
    | zero =>
      cases hcall
      rw [List.getElem?_cons_zero, List.take_succ_cons, List.take_zero, List.flatMap_singleton]
    | succ i =>
      rw [List.getElem?_cons_succ] at hcall ⊢
      rw [ih _ hcall, List.take_succ_cons, List.flatMap_cons, List.append_assoc]

/-- A call that holds sentences only returns the renderings of all sentences so far, one below the
    other, each as it comes from a fresh backend. A call with something else in it is refused and
    changes nothing. The emitters of an outline write the same lines at every depth, indented by
    it, and come back to it. -/
theorem renderAll_sentence_by_sentence (target : Target) :
    (∀ (calls : List (List RenderItem)) (i : Nat) (items : List RenderItem),
      calls[i]? = some items →
        ((Renderer.new target).renderAll calls).2[i]? =
          some (if .foreign ∈ items then .error ⟨⟩
            else .ok ("\n".intercalate
              (((calls.take (i + 1)).flatMap RenderItem.accepted).map (fresh target))))) ∧
      (∀ s : Sentence, renderSentence s (some target.name) = .ok (fresh target s)) ∧
      (∀ (r : Renderer) (items : List RenderItem), .foreign ∈ items →
        r.render items = (r, .error ⟨⟩)) ∧
      ∀ o : Outliner,
        let restored (emitted : Outliner) : Outliner :=
          ⟨o.lines ++ emitted.lines.map (indented o.depth), o.depth⟩
        (∀ s : Sentence, o.emitSentence s = restored (Outliner.new.emitSentence s)) ∧
          (∀ c : Context, o.emitContext c = restored (Outliner.new.emitContext c)) ∧
          (∀ g : Group, o.emitGroup g = restored (Outliner.new.emitGroup g)) ∧
          (∀ v : VerbPhrase, o.emitVerbPhrase v = restored (Outliner.new.emitVerbPhrase v)) ∧
          (∀ p : Preposition, o.emitPreposition p = restored (Outliner.new.emitPreposition p)) ∧
          ∀ p : Predicate, o.emitPredicate p = restored (Outliner.new.emitPredicate p) := by
  have hname : Text.lower target.name = target.name := by
    cases target <;> decide +kernel
  refine ⟨?_, ?_, fun r items hforeign => r.render_of_foreign hforeign, ?_⟩
  · intro calls i items hcall
    rw [Renderer.new, ← Backend.holding_nil, renderAll_holding target [] calls hcall,
      List.nil_append]
  · intro s
    rw [renderSentence, Target.choose_of_lower hname, fresh_eq]
    rfl
  · intro o
    exact ⟨fun s => (Outliner.writes_emitSentence s).indents o,
      fun c => (Outliner.writes_emitContext c).indents o,
      fun g => (Outliner.writes_emitGroup g).indents o,
      fun v => (Outliner.writes_emitVerbPhrase v).indents o,
      fun p => (Outliner.writes_emitPreposition p).indents o,
      fun p => (Outliner.writes_emitPredicate p).indents o⟩

/-- The second of three calls has something in it that is no sentence, so its sentence is rendered
    neither by it nor by the third. -/
theorem renderAll_sentence_by_sentence_of_three :
    let jan : Sentence := .plain ⟨[.flat .jan []], []⟩
    let pona : Sentence := .afterSentence jan ⟨[.pi .pona [.mute] (.flat .ni [])], []⟩
    let calls : List (List RenderItem) :=
      [[.sentence pona], [.sentence jan, .foreign], [.sentence jan]]
    let first := "sentence\n  context\n    sentence\n      subject\n        group jan\n" ++
      "  subject\n    group pona\n      modifiers: mute\n      pi\n        group ni"
    let last := "sentence\n  subject\n    group jan"
    calls[2]? = some [.sentence jan] ∧ .foreign ∈ [RenderItem.sentence jan, .foreign] ∧
      (((Renderer.new .tree).renderAll calls).2[2]? = some (.ok (first ++ "\n" ++ last))) ∧
      (Renderer.new .tree).render [.sentence jan, .foreign] = (Renderer.new .tree, .error ⟨⟩) := by
  intro jan pona calls first last
  obtain ⟨hresults, -, hrefused, -⟩ := renderAll_sentence_by_sentence .tree
  have hcall : calls[2]? = some [.sentence jan] := rfl
  have hforeign : .foreign ∈ [RenderItem.sentence jan, .foreign] := by decide
  have htext : "\n".intercalate (((calls.take 3).flatMap RenderItem.accepted).map (fresh .tree)) =
      first ++ "\n" ++ last := by
    decide +kernel
  refine ⟨hcall, hforeign, ?_, hrefused _ _ hforeign⟩
  rw [hresults calls 2 _ hcall, if_neg (by decide), htext]

end Renderer

end TokiPona
