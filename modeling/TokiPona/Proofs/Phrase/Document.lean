import TokiPona.Phrase.Document
import TokiPona.Proofs.Json.RoundTrip
import TokiPona.Render
import TokiPona.Word.Lemmas

namespace TokiPona

@[simp]
theorem Word.spelling_inj {v w : Word} : v.spelling = w.spelling ↔ v = w :=
  ⟨spelling_injective v w, congrArg spelling⟩

@[simp]
theorem wordsJson_inj {words words' : List Word} :
    wordsJson words = wordsJson words' ↔ words = words' := by
  refine ⟨fun heq => ?_, congrArg wordsJson⟩
  rw [wordsJson, wordsJson, Json.arr.injEq] at heq
  refine List.map_injective_iff.mpr (fun v w hvw => ?_) heq
  simpa using hvw

section Injective

theorem Group.toJson_ne_null (g : Group) : g.toJson ≠ .null := by
  cases g <;> simp [toJson]

theorem Group.toJson_injective : Function.Injective Group.toJson := by
  intro g
  induction g with
  | flat head modifiers =>
    intro g' heq
    cases g' with
    | flat head' modifiers' => simpa [toJson] using heq
    | pi head' modifiers' of' => simp [toJson, of'.toJson_ne_null.symm] at heq
  | pi head modifiers of ih =>
    intro g' heq
    cases g' with
    | flat head' modifiers' => simp [toJson, of.toJson_ne_null] at heq
    | pi head' modifiers' of' =>
      have hparts : head = head' ∧ modifiers = modifiers' ∧ of.toJson = of'.toJson := by
        simpa [toJson] using heq
      obtain ⟨rfl, rfl, hof⟩ := hparts
      rw [ih hof]

theorem VerbPhrase.toJson_injective : Function.Injective VerbPhrase.toJson := by
  rintro ⟨preverbs, verb⟩ ⟨preverbs', verb'⟩ heq
  simpa [toJson, Group.toJson_injective.eq_iff] using heq

theorem Preposition.toJson_injective : Function.Injective Preposition.toJson := by
  rintro ⟨w, noun⟩ ⟨w', noun'⟩ heq
  simpa [toJson, Group.toJson_injective.eq_iff] using heq

theorem Predicate.toJson_injective : Function.Injective Predicate.toJson := by
  have hobjects := List.map_injective_iff.mpr Group.toJson_injective
  have hprepositions := List.map_injective_iff.mpr Preposition.toJson_injective
  rintro ⟨imperative, verb, objects, prepositions⟩ ⟨imperative', verb', objects', prepositions'⟩ heq
  simpa [toJson, VerbPhrase.toJson_injective.eq_iff, hobjects.eq_iff, hprepositions.eq_iff]
    using heq

@[simp]
theorem contextJson_inj {kind kind' : String} {value value' : Json} :
    contextJson kind value = contextJson kind' value' ↔ kind = kind' ∧ value = value' := by
  simp [contextJson]

@[simp]
theorem contextJson_ne_null (kind : String) (value : Json) : contextJson kind value ≠ .null := by
  simp [contextJson]

@[simp]
theorem sentenceJson_inj {context context' : Json} {clause clause' : Clause} :
    sentenceJson context clause = sentenceJson context' clause' ↔
      context = context' ∧ clause = clause' := by
  have hsubjects := List.map_injective_iff.mpr Group.toJson_injective
  have hpredicates := List.map_injective_iff.mpr Predicate.toJson_injective
  obtain ⟨subjects, predicates⟩ := clause
  obtain ⟨subjects', predicates'⟩ := clause'
  simp [sentenceJson, hsubjects.eq_iff, hpredicates.eq_iff]

theorem Sentence.toJson_injective : Function.Injective Sentence.toJson := by
  intro s
  induction s with
  | plain clause =>
    intro s' heq
    cases s' with
    | plain clause' => simpa [toJson] using heq
    | afterPhrase g' clause' => simp [toJson, (contextJson_ne_null _ _).symm] at heq
    | afterSentence s' clause' => simp [toJson, (contextJson_ne_null _ _).symm] at heq
  | afterPhrase g clause =>
    intro s' heq
    cases s' with
    | plain clause' => simp [toJson] at heq
    | afterPhrase g' clause' => simpa [toJson, Group.toJson_injective.eq_iff] using heq
    | afterSentence s' clause' => simp [toJson] at heq
  | afterSentence s clause ih =>
    intro s' heq
    cases s' with
    | plain clause' => simp [toJson] at heq
    | afterPhrase g' clause' => simp [toJson] at heq
    | afterSentence s' clause' =>
      have hparts : s.toJson = s'.toJson ∧ clause = clause' := by simpa [toJson] using heq
      rw [ih hparts.1, hparts.2]

end Injective

section Plain

open Json (AreNames Unescaped)

theorem Word.unescaped_spelling (w : Word) : Unescaped w.spelling := by
  intro p hp
  obtain ⟨c, hc, rfl⟩ := List.mem_map.mp hp
  have hbounds := (Text.isLower_iff c).mp (w.isLower_spelling c hc)
  refine ⟨by omega, ?_, ?_⟩
  all_goals
    rintro rfl
    simp at hbounds

theorem plain_wordsJson (words : List Word) : (wordsJson words).Plain := by
  refine .arr fun v hv => ?_
  obtain ⟨w, -, rfl⟩ := List.mem_map.mp hv
  exact .str w.unescaped_spelling

theorem Group.plain_toJson (g : Group) : g.toJson.Plain := by
  have hnames : AreNames (["kind", "word", "modifiers", "of"].map LooseText.ofString) := by decide
  have hkind : Unescaped "group" := by decide
  induction g with
  | flat head modifiers =>
    refine .obj hnames ?_
    simp [Json.Plain.str, hkind, head.unescaped_spelling, plain_wordsJson, Json.Plain.null]
  | pi head modifiers of ih =>
    refine .obj hnames ?_
    simp [Json.Plain.str, hkind, head.unescaped_spelling, plain_wordsJson, ih]

theorem VerbPhrase.plain_toJson (v : VerbPhrase) : v.toJson.Plain := by
  have hnames : AreNames (["kind", "preverbs", "verb"].map LooseText.ofString) := by decide
  have hkind : Unescaped "verb_phrase" := by decide
  refine .obj hnames ?_
  simp [Json.Plain.str, hkind, plain_wordsJson, Group.plain_toJson]

theorem Preposition.plain_toJson (p : Preposition) : p.toJson.Plain := by
  have hnames : AreNames (["kind", "preposition", "noun"].map LooseText.ofString) := by decide
  have hkind : Unescaped "preposition" := by decide
  refine .obj hnames ?_
  simp [Json.Plain.str, hkind, p.preposition.unescaped_spelling, Group.plain_toJson]

theorem Predicate.plain_toJson (p : Predicate) : p.toJson.Plain := by
  have hnames : AreNames
      (["kind", "imperative", "verb", "objects", "prepositions"].map LooseText.ofString) := by
    decide
  have hkind : Unescaped "predicate" := by decide
  have hobjects : (Json.arr (p.objects.map Group.toJson)).Plain :=
    .arr (List.forall_mem_map.mpr fun g _ => g.plain_toJson)
  have hprepositions : (Json.arr (p.prepositions.map Preposition.toJson)).Plain :=
    .arr (List.forall_mem_map.mpr fun p _ => p.plain_toJson)
  refine .obj hnames ?_
  simp [Json.Plain.str, hkind, Json.Plain.bool, VerbPhrase.plain_toJson, hobjects, hprepositions]

theorem plain_contextJson {kind : String} (hkind : Unescaped kind) {value : Json}
    (hvalue : value.Plain) : (contextJson kind value).Plain := by
  have hnames : AreNames (["kind", "type", "value"].map LooseText.ofString) := by decide
  have hcontext : Unescaped "context" := by decide
  refine .obj hnames ?_
  simp [Json.Plain.str, hcontext, hkind, hvalue]

theorem plain_sentenceJson {context : Json} (hcontext : context.Plain) (clause : Clause) :
    (sentenceJson context clause).Plain := by
  have hnames : AreNames
      (["kind", "context", "subjects", "predicates"].map LooseText.ofString) := by
    decide
  have hkind : Unescaped "sentence" := by decide
  have hsubjects : (Json.arr (clause.subjects.map Group.toJson)).Plain :=
    .arr (List.forall_mem_map.mpr fun g _ => g.plain_toJson)
  have hpredicates : (Json.arr (clause.predicates.map Predicate.toJson)).Plain :=
    .arr (List.forall_mem_map.mpr fun p _ => p.plain_toJson)
  refine .obj hnames ?_
  simp [Json.Plain.str, hkind, hcontext, hsubjects, hpredicates]

theorem Sentence.plain_toJson (s : Sentence) : s.toJson.Plain := by
  induction s with
  | plain clause => exact plain_sentenceJson .null clause
  | afterPhrase g clause =>
    exact plain_sentenceJson (plain_contextJson (by decide) g.plain_toJson) clause
  | afterSentence s clause ih => exact plain_sentenceJson (plain_contextJson (by decide) ih) clause

end Plain

/-- A backend for JSON holds a text for each sentence. -/
theorem Backend.foldl_emit_json (indent : Option Int) (texts : List String)
    (sentences : List Sentence) :
    sentences.foldl emit (.json indent texts) =
      .json indent (texts ++ sentences.map fun s => s.toJson.render indent) := by
  induction sentences generalizing texts with
  | nil => rw [List.map_nil, List.append_nil, List.foldl_nil]
  | cons s sentences ih =>
    rw [List.foldl_cons, emit, ih, List.map_cons, List.append_assoc, List.singleton_append]

theorem renderJson_eq (indent : Option Int) (sentences : List Sentence) :
    renderJson indent sentences =
      "\n".intercalate (sentences.map fun s => s.toJson.render indent) := by
  rw [renderJson, Backend.foldl_emit_json, List.nil_append, Backend.output]

theorem map_parse?_render (indent : Option Int) (sentences : List Sentence) :
    (sentences.map fun s => s.toJson.render indent).map Json.parse? =
      sentences.map fun s => some s.toJson := by
  rw [List.map_map]
  exact List.map_congr_left fun s _ => s.plain_toJson.parse?_render indent

/-- Without an indent each sentence is a line of the output. -/
theorem lines_renderJson (sentences : List Sentence) :
    Text.lines (renderJson none sentences) = sentences.map fun s => s.toJson.render none := by
  rw [renderJson_eq]
  apply Text.lines_intercalate
  · exact List.forall_mem_map.mpr fun s _ => s.plain_toJson.isLine_render
  · exact List.forall_mem_map.mpr fun s _ => s.plain_toJson.render_ne_empty none

/-- In any layout each sentence has a text of its own, which is read back as its document, and the
    document is that of no other sentence. Without an indent the texts are the lines of the
    output. -/
theorem renderJson_decodes (indent : Option Int) (sentences : List Sentence) :
    (∃ texts, sentences.foldl Backend.emit (.json indent []) = .json indent texts ∧
      renderJson indent sentences = "\n".intercalate texts ∧
      texts.map Json.parse? = sentences.map fun s => some s.toJson) ∧
    Function.Injective Sentence.toJson ∧
    let lines := Text.lines (renderJson none sentences)
    lines.length = sentences.length ∧ renderJson none sentences = "\n".intercalate lines ∧
      lines.map Json.parse? = sentences.map fun s => some s.toJson := by
  refine ⟨⟨_, Backend.foldl_emit_json indent [] sentences, renderJson_eq indent sentences,
    map_parse?_render indent sentences⟩, Sentence.toJson_injective, ?_⟩
  rw [lines_renderJson]
  exact ⟨List.length_map _, renderJson_eq none sentences, map_parse?_render none sentences⟩

end TokiPona
