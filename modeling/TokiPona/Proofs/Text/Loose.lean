import TokiPona.Aliases.Basic
import TokiPona.Proofs.Split
import TokiPona.Proofs.Text.Lower
import TokiPona.Word.Lemmas

namespace TokiPona

namespace CodePoint

theorem toNat_injective : Function.Injective toNat := by
  have hrange (c : Char) : c.toNat < 0xD800 ∨ 0xE000 ≤ c.toNat := by
    rcases c.valid with hsmall | ⟨hlarge, -⟩
    · exact .inl hsmall
    · exact .inr hlarge
  rintro (c | index) (c' | index') heq
  · rw [← Char.ofNat_toNat c, ← Char.ofNat_toNat c']
    exact congrArg (fun n => char (Char.ofNat n)) heq
  · have hc := hrange c
    simp only [toNat] at heq
    omega
  · have hc := hrange c'
    simp only [toNat] at heq
    omega
  · simp only [toNat, Nat.add_left_cancel_iff] at heq
    rw [Fin.ext heq]

/-- What a code point may become: a surrogate stays what it is. -/
inductive LowersTo : CodePoint → CodePoint → Prop
  | char {c d : Char} (hto : Text.LowersTo c d) : LowersTo (.char c) (.char d)
  | surrogate (index : Fin 0x800) : LowersTo (.surrogate index) (.surrogate index)

theorem LowersTo.isBlank_eq_false {p q : CodePoint} (hto : LowersTo p q)
    (hp : p.isBlank = false) : q.isBlank = false := by
  cases hto with
  | char hto => exact hto.isBlank_eq_false hp
  | surrogate index => rfl

end CodePoint

namespace LooseText

variable {t : LooseText}

@[ext]
theorem ext {t t' : LooseText} (hpoints : t.points = t'.points) : t = t' := by
  cases t
  cases t'
  cases hpoints
  rfl

@[simp]
theorem points_append (t t' : LooseText) : (t ++ t').points = t.points ++ t'.points := rfl

theorem append_assoc (t t' t'' : LooseText) : t ++ t' ++ t'' = t ++ (t' ++ t'') :=
  ext (List.append_assoc t.points t'.points t''.points)

theorem points_ofString (text : String) : (ofString text).points = text.toList.map .char := rfl

theorem toString?_eq_some_iff {text : String} : t.toString? = some text ↔ t = ofString text := by
  constructor
  · intro htext
    rw [toString?, Option.map_eq_some_iff] at htext
    obtain ⟨chars, hchars, rfl⟩ := htext
    apply ext
    rw [points_ofString, String.toList_ofList]
    generalize t.points = points at hchars
    induction points generalizing chars with
    | nil =>
      cases hchars
      rfl
    | cons p rest ih =>
      cases p with
      | surrogate index => cases hchars
      | char c =>
        simp only [List.mapM_cons, CodePoint.char?, Option.pure_def, Option.bind_eq_bind,
          Option.bind_some, Option.bind_eq_some_iff] at hchars
        obtain ⟨later, hlater, hcons⟩ := hchars
        cases hcons
        rw [ih later hlater, List.map_cons]
  · rintro rfl
    exact toString?_ofString text

theorem ofString_append (text text' : String) :
    ofString (text ++ text') = ofString text ++ ofString text' := by
  apply ext
  simp [points_ofString]

/-- A text that is no string. -/
def HasSurrogate (t : LooseText) : Prop := ∃ index, .surrogate index ∈ t.points

theorem toString?_eq_none_iff : t.toString? = none ↔ t.HasSurrogate := by
  rw [toString?, Option.map_eq_none_iff, HasSurrogate]
  generalize t.points = points
  induction points with
  | nil => simp
  | cons p rest ih =>
    cases p with
    | surrogate index => simp [List.mapM_cons, CodePoint.char?]
    | char c =>
      have hmem (index : Fin 0x800) :
          .surrogate index ∈ CodePoint.char c :: rest ↔ .surrogate index ∈ rest := by
        simp
      simp only [hmem, ← ih, List.mapM_cons, CodePoint.char?]
      cases rest.mapM CodePoint.char? <;> simp

theorem exists_eq_ofString_iff : (∃ text, t = ofString text) ↔ ¬ t.HasSurrogate := by
  rw [← toString?_eq_none_iff, ← ne_eq, Option.ne_none_iff_exists']
  simp only [toString?_eq_some_iff]

@[simp]
theorem not_hasSurrogate_ofString (text : String) : ¬ (ofString text).HasSurrogate :=
  exists_eq_ofString_iff.mp ⟨text, rfl⟩

@[simp]
theorem hasSurrogate_append {t t' : LooseText} :
    (t ++ t').HasSurrogate ↔ t.HasSurrogate ∨ t'.HasSurrogate := by
  simp [HasSurrogate, exists_or]

@[simp]
theorem hasSurrogate_concat {texts : List LooseText} :
    (concat texts).HasSurrogate ↔ ∃ t ∈ texts, t.HasSurrogate := by
  simp only [HasSurrogate, concat, List.mem_flatMap]
  exact ⟨fun ⟨index, t, ht, hmem⟩ => ⟨t, ht, index, hmem⟩,
    fun ⟨t, ht, index, hmem⟩ => ⟨index, t, ht, hmem⟩⟩

@[simp]
theorem hasSurrogate_stacked {texts : List LooseText} :
    (stacked texts).HasSurrogate ↔ ∃ t ∈ texts, t.HasSurrogate := by
  induction texts with
  | nil => simp [HasSurrogate, stacked]
  | cons t texts ih =>
    cases texts with
    | nil => simp [HasSurrogate, stacked]
    | cons next texts =>
      have hcons : stacked (t :: next :: texts) =
          t ++ ofString "\n" ++ stacked (next :: texts) := by
        apply ext
        simp [stacked, ofString, List.intercalate_cons_cons]
      rw [hcons, hasSurrogate_append, hasSurrogate_append, ih, List.exists_mem_cons_iff]
      simp

@[simp]
theorem hasSurrogate_padLeft {width : Nat} : (t.padLeft width).HasSurrogate ↔ t.HasSurrogate := by
  simp [HasSurrogate, padLeft, List.mem_replicate]

theorem isEmpty_eq_false_iff : t.isEmpty = false ↔ t.points ≠ [] := by
  rw [isEmpty, List.isEmpty_eq_false_iff]

theorem splitOn_ofString (mark : Char) (text : String) :
    (ofString text).splitOn mark =
      (text.toList.splitOn mark).map fun part => ofString (String.ofList part) := by
  have hinj : Function.Injective CodePoint.char := fun _ _ => CodePoint.char.inj
  rw [splitOn, points_ofString, splitOn_map hinj, List.map_map]
  simp only [ofString, String.toList_ofList, Function.comp_def]

theorem trim_trim (t : LooseText) : t.trim.trim = t.trim :=
  ext (Text.dropEnds_dropEnds CodePoint.isBlank t.points)

@[simp]
theorem trim_ofString (text : String) : (ofString text).trim = ofString (Text.trim text) := by
  apply ext
  rw [trim, Text.trim, points_ofString, points_ofString, String.toList_ofList, Text.dropEnds,
    Text.dropEnds, List.dropWhile_map, ← List.map_reverse, List.dropWhile_map, ← List.map_reverse]
  rfl

theorem stretches_joinStretches (first : List Char) (later : List (Fin 0x800 × List Char)) :
    stretches (joinStretches first later) = (first, later) := by
  have hchars (chars : List Char) (rest : List CodePoint) :
      stretches (chars.map .char ++ rest) = (chars ++ (stretches rest).1, (stretches rest).2) := by
    induction chars with
    | nil => rfl
    | cons c chars ih => rw [List.map_cons, List.cons_append, stretches, ih, List.cons_append]
  induction later generalizing first with
  | nil =>
    have h := hchars first []
    rwa [List.append_nil, stretches, List.append_nil] at h
  | cons stretch later ih =>
    obtain ⟨index, next⟩ := stretch
    rw [joinStretches, hchars, stretches, ih, List.append_nil]

theorem joinStretches_stretches (points : List CodePoint) :
    joinStretches (stretches points).1 (stretches points).2 = points := by
  induction points with
  | nil => rfl
  | cons p rest ih =>
    cases p with
    | surrogate index => rw [stretches, joinStretches, ih, List.map_nil, List.nil_append]
    | char c =>
      have hcons (first : List Char) (later : List (Fin 0x800 × List Char)) :
          joinStretches (c :: first) later = .char c :: joinStretches first later := by
        cases later <;> rfl
      rw [stretches, hcons, ih]

theorem points_lower (t : LooseText) :
    t.lower.points = joinStretches (Text.lowerFrom false (stretches t.points).1)
      ((stretches t.points).2.map fun stretch =>
        (stretch.1, Text.lowerFrom false stretch.2)) := rfl

@[simp]
theorem lower_ofString (text : String) : (ofString text).lower = ofString (Text.lower text) := by
  apply ext
  have hstretches := stretches_joinStretches text.toList []
  rw [joinStretches] at hstretches
  rw [points_lower, points_ofString, hstretches, points_ofString, Text.lower, String.toList_ofList]
  rfl

theorem lower_lower (t : LooseText) : t.lower.lower = t.lower := by
  apply ext
  rw [points_lower t.lower, points_lower t, stretches_joinStretches, List.map_map]
  simp only [Text.lowerFrom_lowerFrom, Function.comp_def]

/-- Every code point becomes at least one, at its place in the text. -/
theorem expands_lower (t : LooseText) :
    Expands CodePoint.LowersTo t.points t.lower.points := by
  have hchars (chars : List Char) : Expands CodePoint.LowersTo (chars.map .char)
      ((Text.lowerFrom false chars).map .char) :=
    (Text.expands_lowerFrom false chars).map fun c d hto => .char hto
  have hjoin (first : List Char) (later : List (Fin 0x800 × List Char)) :
      Expands CodePoint.LowersTo (joinStretches first later)
        (joinStretches (Text.lowerFrom false first)
          (later.map fun stretch => (stretch.1, Text.lowerFrom false stretch.2))) := by
    induction later generalizing first with
    | nil => exact hchars first
    | cons stretch later ih =>
      exact (hchars first).append (.cons (List.cons_ne_nil _ [])
        (List.forall_mem_singleton.mpr (.surrogate stretch.1)) (ih stretch.2))
  have h := hjoin (stretches t.points).1 (stretches t.points).2
  rwa [joinStretches_stretches] at h

theorem hasSurrogate_trim : t.trim.HasSurrogate ↔ t.HasSurrogate :=
  exists_congr fun _ => ⟨Text.mem_of_mem_dropEnds, fun hmem => Text.mem_dropEnds_of_mem hmem rfl⟩

theorem hasSurrogate_lower : t.lower.HasSurrogate ↔ t.HasSurrogate := by
  refine exists_congr fun index => ⟨fun hmem => ?_, fun hmem => ?_⟩
  · obtain ⟨p, hp, hto⟩ := t.expands_lower.exists_of_mem hmem
    cases hto
    exact hp
  · obtain ⟨q, hq, hto⟩ := t.expands_lower.exists_mem_of_mem hmem
    cases hto
    exact hq

theorem points_lower_eq_nil_iff : t.lower.points = [] ↔ t.points = [] :=
  t.expands_lower.eq_nil_iff

theorem comma_not_mem_lower (hcomma : .char ',' ∉ t.points) : .char ',' ∉ t.lower.points := by
  intro hmem
  obtain ⟨p, hp, hto⟩ := t.expands_lower.exists_of_mem hmem
  cases hto with
  | char hto =>
    rcases hto.eq_or_solid with rfl | ⟨-, hne⟩
    · exact hcomma hp
    · exact hne rfl

/-- Lower-casing puts no blank at the end of a text. -/
theorem trim_lower (ht : t.trim = t) : t.lower.trim = t.lower := by
  obtain ⟨hhead, hlast⟩ := Text.dropEnds_eq_self_iff.mp (congrArg points ht)
  refine ext (Text.dropEnds_eq_self_iff.mpr ⟨fun q hq => ?_, fun q hq => ?_⟩)
  · obtain ⟨p, hp, hto⟩ := t.expands_lower.exists_head? hq
    exact hto.isBlank_eq_false (hhead p hp)
  · obtain ⟨p, hp, hto⟩ := t.expands_lower.exists_getLast? hq
    exact hto.isBlank_eq_false (hlast p hp)

theorem le_trans {t t' t'' : LooseText} (hle : t.le t') (hle' : t'.le t'') : t.le t'' :=
  decide_eq_true (List.le_trans (of_decide_eq_true hle) (of_decide_eq_true hle'))

theorem le_total (t t' : LooseText) : t.le t' ∨ t'.le t :=
  (List.le_total (t.points.map CodePoint.toNat) (t'.points.map CodePoint.toNat)).imp
    decide_eq_true decide_eq_true

theorem le_antisymm {t t' : LooseText} (hle : t.le t') (hle' : t'.le t) : t = t' :=
  ext (List.map_injective_iff.mpr CodePoint.toNat_injective
    (List.le_antisymm (of_decide_eq_true hle) (of_decide_eq_true hle')))

end LooseText

theorem Word.ofText?_eq_some_iff {text : LooseText} {w : Word} :
    Word.ofText? text = some w ↔ text = .ofString w.spelling := by
  simp only [Word.ofText?, Option.bind_eq_some_iff, LooseText.toString?_eq_some_iff,
    Word.ofSpelling?_eq_some_iff]
  constructor
  · rintro ⟨_, rfl, rfl⟩
    rfl
  · rintro rfl
    exact ⟨w.spelling, rfl, rfl⟩

@[simp]
theorem Word.ofText?_ofString (text : String) :
    Word.ofText? (.ofString text) = Word.ofSpelling? text := by
  rw [Word.ofText?, LooseText.toString?_ofString, Option.bind_some]

end TokiPona
