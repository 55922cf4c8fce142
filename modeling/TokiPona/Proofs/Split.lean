import Mathlib.Data.List.DropRight
import Mathlib.Data.List.Forall2
import Mathlib.Data.List.TakeWhile
import TokiPona.Split

namespace TokiPona

variable {α β ε : Type}

@[simp]
theorem ok_bind (a : α) (f : α → Except ε β) : Except.ok a >>= f = f a := rfl

theorem bind_eq_ok_iff {x : Except ε α} {f : α → Except ε β} {b : β} :
    x >>= f = .ok b ↔ ∃ a, x = .ok a ∧ f a = .ok b := by
  cases x <;> simp [bind, Except.bind]

theorem bind_eq_error_iff {x : Except ε α} {f : α → Except ε β} {e : ε} :
    x >>= f = .error e ↔ x = .error e ∨ ∃ a, x = .ok a ∧ f a = .error e := by
  cases x <;> simp [bind, Except.bind]

theorem map_eq_ok_iff {x : Except ε α} {f : α → β} {b : β} :
    x.map f = .ok b ↔ ∃ a, x = .ok a ∧ f a = b := by
  cases x <;> simp [Except.map]

theorem exists_map_eq_ok_iff {x : Except ε α} {f : α → β} :
    (∃ b, x.map f = .ok b) ↔ ∃ a, x = .ok a := by
  cases x <;> simp [Except.map]

theorem exists_bind_pure_eq_ok_iff {x : Except ε α} {f : α → β} :
    (∃ b, (x >>= fun a => pure (f a)) = .ok b) ↔ ∃ a, x = .ok a := by
  cases x <;> simp [bind, Except.bind, pure, Except.pure]

/-- Two readings that do not depend on each other. -/
theorem exists_bind_eq_ok_iff {γ : Type} {x : Except ε α} {y : Except ε β} {f : α → β → γ} :
    (∃ c, (do let a ← x; let b ← y; pure (f a b)) = .ok c) ↔
      (∃ a, x = .ok a) ∧ ∃ b, y = .ok b := by
  cases x <;> cases y <;> simp [bind, Except.bind, pure, Except.pure]

theorem map_eq_error_iff {x : Except ε α} {f : α → β} {e : ε} :
    x.map f = .error e ↔ x = .error e := by
  cases x <;> simp [Except.map]

/-- Readings that agree on all pieces read them alike. -/
theorem mapM_congr {read read' : α → Except ε β} {pieces : List α}
    (hread : ∀ a ∈ pieces, read a = read' a) : pieces.mapM read = pieces.mapM read' := by
  induction pieces with
  | nil => rfl
  | cons a rest ih =>
    obtain ⟨ha, hrest⟩ := List.forall_mem_cons.mp hread
    rw [List.mapM_cons, List.mapM_cons, ha, ih hrest]

theorem mapM_eq_ok_iff_forall₂ {read : α → Except ε β} {pieces : List α} {bs : List β} :
    pieces.mapM read = .ok bs ↔ List.Forall₂ (fun a b => read a = .ok b) pieces bs := by
  induction pieces generalizing bs with
  | nil => cases bs <;> simp [pure, Except.pure]
  | cons a rest ih =>
    simp only [List.mapM_cons, bind_eq_ok_iff, ih]
    constructor
    · rintro ⟨b, hb, later, hlater, hbs⟩
      cases hbs
      exact .cons hb hlater
    · rintro (- | ⟨hb, hlater⟩)
      exact ⟨_, hb, _, hlater, rfl⟩

/-- If reading a piece succeeds exactly for what writes as the piece, then so does reading all
    pieces. -/
theorem mapM_eq_ok_iff {read : α → Except ε β} {write : β → α} {P : β → Prop} {pieces : List α}
    (hread : ∀ a ∈ pieces, ∀ b, read a = .ok b ↔ write b = a ∧ P b) (bs : List β) :
    pieces.mapM read = .ok bs ↔ bs.map write = pieces ∧ ∀ b ∈ bs, P b := by
  induction pieces generalizing bs with
  | nil => cases bs <;> simp [pure, Except.pure]
  | cons a rest ih =>
    have hrest := ih (fun a' ha' => hread a' (List.mem_cons_of_mem a ha'))
    simp only [List.mapM_cons, bind_eq_ok_iff, hread a List.mem_cons_self, hrest]
    constructor
    · rintro ⟨b, ⟨hb, hPb⟩, bs', ⟨hbs', hPbs'⟩, hcons⟩
      cases hcons
      exact ⟨by rw [List.map_cons, hb, hbs'], List.forall_mem_cons.mpr ⟨hPb, hPbs'⟩⟩
    · rintro ⟨hmap, hP⟩
      obtain ⟨b, bs', rfl, hb, hbs'⟩ := List.map_eq_cons_iff.mp hmap
      obtain ⟨hPb, hPbs'⟩ := List.forall_mem_cons.mp hP
      exact ⟨b, ⟨hb, hPb⟩, bs', ⟨hbs', hPbs'⟩, rfl⟩

theorem exists_of_forall₂_left {R : α → β → Prop} {as : List α} {bs : List β}
    (hrel : List.Forall₂ R as bs) {a : α} (ha : a ∈ as) : ∃ b ∈ bs, R a b := by
  induction hrel with
  | nil => cases ha
  | @cons first b rest bs hfirst _ ih =>
    rcases List.mem_cons.mp ha with rfl | ha
    · exact ⟨b, List.mem_cons_self, hfirst⟩
    · obtain ⟨b', hb', hrel'⟩ := ih ha
      exact ⟨b', List.mem_cons_of_mem b hb', hrel'⟩

theorem exists_of_mem_of_mapM {read : α → Except ε β} {pieces : List α} {bs : List β}
    (hread : pieces.mapM read = .ok bs) {b : β} (hb : b ∈ bs) : ∃ a ∈ pieces, read a = .ok b :=
  exists_of_forall₂_left (mapM_eq_ok_iff_forall₂.mp hread).flip hb

theorem exists_mem_of_mapM {read : α → Except ε β} {pieces : List α} {bs : List β}
    (hread : pieces.mapM read = .ok bs) {a : α} (ha : a ∈ pieces) : ∃ b ∈ bs, read a = .ok b :=
  exists_of_forall₂_left (mapM_eq_ok_iff_forall₂.mp hread) ha

theorem exists_forall₂_iff {R : α → β → Prop} {as : List α} :
    (∃ bs, List.Forall₂ R as bs) ↔ ∀ a ∈ as, ∃ b, R a b := by
  constructor
  · rintro ⟨bs, hrel⟩ a ha
    obtain ⟨b, -, hb⟩ := exists_of_forall₂_left hrel ha
    exact ⟨b, hb⟩
  · intro heach
    induction as with
    | nil => exact ⟨[], .nil⟩
    | cons a rest ih =>
      obtain ⟨⟨b, hb⟩, hrest⟩ := List.forall_mem_cons.mp heach
      obtain ⟨bs, hbs⟩ := ih hrest
      exact ⟨b :: bs, .cons hb hbs⟩

/-- All pieces can be read if each one can. -/
theorem exists_mapM_eq_ok_iff {read : α → Except ε β} {pieces : List α} :
    (∃ bs, pieces.mapM read = .ok bs) ↔ ∀ a ∈ pieces, ∃ b, read a = .ok b := by
  simp only [mapM_eq_ok_iff_forall₂, exists_forall₂_iff]

/-- Joining pieces puts the separator in front of every piece but the first. -/
theorem intercalate_cons_eq_append (separator piece : List α) (pieces : List (List α)) :
    separator.intercalate (piece :: pieces) = piece ++ pieces.flatMap (separator ++ ·) := by
  induction pieces generalizing piece with
  | nil => simp
  | cons next pieces ih =>
    rw [List.intercalate_cons_cons, ih next]
    simp

/-- No mark is in a piece. -/
theorem eq_false_of_mem_splitOnP {p : α → Bool} {l piece : List α} (hpiece : piece ∈ l.splitOnP p) :
    ∀ a ∈ piece, p a = false := by
  induction l generalizing piece with
  | nil =>
    rw [List.splitOnP_nil, List.mem_singleton] at hpiece
    simp [hpiece]
  | cons a rest ih =>
    rw [List.splitOnP_cons_eq_if_modifyHead] at hpiece
    split at hpiece
    · rcases List.mem_cons.mp hpiece with rfl | hpiece
      · simp
      · exact ih hpiece
    · next ha =>
      obtain ⟨first, later, hrest⟩ := List.exists_cons_of_ne_nil (List.splitOnP_ne_nil p rest)
      rw [hrest] at hpiece ih
      rcases List.mem_cons.mp hpiece with rfl | hpiece
      · exact List.forall_mem_cons.mpr ⟨by simpa using ha, ih List.mem_cons_self⟩
      · exact ih (List.mem_cons_of_mem first hpiece)

theorem not_mem_of_mem_splitOn [BEq α] [LawfulBEq α] {marker : α} {l piece : List α}
    (hpiece : piece ∈ l.splitOn marker) : marker ∉ piece := by
  rw [List.splitOn_eq_splitOnP] at hpiece
  intro hmarker
  simpa using eq_false_of_mem_splitOnP hpiece marker hmarker

theorem mem_of_mem_splitOn [BEq α] [LawfulBEq α] {marker a : α} {l piece : List α}
    (hpiece : piece ∈ l.splitOn marker) (ha : a ∈ piece) : a ∈ l := by
  have hjoined : [marker].intercalate (l.splitOn marker) = l := List.intercalate_splitOn marker
  rw [← hjoined]
  generalize l.splitOn marker = pieces at hpiece
  cases pieces with
  | nil => cases hpiece
  | cons first later =>
    rw [intercalate_cons_eq_append]
    rcases List.mem_cons.mp hpiece with rfl | hlater
    · exact List.mem_append_left _ ha
    · exact List.mem_append_right _
        (List.mem_flatMap.mpr ⟨piece, hlater, List.mem_append_right _ ha⟩)

/-- The pieces of an image are the images of the pieces if no other element has the image of the
    marker. -/
theorem splitOn_map [BEq α] [LawfulBEq α] [BEq β] [LawfulBEq β] {f : α → β}
    (hf : Function.Injective f) (marker : α) (l : List α) :
    (l.map f).splitOn (f marker) = (l.splitOn marker).map (List.map f) := by
  induction l with
  | nil => rfl
  | cons a rest ih =>
    rw [List.map_cons, List.splitOn_cons_eq_if_modifyHead, List.splitOn_cons_eq_if_modifyHead, ih]
    by_cases ha : a = marker
    · simp [ha]
    · have hfa : f a ≠ f marker := hf.ne ha
      obtain ⟨piece, pieces, hrest⟩ := List.exists_cons_of_ne_nil (List.splitOn_ne_nil marker rest)
      simp [ha, hfa, hrest]

theorem length_splitOn [BEq α] (marker : α) (l : List α) :
    (l.splitOn marker).length = l.count marker + 1 := by
  induction l with
  | nil => rfl
  | cons a rest ih =>
    rw [List.splitOn_cons_eq_if_modifyHead, List.count_cons]
    split
    · rw [List.length_cons, ih]
    · rw [List.length_modifyHead, ih]

/-- Of several pieces the first is empty exactly if the list begins with the marker. -/
theorem head?_eq_iff_of_splitOn [BEq α] [LawfulBEq α] {marker : α} {l first second : List α}
    {later : List (List α)} (hsplit : l.splitOn marker = first :: second :: later) :
    first = [] ↔ l.head? = some marker := by
  cases l with
  | nil => cases hsplit
  | cons a rest =>
    rw [List.splitOn_cons_eq_if_modifyHead] at hsplit
    rw [List.head?_cons, Option.some.injEq]
    split at hsplit
    · next ha => exact iff_of_true (List.cons.inj hsplit).1.symm (eq_of_beq ha)
    · next ha =>
      obtain ⟨piece, pieces, hrest⟩ := List.exists_cons_of_ne_nil (List.splitOn_ne_nil marker rest)
      rw [hrest] at hsplit
      cases hsplit
      exact iff_of_false (List.cons_ne_nil a piece) (by simpa using ha)

theorem cutLast?_eq_none_iff {p : α → Bool} {l : List α} :
    cutLast? p l = none ↔ ∀ a ∈ l, p a = false := by
  induction l with
  | nil => simp [cutLast?]
  | cons a rest ih =>
    rw [cutLast?, List.forall_mem_cons, ← ih]
    cases cutLast? p rest with
    | none => cases p a <;> simp
    | some cut => simp

/-- Behind the cut no element is marked. -/
theorem marked_of_cutLast? {p : α → Bool} {l before behind : List α} {mark : α}
    (hcut : cutLast? p l = some (before, mark, behind)) :
    p mark ∧ ∀ a ∈ behind, p a = false := by
  induction l generalizing before with
  | nil => cases hcut
  | cons a rest ih =>
    unfold cutLast? at hcut
    split at hcut
    · next hrest =>
      cases hcut
      exact ih hrest
    · next hrest =>
      split at hcut
      · next ha =>
        cases hcut
        exact ⟨ha, cutLast?_eq_none_iff.mp hrest⟩
      · cases hcut

theorem cutLast?_append_cons {p : α → Bool} {behind : List α} {mark : α} (hmark : p mark)
    (hbehind : ∀ a ∈ behind, p a = false) (before : List α) :
    cutLast? p (before ++ mark :: behind) = some (before, mark, behind) := by
  induction before with
  | nil => simp [cutLast?, cutLast?_eq_none_iff.mpr hbehind, hmark]
  | cons a before ih => simp [cutLast?, ih]

/-- The cut is at a marked element behind which there is no other. -/
theorem cutLast?_eq_some_iff {p : α → Bool} {l before behind : List α} {mark : α} :
    cutLast? p l = some (before, mark, behind) ↔
      before ++ mark :: behind = l ∧ p mark ∧ ∀ a ∈ behind, p a = false := by
  constructor
  · intro hcut
    exact ⟨(eq_append_of_cutLast? hcut).symm, marked_of_cutLast? hcut⟩
  · rintro ⟨rfl, hmark, hbehind⟩
    exact cutLast?_append_cons hmark hbehind before

theorem cutLast?_beq_of_not_mem [BEq α] [LawfulBEq α] {mark : α} {l : List α} (hl : mark ∉ l) :
    cutLast? (· == mark) l = none := by
  rw [cutLast?_eq_none_iff]
  intro a ha
  rw [beq_eq_false_iff_ne]
  rintro rfl
  exact hl ha

theorem cutLast?_beq_append [BEq α] [LawfulBEq α] {mark : α} {behind : List α}
    (hbehind : mark ∉ behind) (before : List α) :
    cutLast? (· == mark) (before ++ mark :: behind) = some (before, mark, behind) :=
  cutLast?_append_cons (p := (· == mark)) (beq_self_eq_true mark)
    (cutLast?_eq_none_iff.mp (cutLast?_beq_of_not_mem hbehind)) before

/-- A list lacks an element or has a last place where it stands. -/
theorem not_mem_or_exists_last [BEq α] [LawfulBEq α] (mark : α) (l : List α) :
    mark ∉ l ∨ ∃ before behind, l = before ++ mark :: behind ∧ mark ∉ behind := by
  cases hcut : cutLast? (· == mark) l with
  | none =>
    left
    intro hmark
    simpa using cutLast?_eq_none_iff.mp hcut mark hmark
  | some cut =>
    obtain ⟨before, mark', behind⟩ := cut
    obtain ⟨rfl, hmark', hbehind⟩ := cutLast?_eq_some_iff.mp hcut
    obtain rfl := eq_of_beq hmark'
    refine Or.inr ⟨before, behind, rfl, ?_⟩
    intro hmark
    simpa using hbehind mark' hmark

/-- Induction on the places of an element, going back from the last one. -/
@[elab_as_elim]
theorem last_mark_induction [BEq α] [LawfulBEq α] (mark : α) {motive : List α → Prop}
    (unmarked : ∀ l, mark ∉ l → motive l)
    (marked : ∀ before behind, mark ∉ behind → motive before → motive (before ++ mark :: behind))
    (l : List α) : motive l := by
  induction hlength : l.length using Nat.strong_induction_on generalizing l with
  | h length ih =>
    rcases not_mem_or_exists_last mark l with hmark | ⟨before, behind, rfl, hmark⟩
    · exact unmarked l hmark
    · refine marked before behind hmark (ih before.length ?_ before rfl)
      rw [← hlength, List.length_append, List.length_cons]
      omega

/-- Two lists that are cut at the last place of an element are equal only part by part. -/
theorem append_cons_inj_of_not_mem [BEq α] [LawfulBEq α] {mark : α}
    {before before' behind behind' : List α} (hbehind : mark ∉ behind) (hbehind' : mark ∉ behind')
    (heq : before ++ mark :: behind = before' ++ mark :: behind') :
    before = before' ∧ behind = behind' := by
  have hcut := cutLast?_beq_append hbehind before
  rw [heq, cutLast?_beq_append hbehind' before'] at hcut
  cases hcut
  exact ⟨rfl, rfl⟩

/-- Cuts a list at every element that satisfies `p`: what stands before the first of them, and each
    of them with what stands behind it up to the next. -/
def cutEach (p : α → Bool) : List α → List α × List (α × List α)
  | [] => ([], [])
  | a :: rest =>
    let (before, pieces) := cutEach p rest
    if p a then ([], (a, before) :: pieces) else (a :: before, pieces)

/-- Marks, each with what stands behind it, written in a row. -/
def joinEach (pieces : List (α × List α)) : List α := pieces.flatMap fun piece => piece.1 :: piece.2

/-- The pieces are the list, and only the marks between them are marked. -/
theorem cutEach_spec (p : α → Bool) (l : List α) :
    (cutEach p l).1 ++ joinEach (cutEach p l).2 = l ∧ (∀ a ∈ (cutEach p l).1, p a = false) ∧
      ∀ piece ∈ (cutEach p l).2, p piece.1 ∧ ∀ a ∈ piece.2, p a = false := by
  induction l with
  | nil => simp [cutEach, joinEach]
  | cons a rest ih =>
    obtain ⟨hjoin, hbefore, hpieces⟩ := ih
    by_cases ha : p a
    · simp only [cutEach, ha, if_true]
      exact ⟨congrArg (a :: ·) hjoin, by simp,
        List.forall_mem_cons.mpr ⟨⟨ha, hbefore⟩, hpieces⟩⟩
    · simp only [cutEach, ha, if_false, Bool.false_eq_true]
      exact ⟨congrArg (a :: ·) hjoin,
        List.forall_mem_cons.mpr ⟨by simpa using ha, hbefore⟩, hpieces⟩

/-- The longest run of marked elements at the end of a list has every such run in it. -/
theorem suffix_rtakeWhile {p : α → Bool} {l run : List α} (hrun : run <:+ l)
    (hmarked : ∀ a ∈ run, p a) : run <:+ l.rtakeWhile p := by
  obtain ⟨front, rfl⟩ := hrun
  have hreverse : ∀ a ∈ run.reverse, p a := by simpa using hmarked
  rw [List.rtakeWhile, List.reverse_append, List.takeWhile_append_of_pos hreverse,
    List.reverse_append, List.reverse_reverse]
  exact List.suffix_append _ run

/-- A run begins with its mark and holds no other. -/
def IsRun (p : α → Bool) : List α → Prop
  | [] => False
  | a :: rest => p a ∧ ∀ b ∈ rest, p b = false

theorem flatten_runs (p : α → Bool) (l : List α) : (runs p l).flatten = l := by
  induction l with
  | nil => rfl
  | cons a rest ih =>
    unfold runs
    split
    · next hrest => rw [← ih, hrest]; rfl
    · next run later hrest =>
      rw [hrest] at ih
      split <;> simp [← ih]

/-- Without marks there is nothing to cut at. -/
theorem runs_of_unmarked {p : α → Bool} {l : List α} (hl : l ≠ []) (hfree : ∀ a ∈ l, p a = false) :
    runs p l = [l] := by
  induction l with
  | nil => exact absurd rfl hl
  | cons a rest ih =>
    cases rest with
    | nil => rfl
    | cons b rest =>
      have hrest := ih (List.cons_ne_nil b rest) (fun c hc => hfree c (List.mem_cons_of_mem a hc))
      rw [runs, hrest]
      simp [hfree b (by simp)]

/-- Only the first run may lack its mark, and it does so only if the list does. -/
theorem isRun_of_runs_eq_cons {p : α → Bool} {l first : List α} {later : List (List α)}
    (hruns : runs p l = first :: later) :
    (∃ a t, first = a :: t ∧ l.head? = some a ∧ ∀ b ∈ t, p b = false) ∧
      ∀ run ∈ later, IsRun p run := by
  induction l generalizing first later with
  | nil => cases hruns
  | cons a rest ih =>
    unfold runs at hruns
    split at hruns
    · cases hruns
      exact ⟨⟨a, [], rfl, rfl, by simp⟩, by simp⟩
    · next run later' hrest =>
      obtain ⟨⟨b, t, rfl, -, hfree⟩, hlater⟩ := ih hrest
      by_cases hb : p b
      · simp only [List.head?_cons, Option.any_some, hb, if_true, List.cons.injEq] at hruns
        obtain ⟨rfl, rfl⟩ := hruns
        exact ⟨⟨a, [], rfl, rfl, by simp⟩, List.forall_mem_cons.mpr ⟨⟨hb, hfree⟩, hlater⟩⟩
      · simp only [List.head?_cons, Option.any_some, hb, if_false, Bool.false_eq_true,
          List.cons.injEq] at hruns
        obtain ⟨rfl, rfl⟩ := hruns
        exact ⟨⟨a, b :: t, rfl, rfl, by simpa [hb] using hfree⟩, hlater⟩

theorem isRun_of_mem_runs {p : α → Bool} {l : List α} (hl : ∀ a, l.head? = some a → p a)
    {run : List α} (hrun : run ∈ runs p l) : IsRun p run := by
  cases hruns : runs p l with
  | nil => simp [hruns] at hrun
  | cons first later =>
    obtain ⟨⟨a, t, rfl, hhead, hfree⟩, hlater⟩ := isRun_of_runs_eq_cons hruns
    rw [hruns, List.mem_cons] at hrun
    rcases hrun with rfl | hrun
    · exact ⟨hl a hhead, hfree⟩
    · exact hlater run hrun

/-- A run is cut off before whatever begins with a mark. -/
theorem runs_append {p : α → Bool} {run rest : List α} (hrun : IsRun p run)
    (hrest : ∀ a, rest.head? = some a → p a) : runs p (run ++ rest) = run :: runs p rest := by
  have hcut (a : α) (t : List α) (ht : ∀ b ∈ t, p b = false) :
      runs p (a :: t ++ rest) = (a :: t) :: runs p rest := by
    induction t generalizing a with
    | nil =>
      cases hruns : runs p rest with
      | nil => simp [runs, hruns]
      | cons first later =>
        obtain ⟨⟨b, t, rfl, hhead, -⟩, -⟩ := isRun_of_runs_eq_cons hruns
        simp [runs, hruns, hrest b hhead]
    | cons b t ih =>
      obtain ⟨hb, ht⟩ := List.forall_mem_cons.mp ht
      rw [List.cons_append, runs, ih b ht]
      simp [hb]
  cases run with
  | nil => exact hrun.elim
  | cons a t => exact hcut a t hrun.2

theorem runs_flatten {p : α → Bool} {ls : List (List α)} (hls : ∀ run ∈ ls, IsRun p run) :
    runs p ls.flatten = ls := by
  induction ls with
  | nil => rfl
  | cons run ls ih =>
    obtain ⟨hrun, hls⟩ := List.forall_mem_cons.mp hls
    have hhead (a : α) (ha : ls.flatten.head? = some a) : p a := by
      cases ls with
      | nil => cases ha
      | cons next ls =>
        cases next with
        | nil => exact (hls [] (by simp)).elim
        | cons b t =>
          cases ha
          exact (hls (a :: t) (by simp)).1
    rw [List.flatten_cons, runs_append hrun hhead, ih hls]

/-- Behind its first element a run holds no mark. -/
theorem exists_cons_of_mem_runs {p : α → Bool} {l run : List α} (hrun : run ∈ runs p l) :
    ∃ a t, run = a :: t ∧ (∀ b ∈ t, p b = false) ∧ ∀ b ∈ run, b ∈ l := by
  have hmem : ∀ b ∈ run, b ∈ l := fun b hb =>
    flatten_runs p l ▸ List.mem_flatten.mpr ⟨run, hrun, hb⟩
  cases hruns : runs p l with
  | nil => simp [hruns] at hrun
  | cons first later =>
    obtain ⟨⟨a, t, rfl, -, hfree⟩, hlater⟩ := isRun_of_runs_eq_cons hruns
    rw [hruns, List.mem_cons] at hrun
    rcases hrun with rfl | hrun
    · exact ⟨a, t, rfl, hfree, hmem⟩
    · have hisRun := hlater run hrun
      cases run with
      | nil => exact hisRun.elim
      | cons a t => exact ⟨a, t, rfl, hisRun.2, hmem⟩

theorem runs_of_isRun {p : α → Bool} {run : List α} (hrun : IsRun p run) : runs p run = [run] := by
  have hruns := runs_flatten (List.forall_mem_singleton.mpr hrun)
  rwa [List.flatten_singleton] at hruns

end TokiPona
