import TokiPona.Text.Lines

namespace TokiPona.Text

/-- A text without a line break in it. -/
def IsLine (text : String) : Prop := ∀ c ∈ text.toList, isLineBreak c = false

instance (text : String) : Decidable (IsLine text) :=
  List.decidableBAll _ _

/-- Only a carriage return asks for the character behind it. -/
theorem linesOf_cons_of_ne {c : Char} (hc : c ≠ '\r') (rest : List Char) :
    linesOf (c :: rest) =
      if isLineBreak c then [] :: linesOf rest
      else
        match linesOf rest with
        | [] => [[c]]
        | line :: lines => (c :: line) :: lines := by
  have hpair : ∀ behind, c = '\r' → rest = '\n' :: behind → False :=
    fun _ hreturn => absurd hreturn hc
  exact linesOf.eq_3 c rest hpair

theorem linesOf_cons {c : Char} (hc : isLineBreak c = false) (rest : List Char) :
    linesOf (c :: rest) =
      match linesOf rest with
      | [] => [[c]]
      | line :: lines => (c :: line) :: lines := by
  have hreturn : c ≠ '\r' := by
    rintro rfl
    cases hc
  rw [linesOf_cons_of_ne hreturn, hc]
  exact if_neg Bool.false_ne_true

theorem linesOf_newline (rest : List Char) : linesOf ('\n' :: rest) = [] :: linesOf rest :=
  linesOf_cons_of_ne (by decide) rest

/-- A line feed ends a line, whatever stands behind it. -/
theorem linesOf_append_newline {line : List Char} (hline : ∀ c ∈ line, isLineBreak c = false)
    (rest : List Char) : linesOf (line ++ '\n' :: rest) = line :: linesOf rest := by
  induction line with
  | nil => exact linesOf_newline rest
  | cons c line ih =>
    obtain ⟨hc, hline⟩ := List.forall_mem_cons.mp hline
    rw [List.cons_append, linesOf_cons hc, ih hline]

theorem linesOf_of_unbroken {line : List Char} (hline : ∀ c ∈ line, isLineBreak c = false)
    (hne : line ≠ []) : linesOf line = [line] := by
  induction line with
  | nil => exact absurd rfl hne
  | cons c line ih =>
    obtain ⟨hc, hline⟩ := List.forall_mem_cons.mp hline
    rw [linesOf_cons hc]
    cases line with
    | nil => rfl
    | cons next line => rw [ih hline (List.cons_ne_nil next line)]

theorem lines_of_toList {text : String} {texts : List String}
    (htext : linesOf text.toList = texts.map String.toList) : lines text = texts := by
  have hid : String.ofList ∘ String.toList = id := funext fun _ => String.ofList_toList
  rw [lines, htext, List.map_map, hid, List.map_id]

/-- Lines that all end with a line feed are read as these lines, the last one included. -/
theorem lines_join {texts : List String} (htexts : ∀ text ∈ texts, IsLine text) :
    lines (String.join (texts.map (· ++ "\n"))) = texts := by
  apply lines_of_toList
  induction texts with
  | nil => rfl
  | cons text texts ih =>
    obtain ⟨htext, htexts⟩ := List.forall_mem_cons.mp htexts
    simp only [List.map_cons, String.join_cons, String.toList_append, List.append_assoc]
    exact (linesOf_append_newline htext _).trans (congrArg _ (ih htexts))

/-- Lines with a line feed between them are read as these lines if none of them is empty. -/
theorem lines_intercalate {texts : List String} (htexts : ∀ text ∈ texts, IsLine text)
    (hne : ∀ text ∈ texts, text ≠ "") : lines ("\n".intercalate texts) = texts := by
  apply lines_of_toList
  induction texts with
  | nil => rfl
  | cons text texts ih =>
    obtain ⟨htext, htexts⟩ := List.forall_mem_cons.mp htexts
    obtain ⟨hfirst, hrest⟩ := List.forall_mem_cons.mp hne
    cases texts with
    | nil => exact linesOf_of_unbroken htext (mt String.toList_eq_nil_iff.mp hfirst)
    | cons next texts =>
      rw [String.intercalate_cons_cons, String.toList_append, String.toList_append,
        List.append_assoc]
      exact (linesOf_append_newline htext _).trans (congrArg _ (ih htexts hrest))

/-- A line end that is written anew stays one line end, and no other one is touched. -/
theorem linesOf_unifyNewlines (text : List Char) : linesOf (unifyNewlines text) = linesOf text := by
  fun_induction unifyNewlines text with
  | case1 => rfl
  | case2 rest ih => rw [linesOf_newline, ih, linesOf]
  | case3 rest hfeed ih =>
    rw [linesOf_newline, ih, linesOf]
    · rfl
    · exact fun behind _ hrest => hfeed behind hrest
  | case4 c rest _ hreturn ih => rw [linesOf_cons_of_ne hreturn, linesOf_cons_of_ne hreturn, ih]

theorem lines_unifyNewlines (text : String) :
    lines (String.ofList (unifyNewlines text.toList)) = lines text := by
  rw [lines, String.toList_ofList, linesOf_unifyNewlines, lines]

end TokiPona.Text
