import TokiPona.Proofs.Batch
import TokiPona.Session

namespace TokiPona

namespace Session

/-- A line that a session takes as a sentence: without the blanks around it, it is some text that
    does not leave, is no comment, switches nothing and is no command. -/
@[mk_iff]
structure IsSentenceLine (line : String) : Prop where
  notBlank : Text.trim line ≠ ""
  notExit : Text.trim line ≠ "exit"
  notQuit : Text.trim line ≠ "quit"
  notComment : ¬ Text.startsWith (Text.trim line) "#"
  notCommand : ¬ Text.startsWith (Text.trim line) ":"
  notSwitch : Text.lower (Text.trim line) ≠ "verbose-mode"

instance (line : String) : Decidable (IsSentenceLine line) :=
  decidable_of_iff' _ (isSentenceLine_iff line)

/-- What stands in front of an error in the replies of a session. -/
def errorMark : String := "[error] >>> "

/-- The reply to a sentence: its rendering or its error. -/
def reply (target : Target) (aliases : Aliases) (line : String) : String :=
  match parseLine aliases line with
  | .error e => errorMark ++ e.message
  | .ok s => target.render s

/-- The error that a reply tells of, if it tells of one. -/
def toldError? (reply : String) : Option String :=
  (errorMark.toList.isPrefixOf? reply.toList).map String.ofList

/-- What a batch run would say of the errors in the replies, each with the number of its line. -/
def complaintsOf (replies : List String) : List String :=
  (replies.zipIdx 1).filterMap fun (reply, number) =>
    (toldError? reply).map fun e => "[error] line " ++ toString number ++ ": " ++ e ++ "\n"

theorem toldError?_eq_some_iff {reply e : String} :
    toldError? reply = some e ↔ reply = errorMark ++ e := by
  rw [toldError?, Option.map_eq_some_iff]
  simp only [List.isPrefixOf?_eq_some_iff_append_eq]
  constructor
  · rintro ⟨rest, hrest, rfl⟩
    rw [← String.toList_inj, String.toList_append, String.toList_ofList, hrest]
  · rintro rfl
    exact ⟨e.toList, String.toList_append.symm, String.ofList_toList⟩

/-- No rendering is taken for an error. -/
theorem toldError?_render {s : Sentence} (hs : s.PartsWellFormed) (target : Target) :
    toldError? (target.render s) = none := by
  rw [Option.eq_none_iff_forall_ne_some]
  intro e he
  have hhead := target.head?_render hs
  have hmark : errorMark.toList.head? = some '[' := rfl
  rw [toldError?_eq_some_iff.mp he, String.toList_append, List.head?_append, hmark,
    Option.some_or] at hhead
  cases target <;> cases hhead

section Turn

variable {s : Session} {name : String} {target : Target}

theorem answer_eq (hs : s.target = some name) (hverbose : s.verbose = false)
    (hname : Text.lower name = target.name) (line : String) :
    (s.answer line).2 = .ok (reply target s.aliases line) := by
  have hread (words : List Word) :
      (Sentence.trace false words).result = Sentence.parse false words := rfl
  have htokens : (traceTokens s.aliases line).result = tokenize s.aliases line := by
    simp only [traceTokens, Traced.result_bind, Traced.result_lift, Traced.result_note,
      Traced.result_pure, ok_bind]
    exact bind_pure _
  unfold answer reply
  rw [parseLine_eq]
  simp only [Traced.result_bind, Traced.result_pure, htokens, hread]
  cases tokenize s.aliases line with
  | error e => rfl
  | ok words =>
    simp only [ok_bind]
    cases Sentence.parse false words with
    | error e => rfl
    | ok sentence =>
      simp only [ok_bind, renderSentence, hs, Target.choose_of_lower hname, hverbose]
      rfl

theorem commandOf?_eq_none_iff {line : String} :
    commandOf? line = none ↔ ¬ Text.startsWith line ":" := by
  cases hline : line.toList with
  | nil => simp [commandOf?, Text.startsWith, hline]
  | cons c rest =>
    by_cases hc : c = ':'
    · simp [commandOf?, Text.startsWith, hline, hc]
    · simp [commandOf?, Text.startsWith, hline, hc, Ne.symm hc]

theorem turnOn_of_isSentenceLine (stack : Stack) (s : Session) {line : String}
    (hline : IsSentenceLine line) : s.turnOn stack line = s.answerOn stack (Text.trim line) := by
  unfold turnOn
  simp only [beq_eq_false_iff_ne.mpr hline.notExit, beq_eq_false_iff_ne.mpr hline.notQuit,
    beq_eq_false_iff_ne.mpr hline.notSwitch, Bool.eq_false_iff.mpr hline.notComment,
    Bool.eq_false_iff.mpr (mt String.isEmpty_iff.mp hline.notBlank), command,
    commandOf?_eq_none_iff.mpr hline.notCommand, Option.map_none, Bool.or_self, Bool.false_eq_true,
    if_false]

/-- A line that is no command is answered, and the settings stay. -/
theorem turn_of_isSentenceLine (hs : s.target = some name) (hverbose : s.verbose = false)
    (hname : Text.lower name = target.name) {line : String} (hline : IsSentenceLine line) :
    ∃ notes, s.turn line = ⟨notes, reply target s.aliases line ++ "\n", .go s⟩ := by
  have hreply : reply target s.aliases (Text.trim line) = reply target s.aliases line := by
    rw [reply, parseLine_trim, reply]
  have hanswer := answer_eq hs hverbose hname (Text.trim line)
  rw [hreply] at hanswer
  refine ⟨(s.answer (Text.trim line)).1, ?_⟩
  have hfits : (tokenize s.aliases (Text.trim line)).toOption.bind (Stack.endless s) = none :=
    Option.bind_fun_none _
  rw [turn, turnOn_of_isSentenceLine .endless s hline, answerOn, hfits]
  simp only [hanswer]

theorem converse_cons (s : Session) (line : String) (rest : List String) :
    s.converse (line :: rest) =
      match (s.turn line).next with
      | .go s' =>
        { s'.converse rest with
          replies := (s.turn line).printed :: (s'.converse rest).replies
          notes := (s.turn line).notes ++ (s'.converse rest).notes }
      | .leave => ⟨[(s.turn line).printed], (s.turn line).notes, rest.length, none⟩
      | .broken e => ⟨[(s.turn line).printed], (s.turn line).notes, rest.length, some e⟩ := rfl

/-- A conversation in sentences is the replies to its lines, and the farewell at its end. -/
theorem converse_of_isSentenceLine (hs : s.target = some name) (hverbose : s.verbose = false)
    (hname : Text.lower name = target.name) {lines : List String}
    (hlines : ∀ line ∈ lines, IsSentenceLine line) :
    ∃ notes, s.converse lines =
      ⟨(lines.map (reply target s.aliases)).map (· ++ "\n") ++ [farewell], notes, 0, none⟩ := by
  induction lines with
  | nil => exact ⟨[], rfl⟩
  | cons line lines ih =>
    obtain ⟨hline, hlines⟩ := List.forall_mem_cons.mp hlines
    obtain ⟨notes, hturn⟩ := turn_of_isSentenceLine hs hverbose hname hline
    obtain ⟨later, hconverse⟩ := ih hlines
    refine ⟨notes ++ later, ?_⟩
    rw [converse_cons, hturn]
    simp only [hconverse, List.map_cons, List.cons_append]

end Turn

section Replies

variable (target : Target) (aliases : Aliases)

/-- A reply tells of an error exactly if the line by itself is refused, and otherwise it is the
    rendering. -/
theorem reply_of_outcome {line : String} (hblank : ¬ line.toList.all Text.isBlank = true) :
    toldError? (reply target aliases line) =
        (Batch.outcome target aliases line).error?.map ParseError.message ∧
      Option.guard (fun r => (toldError? r).isNone) (reply target aliases line) =
        (Batch.outcome target aliases line).text? := by
  unfold reply
  cases hparse : parseLine aliases line with
  | error e =>
    have htold : toldError? (errorMark ++ e.message) = some e.message :=
      toldError?_eq_some_iff.mpr rfl
    rw [Batch.outcome_of_error hblank hparse]
    exact ⟨htold, by simp [Option.guard, htold, Batch.Outcome.text?]⟩
  | ok s =>
    have htold := toldError?_render (Sentence.partsWellFormed_of_parseLine hparse) target
    rw [Batch.outcome_of_ok hblank hparse]
    exact ⟨htold, by simp [Option.guard, htold, Batch.Outcome.text?]⟩

variable {lines : List String} (hlines : ∀ line ∈ lines, ¬ line.toList.all Text.isBlank = true)

include hlines

theorem complaints_eq_complaintsOf :
    Batch.complaints target aliases lines = complaintsOf (lines.map (reply target aliases)) := by
  rw [complaintsOf, List.zipIdx_map, List.filterMap_map, Batch.complaints]
  refine List.filterMap_congr fun p hmem => ?_
  have hline := hlines p.1 (List.fst_mem_of_mem_zipIdx hmem)
  simp only [Function.comp_apply, Prod.map_fst, Prod.map_snd, id_eq,
    (reply_of_outcome target aliases hline).1, Option.map_map]
  rfl

theorem renderings_eq_filter :
    Batch.renderings target aliases lines =
      (lines.map (reply target aliases)).filter fun r => (toldError? r).isNone := by
  rw [← List.filterMap_eq_filter, List.filterMap_map, Batch.renderings]
  refine List.filterMap_congr fun line hmem => ?_
  rw [Function.comp_apply, (reply_of_outcome target aliases (hlines line hmem)).2]

theorem failures_eq_countP :
    Batch.failures target aliases lines =
      (lines.map (reply target aliases)).countP fun r => (toldError? r).isSome := by
  rw [List.countP_map, Batch.failures]
  refine List.countP_congr fun line hmem => ?_
  rw [Function.comp_apply, (reply_of_outcome target aliases (hlines line hmem)).1,
    Option.isSome_map]

end Replies

/-- The digits before the colon give the number back. -/
theorem ofDigitChars_takeWhile (number : Nat) (rest : List Char) :
    Nat.ofDigitChars 10 (((toString number).toList ++ ':' :: rest).takeWhile Char.isDigit) 0 =
      number := by
  have hdigits : ∀ c ∈ (toString number).toList, c.isDigit = true := by
    rw [Nat.toString_eq_repr, Nat.toList_repr]
    intro c hc
    exact Nat.isDigit_of_mem_toDigits (by decide) (by decide) hc
  have hcolon : (':' :: rest).takeWhile Char.isDigit = [] := rfl
  rw [List.takeWhile_append_of_pos hdigits, hcolon, List.append_nil, Nat.toString_eq_repr,
    Nat.toList_repr, Nat.ofDigitChars_toDigits (by decide) (by decide)]

/-- From what a batch run says of a line one can tell the number of the line and the error. -/
theorem complaint_inj {number number' : Nat} {e e' : String}
    (heq : "[error] line " ++ toString number ++ ": " ++ e ++ "\n" =
      "[error] line " ++ toString number' ++ ": " ++ e' ++ "\n") :
    number = number' ∧ e = e' := by
  rw [← String.toList_inj] at heq
  have hcolon : ": ".toList = [':', ' '] := by decide
  simp only [String.toList_append, List.append_assoc, List.append_cancel_left_eq, hcolon,
    List.cons_append, List.nil_append] at heq
  have hnumber : number = number' := by
    rw [← ofDigitChars_takeWhile number, heq, ofDigitChars_takeWhile]
  subst hnumber
  rw [List.append_cancel_left_eq, List.cons_inj_right, List.cons_inj_right,
    List.append_cancel_right_eq, String.toList_inj] at heq
  exact ⟨rfl, heq⟩

/-- A session answers a line with an error exactly if the batch run complains of it with the same
    error. -/
theorem mem_complaintsOf_iff {replies : List String} {i : Nat} {e : String} :
    "[error] line " ++ toString (i + 1) ++ ": " ++ e ++ "\n" ∈ complaintsOf replies ↔
      replies[i]? = some (errorMark ++ e) := by
  rw [complaintsOf, List.mem_filterMap]
  simp only [Option.map_eq_some_iff, toldError?_eq_some_iff]
  constructor
  · rintro ⟨⟨reply, number⟩, hmem, e', rfl, htext⟩
    obtain ⟨rfl, rfl⟩ := complaint_inj htext
    rw [Nat.add_comm] at hmem
    exact List.mk_add_mem_zipIdx_iff_getElem?.mp hmem
  · intro hreply
    refine ⟨(errorMark ++ e, i + 1), ?_, e, rfl, rfl⟩
    rw [Nat.add_comm]
    exact List.mk_add_mem_zipIdx_iff_getElem?.mpr hreply

/-- On lines that are sentences to a session, it replies to each line, says farewell when they end,
    and a batch run on the same lines agrees. The run complains of a line exactly if the reply to
    this line is an error, with the same error, and prints the other replies one below the
    other. -/
theorem converse_agrees_with_run (lines : List String)
    (hlines : ∀ line ∈ lines, Text.IsLine line ∧ IsSentenceLine line) (name : String)
    (target : Target) (hname : Text.lower name = target.name) (aliases : Aliases) (h : Host)
    (hquiet : h.Quiet) :
    ∃ replies : List String,
      replies.length = lines.length ∧
      (∃ notes, converse ⟨some name, aliases, false⟩ lines =
        ⟨replies.map (· ++ "\n") ++ [farewell], notes, 0, none⟩) ∧
      Batch.run ⟨"\n".intercalate lines, true, some name, none, false, aliases⟩ h =
        ({ h with
            stdout := h.stdout ++ Batch.stacked (replies.filter fun r => (toldError? r).isNone)
            stderr := h.stderr ++ String.join (complaintsOf replies) },
          .ok (replies.countP fun r => (toldError? r).isSome)) ∧
      ∀ i e, replies[i]? = some ("[error] >>> " ++ e) ↔
        "[error] line " ++ toString (i + 1) ++ ": " ++ e ++ "\n" ∈ complaintsOf replies := by
  have hblank : ∀ line ∈ lines, ¬ line.toList.all Text.isBlank = true := by
    intro line hmem hall
    rw [← Batch.isEmpty_trim, String.isEmpty_iff] at hall
    exact (hlines line hmem).2.notBlank hall
  have hne : ∀ line ∈ lines, line ≠ "" := by
    rintro _ hmem rfl
    exact hblank "" hmem List.all_nil
  refine ⟨lines.map (reply target aliases), List.length_map _, ?_, ?_,
    fun i e => mem_complaintsOf_iff.symm⟩
  · exact converse_of_isSentenceLine rfl rfl hname fun line hmem => (hlines line hmem).2
  · rw [Batch.run_of_lines hname aliases _ none hquiet,
      Text.lines_intercalate (fun line hmem => (hlines line hmem).1) hne]
    simp only [complaints_eq_complaintsOf target aliases hblank,
      renderings_eq_filter target aliases hblank, failures_eq_countP target aliases hblank]
    rfl

/-- The second of three lines is refused, and the others are rendered over several lines each. -/
theorem converse_agrees_with_run_of_three :
    let lines := ["\tjan li moku ", "jan li", "ali, li PONA"]
    let source := "\tjan li moku \njan li\nali, li PONA"
    let h := Host.new ⟨[]⟩ ⟨default, "", false⟩
    let first := "sentence\n  subject\n    group jan\n  predicate li\n    verb\n      group moku"
    let last := "sentence\n  subject\n    group ale\n  predicate li\n    verb\n      group pona"
    ((∀ line ∈ lines, Text.IsLine line ∧ IsSentenceLine line) ∧
        Text.lower "Tree" = Target.tree.name ∧ h.Quiet) ∧
      (converse ⟨some "Tree", Aliases.defaults, false⟩ lines).replies =
        [first, "[error] >>> EmptyVerbPhrase", last].map (· ++ "\n") ++ [farewell] ∧
      Batch.run ⟨source, true, some "Tree", none, false, Aliases.defaults⟩ h =
        ({ h with
            stdout := first ++ "\n" ++ last ++ "\n"
            stderr := "[error] line 2: EmptyVerbPhrase\n" },
          .ok 1) := by
  intro lines source h first last
  have hlines : ∀ line ∈ lines, Text.IsLine line ∧ IsSentenceLine line := by decide +kernel
  have hname : Text.lower "Tree" = Target.tree.name := by decide +kernel
  have hquiet : h.Quiet := Host.quiet_new _ _
  have hsource : "\n".intercalate lines = source := by decide +kernel
  have hprinted : (converse ⟨some "Tree", Aliases.defaults, false⟩ lines).replies =
      [first, "[error] >>> EmptyVerbPhrase", last].map (· ++ "\n") ++ [farewell] := by
    decide +kernel
  refine ⟨⟨hlines, hname, hquiet⟩, hprinted, ?_⟩
  obtain ⟨replies, -, ⟨notes, hconverse⟩, hrun, -⟩ := converse_agrees_with_run lines hlines
    "Tree" .tree hname Aliases.defaults h hquiet
  -- What the session prints leaves no choice for the replies.
  rw [hconverse, List.append_cancel_right_eq,
    List.map_inj_right fun _ _ => (String.append_left_inj "\n").mp] at hprinted
  have hstdout : Batch.stacked (replies.filter fun r => (toldError? r).isNone) =
      first ++ "\n" ++ last ++ "\n" := by
    rw [hprinted]
    decide +kernel
  have hstderr : String.join (complaintsOf replies) = "[error] line 2: EmptyVerbPhrase\n" := by
    rw [hprinted]
    decide +kernel
  have hfailures : (replies.countP fun r => (toldError? r).isSome) = 1 := by
    rw [hprinted]
    decide +kernel
  rw [hsource, hstdout, hstderr, hfailures] at hrun
  exact hrun

end Session

end TokiPona
