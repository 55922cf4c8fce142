import TokiPona.Batch
import TokiPona.Proofs.Files
import TokiPona.Proofs.Render
import TokiPona.Proofs.Text.Lines
import TokiPona.Proofs.Text.Trim

namespace TokiPona

namespace Host

/-- A host on which notes are not logged: nothing has set logging up, or it leaves notes out. -/
def Quiet (h : Host) : Prop := ∀ l, h.logging = some l → noteLevel < l.level

variable {h : Host}

theorem quiet_new (files : Directory) (stamp : Stamp) : (Host.new files stamp).Quiet := by
  intro l hl
  cases hl

theorem Quiet.note (hquiet : h.Quiet) (n : Note) : h.note n = h := by
  unfold Host.note
  split
  · rfl
  · next l hl => rw [if_pos (hquiet l hl)]

theorem Quiet.noteAll (hquiet : h.Quiet) (notes : List Note) : h.noteAll notes = h := by
  unfold Host.noteAll
  induction notes with
  | nil => rfl
  | cons n notes ih => rw [List.foldl_cons, hquiet.note, ih]

theorem Quiet.complain (hquiet : h.Quiet) (text : String) : (h.complain text).Quiet := hquiet

theorem complain_empty (h : Host) : h.complain "" = h := by
  simp [Host.complain]

theorem complain_complain (h : Host) (text text' : String) :
    (h.complain text).complain text' = h.complain (text ++ text') := by
  simp [Host.complain, String.append_assoc]

end Host

namespace Batch

/-- What becomes of a line. -/
inductive Outcome where
  | blank
  | refused (e : ParseError)
  | rendered (text : String)
  deriving DecidableEq, Repr

namespace Outcome

/-- The error of a line that is refused. -/
def error? : Outcome → Option ParseError
  | .refused e => some e
  | _ => none

/-- The rendering of a line that is read. -/
def text? : Outcome → Option String
  | .rendered text => some text
  | _ => none

end Outcome

/-- What becomes of a line by itself, with a renderer of its own. -/
def outcome (target : Target) (aliases : Aliases) (line : String) : Outcome :=
  if line.toList.all Text.isBlank then .blank
  else
    match parseLine aliases line with
    | .error e => .refused e
    | .ok s => .rendered ((Renderer.new target).emit [s]).output

section Outcome

variable {target : Target} {aliases : Aliases} {line : String}

theorem outcome_of_blank (hblank : line.toList.all Text.isBlank = true) :
    outcome target aliases line = .blank := if_pos hblank

theorem outcome_of_error (hblank : ¬ line.toList.all Text.isBlank = true) {e : ParseError}
    (hparse : parseLine aliases line = .error e) : outcome target aliases line = .refused e := by
  rw [outcome, if_neg hblank, hparse]

theorem outcome_of_ok (hblank : ¬ line.toList.all Text.isBlank = true) {s : Sentence}
    (hparse : parseLine aliases line = .ok s) :
    outcome target aliases line = .rendered (target.render s) := by
  rw [outcome, if_neg hblank, hparse]
  exact congrArg Outcome.rendered (Renderer.output_emit_singleton target s)

end Outcome

/-- One line of text for each line that is refused, with its number among all lines. -/
def complaints (target : Target) (aliases : Aliases) (lines : List String) : List String :=
  (lines.zipIdx 1).filterMap fun (line, number) =>
    (outcome target aliases line).error?.map fun e =>
      "[error] line " ++ toString number ++ ": " ++ e.message ++ "\n"

/-- The renderings of the lines that are read, in order. -/
def renderings (target : Target) (aliases : Aliases) (lines : List String) : List String :=
  lines.filterMap fun line => (outcome target aliases line).text?

/-- The number of lines that are refused. -/
def failures (target : Target) (aliases : Aliases) (lines : List String) : Nat :=
  lines.countP fun line => (outcome target aliases line).error?.isSome

/-- Renderings one below the other, the last one with a line end behind it too. -/
def stacked (renderings : List String) : String :=
  if renderings.isEmpty then "" else "\n".intercalate renderings ++ "\n"

theorem isEmpty_trim (line : String) : (Text.trim line).isEmpty = line.toList.all Text.isBlank := by
  rw [Bool.eq_iff_iff, String.isEmpty_iff, Text.trim_eq_empty_iff, List.all_eq_true]

theorem numberedLines_eq (text : String) :
    numberedLines text = ((Text.lines text).zipIdx 1).filterMap fun (line, number) =>
      if line.toList.all Text.isBlank then none else some ⟨number, line⟩ := by
  unfold numberedLines
  generalize (Text.lines text).zipIdx 1 = numbered
  induction numbered with
  | nil => rfl
  | cons p numbered ih =>
    rw [List.map_cons, List.filter_cons, List.filterMap_cons, ih]
    simp only [isEmpty_trim]
    by_cases hblank : p.1.toList.all Text.isBlank <;> simp [hblank]

/-- What is said of a line that is refused. -/
def complaint? (aliases : Aliases) (l : NumberedLine) : Option String :=
  match parseLine aliases l.line with
  | .ok _ => none
  | .error e => some (complaint l e)

/-- A line that is read leaves no trace, and one that is refused leaves its complaint. -/
theorem readLine_of_quiet {h : Host} (hquiet : h.Quiet) (aliases : Aliases) (l : NumberedLine) :
    readLine aliases h l = h.complain ((complaint? aliases l).getD "") := by
  have hresult : (traceLine aliases l.line).result = parseLine aliases l.line := rfl
  simp only [readLine, complaint?, hquiet.noteAll, hresult]
  cases parseLine aliases l.line with
  | ok s => exact h.complain_empty.symm
  | error e => simp only [hquiet.note, Option.getD_some]

theorem foldl_readLine {h : Host} (hquiet : h.Quiet) (aliases : Aliases)
    (numbered : List NumberedLine) :
    numbered.foldl (readLine aliases) h =
      h.complain (String.join (numbered.filterMap (complaint? aliases))) := by
  induction numbered generalizing h with
  | nil => exact h.complain_empty.symm
  | cons l numbered ih =>
    rw [List.foldl_cons, readLine_of_quiet hquiet, ih (hquiet.complain _),
      Host.complain_complain, List.filterMap_cons]
    cases complaint? aliases l with
    | none => simp
    | some text => simp [String.join_cons]

/-- For a line that is not blank, the loop does what the line by itself calls for. -/
theorem step_of_not_blank (target : Target) (aliases : Aliases) (number : Nat) {line : String}
    (hblank : ¬ line.toList.all Text.isBlank = true) :
    complaint? aliases ⟨number, line⟩ =
        (outcome target aliases line).error?.map (complaint ⟨number, line⟩) ∧
      (sentence? aliases ⟨number, line⟩).map target.render =
        (outcome target aliases line).text? ∧
      (sentence? aliases ⟨number, line⟩).isNone =
        (outcome target aliases line).error?.isSome := by
  unfold complaint? sentence?
  cases hparse : parseLine aliases line with
  | error e =>
    rw [outcome_of_error hblank hparse]
    exact ⟨rfl, rfl, rfl⟩
  | ok s =>
    rw [outcome_of_ok hblank hparse]
    exact ⟨rfl, rfl, rfl⟩

section Lines

variable (target : Target) (aliases : Aliases) (text : String)

theorem filterMap_complaint? :
    (numberedLines text).filterMap (complaint? aliases) =
      complaints target aliases (Text.lines text) := by
  rw [numberedLines_eq, List.filterMap_filterMap, complaints]
  refine List.filterMap_congr fun (line, number) _ => ?_
  by_cases hblank : line.toList.all Text.isBlank
  · simp only [if_pos hblank, outcome_of_blank hblank]
    rfl
  · simp only [if_neg hblank, Option.bind_some, (step_of_not_blank target aliases _ hblank).1]
    rfl

theorem map_render_sentences :
    ((numberedLines text).filterMap (sentence? aliases)).map target.render =
      renderings target aliases (Text.lines text) := by
  rw [numberedLines_eq, List.filterMap_filterMap, List.map_filterMap, renderings]
  conv_rhs => rw [← List.zipIdx_map_fst 1 (Text.lines text), List.filterMap_map]
  refine List.filterMap_congr fun (line, number) _ => ?_
  by_cases hblank : line.toList.all Text.isBlank
  · simp only [if_pos hblank, Function.comp_apply, outcome_of_blank hblank]
    rfl
  · simp only [if_neg hblank, Option.bind_some, (step_of_not_blank target aliases _ hblank).2.1,
      Function.comp_apply]

theorem countP_sentence? :
    (numberedLines text).countP (fun l => (sentence? aliases l).isNone) =
      failures target aliases (Text.lines text) := by
  rw [numberedLines_eq, List.countP_filterMap, failures]
  conv_rhs => rw [← List.zipIdx_map_fst 1 (Text.lines text), List.countP_map]
  refine List.countP_congr fun (line, number) _ => Bool.eq_iff_iff.mp ?_
  by_cases hblank : line.toList.all Text.isBlank
  · simp only [if_pos hblank, Function.comp_apply, outcome_of_blank hblank]
    rfl
  · simp only [if_neg hblank, Option.map_some, Option.getD_some,
      (step_of_not_blank target aliases _ hblank).2.2, Function.comp_apply]

end Lines

theorem renderings_ne_empty (target : Target) (aliases : Aliases) (lines : List String) :
    ∀ rendering ∈ renderings target aliases lines, rendering ≠ "" := by
  intro rendering hmem
  obtain ⟨line, -, htext⟩ := List.mem_filterMap.mp hmem
  by_cases hblank : line.toList.all Text.isBlank
  · rw [outcome_of_blank hblank] at htext
    cases htext
  · cases hparse : parseLine aliases line with
    | error e =>
      rw [outcome_of_error hblank hparse] at htext
      cases htext
    | ok s =>
      rw [outcome_of_ok hblank hparse] at htext
      cases htext
      exact target.render_ne_empty (Sentence.partsWellFormed_of_parseLine hparse)

/-- What a run prints or writes are its renderings, one below the other. -/
theorem asLines_renderings (target : Target) (aliases : Aliases) (lines : List String) :
    asLines ("\n".intercalate (renderings target aliases lines)) =
      stacked (renderings target aliases lines) := by
  have hempty : ("\n".intercalate (renderings target aliases lines)).isEmpty =
      (renderings target aliases lines).isEmpty := by
    rw [Bool.eq_iff_iff, String.isEmpty_iff, List.isEmpty_iff]
    exact Renderer.intercalate_eq_empty_iff (renderings_ne_empty target aliases lines)
  rw [asLines, stacked, hempty]

/-- A run on a text comes to the complaints and the renderings of its lines, and fails only if the
    renderings cannot be handed over. -/
theorem run_of_lines {name : String} {target : Target} (hname : Text.lower name = target.name)
    (aliases : Aliases) (text : String) (out : Option String) {h : Host} (hquiet : h.Quiet) :
    run ⟨text, true, some name, out, false, aliases⟩ h =
      let lines := Text.lines text
      let output := stacked (renderings target aliases lines)
      let h := h.complain (String.join (complaints target aliases lines))
      match out with
      | none => (h.print output, .ok (failures target aliases lines))
      | some path =>
        if path.isEmpty then (h.print output, .ok (failures target aliases lines))
        else
          match h.files.writeText path output with
          | .error e => (h, .error (.file e))
          | .ok files => ({ h with files := files }, .ok (failures target aliases lines)) := by
  have hprepare : prepare h.files ⟨text, true, some name, out, false, aliases⟩ =
      .ok (target, text) := by
    simp only [prepare, Target.choose_of_lower hname]
    rfl
  simp only [run, hprepare, deliver, foldl_readLine hquiet, filterMap_complaint? target,
    countP_sentence? target, Renderer.output_emit_new, map_render_sentences, asLines_renderings,
    Bool.false_eq_true, if_false]
  cases out with
  | none => rfl
  | some path =>
    by_cases hpath : path.isEmpty
    · simp only [hpath, if_true]
    · simp only [hpath, if_false, Bool.false_eq_true]
      generalize h.complain (String.join (complaints target aliases (Text.lines text))) = h
      cases h.files.writeText path (stacked (renderings target aliases (Text.lines text))) <;> rfl

/-- A line that is not blank is refused or rendered, and never both. -/
theorem failures_add_length_renderings (target : Target) (aliases : Aliases)
    (lines : List String) :
    failures target aliases lines + (renderings target aliases lines).length =
      lines.countP fun line => !line.toList.all Text.isBlank := by
  induction lines with
  | nil => rfl
  | cons line lines ih =>
    unfold failures renderings at ih ⊢
    rw [List.countP_cons, List.filterMap_cons, List.countP_cons, ← ih]
    by_cases hblank : line.toList.all Text.isBlank
    · simp only [outcome_of_blank hblank, hblank, Outcome.error?, Outcome.text?]
      rfl
    · cases hparse : parseLine aliases line with
      | error e =>
        simp only [outcome_of_error hblank hparse, hblank, Outcome.error?, Outcome.text?,
          Option.isSome_some, Bool.not_false, if_true]
        omega
      | ok s =>
        simp only [outcome_of_ok hblank hparse, hblank, Outcome.error?, Outcome.text?,
          Option.isSome_none, Bool.false_eq_true, if_false, Bool.not_false, if_true,
          List.length_cons]
        omega

/-- A run on lines that all end with a line feed returns the number of lines that are refused and
    complains of exactly those, each with its number among all lines. The renderings of the
    others, each from a renderer of its own, are printed one below the other, or they are what the
    file that is asked for then holds. -/
theorem run_accounts_for_every_line (lines : List String)
    (hlines : ∀ line ∈ lines, Text.IsLine line) (name : String) (target : Target)
    (hname : Text.lower name = target.name) (aliases : Aliases) (h : Host) (hquiet : h.Quiet) :
    let source := String.join (lines.map (· ++ "\n"))
    let output := stacked (renderings target aliases lines)
    let stderr := h.stderr ++ String.join (complaints target aliases lines)
    (∀ out, out = none ∨ out = some "" →
      run ⟨source, true, some name, out, false, aliases⟩ h =
        ({ h with stdout := h.stdout ++ output, stderr := stderr },
          .ok (failures target aliases lines))) ∧
      (∀ path, path ≠ "" → h.files.Writable path →
        ∃ place,
          run ⟨source, true, some name, some path, false, aliases⟩ h =
            ({ h with files := h.files.putText place output, stderr := stderr },
              .ok (failures target aliases lines)) ∧
          (h.files.putText place output).find path =
            .ok (place, some (.file output.toUTF8))) ∧
      failures target aliases lines + (renderings target aliases lines).length =
        lines.countP fun line => !line.toList.all Text.isBlank := by
  intro source output stderr
  have hsource : Text.lines source = lines := Text.lines_join hlines
  refine ⟨?_, ?_, failures_add_length_renderings target aliases lines⟩
  · rintro out (rfl | rfl)
    · rw [run_of_lines hname aliases source none hquiet, hsource]
      rfl
    · rw [run_of_lines hname aliases source (some "") hquiet, hsource]
      rfl
  · intro path hpath hwritable
    obtain ⟨place, hwrite, hfind⟩ := hwritable.writeText output
    refine ⟨place, ?_, hfind⟩
    have hpath : path.isEmpty = false := by simpa using hpath
    have hfiles (text : String) : (h.complain text).files = h.files := rfl
    rw [run_of_lines hname aliases source (some path) hquiet, hsource]
    simp only [hpath, Bool.false_eq_true, if_false, hfiles]
    rw [hwrite]
    rfl

/-- The second of five lines is blank but counted, and the third and the last are refused. -/
theorem run_accounts_for_every_line_of_five :
    let lines := ["Jan li moku,", " \u001f", "jan li", "ali li pona", "x"]
    let source := "Jan li moku,\n \u001f\njan li\nali li pona\nx\n"
    let h := Host.new ⟨[]⟩ ⟨default, "", false⟩
    let output := "(jan)li(moku)\n(ale)li(pona)\n"
    let stderr := "[error] line 3: EmptyVerbPhrase\n[error] line 5: UnrecognizedWord('x')\n"
    ((∀ line ∈ lines, Text.IsLine line) ∧ Text.lower "Canonical" = Target.canonical.name ∧
        h.Quiet ∧ h.files.Writable "out.txt") ∧
      run ⟨source, true, some "Canonical", none, false, Aliases.defaults⟩ h =
        ({ h with stdout := h.stdout ++ output, stderr := stderr }, .ok 2) ∧
      ∃ place,
        run ⟨source, true, some "Canonical", some "out.txt", false, Aliases.defaults⟩ h =
          ({ h with files := h.files.putText place output, stderr := stderr }, .ok 2) ∧
        (h.files.putText place output).find "out.txt" =
          .ok (place, some (.file output.toUTF8)) := by
  intro lines source h output stderr
  have hlines : ∀ line ∈ lines, Text.IsLine line := by decide +kernel
  have hname : Text.lower "Canonical" = Target.canonical.name := by decide +kernel
  have hquiet : h.Quiet := Host.quiet_new _ _
  have hwritable : h.files.Writable "out.txt" :=
    ⟨["out.txt"], none, Directory.follow_eq_ok_iff.mpr
      ⟨⟨by simp, by decide, by decide⟩, rfl, rfl⟩, by simp⟩
  have hsource : String.join (lines.map (· ++ "\n")) = source := by decide +kernel
  have houtput : stacked (renderings .canonical Aliases.defaults lines) = output := by
    decide +kernel
  have hstderr : h.stderr ++ String.join (complaints .canonical Aliases.defaults lines) =
      stderr := by
    decide +kernel
  have hfailures : failures .canonical Aliases.defaults lines = 2 := by decide +kernel
  obtain ⟨hprint, hwrite, -⟩ := run_accounts_for_every_line lines hlines "Canonical" .canonical
    hname Aliases.defaults h hquiet
  simp only [hsource, houtput, hstderr, hfailures] at hprint hwrite
  exact ⟨⟨hlines, hname, hquiet, hwritable⟩, hprint none (.inl rfl),
    hwrite "out.txt" (by decide) hwritable⟩

end Batch

end TokiPona
