import TokiPona.Proofs.Batch

namespace TokiPona.Batch

variable {h : Host}

theorem numberedLines_unifyNewlines (text : String) :
    numberedLines (String.ofList (Text.unifyNewlines text.toList)) = numberedLines text := by
  rw [numberedLines, Text.lines_unifyNewlines, numberedLines]

/-- The format is settled before the file is opened, so both sources fail at the same name. -/
theorem prepare_file {files : Directory} {path text : String} {place : Place}
    (hpath : isSupported path) (hfile : files.find path = .ok (place, some (.file text.toUTF8)))
    (target out : Option String) (pretty : Bool) (aliases : Aliases) :
    prepare files ⟨path, false, target, out, pretty, aliases⟩ =
      (prepare files ⟨text, true, target, out, pretty, aliases⟩).map
        fun (format, text) => (format, String.ofList (Text.unifyNewlines text.toList)) := by
  simp only [prepare, hpath, Directory.readText_of_find hfile]
  cases Target.choose target <;> rfl

/-- What was read is handed over if it is printed or the file for it can be written. -/
theorem exists_deliver (r : Request) (target : Target) (sentences : List Sentence)
    (hout : ∀ path, r.out = some path → path ≠ "" → h.files.Writable path) :
    ∃ h', deliver r target sentences h = (h', .ok ()) := by
  cases hr : r.out with
  | none =>
    simp only [deliver, hr]
    exact ⟨_, rfl⟩
  | some path =>
    by_cases hempty : path.isEmpty
    · simp only [deliver, hr, if_pos hempty]
      exact ⟨_, rfl⟩
    · obtain ⟨place, hwrite, -⟩ := (hout path hr (by simpa using hempty)).writeText
        (asLines ((Renderer.new target).emit sentences).output)
      simp only [deliver, hr, if_neg hempty, hwrite]
      cases r.pretty <;> exact ⟨_, rfl⟩

/-- A run on a text returns the number of lines that are refused. -/
theorem result_run_text {target : Option String} {format : Target}
    (htarget : Target.choose target = .ok format) (text : String) (out : Option String)
    (pretty : Bool) (aliases : Aliases)
    (hout : ∀ path, out = some path → path ≠ "" →
      ((numberedLines text).foldl (readLine aliases) h).files.Writable path) :
    (run ⟨text, true, target, out, pretty, aliases⟩ h).2 =
      .ok (failures format aliases (Text.lines text)) := by
  have hprepare : prepare h.files ⟨text, true, target, out, pretty, aliases⟩ =
      .ok (format, text) := by
    simp only [prepare, htarget]
    rfl
  obtain ⟨h', hdeliver⟩ := exists_deliver ⟨text, true, target, out, pretty, aliases⟩ format
    ((numberedLines text).filterMap (sentence? aliases)) hout
  simp only [run, hprepare, hdeliver, countP_sentence? format]

/-- A run on a file with the text in UTF-8 does what a run on the text does: it leaves the same
    output, errors and files behind and ends in the same way, also if the format is unknown or the
    renderings cannot be handed over. With a known format, and with nothing to be written or a
    file that can be written once the lines are read, both return the number of lines that are
    refused. -/
theorem run_file_eq_run_text {path text : String} {place : Place} (hpath : isSupported path)
    (hfile : h.files.find path = .ok (place, some (.file text.toUTF8)))
    (target out : Option String) (pretty : Bool) (aliases : Aliases) :
    run ⟨path, false, target, out, pretty, aliases⟩ h =
        run ⟨text, true, target, out, pretty, aliases⟩ h ∧
      ∀ format, Target.choose target = .ok format →
        (∀ name, out = some name → name ≠ "" →
          ((numberedLines text).foldl (readLine aliases) h).files.Writable name) →
        (run ⟨path, false, target, out, pretty, aliases⟩ h).2 =
          .ok (failures format aliases (Text.lines text)) := by
  have hrun : run ⟨path, false, target, out, pretty, aliases⟩ h =
      run ⟨text, true, target, out, pretty, aliases⟩ h := by
    have hprepare := prepare_file hpath hfile target out pretty aliases
    unfold run
    rw [hprepare]
    cases hchoose : Target.choose target with
    | error e => simp only [prepare, hchoose]; rfl
    | ok format =>
      have htext : prepare h.files ⟨text, true, target, out, pretty, aliases⟩ =
          .ok (format, text) := by
        simp only [prepare, hchoose]
        rfl
      simp only [htext, Except.map, numberedLines_unifyNewlines]
      rfl
  refine ⟨hrun, fun format hformat hout => ?_⟩
  rw [hrun]
  exact result_run_text hformat text out pretty aliases hout

/-- The renderings replace the file they come from. Carriage returns, line feeds, pairs of them and
    a line separator end its lines, a byte order mark stands before the first, and the third and the
    seventh are refused. -/
theorem run_file_eq_run_text_of_overwritten :
    let text := "\ufeffmi moku\r\r\njan li\rjan li moku\r\n\n\u2028x"
    let h := Host.new ⟨[(["a.tp"], .file text.toUTF8)]⟩ ⟨default, "", false⟩
    let output := "(mi)li(moku)\n(jan)li(moku)\n"
    let stderr := "[error] line 3: EmptyVerbPhrase\n[error] line 7: UnrecognizedWord('x')\n"
    (isSupported "a.tp" ∧ h.files.find "a.tp" = .ok (["a.tp"], some (.file text.toUTF8)) ∧
        Target.choose (some "canonical") = .ok .canonical ∧ h.files.Writable "a.tp") ∧
      run ⟨"a.tp", false, some "canonical", some "a.tp", false, Aliases.empty⟩ h =
        ({ h with files := h.files.putText ["a.tp"] output, stderr := stderr }, .ok 2) ∧
      (run ⟨"a.tp", false, some "canonical", some "a.tp", true, Aliases.empty⟩ h).2 = .ok 2 := by
  intro text h output stderr
  have hpath : isSupported "a.tp" := by decide
  have hquiet : h.Quiet := Host.quiet_new _ _
  have htarget : Target.choose (some "canonical") = .ok .canonical := by decide +kernel
  have hfollow : h.files.follow "a.tp" ["a.tp"] = .ok (["a.tp"], some (.file text.toUTF8)) :=
    Directory.follow_eq_ok_iff.mpr ⟨⟨by simp, by decide, by decide⟩, rfl, rfl⟩
  have hwritable : h.files.Writable "a.tp" := ⟨_, _, hfollow, by simp⟩
  have hwrite : h.files.writeText "a.tp" output = .ok (h.files.putText ["a.tp"] output) := by
    have hfind : h.files.findForWriting "a.tp" = .ok (["a.tp"], some (.file text.toUTF8)) := hfollow
    rw [Directory.writeText, hfind]
    rfl
  have houtput : stacked (renderings .canonical Aliases.empty (Text.lines text)) = output := by
    decide +kernel
  have hstderr : h.stderr ++ String.join (complaints .canonical Aliases.empty (Text.lines text)) =
      stderr := by
    decide +kernel
  have hfailures : failures .canonical Aliases.empty (Text.lines text) = 2 := by decide +kernel
  have hlower : Text.lower "canonical" = Target.canonical.name := by decide +kernel
  obtain ⟨hplain, -⟩ := run_file_eq_run_text hpath hfollow (some "canonical") (some "a.tp") false
    Aliases.empty
  obtain ⟨-, hpretty⟩ := run_file_eq_run_text hpath hfollow (some "canonical") (some "a.tp") true
    Aliases.empty
  refine ⟨⟨hpath, hfollow, htarget, hwritable⟩, ?_, ?_⟩
  · rw [hplain, run_of_lines hlower Aliases.empty text (some "a.tp") hquiet]
    have hfiles (complaint : String) : (h.complain complaint).files = h.files := rfl
    have hpath' : "a.tp".isEmpty = false := by decide
    simp only [houtput, hfailures, hpath', hfiles, hwrite, Bool.false_eq_true, if_false]
    rw [Host.complain, hstderr]
  · rw [hpretty .canonical htarget ?_, hfailures]
    rintro _ ⟨⟩ -
    rw [foldl_readLine hquiet]
    exact hwritable

end TokiPona.Batch
