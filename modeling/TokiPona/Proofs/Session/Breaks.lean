import TokiPona.Proofs.Aliases.Spelling
import TokiPona.Proofs.Session
import TokiPona.Proofs.Text.Cut
import TokiPona.Proofs.Text.Plain

/-!
What breaks a session.

Two things do: the list of the aliases cannot be printed if there is a surrogate in one of them, and
a sentence may be too deep for the stack (`Session.Breaks`). Every other line ends the session or
does one of the four things to the settings that `Session.Changes` lists (`Session.turnOn_cases`).
Each of these keeps the settings sound, so the output format is found at every request, and none
adds an alias with a surrogate (`Session.sound_of_mem_requests`). Lines that are no commands change
nothing, so the rest of the session goes on as if they were not there
(`Session.converseOn_eraseIdx`).
-/

namespace TokiPona

namespace Session

/-- The settings of a session at each request for a line, and the line that is then given. Behind
    the last line there is none. -/
def requests (stack : Stack) (s : Session) : List String → List (Session × Option String)
  | [] => [(s, none)]
  | line :: rest =>
    (s, some line) :: match (s.turnOn stack line).next with
      | .go s' => s'.requests stack rest
      | _ => []

/-- What is printed on a request. -/
def replyTo (stack : Stack) : Session × Option String → String
  | (s, some line) => (s.turnOn stack line).printed
  | (_, none) => farewell

/-- The target names a format, in any letter case, and the aliases came about by their
    operations. -/
structure Sound (s : Session) : Prop where
  target : ∃ name, s.target = some name ∧ Text.lower name ∈ Target.all.map Target.name
  aliases : s.aliases.Reachable

/-- A blank line, a comment or a sentence, be it a well-formed one or not. -/
def IsIdle (line : String) : Prop :=
  Text.trim line = "" ∨ Text.startsWith (Text.trim line) "#" ∨ IsSentenceLine line

instance (line : String) : Decidable (IsIdle line) :=
  inferInstanceAs (Decidable (_ ∨ _))

/-- The commands that are refused: a target that no format has, an alias that is not written
    `ALIAS=WORD` or cannot be added, and a command that there is not. -/
inductive Refuses (s : Session) (line : String) : Prop
  | target {name : String} (hcommand : commandOf? (Text.trim line) = some ("target", name))
      (hname : Text.lower name ∉ Target.all.map Target.name)
  | malformed {text : String} (hcommand : commandOf? (Text.trim line) = some ("alias", text))
      (htext : '=' ∉ text.toList)
  | conflicting {name w : String}
      (hcommand : commandOf? (Text.trim line) = some ("alias", name ++ "=" ++ w))
      (hname : '=' ∉ name.toList) {e : MappingError}
      (hconfigure : s.aliases.configure [(.str (Text.trim name), .str (Text.trim w))] = .error e)
  | unknown {name argument : String}
      (hcommand : commandOf? (Text.trim line) = some (name, argument))
      (hname : name ∉ ["target", "aliases", "alias"])

/-- The lines that break a session, and with what: the command that lists the aliases, if there is a
    surrogate in one of them, and a sentence that is too deep for the stack. -/
inductive Breaks (stack : Stack) (s : Session) (line : String) : Failure → Prop
  | listing {argument : String}
      (hcommand : commandOf? (Text.trim line) = some ("aliases", argument))
      (hsurrogate : s.aliases.HasSurrogate) :
      Breaks stack s line (.unencodable (s.aliases.report ++ "\n"))
  | depth {words : List Word} {taken : Nat} (hline : IsSentenceLine line)
      (hwords : tokenize s.aliases (Text.trim line) = .ok words)
      (hdeep : stack s words = some taken) : Breaks stack s line .tooDeep

/-- What a line can do to the settings. -/
inductive Changes (s : Session) : Session → Prop
  | nothing : Changes s s
  | verbose : Changes s { s with verbose := !s.verbose }
  | target (t : Target) : Changes s { s with target := some t.name }
  | aliases {name w : String} {aliases : Aliases}
      (hconfigure : s.aliases.configure [(.str name, .str w)] = .ok aliases) :
      Changes s { s with aliases := aliases }

section Step

variable {stack : Stack} {s s' : Session} {line : String}

theorem Sound.changes (hs : s.Sound) (hchanges : s.Changes s') : s'.Sound := by
  cases hchanges with
  | nothing => exact hs
  | verbose => exact ⟨hs.target, hs.aliases⟩
  | target t =>
    refine ⟨⟨t.name, rfl, ?_⟩, hs.aliases⟩
    cases t <;> decide +kernel
  | aliases hconfigure => exact ⟨hs.target, hs.aliases.configure hconfigure⟩

theorem Changes.hasSurrogate_iff (hchanges : s.Changes s') :
    s'.aliases.HasSurrogate ↔ s.aliases.HasSurrogate := by
  cases hchanges with
  | nothing | verbose | target => rfl
  | aliases hconfigure => exact Aliases.hasSurrogate_of_configure hconfigure

theorem changes_setTarget (name : String) : s.Changes (s.setTarget name).1 := by
  unfold setTarget
  split
  · exact .nothing
  · next t _ => exact .target t

theorem changes_addAlias (text : String) : s.Changes (s.addAlias text).1 := by
  unfold addAlias
  split
  · exact .nothing
  · dsimp only
    split
    · exact .nothing
    · next aliases hconfigure => exact .aliases hconfigure

theorem changes_obey (name argument : String) : s.Changes (s.obey name argument).1 := by
  unfold obey
  split_ifs
  · exact changes_setTarget argument
  · exact .nothing
  · exact changes_addAlias argument
  · exact .nothing

theorem say_ofString (s : Session) (text : String) : s.say text = ⟨[], text, .go s⟩ := by
  rw [say, LooseText.toString?_ofString]

theorem say_of_hasSurrogate {text : LooseText} (htext : text.HasSurrogate) :
    s.say text = ⟨[], "", .broken (.unencodable text)⟩ := by
  rw [say, LooseText.toString?_eq_none_iff.mpr htext]

theorem exists_say_of_not_hasSurrogate {text : LooseText} (htext : ¬ text.HasSurrogate) :
    ∃ printed, s.say text = ⟨[], printed, .go s⟩ := by
  obtain ⟨printed, rfl⟩ := LooseText.exists_eq_ofString_iff.mpr htext
  exact ⟨printed, say_ofString s printed⟩

theorem hasSurrogate_showAliases :
    s.showAliases.HasSurrogate ↔ s.aliases.HasSurrogate := by
  rw [showAliases, ← Aliases.hasSurrogate_report]
  split
  · next hempty =>
    have hpoints : s.aliases.report.points = [] := List.isEmpty_iff.mp hempty
    have hplain : ¬ s.aliases.report.HasSurrogate := fun ⟨index, hmem⟩ => by simp [hpoints] at hmem
    exact iff_of_false (LooseText.not_hasSurrogate_ofString _) hplain
  · simp

theorem showAliases_of_hasSurrogate (hsurrogate : s.aliases.HasSurrogate) :
    s.showAliases = s.aliases.report ++ "\n" := by
  obtain ⟨index, hmem⟩ := (Aliases.hasSurrogate_report s.aliases).mpr hsurrogate
  have hne : s.aliases.report.isEmpty = false :=
    LooseText.isEmpty_eq_false_iff.mpr (List.ne_nil_of_mem hmem)
  simp [showAliases, hne]

theorem not_hasSurrogate_refusal {name w : String} {e : MappingError}
    (hconfigure : s.aliases.configure [(.str name, .str w)] = .error e) :
    ¬ (refusal e).HasSurrogate := by
  obtain ⟨hmessage, hconflicts⟩ := Aliases.not_hasSurrogate_of_refused hconfigure
  simpa [refusal, hmessage] using hconflicts

/-- Only the list of the aliases can have a surrogate in it. -/
theorem not_hasSurrogate_obey {name : String} (hname : name ≠ "aliases") (argument : String) :
    ¬ (s.obey name argument).2.HasSurrogate := by
  unfold obey
  split_ifs with htarget haliases halias
  · unfold setTarget
    split <;> exact LooseText.not_hasSurrogate_ofString _
  · exact absurd (eq_of_beq haliases) hname
  · unfold addAlias
    split
    · exact LooseText.not_hasSurrogate_ofString _
    · dsimp only
      split
      · next hconfigure => exact not_hasSurrogate_refusal hconfigure
      · exact LooseText.not_hasSurrogate_ofString _
  · exact LooseText.not_hasSurrogate_ofString _

theorem obey_aliases (argument : String) : s.obey "aliases" argument = (s, s.showAliases) := by
  simp [obey]

/-- The output format is found, so a sentence that fits on the stack is answered. -/
theorem Sound.exists_answer (hs : s.Sound) (line : String) :
    ∃ notes text, s.answer line = (notes, .ok text) := by
  obtain ⟨name, htarget, hname⟩ := hs.target
  obtain ⟨t, -, hname⟩ := List.mem_map.mp hname
  suffices hanswer : ∃ text, (s.answer line).2 = .ok text by
    obtain ⟨text, hanswer⟩ := hanswer
    exact ⟨(s.answer line).1, text, Prod.ext rfl hanswer⟩
  unfold answer
  dsimp only
  split
  · exact ⟨_, rfl⟩
  · rw [renderSentence, htarget, Target.choose_of_lower hname.symm]
    cases s.verbose <;> exact ⟨_, rfl⟩

theorem answerOn_of_some {words : List Word} {taken : Nat}
    (hwords : tokenize s.aliases line = .ok words) (hdeep : stack s words = some taken) :
    (s.answerOn stack line).next = .broken .tooDeep := by
  have hbind : (tokenize s.aliases line).toOption.bind (stack s) = some taken := by
    rw [hwords]
    exact hdeep
  rw [answerOn, hbind]

/-- A sentence that fits on the stack leaves the settings alone. -/
theorem answerOn_cases (hs : s.Sound) (line : String) :
    (s.answerOn stack line).next = .go s ∨
      (s.answerOn stack line).next = .broken .tooDeep ∧ ∃ words taken,
        tokenize s.aliases line = .ok words ∧ stack s words = some taken := by
  cases hwords : tokenize s.aliases line with
  | error e =>
    obtain ⟨notes, text, hanswer⟩ := hs.exists_answer line
    have hbind : (tokenize s.aliases line).toOption.bind (stack s) = none := by
      rw [hwords]
      rfl
    rw [answerOn, hbind, hanswer]
    exact .inl rfl
  | ok words =>
    cases hdeep : stack s words with
    | none =>
      obtain ⟨notes, text, hanswer⟩ := hs.exists_answer line
      have hbind : (tokenize s.aliases line).toOption.bind (stack s) = none := by
        rw [hwords]
        exact hdeep
      rw [answerOn, hbind, hanswer]
      exact .inl rfl
    | some taken => exact .inr ⟨answerOn_of_some hwords hdeep, words, taken, rfl, hdeep⟩

theorem head?_of_commandOf? {name argument : String}
    (hcommand : commandOf? line = some (name, argument)) : line.toList.head? = some ':' := by
  unfold commandOf? at hcommand
  split at hcommand
  · next rest hcolon => rw [hcolon, List.head?_cons]
  · cases hcommand

/-- A command is no line of another kind, as no other line begins with a colon. -/
theorem turnOn_of_commandOf? {name argument : String}
    (hcommand : commandOf? (Text.trim line) = some (name, argument)) :
    s.turnOn stack line = (s.obey name argument).1.say (s.obey name argument).2 := by
  have hhead := head?_of_commandOf? hcommand
  have hne (text : String) (htext : text.toList.head? ≠ some ':') : Text.trim line ≠ text := by
    rintro rfl
    exact htext hhead
  obtain ⟨rest, hcolon⟩ := List.head?_eq_some_iff.mp hhead
  have hcomment : Text.startsWith (Text.trim line) "#" = false := by
    rw [Text.startsWith, hcolon]
    rfl
  have hswitch : Text.lower (Text.trim line) ≠ "verbose-mode" := by
    have hlowered : Text.IsLowered ':' := by decide +kernel
    intro heq
    have hhead := congrArg (fun text => text.toList.head?) heq
    simp [Text.lower, hcolon, Text.lowerFrom, hlowered.lowerChar_eq] at hhead
  have hexit := hne "exit" (by decide)
  have hquit := hne "quit" (by decide)
  have hblank := hne "" (by decide)
  unfold turnOn
  simp [hexit, hquit, hblank, hcomment, hswitch, command, hcommand]

theorem turnOn_of_breaks {e : Failure} (hbreaks : s.Breaks stack line e) :
    (s.turnOn stack line).next = .broken e := by
  cases hbreaks with
  | listing hcommand hsurrogate =>
    rw [turnOn_of_commandOf? hcommand, obey_aliases,
      say_of_hasSurrogate (hasSurrogate_showAliases.mpr hsurrogate),
      showAliases_of_hasSurrogate hsurrogate]
  | depth hline hwords hdeep =>
    rw [turnOn_of_isSentenceLine stack s hline, answerOn_of_some hwords hdeep]

theorem turnOn_of_command {name argument : String}
    (hcommand : commandOf? (Text.trim line) = some (name, argument)) :
    (∃ s', (s.turnOn stack line).next = .go s' ∧ s.Changes s') ∨
      ∃ e, (s.turnOn stack line).next = .broken e ∧ s.Breaks stack line e := by
  rw [turnOn_of_commandOf? hcommand]
  by_cases hloose : (s.obey name argument).2.HasSurrogate
  · obtain rfl : name = "aliases" :=
      of_not_not fun hname => not_hasSurrogate_obey hname argument hloose
    rw [obey_aliases] at hloose ⊢
    have hsurrogate := hasSurrogate_showAliases.mp hloose
    rw [say_of_hasSurrogate hloose, showAliases_of_hasSurrogate hsurrogate]
    exact .inr ⟨_, rfl, .listing hcommand hsurrogate⟩
  · obtain ⟨printed, hsay⟩ := exists_say_of_not_hasSurrogate hloose
    rw [hsay]
    exact .inl ⟨_, rfl, changes_obey name argument⟩

theorem turnOn_of_sentence (hs : s.Sound) (hline : IsSentenceLine line) :
    (s.turnOn stack line).next = .go s ∨
      ∃ e, (s.turnOn stack line).next = .broken e ∧ s.Breaks stack line e := by
  rw [turnOn_of_isSentenceLine stack s hline]
  rcases answerOn_cases hs (Text.trim line) with hgo | ⟨hbroken, words, taken, hwords, hdeep⟩
  · exact .inl hgo
  · exact .inr ⟨.tooDeep, hbroken, .depth hline hwords hdeep⟩

/-- A line ends the session, changes its settings in one of the ways there are, or breaks it. -/
theorem turnOn_cases (stack : Stack) (hs : s.Sound) (line : String) :
    (s.turnOn stack line).next = .leave ∨
      (∃ s', (s.turnOn stack line).next = .go s' ∧ s.Changes s') ∨
      ∃ e, (s.turnOn stack line).next = .broken e ∧ s.Breaks stack line e := by
  cases hcommand : commandOf? (Text.trim line) with
  | some c => exact .inr (turnOn_of_command hcommand)
  | none =>
    by_cases hline : IsSentenceLine line
    · refine .inr ?_
      rcases turnOn_of_sentence hs hline with hgo | hbroken
      · exact .inl ⟨s, hgo, .nothing⟩
      · exact .inr hbroken
    · unfold turnOn
      dsimp only
      split
      · exact .inl rfl
      · next hleaves =>
        refine .inr (.inl ?_)
        split
        · exact ⟨s, rfl, .nothing⟩
        · next hsilent =>
          split
          · exact ⟨_, rfl, .verbose⟩
          · next hswitch =>
            -- A line of no other kind is a sentence.
            simp only [Bool.or_eq_true, beq_iff_eq, String.isEmpty_iff, not_or] at hleaves hsilent
            exact absurd ⟨hsilent.1, hleaves.1, hleaves.2, hsilent.2,
              commandOf?_eq_none_iff.mp hcommand, by simpa using hswitch⟩ hline

/-- A line breaks a session exactly if it is one of those that do. -/
theorem next_eq_broken_iff (hs : s.Sound) {e : Failure} :
    (s.turnOn stack line).next = .broken e ↔ s.Breaks stack line e := by
  refine ⟨fun hbroken => ?_, turnOn_of_breaks⟩
  rcases turnOn_cases stack hs line with hleave | ⟨s', hgo, -⟩ | ⟨e', hbroken', hbreaks⟩
  · cases hleave.symm.trans hbroken
  · cases hgo.symm.trans hbroken
  · cases hbroken'.symm.trans hbroken
    exact hbreaks

theorem next_turnOn_of_isIdle (hs : s.Sound) (hline : IsIdle line)
    (hunbroken : ∀ e, ¬ s.Breaks stack line e) : (s.turnOn stack line).next = .go s := by
  rcases hline with hblank | hcomment | hsentence
  · unfold turnOn
    rw [hblank]
    rfl
  · have hexit : Text.trim line ≠ "exit" := fun heq => by simp [heq, Text.startsWith] at hcomment
    have hquit : Text.trim line ≠ "quit" := fun heq => by simp [heq, Text.startsWith] at hcomment
    unfold turnOn
    simp [hexit, hquit, hcomment]
  · rcases turnOn_of_sentence hs hsentence with hgo | ⟨e, -, hbreaks⟩
    · exact hgo
    · exact absurd hbreaks (hunbroken e)

theorem setTarget_of_unknown {name : String}
    (hname : Text.lower name ∉ Target.all.map Target.name) :
    ∃ why : String, s.setTarget name = (s, ↑(errorMark ++ why)) := by
  have hnone : Target.ofName? (Text.lower name) = none := by
    rw [Target.ofName?, List.find?_eq_none]
    intro t ht heq
    exact hname (List.mem_map.mpr ⟨t, ht, beq_iff_eq.mp heq⟩)
  have hmark : "[error] >>> Unknown target: " = errorMark ++ "Unknown target: " := by decide
  unfold setTarget
  rw [hnone, hmark]
  simp only [String.append_assoc]
  exact ⟨_, rfl⟩

theorem addAlias_of_cutFirst {text left : String} (hcut : Text.cutFirst '=' text = (left, none)) :
    ∃ why : String, s.addAlias text = (s, ↑(errorMark ++ why)) := by
  refine ⟨"Usage: :alias ALIAS=WORD\n", ?_⟩
  rw [addAlias, hcut]
  rfl

theorem exists_refusal {name w : String} {e : MappingError}
    (hconfigure : s.aliases.configure [(.str name, .str w)] = .error e) :
    ∃ why : String, refusal e = ↑(errorMark ++ why) := by
  have hplain := not_hasSurrogate_refusal hconfigure
  rw [refusal, LooseText.append_assoc, LooseText.append_assoc] at hplain ⊢
  obtain ⟨why, hwhy⟩ := LooseText.exists_eq_ofString_iff.mpr
    (not_or.mp (mt LooseText.hasSurrogate_append.mpr hplain)).2
  exact ⟨why, by rw [hwhy, LooseText.ofString_append]; rfl⟩

theorem addAlias_of_conflicting {name w : String} (hname : '=' ∉ name.toList) {e : MappingError}
    (hconfigure : s.aliases.configure [(.str (Text.trim name), .str (Text.trim w))] = .error e) :
    ∃ why : String, s.addAlias (name ++ "=" ++ w) = (s, ↑(errorMark ++ why)) := by
  unfold addAlias
  rw [show "=" = String.singleton '=' from rfl, Text.cutFirst_append hname]
  dsimp only
  rw [hconfigure]
  obtain ⟨why, hwhy⟩ := exists_refusal hconfigure
  exact ⟨why, congrArg _ hwhy⟩

/-- A command that is refused is answered with an error, and the settings stay. -/
theorem turnOn_of_refuses (stack : Stack) (hrefuses : s.Refuses line) :
    ∃ why, s.turnOn stack line = ⟨[], errorMark ++ why, .go s⟩ := by
  suffices hobey : ∃ name argument, ∃ why : String,
      commandOf? (Text.trim line) = some (name, argument) ∧
        s.obey name argument = (s, ↑(errorMark ++ why)) by
    obtain ⟨name, argument, why, hcommand, hobey⟩ := hobey
    exact ⟨why, by rw [turnOn_of_commandOf? hcommand, hobey, say_ofString]⟩
  cases hrefuses with
  | @target name hcommand hname =>
    obtain ⟨why, hwhy⟩ := setTarget_of_unknown (s := s) hname
    exact ⟨"target", name, why, hcommand, hwhy⟩
  | @malformed text hcommand htext =>
    obtain ⟨why, hwhy⟩ := addAlias_of_cutFirst (s := s) (Text.cutFirst_of_not_mem htext)
    exact ⟨"alias", text, why, hcommand, hwhy⟩
  | @conflicting name w hcommand hname e hconfigure =>
    obtain ⟨why, hwhy⟩ := addAlias_of_conflicting hname hconfigure
    exact ⟨"alias", name ++ "=" ++ w, why, hcommand, hwhy⟩
  | @unknown name argument hcommand hname =>
    have hmark : "[error] >>> Unknown command: :" = errorMark ++ "Unknown command: :" := by decide
    refine ⟨name, argument, "Unknown command: :" ++ name ++ "\n", hcommand, ?_⟩
    simp only [List.mem_cons, List.not_mem_nil, or_false, not_or] at hname
    simp [obey, hname, hmark, String.append_assoc]

/-- Words that are spelled out are a sentence, whatever they say. -/
theorem isSentenceLine_spell {words : List Word} (hwords : words ≠ []) :
    IsSentenceLine (spell words) := by
  have hchunks : Text.chunks (Text.trim (spell words)) = words.map Word.spelling := by
    rw [Text.chunks_trim, chunks_spell]
  have hchars : ∀ c ∈ (Text.trim (spell words)).toList, c.isLower ∨ c = ' ' := by
    intro c hc
    rw [Text.trim, String.toList_ofList] at hc
    exact isLower_or_eq_of_mem_spell (Text.mem_of_mem_dropEnds hc)
  have hcommand (name : String) (hname : Text.chunks name = [name])
      (hno : Word.ofSpelling? name = none) : Text.trim (spell words) ≠ name := by
    intro heq
    rw [heq, hname] at hchunks
    obtain ⟨w, -, hw⟩ := List.mem_map.mp (hchunks ▸ List.mem_singleton_self name)
    rw [← hw, Word.ofSpelling?_spelling] at hno
    cases hno
  have hstart (mark : Char) (hmark : ¬ (mark.isLower ∨ mark = ' ')) :
      ¬ Text.startsWith (Text.trim (spell words)) (String.singleton mark) := by
    intro hprefix
    obtain ⟨rest, hrest⟩ := List.isPrefixOf_iff_prefix.mp hprefix
    exact hmark (hchars mark (by simp [← hrest]))
  refine ⟨fun heq => hwords ?_, hcommand _ (by decide) (by decide), hcommand _ (by decide)
    (by decide), hstart '#' (by decide), hstart ':' (by decide), fun heq => ?_⟩
  · rw [heq] at hchunks
    exact List.map_eq_nil_iff.mp hchunks.symm
  · have hlowered : ∀ c ∈ (Text.trim (spell words)).toList, Text.IsLowered c := by
      intro c hc
      rcases hchars c hc with hlower | rfl
      · exact Text.isLowered_of_isLower hlower
      · decide +kernel
    rw [Text.lower, Text.lowerFrom_of_isLowered hlowered, String.ofList_toList] at heq
    exact absurd (hchars '-' (by simp [heq])) (by decide)

/-- The words of a vocabulary line are read back, whatever aliases there are. -/
theorem tokenize_spell {aliases : Aliases} (haliases : aliases.Valid) (words : List Word) :
    tokenize aliases (spell words) = .ok words :=
  tokenize_of_extends .empty haliases aliases.extends_empty
    (tokenize_of_chunks (chunks_spell words))

/-- Words that are too deep for the stack break a session when they are spelled out. -/
theorem breaks_of_spell (hs : s.Sound) {words : List Word} {taken : Nat} (hwords : words ≠ [])
    (hdeep : stack s words = some taken) : s.Breaks stack (spell words) .tooDeep := by
  refine .depth (isSentenceLine_spell hwords) ?_ hdeep
  rw [tokenize_trim, tokenize_spell hs.aliases.valid]

end Step

section Run

variable {stack : Stack} {s s' : Session} {line : String}

theorem requests_of_go (hgo : (s.turnOn stack line).next = .go s') (rest : List String) :
    s.requests stack (line :: rest) = (s, some line) :: s'.requests stack rest := by
  rw [requests, hgo]

theorem replies_of_go (hgo : (s.turnOn stack line).next = .go s') (rest : List String) :
    (s.converseOn stack (line :: rest)).replies =
      (s.turnOn stack line).printed :: (s'.converseOn stack rest).replies := by
  rw [converseOn, hgo]

theorem failure_of_go (hgo : (s.turnOn stack line).next = .go s') (rest : List String) :
    (s.converseOn stack (line :: rest)).failure = (s'.converseOn stack rest).failure := by
  rw [converseOn, hgo]

/-- Whatever the lines are, the settings are sound at every request, and no alias with a surrogate
    has come in. -/
theorem sound_of_mem_requests (hs : s.Sound) {lines : List String} {r : Session × Option String}
    (hr : r ∈ s.requests stack lines) :
    r.1.Sound ∧ (r.1.aliases.HasSurrogate ↔ s.aliases.HasSurrogate) := by
  induction lines generalizing s with
  | nil =>
    obtain rfl := List.mem_singleton.mp hr
    exact ⟨hs, Iff.rfl⟩
  | cons line rest ih =>
    rw [requests, List.mem_cons] at hr
    rcases hr with rfl | hr
    · exact ⟨hs, Iff.rfl⟩
    · rcases turnOn_cases stack hs line with
        hleave | ⟨next, hgo, hchanges⟩ | ⟨e, hbroken, -⟩
      · rw [hleave] at hr
        cases hr
      · rw [hgo] at hr
        obtain ⟨hsound, hsurrogate⟩ := ih (hs.changes hchanges) hr
        exact ⟨hsound, hsurrogate.trans hchanges.hasSurrogate_iff⟩
      · rw [hbroken] at hr
        cases hr

/-- A session is broken off exactly by a line that breaks it in the settings that it is read in. -/
theorem failure_converseOn_iff (hs : s.Sound) (lines : List String) (e : Failure) :
    (s.converseOn stack lines).failure = some e ↔
      ∃ s' line, (s', some line) ∈ s.requests stack lines ∧ s'.Breaks stack line e := by
  induction lines generalizing s with
  | nil => simp [converseOn, requests]
  | cons line rest ih =>
    have hhead : s.Breaks stack line e ↔ (s.turnOn stack line).next = .broken e :=
      (next_eq_broken_iff hs).symm
    simp only [converseOn, requests, List.mem_cons, or_and_right, exists_or, Prod.mk.injEq,
      Option.some.injEq, and_assoc]
    rcases turnOn_cases stack hs line with
      hleave | ⟨next, hgo, hchanges⟩ | ⟨e', hbroken, -⟩
    · simp [hhead, hleave]
    · simp [hhead, hgo, ih (hs.changes hchanges)]
    · simp [hhead, hbroken]

/-- Each reply is the one to its line in the settings at that request. -/
theorem replies_converseOn (stack : Stack) (s : Session) (lines : List String) :
    (s.converseOn stack lines).replies = (s.requests stack lines).map (replyTo stack) := by
  induction lines generalizing s with
  | nil => rfl
  | cons line rest ih =>
    rw [converseOn, requests]
    cases (s.turnOn stack line).next with
    | go next => simp [ih, replyTo]
    | leave => simp [replyTo]
    | broken e => simp [replyTo]

/-- A line that is no command and does not break the session may as well be left out: at the other
    requests nothing else is printed, and the session ends in the same way. -/
theorem converseOn_eraseIdx (hs : s.Sound) (hline : IsIdle line) {before : List String}
    (behind : List String)
    (hunbroken : (s.converseOn stack (before ++ [line])).failure =
      (s.converseOn stack before).failure) :
    (s.converseOn stack (before ++ behind)).replies =
        (s.converseOn stack (before ++ line :: behind)).replies.eraseIdx before.length ∧
      (s.converseOn stack (before ++ behind)).failure =
        (s.converseOn stack (before ++ line :: behind)).failure := by
  induction before generalizing s with
  | nil =>
    have hgo : (s.turnOn stack line).next = .go s := by
      refine next_turnOn_of_isIdle hs hline fun e hbreaks => ?_
      simp [converseOn, turnOn_of_breaks hbreaks] at hunbroken
    rw [List.nil_append, List.nil_append, replies_of_go hgo, failure_of_go hgo]
    exact ⟨rfl, rfl⟩
  | cons first before ih =>
    rcases turnOn_cases stack hs first with
      hleave | ⟨next, hgo, hchanges⟩ | ⟨e, hbroken, -⟩
    · simp [converseOn, hleave]
    · simp only [List.cons_append, List.length_cons, replies_of_go hgo, failure_of_go hgo,
        List.eraseIdx_cons_succ] at hunbroken ⊢
      obtain ⟨hreplies, hfailure⟩ := ih (hs.changes hchanges) hunbroken
      exact ⟨by rw [hreplies], hfailure⟩
    · simp [converseOn, hbroken]

end Run

/-- A session that begins with the name of a format and a table of aliases that can come about is
    broken off exactly by a request to list the aliases when one of them has a surrogate, which it
    then had from the beginning, and by a sentence that is too deep for the stack. At every request
    its target names a format and its aliases are valid, and neither a line that is no command nor a
    command that is refused changes the settings. So without a line that is no command and does not
    break the session the replies to the other lines are the same, and so is the end. -/
theorem converse_broken_iff (stack : Stack) (name : String)
    (hname : Text.lower name ∈ Target.all.map Target.name) (aliases : Aliases)
    (haliases : aliases.Reachable) (verbose : Bool) (lines : List String) :
    let s : Session := ⟨some name, aliases, verbose⟩
    (∀ e, (s.converseOn stack lines).failure = some e ↔
      ∃ s' line, (s', some line) ∈ s.requests stack lines ∧ s'.Breaks stack line e) ∧
      (s.converseOn stack lines).replies = (s.requests stack lines).map (replyTo stack) ∧
      (∀ r ∈ s.requests stack lines,
        (∃ name', r.1.target = some name' ∧ Text.lower name' ∈ Target.all.map Target.name) ∧
        r.1.aliases.Valid ∧ (r.1.aliases.HasSurrogate ↔ aliases.HasSurrogate) ∧
        (∀ line, IsIdle line → (∀ e, ¬ r.1.Breaks stack line e) →
          (r.1.turnOn stack line).next = .go r.1) ∧
        ∀ line, r.1.Refuses line →
          ∃ why, r.1.turnOn stack line = ⟨[], errorMark ++ why, .go r.1⟩) ∧
      ∀ before line behind, lines = before ++ line :: behind → IsIdle line →
        (s.converseOn stack (before ++ [line])).failure =
          (s.converseOn stack before).failure →
        (s.converseOn stack (before ++ behind)).replies =
            (s.converseOn stack lines).replies.eraseIdx before.length ∧
          (s.converseOn stack (before ++ behind)).failure =
            (s.converseOn stack lines).failure := by
  intro s
  have hs : s.Sound := ⟨⟨name, rfl, hname⟩, haliases⟩
  refine ⟨failure_converseOn_iff hs lines, replies_converseOn stack s lines, ?_, ?_⟩
  · intro r hr
    obtain ⟨hsound, hsurrogate⟩ := sound_of_mem_requests hs hr
    exact ⟨hsound.target, hsound.aliases.valid, hsurrogate,
      fun line => next_turnOn_of_isIdle hsound, fun line => turnOn_of_refuses stack⟩
  · rintro before line behind rfl hline hunbroken
    exact converseOn_eraseIdx hs hline behind hunbroken

/-- One command is refused for its target and one for an alias that already stands for another
    word. The line between them is refused as a sentence, and may as well be left out. A sentence
    in a context is too deep for the stack. -/
theorem converse_broken_iff_of_depth :
    let stack : Stack := fun _ words => if .la ∈ words then some 1 else none
    let s : Session := ⟨some "Tree", Aliases.defaults, false⟩
    let before := [" :Alias OTE = jan", ":target xml"]
    let deep := "mi la ote li moku"
    let behind := [":alias Ote=ona", deep, ":aliases"]
    let lines := before ++ "jan li" :: behind
    let s' : Session := ⟨some "Tree", ⟨[("ali", .ale), ("ote", .jan)]⟩, false⟩
    (Text.lower "Tree" ∈ Target.all.map Target.name ∧ Aliases.defaults.Reachable) ∧
      (s.converseOn stack lines).failure = some .tooDeep ∧
      ((s', some deep) ∈ s.requests stack lines ∧ s'.Breaks stack deep .tooDeep) ∧
      (s'.Refuses ":target xml" ∧ s'.Refuses ":alias Ote=ona" ∧ IsIdle "jan li") ∧
      (∃ why, s'.turnOn stack ":alias Ote=ona" = ⟨[], errorMark ++ why, .go s'⟩) ∧
      (s.converseOn stack (before ++ behind)).failure = some .tooDeep ∧
      (s.converseOn stack (before ++ behind)).replies =
        ["[ok] >>> OTE → jan\n",
          "[error] >>> Unknown target: 'xml' (choose from canonical, tree, json)\n",
          "[error] >>> Alias collision(s) detected\n - 'ote' → conflict between jan and ona\n",
          ""] := by
  intro stack s before deep behind lines s'
  have hname : Text.lower "Tree" ∈ Target.all.map Target.name := by decide +kernel
  have hfirst : s.turnOn stack " :Alias OTE = jan" = ⟨[], "[ok] >>> OTE → jan\n", .go s'⟩ := by
    decide +kernel
  have hsecond : s'.turnOn stack ":target xml" = ⟨[],
      "[error] >>> Unknown target: 'xml' (choose from canonical, tree, json)\n", .go s'⟩ := by
    decide +kernel
  have hgo₃ : (s'.turnOn stack "jan li").next = .go s' := by decide +kernel
  have hfourth : s'.turnOn stack ":alias Ote=ona" = ⟨[],
      "[error] >>> Alias collision(s) detected\n - 'ote' → conflict between jan and ona\n",
      .go s'⟩ := by
    decide +kernel
  have hprinted : (s'.turnOn stack deep).printed = "" := by decide +kernel
  have hsentence : IsSentenceLine deep := by decide +kernel
  have hwords : tokenize s'.aliases (Text.trim deep) = .ok [.mi, .la, .jan, .li, .moku] := by
    decide +kernel
  have hbreaks : s'.Breaks stack deep .tooDeep :=
    .depth hsentence hwords (show _ = some 1 by decide)
  have htarget : s'.Refuses ":target xml" :=
    .target (show commandOf? (Text.trim ":target xml") = some ("target", "xml") by decide +kernel)
      (by decide +kernel)
  have hclash : s'.aliases.configure [(.str (Text.trim "Ote"), .str (Text.trim "ona"))] =
      .error (.collisions [.clash "ote" .jan .ona]) := by
    decide +kernel
  have halias : s'.Refuses ":alias Ote=ona" :=
    .conflicting (show commandOf? (Text.trim ":alias Ote=ona") =
      some ("alias", "Ote" ++ "=" ++ "ona") by decide +kernel) (by decide) hclash
  have hidle : IsIdle "jan li" := by decide +kernel
  have hgo₁ := congrArg Turn.next hfirst
  have hgo₂ := congrArg Turn.next hsecond
  have hgo₄ := congrArg Turn.next hfourth
  have hlines : lines =
      [" :Alias OTE = jan", ":target xml", "jan li", ":alias Ote=ona", deep, ":aliases"] := rfl
  have hmem : (s', some deep) ∈ s.requests stack lines := by
    rw [hlines, requests_of_go hgo₁, requests_of_go hgo₂, requests_of_go hgo₃,
      requests_of_go hgo₄]
    exact .tail _ (.tail _ (.tail _ (.tail _ (.head _))))
  have hunbroken : (s.converseOn stack (before ++ ["jan li"])).failure =
      (s.converseOn stack before).failure := by
    rw [List.cons_append, failure_of_go hgo₁, failure_of_go hgo₁, List.cons_append,
      failure_of_go hgo₂, failure_of_go hgo₂, List.nil_append, failure_of_go hgo₃]
  obtain ⟨hbroken, -, hrequests, herase⟩ := converse_broken_iff stack "Tree" hname Aliases.defaults
    .defaults false lines
  have hfailure := (hbroken .tooDeep).mpr ⟨s', deep, hmem, hbreaks⟩
  obtain ⟨hreplies, hsame⟩ := herase before "jan li" behind rfl hidle hunbroken
  refine ⟨⟨hname, .defaults⟩, hfailure, ⟨hmem, hbreaks⟩, ⟨htarget, halias, hidle⟩,
    (hrequests _ hmem).2.2.2.2 _ halias, hsame.trans hfailure, ?_⟩
  rw [hreplies]
  change (s.converseOn stack lines).replies.eraseIdx 2 = _
  rw [hlines, replies_of_go hgo₁, replies_of_go hgo₂, replies_of_go hgo₃, replies_of_go hgo₄,
    converseOn, turnOn_of_breaks hbreaks]
  simp only [hfirst, hsecond, hfourth, hprinted, List.eraseIdx_cons_succ, List.eraseIdx_cons_zero]

/-- The aliases of a file are listed, and one of them is a surrogate by itself. Nothing is printed,
    and the line behind is not read. The other session gets a sentence in three thousand contexts,
    when the stack has place for some hundred. -/
theorem converse_broken_by_listing :
    let text := "\x7b\"\\ud800\": \"ala\"\x7d"
    let files : Directory := ⟨[(["a.json"], .file text.toUTF8)]⟩
    let aliases : Aliases := ⟨[("ali", .ale), (⟨[.surrogate 0]⟩, .ala)]⟩
    let stack : Stack := fun _ words => if 480 < words.count .la then some 0 else none
    let deep : List Word := (List.replicate 3000 [.mi, .la]).flatten ++ [.li]
    Text.lower "canonical" ∈ Target.all.map Target.name ∧
      Aliases.fromEnvironment files (some "a.json") = .ok aliases ∧
      converse ⟨some "canonical", aliases, false⟩ [":aliases", "mi moku"] =
        ⟨[""], [], 1, some (.unencodable (aliases.report ++ "\n"))⟩ ∧
      (converseOn stack ⟨some "canonical", Aliases.defaults, false⟩ [spell deep]).failure =
        some .tooDeep := by
  intro text files aliases stack deep
  have hname : Text.lower "canonical" ∈ Target.all.map Target.name := by decide +kernel
  have hread : files.readText "a.json" = .ok text :=
    Directory.readText_eq_ok ⟨by simp, by decide, by decide⟩ rfl rfl (by decide +kernel)
  have hloaded : Aliases.fromEnvironment files (some "a.json") = .ok aliases := by
    have hload : Aliases.defaults.load files "a.json" = .ok aliases := by
      rw [Aliases.load, hread]
      decide +kernel
    have hnamed : "a.json".isEmpty = false := by decide
    simp only [Aliases.fromEnvironment, Aliases.loadNamed, hnamed, hload, Bool.false_eq_true,
      if_false]
  refine ⟨hname, hloaded, ?_, ?_⟩
  · have hcommand : commandOf? (Text.trim ":aliases") = some ("aliases", "") := by decide +kernel
    have hsurrogate : aliases.HasSurrogate :=
      ⟨(⟨[.surrogate 0]⟩, .ala), by decide, 0, by decide⟩
    have hturn : turn ⟨some "canonical", aliases, false⟩ ":aliases" =
        ⟨[], "", .broken (.unencodable (aliases.report ++ "\n"))⟩ := by
      rw [turn, turnOn_of_commandOf? hcommand, obey_aliases,
        say_of_hasSurrogate (hasSurrogate_showAliases.mpr hsurrogate),
        showAliases_of_hasSurrogate hsurrogate]
    rw [converse_cons, hturn]
    rfl
  · have hs : Sound ⟨some "canonical", Aliases.defaults, false⟩ :=
      ⟨⟨"canonical", rfl, hname⟩, .defaults⟩
    have hcount (n : Nat) :
        ((List.replicate n [Word.mi, .la]).flatten ++ [Word.li]).count Word.la = n := by
      induction n with
      | zero => rfl
      | succ n ih =>
        rw [List.replicate_succ, List.flatten_cons, List.append_assoc, List.count_append, ih,
          Nat.add_comm]
        rfl
    have hstack : stack ⟨some "canonical", Aliases.defaults, false⟩ deep = some 0 := by
      refine if_pos ?_
      rw [hcount]
      decide
    have hne : deep ≠ [] := List.append_ne_nil_of_right_ne_nil _ (List.cons_ne_nil _ _)
    have hbreaks := breaks_of_spell hs hne hstack
    rw [converseOn, turnOn_of_breaks hbreaks]

end Session

end TokiPona
