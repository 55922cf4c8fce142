import TokiPona.Proofs.Session.Breaks

namespace TokiPona

namespace Aliases

open AliasConfig (spellingsIn)

/-- Spellings to which a table can give a word: in lower case none of them is a vocabulary word,
    and none stands for another word already. -/
def Grants (aliases : Aliases) (spellings : List String) (w : Word) : Prop :=
  ∀ spelling ∈ spellings, Word.ofSpelling? (Text.lower spelling) = none ∧
    ∀ held, aliases.resolve spelling = some held → held = w

/-- The second table resolves the spellings to the word, and every other spelling as the first
    table does. -/
structure Gives (aliases aliases' : Aliases) (spellings : List String) (w : Word) : Prop where
  resolve_eq : ∀ spelling ∈ spellings, aliases'.resolve spelling = some w
  resolve_other : ∀ text : LooseText,
    (∀ spelling ∈ spellings, text.lower ≠ LooseText.lower spelling) →
      aliases'.resolve text = aliases.resolve text

variable {aliases aliases' : Aliases} {name target : String}

theorem accepts_map_iff (spellings : List String) (w : Word) :
    aliases.Accepts (spellings.map fun spelling => (↑(Text.lower spelling), w)) ↔
      aliases.Grants spellings w := by
  have hresolve (spelling : String) :
      aliases.resolve spelling = aliases.lookup ↑(Text.lower spelling) := by
    rw [resolve, LooseText.lower_ofString]
  constructor
  · intro haccepts spelling hspelling
    have hmem : (↑(Text.lower spelling), w) ∈
        spellings.map fun spelling => (LooseText.ofString (Text.lower spelling), w) :=
      List.mem_map_of_mem hspelling
    have hfree := haccepts.notWord _ hmem
    have hagrees := haccepts.agrees _ hmem
    rw [hresolve, ← Word.ofText?_ofString]
    exact ⟨hfree, hagrees⟩
  · intro hgrants
    have hpairs : ∀ e ∈ spellings.map fun spelling =>
        (LooseText.ofString (Text.lower spelling), w),
        Word.ofText? e.1 = none ∧ ∀ held, aliases.lookup e.1 = some held → held = e.2 := by
      intro e he
      obtain ⟨spelling, hspelling, rfl⟩ := List.mem_map.mp he
      rw [Word.ofText?_ofString, ← hresolve]
      exact hgrants spelling hspelling
    refine ⟨fun e he => (hpairs e he).1, fun e he => (hpairs e he).2, ?_⟩
    intro e he e' he' _
    obtain ⟨-, -, rfl⟩ := List.mem_map.mp he
    obtain ⟨-, -, rfl⟩ := List.mem_map.mp he'
    rfl

theorem exists_configure_spellings_iff :
    (∃ aliases', aliases.configure [(.str name, .str target)] = .ok aliases') ↔
      ∃ w, Word.ofSpelling? (Text.lower (Text.trim target)) = some w ∧
        aliases.Grants (spellingsIn name) w := by
  rw [exists_configure_iff]
  constructor
  · rintro ⟨requests, hrequests, haccepts⟩
    obtain ⟨w, hword⟩ := AliasConfig.exists_word_of_requests hrequests
    cases hrequests.symm.trans (AliasConfig.requests_of_word hword)
    exact ⟨w, hword, (accepts_map_iff _ w).mp haccepts⟩
  · rintro ⟨w, hword, hgrants⟩
    exact ⟨_, AliasConfig.requests_of_word hword, (accepts_map_iff _ w).mpr hgrants⟩

theorem gives_of_configure {w : Word}
    (hconfigure : aliases.configure [(.str name, .str target)] = .ok aliases')
    (hword : Word.ofSpelling? (Text.lower (Text.trim target)) = some w) :
    aliases.Gives aliases' (spellingsIn name) w := by
  have hadds := adds_of_configure hconfigure (AliasConfig.requests_of_word hword)
  constructor
  · intro spelling hspelling
    rw [resolve, LooseText.lower_ofString]
    exact (hadds _ w).mpr (.inl (List.mem_map_of_mem hspelling))
  · intro text htext
    refine Option.ext fun v => ?_
    have hnone : (text.lower, v) ∉
        (spellingsIn name).map fun spelling => (↑(Text.lower spelling), w) := by
      intro hmem
      obtain ⟨spelling, hspelling, heq⟩ := List.mem_map.mp hmem
      have hsame := (Prod.mk.inj heq).1
      rw [← LooseText.lower_ofString] at hsame
      exact htext spelling hspelling hsame.symm
    rw [resolve, hadds, or_iff_right hnone]
    rfl

/-- Without a spelling nothing is asked for but a word. -/
theorem configure_of_spellingsIn_eq_nil (aliases : Aliases) {w : Word}
    (hname : spellingsIn name = [])
    (hword : Word.ofSpelling? (Text.lower (Text.trim target)) = some w) :
    aliases.configure [(.str name, .str target)] = .ok aliases := by
  have hrequests : AliasConfig.requests [(.str name, .str target)] = .ok _ :=
    AliasConfig.requests_of_word hword
  rw [hname] at hrequests
  exact configure_eq_self hrequests (by simp) (by simp)

end Aliases

namespace Session

open AliasConfig (spellingsIn)

/-- The two sides of the first `=` in an argument, without the blanks around them. -/
def sides? (argument : String) : Option (String × String) :=
  match Text.cutFirst '=' argument with
  | (name, some target) => some (Text.trim name, Text.trim target)
  | (_, none) => none

/-- What is printed when an alias has been added. -/
def addedMessage (name target : String) : String := "[ok] >>> " ++ name ++ " → " ++ target ++ "\n"

/-- An answer to `:alias ARGUMENT` that tells what was done. It is an error, and the session is the
    same; or it shows both sides of the argument, an alias is spelled on the left one, all that are
    spelled there stand for the word on the right one, and every other alias for what it stood for
    before. -/
inductive Honest (s : Session) (argument : String) : Turn → Prop
  | refused (why : String) : Honest s argument ⟨[], errorMark ++ why, .go s⟩
  | added {name target : String} {w : Word} {aliases : Aliases}
      (hsides : sides? argument = some (name, target)) (hspelled : spellingsIn name ≠ [])
      (hword : Word.ofSpelling? (Text.lower (Text.trim target)) = some w)
      (hgives : s.aliases.Gives aliases (spellingsIn name) w) :
      Honest s argument ⟨[], addedMessage name target, .go { s with aliases := aliases }⟩

/-- An argument that spells no alias on its left side, and a word on the right one. -/
def SpellsNone (argument : String) : Prop :=
  ∃ name target w, sides? argument = some (name, target) ∧ spellingsIn name = [] ∧
    Word.ofSpelling? (Text.lower (Text.trim target)) = some w

variable {s : Session} {line argument name target : String} {w : Word}

theorem addAlias_of_sides?_eq_none (hsides : sides? argument = none) :
    ∃ why : String, s.addAlias argument = (s, ↑(errorMark ++ why)) := by
  obtain ⟨left, right, hcut⟩ : ∃ left right, Text.cutFirst '=' argument = (left, right) :=
    ⟨_, _, rfl⟩
  rw [sides?, hcut] at hsides
  cases right with
  | none => exact addAlias_of_cutFirst hcut
  | some right => cases hsides

theorem addAlias_of_sides? (hsides : sides? argument = some (name, target)) :
    s.addAlias argument =
      match s.aliases.configure [(.str name, .str target)] with
      | .error e => (s, refusal e)
      | .ok aliases => ({ s with aliases := aliases }, ↑(addedMessage name target)) := by
  obtain ⟨left, right, hcut⟩ : ∃ left right, Text.cutFirst '=' argument = (left, right) :=
    ⟨_, _, rfl⟩
  rw [sides?, hcut] at hsides
  rw [addAlias, hcut]
  cases right with
  | none => cases hsides
  | some right =>
    cases hsides
    cases hconfigure : s.aliases.configure [(.str (Text.trim left), .str (Text.trim right))] <;>
      simp only [hconfigure, addedMessage]

theorem errorMark_append_ne_addedMessage (why name target : String) :
    errorMark ++ why ≠ addedMessage name target := by
  intro heq
  have hsecond := congrArg (fun text => text.toList[1]?) heq
  simp [errorMark, addedMessage] at hsecond

/-- What is done and said on `:alias ARGUMENT`. -/
def addAliasTurn (s : Session) (argument : String) : Turn :=
  (s.addAlias argument).1.say (s.addAlias argument).2

theorem addAliasTurn_of_refused {why : String}
    (hrefused : s.addAlias argument = (s, ↑(errorMark ++ why))) :
    s.addAliasTurn argument = ⟨[], errorMark ++ why, .go s⟩ := by
  rw [addAliasTurn, hrefused, say_ofString]

/-- Every argument is refused, or it is added and shown. -/
theorem addAliasTurn_cases (s : Session) (hsides : sides? argument = some (name, target)) :
    (∃ why e, s.aliases.configure [(.str name, .str target)] = .error e ∧
        s.addAliasTurn argument = ⟨[], errorMark ++ why, .go s⟩) ∨
      ∃ aliases, s.aliases.configure [(.str name, .str target)] = .ok aliases ∧
        s.addAliasTurn argument =
          ⟨[], addedMessage name target, .go { s with aliases := aliases }⟩ := by
  have hadd := addAlias_of_sides? (s := s) hsides
  cases hconfigure : s.aliases.configure [(.str name, .str target)] with
  | error e =>
    obtain ⟨why, hwhy⟩ := exists_refusal hconfigure
    rw [hconfigure] at hadd
    exact .inl ⟨why, e, rfl, addAliasTurn_of_refused (hadd.trans (congrArg _ hwhy))⟩
  | ok aliases =>
    rw [hconfigure] at hadd
    exact .inr ⟨aliases, rfl, by rw [addAliasTurn, hadd, say_ofString]⟩

/-- An argument with a spelling on its left side is refused or added as it is shown. -/
theorem honest_addAliasTurn (hspelled : ¬ SpellsNone argument) :
    s.Honest argument (s.addAliasTurn argument) := by
  cases hsides : sides? argument with
  | none =>
    obtain ⟨why, hwhy⟩ := addAlias_of_sides?_eq_none (s := s) hsides
    rw [addAliasTurn_of_refused hwhy]
    exact .refused why
  | some sides =>
    obtain ⟨name, target⟩ := sides
    obtain ⟨why, e, -, hturn⟩ | ⟨aliases, hconfigure, hturn⟩ := s.addAliasTurn_cases hsides
    · rw [hturn]
      exact .refused why
    · obtain ⟨w, hword, -⟩ := Aliases.exists_configure_spellings_iff.mp ⟨_, hconfigure⟩
      rw [hturn]
      exact .added hsides (fun hnil => hspelled ⟨name, target, w, hsides, hnil, hword⟩) hword
        (Aliases.gives_of_configure hconfigure hword)

/-- Without a spelling the answer is that of an alias that has been added. -/
theorem addAliasTurn_of_spellsNone (hnone : SpellsNone argument)
    (hsides : sides? argument = some (name, target)) :
    s.addAliasTurn argument = ⟨[], addedMessage name target, .go s⟩ := by
  obtain ⟨name', target', w, hsides', hnil, hword⟩ := hnone
  cases hsides.symm.trans hsides'
  have hsame := Aliases.configure_of_spellingsIn_eq_nil s.aliases hnil hword
  rw [addAliasTurn, addAlias_of_sides? hsides, hsame, say_ofString]

theorem not_honest_of_spellsNone (hnone : SpellsNone argument) :
    ¬ s.Honest argument (s.addAliasTurn argument) := by
  obtain ⟨name, target, w, hsides, hnil, hword⟩ := id hnone
  rw [addAliasTurn_of_spellsNone hnone hsides]
  generalize hturn : (⟨[], addedMessage name target, .go s⟩ : Turn) = turn
  rintro (⟨why⟩ | ⟨hsides', hspelled, -, -⟩)
  · exact errorMark_append_ne_addedMessage why name target (congrArg Turn.printed hturn).symm
  · cases hsides.symm.trans hsides'
    exact hspelled hnil

theorem printed_addAliasTurn_eq_iff (hsides : sides? argument = some (name, target)) :
    (s.addAliasTurn argument).printed = addedMessage name target ↔
      ∃ w, Word.ofSpelling? (Text.lower (Text.trim target)) = some w ∧
        s.aliases.Grants (spellingsIn name) w := by
  rw [← Aliases.exists_configure_spellings_iff]
  obtain ⟨why, e, hconfigure, hturn⟩ | ⟨aliases, hconfigure, hturn⟩ :=
    s.addAliasTurn_cases hsides
  · rw [hturn, hconfigure]
    exact iff_of_false (errorMark_append_ne_addedMessage why name target) (by simp)
  · rw [hturn, hconfigure]
    exact iff_of_true rfl ⟨aliases, rfl⟩

theorem turn_alias (hcommand : commandOf? (Text.trim line) = some ("alias", argument)) :
    s.turn line = s.addAliasTurn argument := by
  have hobey : s.obey "alias" argument = s.addAlias argument := by simp [obey]
  rw [turn, turnOn_of_commandOf? hcommand, hobey, addAliasTurn]

/-- The answer to `:alias ALIAS=WORD` tells what was done unless the left side spells no alias and
    the right side a word: then it is the answer of an alias that has been added, and the session is
    the same. An alias is told to be added exactly if the right side spells a word that can be given
    to all spellings on the left one. -/
theorem honest_turn_iff (s : Session) (line argument : String)
    (hcommand : commandOf? (Text.trim line) = some ("alias", argument)) :
    (s.Honest argument (s.turn line) ↔ ¬ SpellsNone argument) ∧
      ∀ name target, sides? argument = some (name, target) →
        (SpellsNone argument → s.turn line = ⟨[], addedMessage name target, .go s⟩) ∧
        ((s.turn line).printed = addedMessage name target ↔
          ∃ w, Word.ofSpelling? (Text.lower (Text.trim target)) = some w ∧
            s.aliases.Grants (spellingsIn name) w) := by
  rw [turn_alias hcommand]
  refine ⟨⟨fun hhonest hnone => not_honest_of_spellsNone hnone hhonest, honest_addAliasTurn⟩, ?_⟩
  intro name target hsides
  exact ⟨fun hnone => addAliasTurn_of_spellsNone hnone hsides, printed_addAliasTurn_eq_iff hsides⟩

/-- Two spellings of three parts are added, one of them in mixed letter case, to a word that is
    written with blanks around it. -/
theorem honest_turn_of_two_spellings :
    let s : Session := ⟨some "canonical", Aliases.defaults, false⟩
    let line := " :Alias Kijete , ,jaan =  JAN "
    commandOf? (Text.trim line) = some ("alias", "Kijete , ,jaan =  JAN") ∧
      s.Honest "Kijete , ,jaan =  JAN" (s.turn line) ∧
      (s.turn line).printed = "[ok] >>> Kijete , ,jaan → JAN\n" := by
  intro s line
  have hcommand : commandOf? (Text.trim line) = some ("alias", "Kijete , ,jaan =  JAN") := by
    decide +kernel
  have hsides : sides? "Kijete , ,jaan =  JAN" = some ("Kijete , ,jaan", "JAN") := by
    decide +kernel
  have hspelled : ¬ SpellsNone "Kijete , ,jaan =  JAN" := by
    rintro ⟨name, target, w, hsides', hnil, -⟩
    cases hsides.symm.trans hsides'
    exact absurd hnil (by decide +kernel)
  have hgrants : s.aliases.Grants (spellingsIn "Kijete , ,jaan") .jan := by
    have hspellings : spellingsIn "Kijete , ,jaan" = ["Kijete", "jaan"] := by decide +kernel
    have hfree : ∀ spelling ∈ ["Kijete", "jaan"],
        Word.ofSpelling? (Text.lower spelling) = none ∧ s.aliases.resolve spelling = none := by
      decide +kernel
    rw [hspellings]
    exact fun spelling hmem => ⟨(hfree spelling hmem).1, by simp [(hfree spelling hmem).2]⟩
  obtain ⟨hhonest, hparts⟩ := honest_turn_iff s line _ hcommand
  obtain ⟨-, hprinted⟩ := hparts _ _ hsides
  exact ⟨hcommand, hhonest.mpr hspelled, hprinted.mpr ⟨.jan, by decide +kernel, hgrants⟩⟩

/-- No alias stands in front of the `=`, and one is told to be added. -/
theorem not_honest_without_spelling :
    let s : Session := ⟨some "canonical", Aliases.defaults, false⟩
    commandOf? (Text.trim ":alias =pona") = some ("alias", "=pona") ∧
      s.turn ":alias =pona" = ⟨[], "[ok] >>>  → pona\n", .go s⟩ ∧
      ¬ s.Honest "=pona" (s.turn ":alias =pona") := by
  intro s
  have hcommand : commandOf? (Text.trim ":alias =pona") = some ("alias", "=pona") := by
    decide +kernel
  have hsides : sides? "=pona" = some ("", "pona") := by decide +kernel
  have hnone : SpellsNone "=pona" :=
    ⟨"", "pona", .pona, hsides, by decide +kernel, by decide +kernel⟩
  have hmessage : addedMessage "" "pona" = "[ok] >>>  → pona\n" := by decide +kernel
  rw [turn_alias hcommand]
  refine ⟨hcommand, ?_, not_honest_of_spellsNone hnone⟩
  rw [addAliasTurn_of_spellsNone hnone hsides, hmessage]

end Session

end TokiPona
