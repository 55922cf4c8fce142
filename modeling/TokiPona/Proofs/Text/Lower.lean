import Mathlib.Data.List.Basic
import TokiPona.Proofs.Text.Letter
import TokiPona.Proofs.Text.Trim
import TokiPona.Text.Lower

/-!
Lower-casing twice is lower-casing once, over all of Unicode.

What a character becomes is out of reach of every rule: the forms of one run of upper-case letters
lie apart from all runs (`caseRuns_avoid`). They are also neither blanks nor commas, so
lower-casing leaves the ends of a text and its parts between commas where they are. A letter of
ASCII stays one, so a text with such letters at its ends keeps them there.
-/

namespace TokiPona

/-- Every element of the first list stands in the second one as some elements that are related to
    it. -/
inductive Expands {α β : Type} (R : α → β → Prop) : List α → List β → Prop
  | nil : Expands R [] []
  | cons {a : α} {l : List α} {piece l' : List β} (hne : piece ≠ []) (hpiece : ∀ b ∈ piece, R a b)
      (hrest : Expands R l l') : Expands R (a :: l) (piece ++ l')

namespace Expands

variable {α β : Type} {R : α → β → Prop} {l m : List α} {l' m' : List β} {b : β}

theorem exists_of_mem (hl : Expands R l l') (hb : b ∈ l') : ∃ a ∈ l, R a b := by
  induction hl with
  | nil => cases hb
  | @cons a l piece l' hne hpiece hrest ih =>
    rcases List.mem_append.mp hb with hb | hb
    · exact ⟨a, List.mem_cons_self, hpiece b hb⟩
    · obtain ⟨a', ha', hab⟩ := ih hb
      exact ⟨a', List.mem_cons_of_mem a ha', hab⟩

theorem exists_mem_of_mem {a : α} (hl : Expands R l l') (ha : a ∈ l) : ∃ b ∈ l', R a b := by
  induction hl with
  | nil => cases ha
  | @cons first l piece l' hne hpiece hrest ih =>
    rcases List.mem_cons.mp ha with rfl | ha
    · obtain ⟨b, hb⟩ := List.exists_mem_of_ne_nil piece hne
      exact ⟨b, List.mem_append_left l' hb, hpiece b hb⟩
    · obtain ⟨b, hb, hab⟩ := ih ha
      exact ⟨b, List.mem_append_right piece hb, hab⟩

theorem eq_nil_iff (hl : Expands R l l') : l' = [] ↔ l = [] := by
  cases hl with
  | nil => simp
  | cons hne hpiece hrest => simp [hne]

theorem exists_head? (hl : Expands R l l') (hb : l'.head? = some b) :
    ∃ a, l.head? = some a ∧ R a b := by
  cases hl with
  | nil => cases hb
  | @cons a l piece l' hne hpiece hrest =>
    rw [List.head?_append_of_ne_nil piece hne] at hb
    exact ⟨a, rfl, hpiece b (List.mem_of_head? hb)⟩

theorem exists_getLast? (hl : Expands R l l') (hb : l'.getLast? = some b) :
    ∃ a, l.getLast? = some a ∧ R a b := by
  induction hl with
  | nil => cases hb
  | @cons a l piece l' hne hpiece hrest ih =>
    by_cases hnil : l' = []
    · rw [hnil, List.append_nil] at hb
      rw [hrest.eq_nil_iff.mp hnil]
      exact ⟨a, rfl, hpiece b (List.mem_of_getLast? hb)⟩
    · rw [List.getLast?_append_of_ne_nil piece hnil] at hb
      obtain ⟨a', ha', hab⟩ := ih hb
      exact ⟨a', by rw [List.getLast?_cons, ha', Option.getD_some], hab⟩

theorem append (hl : Expands R l l') (hm : Expands R m m') : Expands R (l ++ m) (l' ++ m') := by
  induction hl with
  | nil => exact hm
  | cons hne hpiece hrest ih =>
    rw [List.append_assoc]
    exact .cons hne hpiece ih

theorem map {γ δ : Type} {S : γ → δ → Prop} {f : α → γ} {g : β → δ}
    (hR : ∀ a b, R a b → S (f a) (g b)) (hl : Expands R l l') :
    Expands S (l.map f) (l'.map g) := by
  induction hl with
  | nil => exact .nil
  | @cons a l piece l' hne hpiece hrest ih =>
    rw [List.map_cons, List.map_append]
    exact .cons (by simpa using hne)
      (List.forall_mem_map.mpr fun b hb => hR a b (hpiece b hb)) ih

end Expands

namespace Text

theorem CaseRun.lower?_eq_some_iff (run : CaseRun) (n m : Nat) :
    run.lower? n = some m ↔ run.first ≤ n ∧ n ≤ run.last ∧ (n - run.first) % run.step = 0 ∧
      run.lower + (n - run.first) = m := by
  simp only [CaseRun.lower?, Option.ite_none_right_eq_some, Bool.and_eq_true, decide_eq_true_eq,
    beq_iff_eq, Option.some.injEq, and_assoc]

/-- The last form of a run. -/
def CaseRun.lastForm (run : CaseRun) : Nat := run.lower + (run.last - run.first)

/-- Whether the forms of a run lie before another run, behind it or between its code points. -/
def CaseRun.avoids (run other : CaseRun) : Bool :=
  run.lastForm.blt other.first || other.last.blt run.lower ||
    ((run.first.beq run.last || run.step.beq 2) && other.step.beq 2 &&
      !(run.lower % 2).beq (other.first % 2))

theorem CaseRun.lower?_of_avoids {run other : CaseRun} (havoids : run.avoids other) {n m : Nat}
    (hform : run.lower? n = some m) : other.lower? m = none := by
  obtain ⟨hfirst, hlast, hstep, rfl⟩ := (run.lower?_eq_some_iff n m).mp hform
  rw [Option.eq_none_iff_forall_ne_some]
  intro k hother
  obtain ⟨hfirst', hlast', hstep', -⟩ := (other.lower?_eq_some_iff _ k).mp hother
  simp only [CaseRun.avoids, CaseRun.lastForm, Bool.or_eq_true, Bool.and_eq_true, Nat.blt_eq,
    Nat.beq_eq, Bool.not_eq_true', Bool.eq_false_iff, ne_eq] at havoids
  rcases havoids with (hbefore | hbehind) | ⟨⟨hrun, htwo⟩, hparity⟩
  · omega
  · omega
  · rw [htwo] at hstep'
    rcases hrun with hsingle | htwo'
    · omega
    · rw [htwo'] at hstep
      omega

theorem caseRuns_avoid : caseRuns.all (fun run => caseRuns.all run.avoids) := by
  decide +kernel

/-- Stretches of code points in which there is no lower-case form: controls, blanks and
    punctuation, the dotted capital I, and the surrogates. -/
def formless : Ranges :=
  [(0, 0x60), (0x85, 0x85), (0xA0, 0xA0), (0x130, 0x130), (0x1680, 0x1680), (0x2000, 0x205F),
    (0x3000, 0x3000), (0xD800, 0xDFFF)]

theorem caseRuns_outside_formless : ∀ run ∈ caseRuns, run.lastForm < 0x110000 ∧
    ∀ range ∈ formless, run.lastForm < range.1 ∨ range.2 < run.lower := by
  decide +kernel

/-- A code point that is the lower-case form of another one. -/
def IsForm (m : Nat) : Prop := ∃ run ∈ caseRuns, ∃ n, run.lower? n = some m

theorem IsForm.lower?_eq_none {m : Nat} (hm : IsForm m) {other : CaseRun}
    (hother : other ∈ caseRuns) : other.lower? m = none := by
  obtain ⟨run, hrun, n, hform⟩ := hm
  have havoids := List.all_eq_true.mp (List.all_eq_true.mp caseRuns_avoid run hrun) other hother
  exact CaseRun.lower?_of_avoids havoids hform

theorem IsForm.outside_formless {m : Nat} (hm : IsForm m) :
    m < 0x110000 ∧ ∀ range ∈ formless, m < range.1 ∨ range.2 < m := by
  obtain ⟨run, hrun, n, hform⟩ := hm
  obtain ⟨hfirst, hlast, -, rfl⟩ := (run.lower?_eq_some_iff n m).mp hform
  obtain ⟨hbound, houtside⟩ := caseRuns_outside_formless run hrun
  unfold CaseRun.lastForm at hbound houtside
  refine ⟨by omega, fun range hrange => ?_⟩
  have hrange := houtside range hrange
  omega

theorem IsForm.toNat_ofNat {m : Nat} (hm : IsForm m) : (Char.ofNat m).toNat = m := by
  obtain ⟨hbound, houtside⟩ := hm.outside_formless
  have hsurrogate := houtside (0xD800, 0xDFFF) (by decide)
  have hvalid : m.isValidChar := by
    unfold Nat.isValidChar
    omega
  unfold Char.ofNat
  rw [dif_pos hvalid]
  rfl

/-- A character that no rule changes. -/
structure IsLowered (c : Char) : Prop where
  dotted : c.toNat ≠ 0x130
  unlisted : ∀ run ∈ caseRuns, run.lower? c.toNat = none

instance (c : Char) : Decidable (IsLowered c) :=
  decidable_of_iff (c.toNat ≠ 0x130 ∧ ∀ run ∈ caseRuns, run.lower? c.toNat = none)
    ⟨fun ⟨h₁, h₂⟩ => ⟨h₁, h₂⟩, fun ⟨h₁, h₂⟩ => ⟨h₁, h₂⟩⟩

theorem IsLowered.lowerChar_eq {c : Char} (hc : IsLowered c) : lowerChar c = [c] := by
  have hnone : caseRuns.findSome? (fun run => run.lower? c.toNat) = none :=
    List.findSome?_eq_none_iff.mpr hc.unlisted
  simp [lowerChar, hc.dotted, hnone]

theorem IsLowered.ne_sigma {c : Char} (hc : IsLowered c) : c ≠ 'Σ' := by
  rintro rfl
  have hsigma : ¬ IsLowered 'Σ' := by decide +kernel
  exact hsigma hc

theorem lowerFrom_of_isLowered {chars : List Char} (hchars : ∀ c ∈ chars, IsLowered c)
    (afterCased : Bool) : lowerFrom afterCased chars = chars := by
  induction chars generalizing afterCased with
  | nil => rfl
  | cons c rest ih =>
    obtain ⟨hc, hrest⟩ := List.forall_mem_cons.mp hchars
    rw [lowerFrom, ih hrest]
    simp [hc.ne_sigma, hc.lowerChar_eq]

theorem eq_or_isForm_of_mem_lowerChar {c d : Char} (hd : d ∈ lowerChar c) :
    (d = c ∧ IsLowered c) ∨ IsForm d.toNat ∨ d = Char.ofNat 0x307 := by
  unfold lowerChar at hd
  split at hd
  · rcases List.mem_pair.mp hd with rfl | rfl
    · exact Or.inr (Or.inl ⟨⟨0x41, 0x5A, 1, 0x61⟩, List.mem_cons_self, 0x49, rfl⟩)
    · exact Or.inr (Or.inr rfl)
  · next hdotted =>
    split at hd
    · next m hfind =>
      obtain ⟨run, hrun, hform⟩ := List.exists_of_findSome?_eq_some hfind
      have hm : IsForm m := ⟨run, hrun, c.toNat, hform⟩
      rw [List.mem_singleton] at hd
      rw [hd, hm.toNat_ofNat]
      exact Or.inr (Or.inl hm)
    · next hfind =>
      rw [List.findSome?_eq_none_iff] at hfind
      exact Or.inl ⟨List.mem_singleton.mp hd, by simpa using hdotted, hfind⟩

theorem isLower_of_mem_lowerChar {c d : Char} (hc : c.isAlpha) (hd : d ∈ lowerChar c) :
    d.isLower := by
  have hletters : ∀ n < 0x80, (Char.ofNat n).isAlpha →
      (lowerChar (Char.ofNat n)).all Char.isLower := by
    decide +kernel
  have hbounds := (isAlpha_iff c).mp hc
  rw [← Char.ofNat_toNat c] at hc hd
  exact List.all_eq_true.mp (hletters c.toNat (by omega) hc) d hd

/-- What a character may become: itself if no rule changes it, and otherwise a character that no
    rule changes and that is neither a blank nor a comma. A letter of ASCII becomes a small one. -/
structure LowersTo (c d : Char) : Prop where
  isLowered : IsLowered d
  eq_or_solid : d = c ∨ (isBlank d = false ∧ d ≠ ',')
  isLower : c.isAlpha → d.isLower

theorem LowersTo.isBlank_eq_false {c d : Char} (hto : LowersTo c d) (hc : isBlank c = false) :
    isBlank d = false := by
  rcases hto.eq_or_solid with rfl | ⟨hd, -⟩
  · exact hc
  · exact hd

theorem IsForm.isBlank_eq_false {d : Char} (hd : IsForm d.toNat) : isBlank d = false := by
  obtain ⟨-, houtside⟩ := hd.outside_formless
  simp only [formless, List.forall_mem_cons] at houtside
  simp only [isBlank, Bool.or_eq_false_iff, Bool.and_eq_false_iff, decide_eq_false_iff_not,
    beq_eq_false_iff_ne]
  omega

theorem IsForm.ne_comma {d : Char} (hd : IsForm d.toNat) : d ≠ ',' := by
  obtain ⟨-, houtside⟩ := hd.outside_formless
  rintro rfl
  have hcomma := houtside (0, 0x60) (by decide)
  revert hcomma
  decide

theorem IsForm.isLowered {d : Char} (hd : IsForm d.toNat) : IsLowered d := by
  obtain ⟨-, houtside⟩ := hd.outside_formless
  refine ⟨?_, fun run hrun => hd.lower?_eq_none hrun⟩
  have hdotted := houtside (0x130, 0x130) (by decide)
  omega

theorem lowersTo_of_mem_lowerChar {c d : Char} (hd : d ∈ lowerChar c) : LowersTo c d := by
  have hletter : c.isAlpha → d.isLower := fun hc => isLower_of_mem_lowerChar hc hd
  rcases eq_or_isForm_of_mem_lowerChar hd with ⟨rfl, hc⟩ | hform | rfl
  · exact ⟨hc, Or.inl rfl, hletter⟩
  · exact ⟨hform.isLowered, Or.inr ⟨hform.isBlank_eq_false, hform.ne_comma⟩, hletter⟩
  · exact ⟨by decide +kernel, Or.inr (by decide), hletter⟩

/-- The first character of a text becomes at least one, and the others go on from there. -/
theorem exists_lowerFrom_cons (afterCased : Bool) (c : Char) (rest : List Char) :
    ∃ lowered afterCased', lowered ≠ [] ∧ (∀ d ∈ lowered, LowersTo c d) ∧
      lowerFrom afterCased (c :: rest) = lowered ++ lowerFrom afterCased' rest := by
  refine ⟨_, _, ?_, ?_, rfl⟩
  · split
    · exact List.cons_ne_nil _ _
    · unfold lowerChar
      split
      · exact List.cons_ne_nil _ _
      · split <;> exact List.cons_ne_nil _ _
  · intro d hd
    split at hd
    · -- Both forms of the sigma are out of reach of the rules, and none of the three is ASCII.
      next hc =>
      have hsigma : IsLowered 'ς' ∧ IsLowered 'σ' := by decide +kernel
      have hletter : c.isAlpha → d.isLower := fun halpha => by
        rw [eq_of_beq hc] at halpha
        cases halpha
      rw [List.mem_singleton] at hd
      split at hd <;> subst hd
      · exact ⟨hsigma.1, Or.inr (by decide), hletter⟩
      · exact ⟨hsigma.2, Or.inr (by decide), hletter⟩
    · exact lowersTo_of_mem_lowerChar hd

/-- Every character becomes at least one, at its place in the text. -/
theorem expands_lowerFrom (afterCased : Bool) (chars : List Char) :
    Expands LowersTo chars (lowerFrom afterCased chars) := by
  induction chars generalizing afterCased with
  | nil => exact .nil
  | cons c rest ih =>
    obtain ⟨lowered, afterCased', hne, hlowered, heq⟩ := exists_lowerFrom_cons afterCased c rest
    rw [heq]
    exact .cons hne hlowered (ih afterCased')

/-- Lower-casing has nothing to do on a text that is in lower case. -/
theorem lowerFrom_lowerFrom (afterCased afterCased' : Bool) (chars : List Char) :
    lowerFrom afterCased' (lowerFrom afterCased chars) = lowerFrom afterCased chars := by
  apply lowerFrom_of_isLowered
  intro d hd
  obtain ⟨c, -, hto⟩ := (expands_lowerFrom _ _).exists_of_mem hd
  exact hto.isLowered

theorem lower_lower (text : String) : lower (lower text) = lower text := by
  rw [lower, lower, String.toList_ofList, lowerFrom_lowerFrom]

theorem lower_eq_empty_iff (text : String) : lower text = "" ↔ text = "" := by
  rw [lower, ← String.toList_eq_nil_iff, ← String.toList_eq_nil_iff, String.toList_ofList,
    (expands_lowerFrom _ _).eq_nil_iff]

/-- Lower-casing puts no blank into a text. -/
theorem isBlank_of_mem_lower {text : String} (htext : ∀ c ∈ text.toList, isBlank c = false) :
    ∀ d ∈ (lower text).toList, isBlank d = false := by
  rw [lower, String.toList_ofList]
  intro d hd
  obtain ⟨c, hc, hto⟩ := (expands_lowerFrom _ _).exists_of_mem hd
  exact hto.isBlank_eq_false (htext c hc)

end Text

end TokiPona
