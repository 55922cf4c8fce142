import Mathlib.Data.List.Forall2
import TokiPona.Proofs.Text.Lower

namespace TokiPona.Text

/-- A character that writes a small letter: the letter, its capital or, for a `k`, the Kelvin
    sign. -/
def Writes (c letter : Char) : Prop :=
  c = letter ∨ c = letter.toUpper ∨ (c = '\u212A' ∧ letter = 'k')

theorem caseRuns_ascii : ∀ run ∈ caseRuns,
    (run.first = 0x41 ∧ run.last = 0x5A ∧ run.lower = 0x61) ∨
      (run.first = 0x212A ∧ run.last = 0x212A ∧ run.lower = 0x6B) ∨ 0x7A < run.lower := by
  decide +kernel

theorem toNat_toUpper {letter : Char} (hletter : letter.isLower) :
    letter.toUpper.toNat + 0x20 = letter.toNat := by
  refine isLower_induction (motive := fun l => l.toUpper.toNat + 0x20 = l.toNat) ?_ hletter
  decide +kernel

theorem writes_of_lower? {run : CaseRun} (hrun : run ∈ caseRuns) {c letter : Char}
    (hletter : letter.isLower) (hform : run.lower? c.toNat = some letter.toNat) :
    Writes c letter := by
  obtain ⟨hfirst, hlast, -, hform⟩ := (run.lower?_eq_some_iff _ _).mp hform
  have hbounds := (isLower_iff letter).mp hletter
  obtain ⟨hrunFirst, hrunLast, hrunLower⟩ | ⟨hrunFirst, hrunLast, hrunLower⟩ | hbeyond :=
    caseRuns_ascii run hrun
  · have hcapital := toNat_toUpper hletter
    exact .inr (.inl (Char.toNat_inj.mp (by omega)))
  · have hkelvin : c.toNat = '\u212A'.toNat := by
      show c.toNat = 0x212A
      omega
    have hk : letter.toNat = 'k'.toNat := by
      show letter.toNat = 0x6B
      omega
    exact .inr (.inr ⟨Char.toNat_inj.mp hkelvin, Char.toNat_inj.mp hk⟩)
  · omega

/-- A small letter is the whole form of the characters that write it, and of no others. -/
theorem lowerChar_eq_singleton_iff {c letter : Char} (hletter : letter.isLower) :
    lowerChar c = [letter] ↔ Writes c letter := by
  constructor
  · intro hform
    unfold lowerChar at hform
    split at hform
    · cases hform
    · split at hform
      · next n hfind =>
        obtain ⟨run, hrun, hlower⟩ := List.exists_of_findSome?_eq_some hfind
        have hn : IsForm n := ⟨run, hrun, c.toNat, hlower⟩
        rw [List.singleton_inj] at hform
        rw [← hn.toNat_ofNat, hform] at hlower
        exact writes_of_lower? hrun hletter hlower
      · exact .inl (List.singleton_inj.mp hform)
  · have hletters : ∀ i < 26, lowerChar (Char.ofNat (0x61 + i)) = [Char.ofNat (0x61 + i)] ∧
        lowerChar (Char.ofNat (0x61 + i)).toUpper = [Char.ofNat (0x61 + i)] := by
      decide +kernel
    obtain ⟨hsmall, hcapital⟩ :=
      isLower_induction (motive := fun l => lowerChar l = [l] ∧ lowerChar l.toUpper = [l])
        hletters hletter
    rintro (rfl | rfl | ⟨rfl, rfl⟩)
    · exact hsmall
    · exact hcapital
    · decide +kernel

theorem lowerChar_eq_singleton_or (c : Char) :
    (∃ d, lowerChar c = [d]) ∨ lowerChar c = ['i', Char.ofNat 0x307] := by
  unfold lowerChar
  split
  · exact .inr rfl
  · split
    · exact .inl ⟨_, rfl⟩
    · exact .inl ⟨_, rfl⟩

theorem Writes.ne_sigma {c letter : Char} (hc : Writes c letter) (hletter : letter.isLower) :
    c ≠ 'Σ' := by
  rintro rfl
  have hsigma : lowerChar 'Σ' = ['σ'] := by decide +kernel
  have hform := (lowerChar_eq_singleton_iff hletter).mpr hc
  rw [hsigma, List.singleton_inj] at hform
  subst hform
  revert hletter
  decide

/-- A text becomes a row of small letters exactly if its first character writes the first of them
    and the rest becomes the others. -/
theorem lowerFrom_cons_eq_iff {letters : List Char} (hletters : ∀ l ∈ letters, l.isLower)
    (afterCased : Bool) (c : Char) (rest : List Char) :
    lowerFrom afterCased (c :: rest) = letters ↔
      ∃ l later, letters = l :: later ∧ Writes c l ∧
        lowerFrom (if isCaseIgnorable c then afterCased else isCased c) rest = later := by
  rw [lowerFrom]
  constructor
  · rintro rfl
    by_cases hsigma : c = 'Σ'
    · -- Neither form of the sigma is a letter of ASCII.
      have hsmall := hletters (if afterCased && !startsCased rest then 'ς' else 'σ')
        (by simp [hsigma])
      split at hsmall <;> cases hsmall
    · have hne : (c == 'Σ') = false := by simpa using hsigma
      simp only [hne, Bool.false_eq_true, if_false] at hletters ⊢
      rcases lowerChar_eq_singleton_or c with ⟨d, hd⟩ | hdotted
      · rw [hd] at hletters ⊢
        have hsmall : d.isLower := hletters d List.mem_cons_self
        exact ⟨d, _, rfl, (lowerChar_eq_singleton_iff hsmall).mp hd, rfl⟩
      · have hsmall := hletters (Char.ofNat 0x307) (by simp [hdotted])
        cases hsmall
  · rintro ⟨l, later, rfl, hwrites, hrest⟩
    have hsmall := hletters l List.mem_cons_self
    have hne : (c == 'Σ') = false := by simpa using hwrites.ne_sigma hsmall
    simp only [hne, Bool.false_eq_true, if_false, hrest,
      (lowerChar_eq_singleton_iff hsmall).mpr hwrites, List.singleton_append]

theorem lowerFrom_eq_iff {letters : List Char} (hletters : ∀ l ∈ letters, l.isLower)
    (afterCased : Bool) (chars : List Char) :
    lowerFrom afterCased chars = letters ↔ List.Forall₂ Writes chars letters := by
  induction chars generalizing letters afterCased with
  | nil => simp [lowerFrom, eq_comm]
  | cons c rest ih =>
    rw [lowerFrom_cons_eq_iff hletters, List.forall₂_cons_left_iff]
    constructor
    · rintro ⟨l, later, rfl, hwrites, hrest⟩
      exact ⟨l, later, hwrites, (ih (List.forall_mem_cons.mp hletters).2 _).mp hrest, rfl⟩
    · rintro ⟨l, later, hwrites, hrest, rfl⟩
      exact ⟨l, later, rfl, hwrites, (ih (List.forall_mem_cons.mp hletters).2 _).mpr hrest⟩

theorem lower_eq_iff {text lowered : String} :
    lower text = lowered ↔ lowerFrom false text.toList = lowered.toList := by
  rw [lower, ← String.toList_inj, String.toList_ofList]

/-- No other character outside ASCII has a letter of ASCII for its lower-case form. -/
theorem lower_singleton_eq_iff {c : Char} (hc : 0x80 ≤ c.toNat) :
    (∃ letter : Char, letter.isAlpha ∧ lower (String.singleton c) = String.singleton letter) ↔
      c = '\u212A' := by
  constructor
  · rintro ⟨letter, halpha, hlower⟩
    have hself : lower (String.singleton letter) = String.singleton letter := by
      rw [← hlower, lower_lower]
    simp only [lower_eq_iff, String.toList_singleton] at hlower hself
    -- The form is its own form, so it is a small letter.
    have hmem : letter ∈ lowerFrom false [letter] := by simp [hself]
    obtain ⟨source, hsource, hto⟩ := (expands_lowerFrom _ _).exists_of_mem hmem
    rw [List.mem_singleton] at hsource
    have hletter : letter.isLower := hto.isLower (hsource ▸ halpha)
    have hwrites := (lowerFrom_eq_iff (by simpa using hletter) false [c]).mp hlower
    have hbounds := (isLower_iff letter).mp hletter
    rcases (List.forall₂_cons.mp hwrites).1 with rfl | rfl | ⟨hkelvin, -⟩
    · omega
    · have hcapital := toNat_toUpper hletter
      omega
    · exact hkelvin
  · rintro rfl
    exact ⟨'k', by decide +kernel, by decide +kernel⟩

end TokiPona.Text
