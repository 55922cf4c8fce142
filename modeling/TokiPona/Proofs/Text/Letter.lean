import TokiPona.Text.Blank

namespace TokiPona.Text

variable {c : Char}

theorem isLower_iff (c : Char) : c.isLower ↔ 97 ≤ c.toNat ∧ c.toNat ≤ 122 := by
  have hlower : c.isLower = (decide (97 ≤ c.val) && decide (c.val ≤ 122)) := rfl
  simp [hlower, UInt32.le_iff_toNat_le]

theorem isUpper_iff (c : Char) : c.isUpper ↔ 65 ≤ c.toNat ∧ c.toNat ≤ 90 := by
  have hupper : c.isUpper = decide (65 ≤ c.val ∧ c.val ≤ 90) := rfl
  simp [hupper, UInt32.le_iff_toNat_le]

theorem isAlpha_iff (c : Char) :
    c.isAlpha ↔ (65 ≤ c.toNat ∧ c.toNat ≤ 90) ∨ (97 ≤ c.toNat ∧ c.toNat ≤ 122) := by
  have halpha : c.isAlpha = (c.isUpper || c.isLower) := rfl
  rw [halpha, Bool.or_eq_true, isUpper_iff, isLower_iff]

theorem isAlpha_of_isLower (hc : c.isLower) : c.isAlpha :=
  (isAlpha_iff c).mpr (.inr ((isLower_iff c).mp hc))

theorem isBlank_of_isAlpha (hc : c.isAlpha) : isBlank c = false := by
  have hbounds := (isAlpha_iff c).mp hc
  simp only [isBlank, Bool.or_eq_false_iff, Bool.and_eq_false_iff, decide_eq_false_iff_not,
    beq_eq_false_iff_ne]
  omega

/-- There are 26 small letters. -/
theorem isLower_induction {motive : Char → Prop}
    (hletters : ∀ i < 26, motive (Char.ofNat (0x61 + i))) (hc : c.isLower) : motive c := by
  have hbounds := (isLower_iff c).mp hc
  have hmotive := hletters (c.toNat - 0x61) (by omega)
  rwa [show 0x61 + (c.toNat - 0x61) = c.toNat by omega, Char.ofNat_toNat] at hmotive

end TokiPona.Text
