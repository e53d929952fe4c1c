import Mathlib
import LinearSystems.Proofs.DoubleRounding

/-!
# The exact values of doubles

A double has an exact value exactly if it is finite, and finite doubles are ordered as their exact
values are. A significand has fewer than 53 digits at the lowest exponent only, so the exponents
decide the order of two magnitudes wherever they differ.
-/

namespace LinearSystems.Double

open Float.Model UnpackedFloat

theorem exists_exactValue?_iff {a : Float} :
    (∃ p, Number.exactValue? a = some p) ↔ a.isFinite = true := by
  rw [show a.isFinite = a.toModel.unpack.isFinite from rfl]
  unfold Number.exactValue?
  cases a.toModel.unpack with
  | notANumber => simp [UnpackedFloat.isFinite]
  | infinity s => simp [UnpackedFloat.isFinite]
  | zero s => simp [UnpackedFloat.isFinite]
  | finite s m e hm => simp [UnpackedFloat.isFinite]

/-- Of two magnitudes the one whose exponent and significand come first is smaller. -/
theorem mul_zpow_lt_of_place {s s' : Sign} {m m' : Nat} {e e' : Int} {hm : 0 < m} {hm' : 0 < m'}
    (h : Canonical (.finite s m e hm)) (h' : Canonical (.finite s' m' e' hm'))
    (hplace : e < e' ∨ e = e' ∧ m < m') : (m : ℚ) * 2 ^ e < m' * 2 ^ e' := by
  obtain ⟨hhigh, hleast, -⟩ := h.digits
  obtain ⟨-, -, hlow⟩ := h'.digits
  rcases hplace with hexponent | ⟨rfl, hsignificand⟩
  · calc (m : ℚ) * 2 ^ e < 2 ^ 53 * 2 ^ e := by
          gcongr
          exact_mod_cast hhigh
      _ = 2 ^ 52 * 2 ^ (e + 1) := by
          rw [zpow_add_one₀ two_ne_zero]
          ring
      _ ≤ 2 ^ 52 * 2 ^ e' := by
          gcongr
          · exact one_le_two
          · omega
      _ ≤ m' * 2 ^ e' := by
          gcongr
          exact_mod_cast hlow (by omega)
  · gcongr

variable {a b : Float} {p q : ℚ}

/-- Values whose places ascend ascend. -/
theorem exactValue_lt_of_place (ha : Number.exactValue? a = some p)
    (hb : Number.exactValue? b = some q) (h : place a.toModel.unpack < place b.toModel.unpack) :
    p < q := by
  have hpos {m : Nat} (e : Int) (hm : 0 < m) : (0 : ℚ) < m * 2 ^ e := by positivity
  have hcanonical : Canonical a.toModel.unpack := canonical_unpack _
  have hcanonical' : Canonical b.toModel.unpack := canonical_unpack _
  obtain ⟨s, hu, rfl⟩ | ⟨s, m, e, hm, hu, rfl⟩ := exactValue?_cases ha <;>
    obtain ⟨s', hu', rfl⟩ | ⟨s', m', e', hm', hu', rfl⟩ := exactValue?_cases hb <;>
    rw [hu, hu'] at h
  · exact absurd h (lt_irrefl _)
  · cases s' with
    | negative => simp [place, Prod.Lex.toLex_lt_toLex] at h
    | positive => simpa [Sign.apply] using hpos e' hm'
  · cases s with
    | negative => simpa [Sign.apply] using hpos e hm
    | positive => simp [place, Prod.Lex.toLex_lt_toLex] at h
  · rw [hu] at hcanonical
    rw [hu'] at hcanonical'
    have hleft := hpos e hm
    have hright := hpos e' hm'
    cases s with
    | negative =>
      cases s' with
      | negative =>
        simp only [place, Prod.Lex.toLex_lt_toLex] at h
        have hlt := mul_zpow_lt_of_place hcanonical' hcanonical (by omega)
        simpa [Sign.apply] using hlt
      | positive =>
        simp only [Sign.apply]
        push_cast
        linarith
    | positive =>
      cases s' with
      | negative => simp [place, Prod.Lex.toLex_lt_toLex] at h
      | positive =>
        simp only [place, Prod.Lex.toLex_lt_toLex] at h
        simpa [Sign.apply] using mul_zpow_lt_of_place hcanonical hcanonical' (by omega)

theorem exactValue_eq_of_place (ha : Number.exactValue? a = some p)
    (hb : Number.exactValue? b = some q) (h : place a.toModel.unpack = place b.toModel.unpack) :
    p = q := by
  obtain ⟨s, hu, rfl⟩ | ⟨s, m, e, hm, hu, rfl⟩ := exactValue?_cases ha <;>
    obtain ⟨s', hu', rfl⟩ | ⟨s', m', e', hm', hu', rfl⟩ := exactValue?_cases hb <;>
    simp only [hu, hu'] at h
  · rfl
  · cases s' <;> simp [place] at h
  · cases s <;> simp [place] at h
  · cases s <;> cases s' <;> simp_all [place]

/-- Finite doubles are ordered as their exact values. -/
theorem lt_iff_exactValue (ha : Number.exactValue? a = some p)
    (hb : Number.exactValue? b = some q) : a < b ↔ p < q := by
  have hnumber {a : Float} {p : ℚ} (ha : Number.exactValue? a = some p) : a.isNaN = false :=
    isNaN_of_isFinite (exists_exactValue?_iff.mp ⟨p, ha⟩)
  rw [lt_iff_place, hnumber ha, hnumber hb]
  simp only [true_and]
  constructor
  · exact exactValue_lt_of_place ha hb
  · intro hlt
    rcases lt_trichotomy (place a.toModel.unpack) (place b.toModel.unpack) with h | h | h
    · exact h
    · exact absurd (exactValue_eq_of_place ha hb h) hlt.ne
    · exact absurd (exactValue_lt_of_place hb ha h) hlt.not_gt

/-- The magnitude of a double has the magnitude of its exact value. -/
theorem exactValue?_abs (ha : Number.exactValue? a = some p) :
    Number.exactValue? a.abs = some |p| := by
  have habs := unpack_abs a
  obtain ⟨s, hu, rfl⟩ | ⟨s, m, e, hm, hu, rfl⟩ := exactValue?_cases ha
  · rw [hu] at habs
    rw [exactValue?_of_zero habs, abs_zero]
  · rw [hu] at habs
    rw [exactValue?_of_finite habs]
    cases s <;> simp [Sign.apply, abs_mul]

end LinearSystems.Double
