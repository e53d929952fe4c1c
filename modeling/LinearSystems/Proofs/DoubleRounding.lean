import Mathlib
import LinearSystems.Number
import LinearSystems.Proofs.DoubleOrder
import LinearSystems.Proofs.DoubleSign

/-!
# Whole numbers as doubles

A whole number becomes the double that is nearest to it, and of two that are equally near the one
with an even significand. A shift drops digits of a significand and keeps two bits of them, which
say on what side of one half the digits are that were dropped. So the rounded significand is nearest
to the exact one. The doubles beyond the power of two that is just below the number are multiples of
one unit, and those before it are farther away than that power is.
-/

namespace LinearSystems

namespace Double

open Float.Model UnpackedFloat

/-- The exact significand that the two bits after a significand stand for, as far as they say. -/
def Stands (em : ExtendedMantissa) (x : ℚ) : Prop :=
  match em.roundBit, em.stickyBit with
  | false, false => x = em.mantissa
  | false, true => em.mantissa < x ∧ x < em.mantissa + 1 / 2
  | true, false => x = em.mantissa + 1 / 2
  | true, true => em.mantissa + 1 / 2 < x ∧ x < em.mantissa + 1

/-- The whole number is nearest, and even if another one is as near. -/
def IsRounded (r : Nat) (x : ℚ) : Prop :=
  |x - r| ≤ 1 / 2 ∧ (|x - r| = 1 / 2 → r % 2 = 0)

theorem stands_exact (m : Nat) : Stands (.ofMantissaAndAccuracy m .exact) m := rfl

theorem Stands.shiftRightOne {em : ExtendedMantissa} {x : ℚ} (h : Stands em x) :
    Stands em.shiftRightOne (x / 2) := by
  obtain ⟨m, round, sticky⟩ := em
  have hm : ((m % 2 : ℕ) : ℚ) + 2 * ((m / 2 : ℕ) : ℚ) = m := by exact_mod_cast Nat.mod_add_div m 2
  -- The last digit of the significand is the bit after the shifted one.
  rcases Nat.mod_two_eq_zero_or_one m with hlast | hlast <;> cases round <;> cases sticky <;>
    simp only [Stands, ExtendedMantissa.shiftRightOne, hlast] at h hm ⊢ <;>
    norm_num at h hm ⊢ <;> grind

theorem Stands.shiftRight {em : ExtendedMantissa} {x : ℚ} (h : Stands em x) (s : Nat) :
    Stands (em >>> s) (x / 2 ^ s) := by
  show Stands (s.repeat ExtendedMantissa.shiftRightOne em) _
  induction s with
  | zero =>
    rw [pow_zero, div_one]
    exact h
  | succ s ih =>
    rw [Nat.repeat, pow_succ, ← div_div]
    exact ih.shiftRightOne

theorem isRounded_of_lt {r : Nat} {x : ℚ} (hlow : (r : ℚ) - 1 / 2 < x) (hhigh : x < r + 1 / 2) :
    IsRounded r x := by
  have hlt : |x - r| < 1 / 2 := abs_lt.mpr ⟨by linarith, by linarith⟩
  exact ⟨hlt.le, fun h => absurd h hlt.ne⟩

/-- Half the way between two whole numbers, it is rounded to the even one. -/
theorem isRounded_half (m : Nat) : IsRounded (m + m % 2) (m + 1 / 2) := by
  rcases Nat.mod_two_eq_zero_or_one m with hlast | hlast
  · rw [hlast, Nat.add_zero]
    refine ⟨?_, fun _ => hlast⟩
    norm_num
  · rw [hlast]
    refine ⟨?_, fun _ => by omega⟩
    rw [Nat.cast_add, Nat.cast_one, add_sub_add_left_eq_sub]
    norm_num

theorem Stands.isRounded {em : ExtendedMantissa} {x : ℚ} (h : Stands em x) :
    IsRounded em.roundedMantissa x := by
  obtain ⟨m, round, sticky⟩ := em
  cases round with
  | false =>
    cases sticky with
    | false =>
      have hx : x = m := h
      rw [hx]
      exact isRounded_of_lt (r := m) (by linarith) (by linarith)
    | true =>
      have hx : (m : ℚ) < x ∧ x < m + 1 / 2 := h
      exact isRounded_of_lt (r := m) (by linarith) hx.2
  | true =>
    cases sticky with
    | false =>
      have hx : x = m + 1 / 2 := h
      rw [hx]
      exact isRounded_half m
    | true =>
      have hx : (m : ℚ) + 1 / 2 < x ∧ x < m + 1 := h
      refine isRounded_of_lt (r := m + 1) ?_ ?_
      · push_cast
        linarith
      · push_cast
        linarith

theorem binary64_targetExponent (e : Int) :
    Format.binary64.targetExponent e = max (e - 53) (-1074) := rfl

theorem log2_mul_two_pow {n : Nat} (hn : 0 < n) (c : Nat) : (n * 2 ^ c).log2 = n.log2 + c := by
  have hne : n * 2 ^ c ≠ 0 := by positivity
  rw [Nat.log2_eq_iff hne]
  constructor
  · rw [pow_add]
    exact Nat.mul_le_mul_right _ (Nat.log2_self_le hn.ne')
  · rw [Nat.add_right_comm, pow_add]
    exact Nat.mul_lt_mul_of_pos_right Nat.lt_log2_self (by positivity)

/-- A significand of at most 53 digits is not shifted. -/
theorem shiftToTargetExponent_of_lt {m : Nat} {e : Int} (hm : m < 2 ^ 53) (he : -1074 ≤ e) :
    shiftToTargetExponent Format.binary64 m e .exact = (⟨m, false, false⟩, e) := by
  have hlog : m.log2 ≤ 52 := by
    by_cases hzero : m = 0
    · simp [hzero]
    · exact Nat.le_of_lt_succ ((Nat.log2_lt hzero).mpr hm)
  have hshift : (Format.binary64.targetExponent (totalExponent m e) - e).toNat = 0 := by
    rw [binary64_targetExponent, totalExponent]
    omega
  rw [shiftToTargetExponent, shiftToExponent, hshift]
  simp only [Nat.cast_zero, add_zero]
  rfl

/-- A significand that was rounded up to 54 digits loses the last one, which is zero. -/
theorem shiftToTargetExponent_two_pow {e : Int} (he : -1074 ≤ e) :
    shiftToTargetExponent Format.binary64 (2 ^ 53) e .exact = (⟨2 ^ 52, false, false⟩, e + 1) := by
  have hshift : (Format.binary64.targetExponent (totalExponent (2 ^ 53) e) - e).toNat = 1 := by
    rw [binary64_targetExponent, totalExponent, Nat.log2_two_pow]
    omega
  rw [shiftToTargetExponent, shiftToExponent, hshift]
  rfl

/-- The form of a positive significand that was rounded. One that was rounded up to 54 digits has
    the next exponent. -/
def carried (r : Nat) (e : Int) : UnpackedFloat :=
  if h : 0 < r ∧ r < 2 ^ 53 then .finite .positive r e h.1
  else .finite .positive (2 ^ 52) (e + 1) (by decide)

theorem IsRounded.lt_add_one {r : Nat} {x : ℚ} (h : IsRounded r x) : x < r + 1 ∧ r < x + 1 := by
  obtain ⟨hbelow, habove⟩ := abs_le.mp h.1
  constructor <;> linarith

/-- A number between two powers of two is rounded to one that is at most between them. -/
theorem IsRounded.bounds {r : Nat} {x : ℚ} (h : IsRounded r x) (hlow : 2 ^ 52 ≤ x)
    (hhigh : x < 2 ^ 53) : 2 ^ 52 ≤ r ∧ r ≤ 2 ^ 53 := by
  have hleast : ((2 ^ 52 : Nat) : ℚ) < (r + 1 : Nat) := by
    push_cast
    exact hlow.trans_lt h.lt_add_one.1
  have hmost : (r : ℚ) < (2 ^ 53 + 1 : Nat) := by
    push_cast
    exact h.lt_add_one.2.trans (by linarith)
  exact ⟨Nat.le_of_lt_succ (Nat.cast_lt.mp hleast), Nat.le_of_lt_succ (Nat.cast_lt.mp hmost)⟩

/-- In units of its 53rd digit a whole number lies between two powers of two. -/
theorem scaled_bounds {n : Nat} (hn : 0 < n) :
    (2 : ℚ) ^ 52 ≤ n / 2 ^ ((n.log2 : ℤ) - 52) ∧ (n : ℚ) / 2 ^ ((n.log2 : ℤ) - 52) < 2 ^ 53 := by
  have hlow : ((2 ^ n.log2 : Nat) : ℚ) ≤ n := by exact_mod_cast Nat.log2_self_le hn.ne'
  have hhigh : (n : ℚ) < (2 ^ (n.log2 + 1) : Nat) := by exact_mod_cast Nat.lt_log2_self
  have hpos : (0 : ℚ) < 2 ^ ((n.log2 : ℤ) - 52) := by positivity
  push_cast at hlow hhigh
  constructor
  · rw [le_div_iff₀ hpos, ← zpow_natCast, ← zpow_add₀ two_ne_zero]
    push_cast
    rw [add_sub_cancel, zpow_natCast]
    exact hlow
  · rw [div_lt_iff₀ hpos, ← zpow_natCast, ← zpow_add₀ two_ne_zero]
    push_cast
    rw [show (53 : ℤ) + (n.log2 - 52) = ((n.log2 + 1 : Nat) : ℤ) by push_cast; ring, zpow_natCast]
    exact hhigh

theorem carried_of_lt {r : Nat} (hpos : 0 < r) (hlt : r < 2 ^ 53) (e : Int) :
    carried r e = .finite .positive r e hpos := dif_pos ⟨hpos, hlt⟩

/-- A whole number that is written with enough digits is rounded in units of its 53rd digit. -/
theorem exists_roundWithAccuracy_eq {n c : Nat} (hn : 0 < n) (hc : 52 ≤ n.log2 + c) :
    ∃ r, IsRounded r (n / 2 ^ ((n.log2 : ℤ) - 52)) ∧
      roundWithAccuracy Format.binary64 .positive (n * 2 ^ c) (-c) .exact =
        carried r (n.log2 - 52) := by
  obtain ⟨s, hs⟩ := Nat.exists_eq_add_of_le hc
  have hshift :
      (Format.binary64.targetExponent (totalExponent (n * 2 ^ c) (-c)) - -c).toNat = s := by
    rw [binary64_targetExponent, totalExponent, log2_mul_two_pow hn]
    omega
  have hscaled : ((n * 2 ^ c : Nat) : ℚ) / 2 ^ s = n / 2 ^ ((n.log2 : ℤ) - 52) := by
    rw [div_eq_div_iff (by positivity) (by positivity), Nat.cast_mul, Nat.cast_pow, mul_assoc,
      Nat.cast_ofNat, ← zpow_natCast, ← zpow_natCast, ← zpow_add₀ two_ne_zero]
    congr 2
    omega
  have hrounded := ((stands_exact (n * 2 ^ c)).shiftRight s).isRounded
  rw [hscaled] at hrounded
  have hfirst : shiftToTargetExponent Format.binary64 (n * 2 ^ c) (-c) .exact =
      (ExtendedMantissa.ofMantissaAndAccuracy (n * 2 ^ c) .exact >>> s, (n.log2 : ℤ) - 52) := by
    rw [shiftToTargetExponent, shiftToExponent, hshift]
    congr 1
    omega
  refine ⟨_, hrounded, ?_⟩
  rw [roundWithAccuracy, hfirst]
  simp only
  generalize
    (ExtendedMantissa.ofMantissaAndAccuracy (n * 2 ^ c) .exact >>> s).roundedMantissa = r at *
  obtain ⟨hlow, hhigh⟩ := hrounded.bounds (scaled_bounds hn).1 (scaled_bounds hn).2
  rcases hhigh.lt_or_eq with hlt | rfl
  · have hpos : 0 < r := by omega
    rw [shiftToTargetExponent_of_lt hlt (by omega), carried_of_lt hpos hlt]
    exact dif_neg hpos.ne'
  · rw [shiftToTargetExponent_two_pow (by omega)]
    rfl

/-- A whole number is not changed by rounding it. -/
theorem isRounded_natCast {r m : Nat} (h : IsRounded r m) : r = m := by
  have hlow : m < r + 1 := by exact_mod_cast h.lt_add_one.1
  have hhigh : r < m + 1 := by exact_mod_cast h.lt_add_one.2
  omega

theorem canonical_carried {r : Nat} {e : Int} (hlow : 2 ^ 52 ≤ r) (hleast : -1074 ≤ e)
    (hmost : e + 1 ≤ 971) : Canonical (carried r e) := by
  unfold carried
  split
  · rename_i h
    exact .full _ h.1 hlow h.2 hleast (by omega)
  · exact .full _ _ (le_refl _) (by decide) (by omega) hmost

/-- A whole number of at most 53 digits is written with all of them. -/
theorem toModel_toFloat {n : Nat} (hn : 0 < n) (hlt : n < 2 ^ 53) :
    n.toUInt64.toFloat.toModel = Float.Model.pack (roundWithAccuracy Format.binary64 .positive
      (n * 2 ^ (52 - n.log2)) (-(52 - n.log2 : Nat)) .exact) := by
  have hword : n.toUInt64.toNat = n := by
    rw [Nat.toUInt64, UInt64.toNat_ofNat', Nat.mod_eq_of_lt (by omega)]
  have hpositive : compare (n : Int) 0 = .gt := Int.compare_eq_gt.mpr (by omega)
  have hshift : (-Format.binary64.targetExponent (totalExponent n 0)).toNat = 52 - n.log2 := by
    have hlog : n.log2 ≤ 52 := Nat.le_of_lt_succ ((Nat.log2_lt hn.ne').mpr hlt)
    rw [binary64_targetExponent, totalExponent]
    omega
  show Float.Model.pack (UnpackedFloat.normalize Format.binary64 n.toUInt64.toNat 0 .positive) = _
  rw [hword, UnpackedFloat.normalize, hpositive]
  simp only [UnpackedFloat.round, decreaseExponent, Int.toNat_natCast, Nat.shiftLeft_eq, zero_sub,
    hshift]

/-- So nothing of it is rounded. -/
theorem unpack_toFloat {n : Nat} (hn : 0 < n) (hlt : n < 2 ^ 53) :
    ∃ hm, n.toUInt64.toFloat.toModel.unpack =
      .finite .positive (n * 2 ^ (52 - n.log2)) (n.log2 - 52) hm := by
  have hlog : n.log2 ≤ 52 := Nat.le_of_lt_succ ((Nat.log2_lt hn.ne').mpr hlt)
  obtain ⟨r, hr, hround⟩ := exists_roundWithAccuracy_eq (c := 52 - n.log2) hn (by omega)
  obtain ⟨hlow, -⟩ := hr.bounds (scaled_bounds hn).1 (scaled_bounds hn).2
  have hexact : (n : ℚ) / 2 ^ ((n.log2 : ℤ) - 52) = (n * 2 ^ (52 - n.log2) : Nat) := by
    rw [div_eq_iff (by positivity), Nat.cast_mul, Nat.cast_pow, mul_assoc, Nat.cast_ofNat,
      ← zpow_natCast, ← zpow_add₀ two_ne_zero, Nat.cast_sub hlog]
    simp
  have hsmall := (scaled_bounds hn).2
  rw [hexact] at hr hsmall
  obtain rfl := isRounded_natCast hr
  have hm : 0 < n * 2 ^ (52 - n.log2) := by positivity
  refine ⟨hm, ?_⟩
  rw [toModel_toFloat hn hlt, hround, unpack_pack (canonical_carried hlow (by omega) (by omega)),
    carried_of_lt hm (by exact_mod_cast hsmall)]

/-- A whole number of at most 53 digits is multiplied by one, which has as many digits. -/
theorem toModel_ofNat_of_lt {n : Nat} (hn : 0 < n) (hlt : n < 2 ^ 53) :
    (Float.ofNat n).toModel = Float.Model.pack (roundWithAccuracy Format.binary64 .positive
      (n * 2 ^ (104 - n.log2)) (-(104 - n.log2 : Nat)) .exact) := by
  have hlog : n.log2 ≤ 52 := Nat.le_of_lt_succ ((Nat.log2_lt hn.ne').mpr hlt)
  obtain ⟨hm, hunpack⟩ := unpack_toFloat hn hlt
  have hone : (Float.ofBits 0x3FF0000000000000).toModel.unpack =
      .finite .positive (2 ^ 52) (-52) (by decide) := rfl
  have hmul : Float.ofNat n = n.toUInt64.toFloat * Float.ofBits 0x3FF0000000000000 := by
    show Float.ofScientific n false 0 = _
    rw [Float.ofScientific, dif_pos ⟨hlt, by decide⟩]
    rfl
  have hdigits : n * 2 ^ (52 - n.log2) * 2 ^ 52 = n * 2 ^ (104 - n.log2) := by
    rw [mul_assoc, ← pow_add]
    congr 2
    omega
  have hexponent : (n.log2 : Int) - 52 + -52 = -(104 - n.log2 : Nat) := by omega
  rw [hmul]
  show Float.Model.pack (UnpackedFloat.mul Format.binary64 n.toUInt64.toFloat.toModel.unpack
    (Float.ofBits 0x3FF0000000000000).toModel.unpack) = _
  rw [hunpack, hone, UnpackedFloat.mul, hdigits, hexponent]
  rfl

/-- A whole number of more digits is rounded once. -/
theorem toModel_ofNat_of_le {n : Nat} (hle : 2 ^ 53 ≤ n) :
    (Float.ofNat n).toModel = Float.Model.pack (roundWithAccuracy Format.binary64 .positive
      (n * 2 ^ 53) (-(53 : Nat)) .exact) := by
  have hexponents : (2 : Int) ^ Format.binary64.exponentBits = 2048 := rfl
  have hdigits : n * 2 ^ Format.binary64.mantissaBits * 10 ^ Int.toNat 0 = n * 2 ^ 53 :=
    Nat.mul_one _
  show (Float.ofScientific n false 0).toModel = _
  rw [Float.ofScientific, dif_neg (by omega)]
  show Float.Model.pack (UnpackedFloat.ofScientific Format.binary64 n 0) = _
  rw [UnpackedFloat.ofScientific, dif_neg (by omega), if_neg (by decide), hexponents,
    if_neg (by omega), if_pos (by decide), UnpackedFloat.mul, Nat.shiftLeft_eq, hdigits]
  rfl

/-- A positive whole number within the doubles is rounded in units of its 53rd digit. -/
theorem exists_unpack_ofNat {n : Nat} (hn : 0 < n) (hmost : n.log2 ≤ 1022) :
    ∃ r, IsRounded r (n / 2 ^ ((n.log2 : ℤ) - 52)) ∧
      (Float.ofNat n).toModel.unpack = carried r (n.log2 - 52) := by
  have hmodel : ∃ c, 52 ≤ n.log2 + c ∧ (Float.ofNat n).toModel = Float.Model.pack
      (roundWithAccuracy Format.binary64 .positive (n * 2 ^ c) (-c) .exact) := by
    by_cases hlt : n < 2 ^ 53
    · exact ⟨104 - n.log2, by omega, toModel_ofNat_of_lt hn hlt⟩
    · exact ⟨53, by omega, toModel_ofNat_of_le (not_lt.mp hlt)⟩
  obtain ⟨c, hc, hmodel⟩ := hmodel
  obtain ⟨r, hr, hround⟩ := exists_roundWithAccuracy_eq hn hc
  obtain ⟨hlow, -⟩ := hr.bounds (scaled_bounds hn).1 (scaled_bounds hn).2
  refine ⟨r, hr, ?_⟩
  rw [hmodel, hround, unpack_pack (canonical_carried hlow (by omega) (by omega))]

/-- The significand is even. -/
def HasEvenSignificand (x : Float) : Prop :=
  match x.toModel.unpack with
  | .zero _ => True
  | .finite _ m _ _ => m % 2 = 0
  | _ => False

/-- No double is nearer to the number, and where another one is as near, the significand is even. -/
def IsNearest (q : ℚ) (x : Float) : Prop :=
  ∃ p, Number.exactValue? x = some p ∧ ∀ y r, Number.exactValue? y = some r →
    |q - p| ≤ |q - r| ∧ (|q - p| = |q - r| → r ≠ p → HasEvenSignificand x)

theorem exactValue?_of_zero {x : Float} {s : Sign} (h : x.toModel.unpack = .zero s) :
    Number.exactValue? x = some 0 := by
  rw [Number.exactValue?, h]

theorem exactValue?_of_finite {x : Float} {s : Sign} {m : Nat} {e : Int} {hm : 0 < m}
    (h : x.toModel.unpack = .finite s m e hm) :
    Number.exactValue? x = some (((s.apply m : Int) : ℚ) * 2 ^ e) := by
  have hvalue : mkRat (m * Nat.pow 2 e.toNat : Nat) (Nat.pow 2 (-e).toNat) = (m : ℚ) * 2 ^ e := by
    rw [Rat.mkRat_eq_div, Nat.pow_eq, Nat.pow_eq]
    push_cast
    rw [mul_div_assoc, ← zpow_natCast, ← zpow_natCast, ← zpow_sub₀ two_ne_zero]
    congr 2
    omega
  rw [Number.exactValue?, h]
  simp only [hvalue]
  cases s with
  | positive => simp [Sign.apply]
  | negative => simp [Sign.apply]

/-- A double with an exact value is zero or a significand times a power of two. -/
theorem exactValue?_cases {x : Float} {q : ℚ} (hx : Number.exactValue? x = some q) :
    (∃ s, x.toModel.unpack = .zero s ∧ q = 0) ∨
      ∃ (s : Sign) (m : Nat) (e : Int) (hm : 0 < m), x.toModel.unpack = .finite s m e hm ∧
        q = (s.apply m : Int) * 2 ^ e := by
  cases hu : x.toModel.unpack with
  | notANumber => simp [Number.exactValue?, hu] at hx
  | infinity s => simp [Number.exactValue?, hu] at hx
  | zero s =>
    rw [exactValue?_of_zero hu, Option.some.injEq] at hx
    exact .inl ⟨s, rfl, hx.symm⟩
  | finite s m e hm =>
    rw [exactValue?_of_finite hu, Option.some.injEq] at hx
    exact .inr ⟨s, m, e, hm, rfl, hx.symm⟩

theorem exactValue?_neg (x : Float) :
    Number.exactValue? (-x) = (Number.exactValue? x).map Neg.neg := by
  have hneg := unpack_neg x
  cases hx : x.toModel.unpack with
  | notANumber =>
    rw [hx] at hneg
    rw [Number.exactValue?, Number.exactValue?, hx, hneg]
    rfl
  | infinity s =>
    rw [hx] at hneg
    rw [Number.exactValue?, Number.exactValue?, hx, hneg]
    rfl
  | zero s =>
    rw [hx] at hneg
    rw [exactValue?_of_zero hx, exactValue?_of_zero hneg]
    simp
  | finite s m e hm =>
    rw [hx] at hneg
    rw [exactValue?_of_finite hx, exactValue?_of_finite hneg]
    cases s <;> simp [Sign.apply]

theorem hasEvenSignificand_neg {x : Float} (h : HasEvenSignificand x) :
    HasEvenSignificand (-x) := by
  unfold HasEvenSignificand at h ⊢
  rw [unpack_neg]
  cases hx : x.toModel.unpack <;> rw [hx] at h <;> exact h

/-- The opposite of a number is nearest to the opposite double. -/
theorem IsNearest.neg {q : ℚ} {x : Float} (h : IsNearest q x) : IsNearest (-q) (-x) := by
  obtain ⟨p, hp, hnearest⟩ := h
  refine ⟨-p, by rw [exactValue?_neg, hp]; rfl, ?_⟩
  intro y r hr
  have hflip (t : ℚ) : |-q - t| = |q - -t| := by
    rw [← abs_neg]
    congr 1
    ring
  obtain ⟨hle, heven⟩ := hnearest (-y) (-r) (by rw [exactValue?_neg, hr]; rfl)
  rw [hflip, hflip, neg_neg]
  refine ⟨hle, ?_⟩
  intro htie hne
  exact hasEvenSignificand_neg (heven htie fun heq => hne (by rw [← heq, neg_neg]))

/-- A double that is not below a power of two is a multiple of the unit of 53 digits there. -/
theorem exists_eq_mul_of_le {y : Float} {q : ℚ} {k : Nat} (hy : Number.exactValue? y = some q)
    (hle : 2 ^ k ≤ q) : ∃ j : ℤ, q = j * 2 ^ ((k : ℤ) - 52) := by
  have hpos : 0 < q := lt_of_lt_of_le (by positivity) hle
  have hcanonical : Canonical y.toModel.unpack := canonical_unpack _
  have hdigits {m : Nat} {e : Int} (hm : m < 2 ^ 53) (hq : q = m * 2 ^ e) : (k : ℤ) - 52 ≤ e := by
    have hlt : (2 : ℚ) ^ k < 2 ^ (53 + e) := by
      calc (2 : ℚ) ^ k ≤ m * 2 ^ e := hq ▸ hle
        _ < 2 ^ (53 : ℤ) * 2 ^ e := by
          gcongr
          exact_mod_cast hm
        _ = 2 ^ (53 + e) := (zpow_add₀ two_ne_zero _ _).symm
    rw [← zpow_natCast, zpow_lt_zpow_iff_right₀ one_lt_two] at hlt
    omega
  have hfinite {m : Nat} {e : Int} (hm : m < 2 ^ 53) (hq : q = m * 2 ^ e) :
      ∃ j : ℤ, q = j * 2 ^ ((k : ℤ) - 52) := by
    obtain ⟨c, hc⟩ := Int.le.dest (hdigits hm hq)
    refine ⟨m * 2 ^ c, ?_⟩
    rw [hq, ← hc, add_comm, zpow_add₀ two_ne_zero, zpow_natCast]
    push_cast
    ring
  obtain ⟨s, hu, rfl⟩ | ⟨s, m, e, hm, hu, hq⟩ := exactValue?_cases hy
  · exact absurd hpos (lt_irrefl 0)
  · rw [hu] at hcanonical
    cases s with
    | positive => exact hfinite hcanonical.digits.1 (by rw [hq, Sign.apply, Int.cast_natCast])
    | negative =>
      have hneg : q ≤ 0 := by
        rw [hq]
        simp only [Sign.apply]
        push_cast
        rw [neg_mul]
        exact neg_nonpos.mpr (by positivity)
      exact absurd hpos (not_lt.mpr hneg)

/-- The value of a significand that is at most `2 ^ 53`, and a digit that makes it even. -/
theorem exactValue?_of_carried {x : Float} {r : Nat} {e : Int} (hlow : 2 ^ 52 ≤ r)
    (hhigh : r ≤ 2 ^ 53) (h : x.toModel.unpack = carried r e) :
    Number.exactValue? x = some ((r : ℚ) * 2 ^ e) ∧ (r % 2 = 0 → HasEvenSignificand x) := by
  unfold HasEvenSignificand
  rcases hhigh.lt_or_eq with hlt | rfl
  · rw [carried_of_lt (by omega) hlt] at h
    rw [exactValue?_of_finite h, h]
    exact ⟨by simp [Sign.apply], id⟩
  · have hcarried : carried (2 ^ 53) e = .finite .positive (2 ^ 52) (e + 1) (by decide) := rfl
    rw [hcarried] at h
    rw [exactValue?_of_finite h, h]
    refine ⟨?_, fun _ => rfl⟩
    rw [zpow_add₀ two_ne_zero]
    simp only [Sign.apply]
    push_cast
    congr 1
    ring

/-- A whole number of units that is rounded is nearest among the whole numbers of units. -/
theorem IsRounded.le_abs_sub {r : Nat} {x : ℚ} (h : IsRounded r x) {j : ℤ} (hj : j ≠ r) :
    |x - r| ≤ |x - j| ∧ (|x - r| = |x - j| → r % 2 = 0) := by
  have hone : (1 : ℚ) ≤ |(j : ℚ) - r| := by
    have hdiff : (1 : ℤ) ≤ |j - r| := Int.one_le_abs (sub_ne_zero.mpr hj)
    exact_mod_cast hdiff
  have htriangle : |(j : ℚ) - r| ≤ |x - r| + |x - j| := by
    rw [abs_sub_comm x (j : ℚ), add_comm]
    exact abs_sub_le _ _ _
  have hhalf := h.1
  refine ⟨by linarith, ?_⟩
  intro htie
  exact h.2 (by linarith)

/-- A positive whole number within the doubles becomes the nearest one. -/
theorem isNearest_ofNat {n : Nat} (hmost : n.log2 ≤ 1022) : IsNearest n (Float.ofNat n) := by
  rcases Nat.eq_zero_or_pos n with rfl | hn
  · have hunpack : (Float.ofNat 0).toModel.unpack = .zero .positive := rfl
    refine ⟨0, exactValue?_of_zero hunpack, ?_⟩
    intro y q _
    rw [Nat.cast_zero, sub_zero, abs_zero, zero_sub, abs_neg]
    exact ⟨abs_nonneg q, fun heq hne => absurd (abs_eq_zero.mp heq.symm) hne⟩
  obtain ⟨r, hr, hunpack⟩ := exists_unpack_ofNat hn hmost
  obtain ⟨hlow, hhigh⟩ := hr.bounds (scaled_bounds hn).1 (scaled_bounds hn).2
  obtain ⟨hvalue, heven⟩ := exactValue?_of_carried hlow hhigh hunpack
  set u : ℚ := 2 ^ ((n.log2 : ℤ) - 52) with hu
  have hupos : 0 < u := by positivity
  have hscale (t : ℚ) : |(n : ℚ) - t * u| = |n / u - t| * u := by
    rw [← abs_of_pos hupos, ← abs_mul, abs_of_pos hupos, sub_mul, div_mul_cancel₀ _ hupos.ne']
  refine ⟨_, hvalue, ?_⟩
  intro y q hy
  -- Among the multiples of the unit, the rounded one is nearest.
  have hmultiple (j : ℤ) : |(n : ℚ) - r * u| ≤ |(n : ℚ) - j * u| ∧
      (|(n : ℚ) - r * u| = |(n : ℚ) - j * u| → (j : ℚ) * u ≠ r * u → r % 2 = 0) := by
    rw [hscale, hscale]
    by_cases hj : j = r
    · rw [hj]
      exact ⟨le_refl _, fun _ hne => absurd rfl hne⟩
    · obtain ⟨hle, htie⟩ := hr.le_abs_sub hj
      refine ⟨mul_le_mul_of_nonneg_right hle hupos.le, ?_⟩
      intro heq _
      exact htie (mul_right_cancel₀ hupos.ne' heq)
  by_cases hbelow : (2 : ℚ) ^ n.log2 ≤ q
  · obtain ⟨j, rfl⟩ := exists_eq_mul_of_le hy hbelow
    obtain ⟨hle, htie⟩ := hmultiple j
    exact ⟨hle, fun heq hne => heven (htie heq hne)⟩
  · -- The power of two below the number is a multiple of the unit, and it is nearer.
    have hpower : ((2 ^ 52 : ℤ) : ℚ) * u = 2 ^ n.log2 := by
      rw [hu, zpow_sub₀ two_ne_zero]
      push_cast
      field_simp
      norm_num
    have hleast : (2 : ℚ) ^ n.log2 ≤ n := by exact_mod_cast Nat.log2_self_le hn.ne'
    have hle := (hmultiple (2 ^ 52)).1
    rw [hpower, abs_of_nonneg (sub_nonneg.mpr hleast)] at hle
    have hfar : |(n : ℚ) - q| = n - q := abs_of_nonneg (by linarith)
    have hlt : |(n : ℚ) - r * u| < |(n : ℚ) - q| := by
      rw [hfar]
      linarith
    exact ⟨hlt.le, fun heq => absurd heq hlt.ne⟩

/-- A whole number within the doubles becomes the nearest one. -/
theorem isNearest_ofInt {i : Int} (hmost : i.natAbs.log2 ≤ 1022) : IsNearest i (Float.ofInt i) := by
  cases i with
  | ofNat n => exact isNearest_ofNat hmost
  | negSucc n =>
    have hopposite : ((Int.negSucc n : Int) : ℚ) = -((n + 1 : Nat) : ℚ) := by
      rw [Int.cast_negSucc]
    rw [hopposite]
    exact (isNearest_ofNat hmost).neg

end Double

end LinearSystems
