import Mathlib
import LinearSystems.Proofs.Double

/-!
# The order of doubles

Doubles that are numbers are ordered as the triples of their kind, their exponent and their
significand, taken with their sign. So a comparison of doubles has the laws of a linear order as far
as its operands are numbers, and every value that is not a number stands apart.

A magnitude is encoded before it is compared. Encoding keeps what decoding can give, so the
magnitude of a double is the double's own value without its sign.
-/

namespace LinearSystems.Double

open Float.Model

/-- The forms that decoding gives: a finite value either has all 53 digits or stands at the lowest
    exponent, and its exponent fits. -/
inductive Canonical : UnpackedFloat → Prop
  | notANumber : Canonical .notANumber
  | infinity (s : UnpackedFloat.Sign) : Canonical (.infinity s)
  | zero (s : UnpackedFloat.Sign) : Canonical (.zero s)
  | small (s : UnpackedFloat.Sign) {m : Nat} {e : Int} (hm : 0 < m) (hdigits : m < 2 ^ 52)
      (he : e = -1074) : Canonical (.finite s m e hm)
  | full (s : UnpackedFloat.Sign) {m : Nat} {e : Int} (hm : 0 < m) (hlow : 2 ^ 52 ≤ m)
      (hhigh : m < 2 ^ 53) (hleast : -1074 ≤ e) (hmost : e ≤ 971) : Canonical (.finite s m e hm)

theorem toNat_one_append (v : BitVec 52) : (1#1 ++ v).toNat = 2 ^ 52 + v.toNat := by
  rw [BitVec.toNat_append, ← Nat.shiftLeft_add_eq_or_of_lt v.isLt]
  simp [Nat.shiftLeft_eq]

theorem canonical_unpack (b : BitVec Format.binary64.numBits) :
    Canonical (UnpackedFloat.unpack Format.binary64 b) := by
  have hbias : (Format.binary64.exponentBias : Int) = 1023 := rfl
  have hdigits : (Format.binary64.mantissaBitsWithoutImplicit : Int) = 52 := rfl
  have hexponent : (UnpackedFloat.unpackExponent b).toNat < 2 ^ 11 := BitVec.isLt _
  have hmantissa : (UnpackedFloat.unpackMantissa b).toNat < 2 ^ 52 := BitVec.isLt _
  rw [UnpackedFloat.unpack]
  split
  · split
    · exact .infinity _
    · exact .notANumber
  · rename_i hnotTop
    have htop : (UnpackedFloat.unpackExponent b).toNat ≠ 2 ^ 11 - 1 :=
      fun h => hnotTop (BitVec.toNat_inj.mp h)
    split
    · rename_i hzero
      split
      · exact .zero _
      · refine .small _ _ hmantissa ?_
        rw [hzero, hbias, hdigits]
        rfl
    · rename_i hnotZero
      have hpos : (UnpackedFloat.unpackExponent b).toNat ≠ 0 :=
        fun h => hnotZero (BitVec.toNat_inj.mp h)
      have happend := toNat_one_append (UnpackedFloat.unpackMantissa b)
      refine .full _ _ ?_ ?_ ?_ ?_
      · rw [happend]
        omega
      · rw [happend]
        omega
      · rw [hbias, hdigits]
        omega
      · rw [hbias, hdigits]
        omega

/-- The digits of a finite value in such a form. -/
theorem Canonical.digits {s : UnpackedFloat.Sign} {m : Nat} {e : Int} {hm : 0 < m}
    (h : Canonical (.finite s m e hm)) : m < 2 ^ 53 ∧ -1074 ≤ e ∧ (-1074 < e → 2 ^ 52 ≤ m) := by
  cases h with
  | small _ _ hdigits he => omega
  | full _ _ hlow hhigh hleast hmost => exact ⟨hhigh, hleast, fun _ => hlow⟩

theorem canonical_abs {u : UnpackedFloat} (h : Canonical u) : Canonical u.abs := by
  cases h with
  | notANumber => exact .notANumber
  | infinity s => exact .infinity _
  | zero s => exact .zero _
  | small s hm hdigits he => exact .small _ hm hdigits he
  | full s hm hlow hhigh hleast hmost => exact .full _ hm hlow hhigh hleast hmost

theorem ofBitVec_unpackSign_packComponents {format : Format} (s : UnpackedFloat.Sign)
    (e : BitVec format.exponentBits) (m : BitVec format.mantissaBitsWithoutImplicit) :
    UnpackedFloat.Sign.ofBitVec (UnpackedFloat.unpackSign
      (UnpackedFloat.packComponents format s e m)) = s := by
  have hbit : UnpackedFloat.unpackSign (UnpackedFloat.packComponents format s e m) =
      s.toBitVec := by
    apply BitVec.eq_of_getLsbD_eq
    intro i hi
    obtain rfl : i = 0 := by omega
    simp [UnpackedFloat.unpackSign, UnpackedFloat.packComponents, BitVec.getLsbD_append,
      BitVec.getElem_append]
  rw [hbit]
  cases s <;> rfl

/-- A significand of fewer digits is encoded at the lowest exponent. -/
theorem pack_small (s : UnpackedFloat.Sign) {m : Nat} (hm : 0 < m) (hdigits : m < 2 ^ 52) :
    UnpackedFloat.pack Format.binary64 (.finite s m (-1074) hm) =
      UnpackedFloat.packComponents Format.binary64 s 0#11 (BitVec.ofNat 52 m) := by
  have hall : Format.binary64.mantissaBits = 53 := rfl
  have hlog : m.log2 < 52 := (Nat.log2_lt hm.ne').mpr hdigits
  rw [UnpackedFloat.pack]
  simp only [hall]
  rw [if_neg (by decide), if_neg (by omega)]

/-- A significand of all digits is encoded without the first, which is always one. -/
theorem pack_full (s : UnpackedFloat.Sign) {m : Nat} {e : Int} (hm : 0 < m) (hlow : 2 ^ 52 ≤ m)
    (hhigh : m < 2 ^ 53) (hmost : e ≤ 971) :
    UnpackedFloat.pack Format.binary64 (.finite s m e hm) =
      UnpackedFloat.packComponents Format.binary64 s (BitVec.ofNat 11 (e + 1075).toNat)
        (BitVec.ofNat 52 m) := by
  have hall : Format.binary64.mantissaBits = 53 := rfl
  have hexponents : 2 ^ Format.binary64.exponentBits = 2048 := rfl
  have hlog : m.log2 = 52 := (Nat.log2_eq_iff hm.ne').mpr ⟨hlow, hhigh⟩
  have hbiased : e + (Format.binary64.exponentBias : Int) +
      (Format.binary64.mantissaBitsWithoutImplicit : Int) = e + 1075 := add_assoc e 1023 52
  rw [UnpackedFloat.pack]
  simp only [hall, hbiased, hexponents]
  rw [if_neg (by omega), if_pos (by omega)]

theorem unpack_packComponents_small (s : UnpackedFloat.Sign) {m : BitVec 52} (hm : 0 < m.toNat) :
    UnpackedFloat.unpack Format.binary64 (UnpackedFloat.packComponents Format.binary64 s 0#11 m) =
      .finite s m.toNat (-1074) hm := by
  have hne : m ≠ 0#52 := fun h => by simp [h] at hm
  rw [UnpackedFloat.unpack]
  simp only [UnpackedFloat.unpackMantissa_packComponents,
    UnpackedFloat.unpackExponent_packComponents, ofBitVec_unpackSign_packComponents]
  rw [if_neg (by decide), if_pos trivial, dif_neg hne]
  rfl

theorem unpack_packComponents_full (s : UnpackedFloat.Sign) {e : BitVec 11} {m : BitVec 52}
    (hnotZero : e.toNat ≠ 0) (hnotTop : e.toNat ≠ 2047) (hm : 0 < (1#1 ++ m).toNat) :
    UnpackedFloat.unpack Format.binary64 (UnpackedFloat.packComponents Format.binary64 s e m) =
      .finite s (1#1 ++ m).toNat (e.toNat - 1075) hm := by
  have htop : e ≠ -1#11 := fun h => hnotTop (congrArg BitVec.toNat h)
  have hzero : e ≠ 0#11 := fun h => hnotZero (congrArg BitVec.toNat h)
  rw [UnpackedFloat.unpack]
  simp only [UnpackedFloat.unpackMantissa_packComponents,
    UnpackedFloat.unpackExponent_packComponents, ofBitVec_unpackSign_packComponents]
  rw [if_neg htop, if_neg hzero]
  rfl

/-- What decoding can give is kept by encoding it and decoding it again. -/
theorem unpack_pack {u : UnpackedFloat} (h : Canonical u) : (Float.Model.pack u).unpack = u := by
  show UnpackedFloat.unpack Format.binary64 (UnpackedFloat.pack Format.binary64 u) = u
  cases h with
  | notANumber => rfl
  | infinity s => cases s <;> rfl
  | zero s => cases s <;> rfl
  | @small s m e hm hdigits he =>
    subst he
    have hmantissa : (BitVec.ofNat 52 m).toNat = m := by
      rw [BitVec.toNat_ofNat, Nat.mod_eq_of_lt hdigits]
    rw [pack_small s hm hdigits, unpack_packComponents_small s (hm.trans_eq hmantissa.symm)]
    simp only [hmantissa]
  | @full s m e hm hlow hhigh hleast hmost =>
    have hexponent : (BitVec.ofNat 11 (e + 1075).toNat).toNat = (e + 1075).toNat := by
      rw [BitVec.toNat_ofNat, Nat.mod_eq_of_lt (by omega)]
    have hmantissa : (1#1 ++ BitVec.ofNat 52 m).toNat = m := by
      rw [toNat_one_append, BitVec.toNat_ofNat]
      omega
    have hback : ((e + 1075).toNat : Int) - 1075 = e := by omega
    rw [pack_full s hm hlow hhigh hmost, unpack_packComponents_full s (by omega) (by omega)
      (hm.trans_eq hmantissa.symm)]
    simp only [hmantissa, hexponent, hback]

theorem unpack_abs (a : Float) : a.abs.toModel.unpack = a.toModel.unpack.abs :=
  unpack_pack (canonical_abs (canonical_unpack _))

/-- Where a number stands in the order: its kind, from negative infinity to positive infinity, then
    the exponent and the significand, turned over for a negative number. -/
def place : UnpackedFloat → Int ×ₗ Int ×ₗ Int
  | .notANumber => toLex (0, toLex (0, 0))
  | .infinity .negative => toLex (-2, toLex (0, 0))
  | .infinity .positive => toLex (2, toLex (0, 0))
  | .zero _ => toLex (0, toLex (0, 0))
  | .finite .negative m e _ => toLex (-1, toLex (-e, -m))
  | .finite .positive m e _ => toLex (1, toLex (e, m))

theorem then_eq_lt_iff {e e' : Int} {m m' : Nat} :
    (compare e e').then (compare m m') = .lt ↔ e < e' ∨ e = e' ∧ m < m' := by
  rw [Ordering.then_eq_lt, compare_lt_iff_lt, compare_eq_iff_eq, compare_lt_iff_lt]

theorem then_eq_gt_iff {e e' : Int} {m m' : Nat} :
    (compare e e').then (compare m m') = .gt ↔ e' < e ∨ e = e' ∧ m' < m := by
  rw [Ordering.then_eq_gt, compare_gt_iff_gt, compare_eq_iff_eq, compare_gt_iff_gt]

/-- Two numbers are in ascending order exactly if their places are. -/
theorem compare_eq_lt_iff {x y : UnpackedFloat} (hx : x ≠ .notANumber) (hy : y ≠ .notANumber) :
    x.compare y = some .lt ↔ place x < place y := by
  cases x with
  | notANumber => exact absurd rfl hx
  | infinity s =>
    cases y with
    | notANumber => exact absurd rfl hy
    | infinity s' => cases s <;> cases s' <;> decide
    | zero s' => cases s <;> cases s' <;> decide
    | finite s' m' e' hm' =>
      cases s <;> cases s' <;> simp [UnpackedFloat.compare, place, Prod.Lex.toLex_lt_toLex]
  | zero s =>
    cases y with
    | notANumber => exact absurd rfl hy
    | infinity s' => cases s <;> cases s' <;> decide
    | zero s' => cases s <;> cases s' <;> decide
    | finite s' m' e' hm' =>
      cases s' <;> simp [UnpackedFloat.compare, place, Prod.Lex.toLex_lt_toLex]
  | finite s m e hm =>
    cases y with
    | notANumber => exact absurd rfl hy
    | infinity s' =>
      cases s <;> cases s' <;> simp [UnpackedFloat.compare, place, Prod.Lex.toLex_lt_toLex]
    | zero s' =>
      cases s <;> simp [UnpackedFloat.compare, place, Prod.Lex.toLex_lt_toLex]
    | finite s' m' e' hm' =>
      cases s <;> cases s' <;>
        simp [UnpackedFloat.compare, place, Prod.Lex.toLex_lt_toLex, then_eq_lt_iff,
          then_eq_gt_iff]

/-- Comparing two values is comparing the places of two numbers. -/
theorem lt_iff_place {a b : Float} :
    a < b ↔ a.isNaN = false ∧ b.isNaN = false ∧
      place a.toModel.unpack < place b.toModel.unpack := by
  rw [lt_iff, beq_iff_eq, ← Bool.not_eq_true, ← Bool.not_eq_true, isNaN_iff, isNaN_iff]
  constructor
  · intro h
    have hnone : a.toModel.unpack.compare b.toModel.unpack ≠ none := by simp [h]
    rw [Ne, compare_eq_none_iff, not_or] at hnone
    exact ⟨hnone.1, hnone.2, (compare_eq_lt_iff hnone.1 hnone.2).mp h⟩
  · rintro ⟨ha, hb, hplace⟩
    exact (compare_eq_lt_iff ha hb).mpr hplace

theorem lt_asymm {a b : Float} (h : a < b) : ¬ b < a := by
  intro h'
  exact (lt_iff_place.mp h).2.2.not_gt (lt_iff_place.mp h').2.2

/-- A value that is not below a number which is not below a third value is not below that value. -/
theorem not_lt_trans {a b c : Float} (hb : b.isNaN = false) (hab : ¬ b < a) (hbc : ¬ c < b) :
    ¬ c < a := by
  intro h
  obtain ⟨hc, ha, hplace⟩ := lt_iff_place.mp h
  have hba : place a.toModel.unpack ≤ place b.toModel.unpack :=
    not_lt.mp fun hlt => hab (lt_iff_place.mpr ⟨hb, ha, hlt⟩)
  have hcb : place b.toModel.unpack ≤ place c.toModel.unpack :=
    not_lt.mp fun hlt => hbc (lt_iff_place.mpr ⟨hc, hb, hlt⟩)
  exact hplace.not_ge (hba.trans hcb)

theorem unpack_zero : (0.0 : Float).toModel.unpack = .zero .positive := rfl

theorem abs_of_unpack_eq_zero {a : Float} {s : UnpackedFloat.Sign}
    (ha : a.toModel.unpack = .zero s) : a.abs = 0.0 := by
  show Float.ofModel (Float.Model.pack a.toModel.unpack.abs) = 0.0
  rw [ha]
  rfl

/-- Of the magnitudes only zero itself is not above zero. -/
theorem abs_eq_zero_of_not_lt {a : Float} (ha : a.isNaN = false) (h : ¬ 0.0 < a.abs) :
    a.abs = 0.0 := by
  rw [lt_iff, unpack_abs, unpack_zero] at h
  cases hu : a.toModel.unpack with
  | notANumber =>
    rw [isNaN_iff.mpr hu] at ha
    cases ha
  | infinity s => simp [hu, UnpackedFloat.abs, UnpackedFloat.compare] at h
  | zero s => exact abs_of_unpack_eq_zero hu
  | finite s m e hm => simp [hu, UnpackedFloat.abs, UnpackedFloat.compare] at h

end LinearSystems.Double
