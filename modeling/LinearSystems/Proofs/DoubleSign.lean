import Mathlib
import LinearSystems.Proofs.DoubleFinite

/-!
# Signs and zeros of doubles

What can be said of sums and quotients of doubles without knowing how they are rounded. Rounding
keeps the sign, so values that are not negative have a sum that is not negative, and such a sum is a
number even where it overflows. A quotient of finite values is a number unless it is by zero. And
adding a zero leaves a number as it is, but for the sign of another zero.
-/

namespace LinearSystems.Double

open Float.Model

/-- Not negative: a zero of either sign, or a positive value. -/
inductive FromZero : UnpackedFloat → Prop
  | infinity : FromZero (.infinity .positive)
  | zero (s : UnpackedFloat.Sign) : FromZero (.zero s)
  | finite {m : Nat} {e : Int} (hm : 0 < m) : FromZero (.finite .positive m e hm)

theorem zero_le_iff {a : Float} : 0.0 ≤ a ↔ FromZero a.toModel.unpack := by
  rw [le_iff, unpack_zero]
  constructor
  · intro h
    cases hu : a.toModel.unpack with
    | notANumber => simp [hu, UnpackedFloat.compare] at h
    | infinity s =>
      cases s with
      | negative => simp [hu, UnpackedFloat.compare] at h
      | positive => exact .infinity
    | zero s => exact .zero s
    | finite s m e hm =>
      cases s with
      | negative => simp [hu, UnpackedFloat.compare] at h
      | positive => exact .finite hm
  · intro h
    generalize a.toModel.unpack = u at h
    cases h <;> rfl

/-- A number that is decoded with a positive sign is not negative. -/
theorem fromZero_unpack {b : BitVec Format.binary64.numBits}
    (hnumber : UnpackedFloat.unpack Format.binary64 b ≠ .notANumber)
    (hsign : UnpackedFloat.Sign.ofBitVec (UnpackedFloat.unpackSign b) = .positive) :
    FromZero (UnpackedFloat.unpack Format.binary64 b) := by
  rw [UnpackedFloat.unpack] at hnumber ⊢
  simp only [hsign] at hnumber ⊢
  split_ifs at hnumber ⊢ with htop hmantissa hbottom hzero
  · exact .infinity
  · exact absurd rfl hnumber
  · exact .zero _
  · exact .finite _
  · exact .finite _

/-- Encoding keeps the sign, also where it overflows. -/
theorem FromZero.unpack_pack {u : UnpackedFloat} (h : FromZero u) :
    FromZero (Float.Model.pack u).unpack := by
  cases h with
  | infinity =>
    rw [Double.unpack_pack (.infinity _)]
    exact .infinity
  | zero s =>
    rw [Double.unpack_pack (.zero s)]
    exact .zero s
  | @finite m e hm =>
    apply fromZero_unpack
    · exact fun hnan => nomatch unpack_pack_eq_notANumber_iff.mp hnan
    · show UnpackedFloat.Sign.ofBitVec (UnpackedFloat.unpackSign
        (UnpackedFloat.pack Format.binary64 (.finite .positive m e hm))) = _
      rw [UnpackedFloat.pack]
      dsimp only
      split_ifs
      · exact ofBitVec_unpackSign_packComponents _ _ _
      · exact ofBitVec_unpackSign_packComponents _ _ _
      · exact ofBitVec_unpackSign_packComponents _ _ _

/-- So does rounding. -/
theorem fromZero_roundWithAccuracy (format : Format) (m : Nat) (e : Int)
    (accuracy : UnpackedFloat.Accuracy) :
    FromZero (UnpackedFloat.roundWithAccuracy format .positive m e accuracy) := by
  unfold UnpackedFloat.roundWithAccuracy
  dsimp only
  split_ifs
  · exact .zero _
  · exact .finite _

theorem fromZero_normalize (format : Format) {m : Int} (hm : 0 ≤ m) (e : Int) :
    FromZero (UnpackedFloat.normalize format m e .positive) := by
  unfold UnpackedFloat.normalize
  split
  · rename_i hlt
    exact absurd (Int.compare_eq_lt.mp hlt) (not_lt.mpr hm)
  · exact .zero _
  · exact fromZero_roundWithAccuracy _ _ _ _

theorem FromZero.add {x y : UnpackedFloat} (hx : FromZero x) (hy : FromZero y) :
    FromZero (UnpackedFloat.add Format.binary64 x y) := by
  cases hx with
  | infinity => cases hy <;> exact .infinity
  | zero s =>
    cases hy with
    | infinity => exact .infinity
    | zero s' => cases s <;> cases s' <;> exact .zero _
    | finite hm => exact .finite hm
  | finite hm =>
    cases hy with
    | infinity => exact .infinity
    | zero s => exact .finite hm
    | finite hm' =>
      apply fromZero_normalize
      exact Int.add_nonneg (Int.natCast_nonneg _) (Int.natCast_nonneg _)

/-- Values that are not negative have a sum that is not negative; in particular it is a number. -/
theorem zero_le_add {a b : Float} (ha : 0.0 ≤ a) (hb : 0.0 ≤ b) : 0.0 ≤ a + b :=
  zero_le_iff.mpr ((zero_le_iff.mp ha).add (zero_le_iff.mp hb)).unpack_pack

theorem zero_le_abs {a : Float} (h : a.isNaN = false) : 0.0 ≤ a.abs := by
  rw [zero_le_iff, unpack_abs]
  cases hu : a.toModel.unpack with
  | notANumber =>
    rw [isNaN_iff.mpr hu] at h
    cases h
  | infinity s => exact .infinity
  | zero s => exact .zero _
  | finite s m e hm => exact .finite hm

theorem canonical_neg {u : UnpackedFloat} (h : Canonical u) : Canonical u.neg := by
  cases h with
  | notANumber => exact .notANumber
  | infinity s => exact .infinity _
  | zero s => exact .zero _
  | small s hm hdigits he => exact .small _ hm hdigits he
  | full s hm hlow hhigh hleast hmost => exact .full _ hm hlow hhigh hleast hmost

theorem unpack_neg (a : Float) : (-a).toModel.unpack = a.toModel.unpack.neg :=
  unpack_pack (canonical_neg (canonical_unpack _))

theorem isFinite_neg (a : Float) : (-a).isFinite = a.isFinite := by
  show (-a).toModel.unpack.isFinite = a.toModel.unpack.isFinite
  rw [unpack_neg]
  cases a.toModel.unpack <;> rfl

/-- A quotient of finite values is a number, unless it is by zero. It may overflow. -/
theorem isNaN_div_eq_false {a b : Float} (ha : a.isFinite = true) (hb : b.isFinite = true)
    (hzero : ∀ s, b.toModel.unpack ≠ .zero s) : (a / b).isNaN = false := by
  rw [← Bool.not_eq_true, isNaN_iff]
  show (Float.Model.pack _).unpack ≠ _
  rw [Ne, unpack_pack_eq_notANumber_iff]
  have ha : a.toModel.unpack.isFinite = true := ha
  have hb : b.toModel.unpack.isFinite = true := hb
  generalize a.toModel.unpack = x at ha ⊢
  generalize b.toModel.unpack = y at hb hzero ⊢
  cases y with
  | notANumber => cases hb
  | infinity s => cases hb
  | zero s => exact absurd rfl (hzero s)
  | finite s m e hm =>
    cases x with
    | notANumber => cases ha
    | infinity s' => cases ha
    | zero s' => exact fun h => nomatch h
    | finite s' m' e' hm' =>
      show UnpackedFloat.roundWithAccuracy _ _ _ _ _ ≠ _
      unfold UnpackedFloat.roundWithAccuracy
      dsimp only
      split_ifs <;> simp

/-- A value without the sign that it has as a zero. -/
def unsigned : UnpackedFloat → UnpackedFloat
  | .zero _ => .zero .positive
  | u => u

theorem canonical_unsigned {u : UnpackedFloat} (h : Canonical u) : Canonical (unsigned u) := by
  cases h with
  | notANumber => exact .notANumber
  | infinity s => exact .infinity s
  | zero s => exact .zero _
  | small s hm hdigits he => exact .small s hm hdigits he
  | full s hm hlow hhigh hleast hmost => exact .full s hm hlow hhigh hleast hmost

/-- The values are the same, but for the sign that they have as zeros. -/
def SameNumber (a b : Float) : Prop :=
  unsigned a.toModel.unpack = unsigned b.toModel.unpack

theorem SameNumber.refl (a : Float) : SameNumber a a := rfl

theorem SameNumber.symm {a b : Float} (h : SameNumber a b) : SameNumber b a := Eq.symm h

theorem SameNumber.trans {a b c : Float} (hab : SameNumber a b) (hbc : SameNumber b c) :
    SameNumber a c := Eq.trans hab hbc

/-- A number is encoded without the sign of a zero. -/
theorem unsigned_unpack_pack (a : Float) :
    unsigned (Float.Model.pack (unsigned a.toModel.unpack)).unpack =
      unsigned a.toModel.unpack := by
  have hpacked : (Float.Model.pack (unsigned a.toModel.unpack)).unpack =
      unsigned a.toModel.unpack := unpack_pack (canonical_unsigned (canonical_unpack _))
  rw [hpacked]
  cases a.toModel.unpack <;> rfl

/-- Adding a zero does not change a number. -/
theorem sameNumber_add_zero (a : Float) : SameNumber (a + 0.0) a := by
  have hsum (u : UnpackedFloat) :
      UnpackedFloat.add Format.binary64 u (.zero .positive) = unsigned u := by
    cases u with
    | zero s => cases s <;> rfl
    | notANumber | infinity | finite => rfl
  show unsigned (Float.Model.pack (UnpackedFloat.add _ _ _)).unpack = _
  rw [unpack_zero, hsum]
  exact unsigned_unpack_pack a

theorem sameNumber_zero_add (a : Float) : SameNumber (0.0 + a) a := by
  have hsum (u : UnpackedFloat) :
      UnpackedFloat.add Format.binary64 (.zero .positive) u = unsigned u := by
    cases u with
    | zero s => cases s <;> rfl
    | notANumber | infinity | finite => rfl
  show unsigned (Float.Model.pack (UnpackedFloat.add _ _ _)).unpack = _
  rw [unpack_zero, hsum]
  exact unsigned_unpack_pack a

theorem SameNumber.isFinite_eq {a b : Float} (h : SameNumber a b) : a.isFinite = b.isFinite := by
  show a.toModel.unpack.isFinite = b.toModel.unpack.isFinite
  have hkept (u : UnpackedFloat) : (unsigned u).isFinite = u.isFinite := by
    cases u <;> rfl
  rw [← hkept, h, hkept]

theorem beq_iff {a b : Float} :
    (a == b) = true ↔ a.toModel.unpack.compare b.toModel.unpack = some .eq := by
  show (a.toModel.unpack.compare b.toModel.unpack == some .eq) = true ↔ _
  rw [beq_iff_eq]

/-- A finite value compares equal to what is the same number. -/
theorem SameNumber.beq {a b : Float} (h : SameNumber a b) (hb : b.isFinite = true) :
    (a == b) = true := by
  have ha : a.toModel.unpack.isFinite = true := h.isFinite_eq.trans hb
  rw [beq_iff]
  unfold SameNumber at h
  generalize a.toModel.unpack = x at ha h
  generalize b.toModel.unpack = y at h
  cases x with
  | notANumber => cases ha
  | infinity s => cases ha
  | zero s => cases y <;> cases h; rfl
  | finite s m e hm =>
    cases y <;> cases h
    cases s <;> simp [UnpackedFloat.compare]

/-- What compares equal to zero is a zero. -/
theorem sameNumber_zero_of_beq {a : Float} (h : (a == 0.0) = true) : SameNumber a 0.0 := by
  rw [beq_iff, unpack_zero] at h
  unfold SameNumber
  rw [unpack_zero]
  cases hu : a.toModel.unpack with
  | notANumber => simp [hu, UnpackedFloat.compare] at h
  | infinity s => cases s <;> simp [hu, UnpackedFloat.compare] at h
  | zero s => rfl
  | finite s m e hm => cases s <;> simp [hu, UnpackedFloat.compare] at h

end LinearSystems.Double
