import Mathlib

/-!
# Double precision

What there is to know of doubles that are not numbers: an operation on one gives another, sizes and
comparisons do not make one, and a value that is not below a number is either at least that number
or no number at all.
-/

namespace LinearSystems.Double

open Float.Model

theorem isNaN_iff {a : Float} : a.isNaN = true ↔ a.toModel.unpack = .notANumber := by
  show a.toModel.unpack.isNaN = true ↔ _
  cases a.toModel.unpack <;> simp [UnpackedFloat.isNaN]

theorem unpack_eq_notANumber_iff {format : Format} {b : BitVec format.numBits} :
    UnpackedFloat.unpack format b = .notANumber ↔
      UnpackedFloat.unpackExponent b = -1#_ ∧ UnpackedFloat.unpackMantissa b ≠ 0#_ := by
  rw [UnpackedFloat.unpack]
  split
  · split <;> simp_all
  · split
    · split <;> simp_all
    · simp_all

/-- Encoding neither makes nor loses a number: what is too large is encoded as an infinity. -/
theorem unpack_pack_eq_notANumber_iff {f : UnpackedFloat} :
    (Float.Model.pack f).unpack = .notANumber ↔ f = .notANumber := by
  show UnpackedFloat.unpack Format.binary64 (UnpackedFloat.pack Format.binary64 f) = _ ↔ _
  rw [unpack_eq_notANumber_iff]
  fun_cases UnpackedFloat.pack Format.binary64 f with
  | case1 => simp [UnpackedFloat.packedNaN]
  | case2 s => simp [UnpackedFloat.packedInfinity]
  | case3 s => simp [UnpackedFloat.packedZero]
  | case4 s m e hm biasedExponent h => simp [UnpackedFloat.packedInfinity]
  | case5 s m e hm mantissaBits biasedExponent hsmall hnormal =>
    rw [UnpackedFloat.unpackExponent_packComponents]
    have hlt : biasedExponent + 1 < 2 ^ 11 := not_le.mp hsmall
    have hne : BitVec.ofNat 11 biasedExponent ≠ -1#11 := by
      intro heq
      have hval : biasedExponent % 2 ^ 11 = 2 ^ 11 - 1 := congrArg BitVec.toNat heq
      omega
    exact iff_of_false (fun h => hne h.1) (by simp)
  | case6 s m e hm mantissaBits biasedExponent hsmall hnormal => simp

/-- An operation that gives no number as soon as one of its operands is none keeps doing so once
    its operands and its result are encoded. -/
theorem isNaN_of_operand {op : UnpackedFloat → UnpackedFloat → UnpackedFloat}
    (hleft : ∀ y, op .notANumber y = .notANumber) (hright : ∀ x, op x .notANumber = .notANumber)
    {a b : Float} (h : a.isNaN = true ∨ b.isNaN = true) :
    (Float.ofModel (Float.Model.pack (op a.toModel.unpack b.toModel.unpack))).isNaN = true := by
  rw [isNaN_iff, unpack_pack_eq_notANumber_iff]
  rcases h with ha | hb
  · rw [isNaN_iff.mp ha, hleft]
  · rw [isNaN_iff.mp hb, hright]

theorem isNaN_sub {a b : Float} (h : a.isNaN = true ∨ b.isNaN = true) : (a - b).isNaN = true :=
  isNaN_of_operand (fun _ => rfl) (fun x => by cases x <;> rfl) h

theorem isNaN_mul {a b : Float} (h : a.isNaN = true ∨ b.isNaN = true) : (a * b).isNaN = true :=
  isNaN_of_operand (fun _ => rfl) (fun x => by cases x <;> rfl) h

theorem isNaN_div {a b : Float} (h : a.isNaN = true ∨ b.isNaN = true) : (a / b).isNaN = true :=
  isNaN_of_operand (fun _ => rfl) (fun x => by cases x <;> rfl) h

theorem isNaN_abs (a : Float) : a.abs.isNaN = a.isNaN := by
  rw [Bool.eq_iff_iff, isNaN_iff, isNaN_iff]
  show (Float.Model.pack a.toModel.unpack.abs).unpack = _ ↔ _
  rw [unpack_pack_eq_notANumber_iff]
  cases a.toModel.unpack <;> simp [UnpackedFloat.abs]

theorem isNaN_of_isFinite {a : Float} (h : a.isFinite = true) : a.isNaN = false := by
  have hfinite : a.toModel.unpack.isFinite = true := h
  show a.toModel.unpack.isNaN = false
  cases hu : a.toModel.unpack with
  | notANumber =>
    rw [hu] at hfinite
    cases hfinite
  | infinity s => rfl
  | zero s => rfl
  | finite s m e hm => rfl

/-- Compared the other way round, two values have the opposite order. -/
theorem compare_swap (x y : UnpackedFloat) :
    y.compare x = (x.compare y).map Ordering.swap := by
  -- Finite values of one sign are told apart by their exponents, then by their mantissas.
  have hfinite (e e' : Int) (m m' : Nat) : (compare e' e).then (compare m' m) =
      ((compare e e').then (compare m m')).swap := by
    rw [Ordering.swap_then, Int.compare_swap, Nat.compare_swap]
  cases x with
  | notANumber => cases y <;> rfl
  | infinity s =>
    cases y with
    | notANumber => cases s <;> rfl
    | infinity s' => cases s <;> cases s' <;> rfl
    | zero s' => cases s <;> rfl
    | finite s' m' e' hm' => cases s <;> rfl
  | zero s =>
    cases y with
    | notANumber => rfl
    | infinity s' => cases s' <;> rfl
    | zero s' => rfl
    | finite s' m' e' hm' => cases s' <;> rfl
  | finite s m e hm =>
    cases y with
    | notANumber => cases s <;> rfl
    | infinity s' => cases s <;> cases s' <;> rfl
    | zero s' => cases s <;> rfl
    | finite s' m' e' hm' =>
      cases s with
      | negative =>
        cases s' with
        | negative => exact congrArg (fun o : Ordering => some o.swap) (hfinite e e' m m')
        | positive => rfl
      | positive =>
        cases s' with
        | negative => rfl
        | positive => exact congrArg some (hfinite e e' m m')

theorem compare_eq_none_iff {x y : UnpackedFloat} :
    x.compare y = none ↔ x = .notANumber ∨ y = .notANumber := by
  fun_cases UnpackedFloat.compare x y <;> simp_all

theorem lt_iff {a b : Float} :
    a < b ↔ (a.toModel.unpack.compare b.toModel.unpack == some .lt) = true := by
  show decide (a.toModel < b.toModel) = true ↔ _
  rw [decide_eq_true_iff]
  exact Iff.rfl

theorem le_iff {a b : Float} :
    a ≤ b ↔ (a.toModel.unpack.compare b.toModel.unpack).any (·.isLE) = true := by
  show decide (a.toModel ≤ b.toModel) = true ↔ _
  rw [decide_eq_true_iff]
  exact Iff.rfl

/-- A value is not below a number exactly if it is no number or is at least that number. -/
theorem not_lt_iff {a b : Float} (hb : b.isNaN = false) : ¬ a < b ↔ a.isNaN = true ∨ b ≤ a := by
  have hb' : b.toModel.unpack ≠ .notANumber := fun h => by
    rw [isNaN_iff.mpr h] at hb
    cases hb
  rw [lt_iff, le_iff, isNaN_iff, compare_swap a.toModel.unpack b.toModel.unpack]
  cases h : a.toModel.unpack.compare b.toModel.unpack with
  | none =>
    rcases compare_eq_none_iff.mp h with ha | hb
    · simp [ha]
    · exact absurd hb hb'
  | some o =>
    have ha : a.toModel.unpack ≠ .notANumber := fun ha => by
      rw [compare_eq_none_iff.mpr (.inl ha)] at h
      cases h
    cases o <;> simp [ha]

/-- Only numbers are compared. -/
theorem isNaN_of_le {a b : Float} (h : a ≤ b) : a.isNaN = false ∧ b.isNaN = false := by
  rw [le_iff] at h
  have hnone : a.toModel.unpack.compare b.toModel.unpack ≠ none := by
    intro hnone
    rw [hnone] at h
    cases h
  rw [Ne, compare_eq_none_iff, not_or, ← isNaN_iff, ← isNaN_iff] at hnone
  exact ⟨Bool.not_eq_true _ ▸ hnone.1, Bool.not_eq_true _ ▸ hnone.2⟩

theorem not_lt_of_le {a b : Float} (h : a ≤ b) : ¬ b < a :=
  (not_lt_iff (isNaN_of_le h).1).mpr (.inr h)

end LinearSystems.Double
