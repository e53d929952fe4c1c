import Mathlib
import LinearSystems.Proofs.DoubleOrder

/-!
# Finite doubles

What an operation does with an infinity or a value that is not a number: adding a value that is not
a number gives another, a difference is finite only if both of its operands are, and zero times a
value that is not finite is not a number. A magnitude that is below anything is finite.
-/

namespace LinearSystems.Double

open Float.Model

theorem not_isFinite_of_isNaN {a : Float} (h : a.isNaN = true) : a.isFinite = false := by
  by_contra hfinite
  rw [isNaN_of_isFinite (Bool.not_eq_false _ ▸ hfinite)] at h
  cases h

/-- Encoding may overflow, but it makes nothing finite that is not. -/
theorem isFinite_of_isFinite_pack {u : UnpackedFloat}
    (h : (Float.Model.pack u).unpack.isFinite = true) : u.isFinite = true := by
  cases u with
  | notANumber =>
    rw [unpack_pack .notANumber] at h
    exact h
  | infinity s =>
    rw [unpack_pack (.infinity s)] at h
    exact h
  | zero s => rfl
  | finite s m e hm => rfl

theorem isNaN_add {a b : Float} (h : a.isNaN = true ∨ b.isNaN = true) : (a + b).isNaN = true :=
  isNaN_of_operand (fun _ => rfl) (fun x => by cases x <;> rfl) h

theorem isFinite_of_isFinite_sub {a b : Float} (h : (a - b).isFinite = true) :
    a.isFinite = true ∧ b.isFinite = true := by
  have hexact {x y : UnpackedFloat} (hxy : (x.sub Format.binary64 y).isFinite = true) :
      x.isFinite = true ∧ y.isFinite = true := by
    revert hxy
    fun_cases UnpackedFloat.sub Format.binary64 x y <;> simp_all [UnpackedFloat.isFinite]
  exact hexact (isFinite_of_isFinite_pack h)

theorem isNaN_zero_mul {a : Float} (h : a.isFinite = false) : (0.0 * a).isNaN = true := by
  have hexact {x : UnpackedFloat} (hx : x.isFinite = false) :
      UnpackedFloat.mul Format.binary64 (.zero .positive) x = .notANumber := by
    cases x <;> simp_all [UnpackedFloat.isFinite, UnpackedFloat.mul]
  exact isNaN_iff.mpr (unpack_pack_eq_notANumber_iff.mpr (hexact h))

theorem isFinite_abs (a : Float) : a.abs.isFinite = a.isFinite := by
  show a.abs.toModel.unpack.isFinite = a.toModel.unpack.isFinite
  rw [unpack_abs]
  cases a.toModel.unpack <;> rfl

/-- Nothing is above an infinite magnitude. -/
theorem isFinite_of_abs_lt {a b : Float} (h : a.abs < b) : a.isFinite = true := by
  rw [lt_iff, unpack_abs] at h
  show a.toModel.unpack.isFinite = true
  cases ha : a.toModel.unpack with
  | notANumber => simp [ha, UnpackedFloat.abs, UnpackedFloat.compare] at h
  | infinity s =>
    rw [ha] at h
    cases hb : b.toModel.unpack with
    | infinity s' => cases s' <;> simp [hb, UnpackedFloat.abs, UnpackedFloat.compare] at h
    | notANumber | zero | finite => simp [hb, UnpackedFloat.abs, UnpackedFloat.compare] at h
  | zero | finite => rfl

end LinearSystems.Double
