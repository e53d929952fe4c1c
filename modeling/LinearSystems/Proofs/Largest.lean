import Mathlib
import LinearSystems.Gauss.Elimination
import LinearSystems.Proofs.DoubleOrder
import LinearSystems.Proofs.Exact

/-!
# The largest of some values

What a running maximum comes to: one of the values, and one that no other exceeds; but if some of
the values are not numbers, it is one of these. All that is used of the scalars are a few laws of
their order, which doubles and exact fractions both keep.
-/

namespace LinearSystems

universe u v

/-- The laws of the order that a search for the largest value rests on. Values that are not numbers
    are below nothing and above nothing. -/
class OrderedScalar (α : Type u) [Scalar α] : Prop where
  less_asymm {a b : α} : Scalar.less a b = true → Scalar.less b a = false
  not_less_trans {a b c : α} : Scalar.isNaN b = false → Scalar.less b a = false →
    Scalar.less c b = false → Scalar.less c a = false
  isNaN_zero : Scalar.isNaN (0 : α) = false
  isNaN_abs (a : α) : Scalar.isNaN (Scalar.abs a) = Scalar.isNaN a
  abs_eq_zero {a : α} : Scalar.isNaN a = false → Scalar.less 0 (Scalar.abs a) = false →
    Scalar.abs a = 0

namespace Double

theorem less_eq_false_iff {a b : Float} : Scalar.less a b = false ↔ ¬ a < b :=
  decide_eq_false_iff_not

theorem less_eq_true_iff {a b : Float} : Scalar.less a b = true ↔ a < b :=
  decide_eq_true_iff

instance : OrderedScalar Float where
  less_asymm h := less_eq_false_iff.mpr (lt_asymm (less_eq_true_iff.mp h))
  not_less_trans hb hab hbc :=
    less_eq_false_iff.mpr (not_lt_trans hb (less_eq_false_iff.mp hab) (less_eq_false_iff.mp hbc))
  isNaN_zero := rfl
  isNaN_abs := isNaN_abs
  abs_eq_zero ha h := abs_eq_zero_of_not_lt ha (less_eq_false_iff.mp h)

end Double

namespace Scalar

theorem less_rat_eq_false_iff {a b : Rat} : less a b = false ↔ b ≤ a :=
  decide_eq_false_iff_not.trans not_lt

theorem less_rat_eq_true_iff {a b : Rat} : less a b = true ↔ a < b :=
  decide_eq_true_iff

instance : OrderedScalar Rat where
  less_asymm h := less_rat_eq_false_iff.mpr (less_rat_eq_true_iff.mp h).le
  not_less_trans _ hab hbc :=
    less_rat_eq_false_iff.mpr
      ((less_rat_eq_false_iff.mp hab).trans (less_rat_eq_false_iff.mp hbc))
  isNaN_zero := rfl
  isNaN_abs _ := rfl
  abs_eq_zero _ h := le_antisymm (less_rat_eq_false_iff.mp h) (by rw [abs_rat]; exact abs_nonneg _)

end Scalar

variable {α : Type u} [Scalar α]

/-- The value is the largest of a list: it is one of them, and if it is a number, then all of them
    are numbers and none exceeds it. So it is not a number exactly if one of them is none. -/
structure IsLargest (l : List α) (m : α) : Prop where
  mem : m ∈ l
  isNaN : Scalar.isNaN m = false → ∀ v ∈ l, Scalar.isNaN v = false
  not_less : Scalar.isNaN m = false → ∀ v ∈ l, Scalar.less m v = false

namespace IsLargest

variable [OrderedScalar α] {l l' : List α} {m m' : α}

omit [OrderedScalar α] in
theorem of_isNaN (hm : m ∈ l) (h : Scalar.isNaN m = true) : IsLargest l m := by
  refine ⟨hm, ?_, ?_⟩ <;> simp [h]

/-- The largest of a list stands for the list in a search that goes on. -/
theorem append (h : IsLargest l m) (h' : IsLargest (m :: l') m') : IsLargest (l ++ l') m' where
  mem := by
    rcases List.mem_cons.mp h'.mem with rfl | hmem
    · exact List.mem_append_left _ h.mem
    · exact List.mem_append_right _ hmem
  isNaN := by
    intro hm' v hv
    rcases List.mem_append.mp hv with hv | hv
    · exact h.isNaN (h'.isNaN hm' m List.mem_cons_self) v hv
    · exact h'.isNaN hm' v (List.mem_cons_of_mem _ hv)
  not_less := by
    intro hm' v hv
    rcases List.mem_append.mp hv with hv | hv
    · have hm : Scalar.isNaN m = false := h'.isNaN hm' m List.mem_cons_self
      exact OrderedScalar.not_less_trans hm (h.not_less hm v hv)
        (h'.not_less hm' m List.mem_cons_self)
    · exact h'.not_less hm' v (List.mem_cons_of_mem _ hv)

/-- A zero in front does not count if the other values are magnitudes. -/
theorem of_cons_zero (h : IsLargest (0 :: l) m) (hl : l ≠ [])
    (habs : ∀ v ∈ l, ∃ a, v = Scalar.abs a) : IsLargest l m where
  mem := by
    rcases List.mem_cons.mp h.mem with rfl | hmem
    · obtain ⟨v, hv⟩ := List.exists_mem_of_ne_nil l hl
      obtain ⟨a, rfl⟩ := habs v hv
      have ha := h.isNaN OrderedScalar.isNaN_zero _ (List.mem_cons_of_mem _ hv)
      rw [OrderedScalar.isNaN_abs] at ha
      rw [OrderedScalar.abs_eq_zero ha
        (h.not_less OrderedScalar.isNaN_zero _ (List.mem_cons_of_mem _ hv))] at hv
      exact hv
    · exact hmem
  isNaN := fun hm v hv => h.isNaN hm v (List.mem_cons_of_mem _ hv)
  not_less := fun hm v hv => h.not_less hm v (List.mem_cons_of_mem _ hv)

end IsLargest

namespace Scalar

variable [OrderedScalar α]

theorem less_irrefl (a : α) : less a a = false := by
  cases h : less a a with
  | true => exact absurd (h.symm.trans (OrderedScalar.less_asymm h)) Bool.noConfusion
  | false => rfl

theorem isLargest_singleton (a : α) : IsLargest [a] a := by
  refine ⟨List.mem_singleton_self a, ?_, ?_⟩
  · intro ha v hv
    rw [List.mem_singleton.mp hv, ha]
  · intro _ v hv
    rw [List.mem_singleton.mp hv, less_irrefl]

theorem isLargest_larger (a b : α) : IsLargest [a, b] (larger a b) := by
  cases ha : isNaN a with
  | true =>
    have hlarger : larger a b = a := by simp [larger, ha]
    rw [hlarger]
    exact .of_isNaN List.mem_cons_self ha
  | false =>
    cases hb : isNaN b with
    | true =>
      have hlarger : larger a b = b := by simp [larger, ha, hb]
      rw [hlarger]
      exact .of_isNaN (by simp) hb
    | false =>
      cases hless : less a b with
      | true =>
        have hlarger : larger a b = b := by simp [larger, ha, hb, hless]
        rw [hlarger]
        exact ⟨by simp, by simp [ha, hb], by simp [OrderedScalar.less_asymm hless, less_irrefl]⟩
      | false =>
        have hlarger : larger a b = a := by simp [larger, ha, hb, hless]
        rw [hlarger]
        exact ⟨by simp, by simp [ha, hb], by simp [hless, less_irrefl]⟩

/-- A running maximum is the largest of its start and the values that it has met. -/
theorem isLargest_foldl_larger (l : List α) (a : α) : IsLargest (a :: l) (l.foldl larger a) := by
  induction l generalizing a with
  | nil => exact isLargest_singleton a
  | cons v l ih => exact (isLargest_larger a v).append (ih (larger a v))

omit [Scalar α] [OrderedScalar α] in
theorem ofFn_eq_map_toList {β : Type v} {n : Nat} (f : β → α) (x : Vector β n) :
    (List.ofFn fun i : Fin n => f x[i]) = x.toList.map f := by
  apply List.ext_getElem
  · simp
  · intro i hi hi'
    simp

/-- The same, where the values belong to the entries of a vector and the start is zero. -/
theorem isLargest_foldl_vector {β : Type v} {n : Nat} (f : β → α) (x : Vector β n) :
    IsLargest (0 :: List.ofFn fun i : Fin n => f x[i])
      (x.foldl (fun best b => larger best (f b)) 0) := by
  rw [ofFn_eq_map_toList, ← Vector.foldl_toList, ← List.foldl_map]
  exact isLargest_foldl_larger _ 0

end Scalar

namespace Dense

/-- The norm of a vector is the largest of the magnitudes of its entries. -/
theorem isLargest_maxAbs [OrderedScalar α] {n : Nat} (hn : 0 < n) (x : Vector α n) :
    IsLargest (List.ofFn fun i : Fin n => Scalar.abs x[i]) (maxAbs x) := by
  refine (Scalar.isLargest_foldl_vector Scalar.abs x).of_cons_zero ?_ ?_
  · rw [Ne, List.ofFn_eq_nil_iff]
    omega
  · intro m hm
    obtain ⟨i, rfl⟩ := List.mem_ofFn.mp hm
    exact ⟨x[i], rfl⟩

end Dense

/-- What is above the largest of some doubles is above each of them. -/
theorem IsLargest.lt {l : List Float} {m c v : Float} (h : IsLargest l m) (hm : m < c)
    (hv : v ∈ l) : v < c := by
  have hnumber : m.isNaN = false := (Double.lt_iff_place.mp hm).1
  have hless : ¬ m < v := Double.less_eq_false_iff.mp (h.not_less hnumber v hv)
  by_contra hvc
  exact Double.not_lt_trans (h.isNaN hnumber v hv) hvc hless hm

/-- In exact arithmetic the largest of a list is at least as large as each of its values. -/
theorem IsLargest.le {l : List Rat} {m v : Rat} (h : IsLargest l m) (hv : v ∈ l) : v ≤ m :=
  Scalar.less_rat_eq_false_iff.mp (h.not_less rfl v hv)

namespace Dense

variable {n : Nat} {x : Vector Rat n}

theorem abs_le_maxAbs (x : Vector Rat n) (i : Fin n) : |x[i]| ≤ maxAbs x := by
  have hlargest := Scalar.isLargest_foldl_vector Scalar.abs x
  rw [← Scalar.abs_rat]
  exact hlargest.le (List.mem_cons_of_mem _ (List.mem_ofFn.mpr ⟨i, rfl⟩))

theorem maxAbs_nonneg (x : Vector Rat n) : 0 ≤ maxAbs x :=
  (Scalar.isLargest_foldl_vector Scalar.abs x).le List.mem_cons_self

theorem maxAbs_le {c : Rat} (hc : 0 ≤ c) (h : ∀ i : Fin n, |x[i]| ≤ c) : maxAbs x ≤ c := by
  have hlargest := Scalar.isLargest_foldl_vector Scalar.abs x
  rcases List.mem_cons.mp hlargest.mem with hzero | hmem
  · exact hzero.trans_le hc
  · obtain ⟨i, hi⟩ := List.mem_ofFn.mp hmem
    rw [Scalar.abs_rat] at hi
    exact hi.symm.trans_le (h i)

end Dense

namespace Gauss

/-- The place that a search by magnitude ends at holds the largest of the values. -/
theorem isLargest_firstLargest [OrderedScalar α] {β : Type v} (value : β → α) (p : β) (ps : List β) :
    IsLargest (value p :: ps.map value) (value (firstLargest value p ps)) := by
  have hstep (p q : β) : value (if Scalar.outranks (value q) (value p) then q else p) =
      Scalar.larger (value p) (value q) := by
    rw [Scalar.outranks, Scalar.larger]
    cases Scalar.isNaN (value p) with
    | true => simp
    | false => cases Scalar.isNaN (value q) <;> cases Scalar.less (value p) (value q) <;> simp
  have hfold : value (firstLargest value p ps) = (ps.map value).foldl Scalar.larger (value p) := by
    induction ps generalizing p with
    | nil => rfl
    | cons q ps ih =>
      rw [List.map_cons, List.foldl_cons, ← hstep, ← ih]
      rfl
  rw [hfold]
  exact Scalar.isLargest_foldl_larger _ _

end Gauss

end LinearSystems
