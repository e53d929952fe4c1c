import LinearSystems.FaultClass
import LinearSystems.Options

/-!
# What the checks on options let through

A tolerance or a count either passes its check or is refused as unacceptable data, with two
exceptions: a whole number that is too large for a double is no tolerance that can be looked at, and
a negative whole number that has too many digits cannot be shown.
-/

namespace LinearSystems

namespace Datum

/-- The datum is a whole number that is too large for a double. -/
def IsBeyondDoubles (d : Datum) : Prop :=
  ∃ i : Int, d = .number (.whole i) ∧ (Number.whole i).nearest? = none

/-- The datum is a negative whole number of more digits than are written. -/
def IsBeyondWriting (d : Datum) : Prop :=
  ∃ i : Int, d = .number (.whole i) ∧ i < 0 ∧ Nat.pow 10 Numeral.maxDigits ≤ i.natAbs

end Datum

namespace Options

variable {d : Datum}

/-- A number is beyond the doubles if no double is nearest to it: a double is nearest to itself. -/
theorem isBeyondDoubles_number_iff {x : Number} :
    (Datum.number x).IsBeyondDoubles ↔ x.nearest? = none := by
  cases x with
  | whole i => simp [Datum.IsBeyondDoubles]
  | real x => simp [Datum.IsBeyondDoubles, Number.nearest?]

theorem checkPositive_cases (name : String) (d : Datum) :
    d.IsBeyondDoubles ∧ checkPositive name d = .error (.unreadable .beyondDoubles) ∨
      ¬ d.IsBeyondDoubles ∧
        ((∃ x, checkPositive name d = .ok x ∧ x.isFinite = true ∧ 0.0 < x) ∨
          ∃ cause, checkPositive name d = .error (.invalid cause)) := by
  fun_cases checkPositive name d with
  | case1 given hnearest => exact .inl ⟨isBeyondDoubles_number_iff.mpr hnearest, rfl⟩
  | case2 given x hnearest hpositive =>
    have hnot : ¬ (Datum.number given).IsBeyondDoubles := by
      rw [isBeyondDoubles_number_iff, hnearest]
      simp
    exact .inr ⟨hnot, .inl ⟨x, rfl, by simpa using hpositive⟩⟩
  | case3 given x hnearest hpositive =>
    have hnot : ¬ (Datum.number given).IsBeyondDoubles := by
      rw [isBeyondDoubles_number_iff, hnearest]
      simp
    exact .inr ⟨hnot, .inr ⟨_, rfl⟩⟩
  | case4 d hnumber =>
    have hnot : ¬ d.IsBeyondDoubles := by
      rintro ⟨i, rfl, -⟩
      exact hnumber _ rfl
    exact .inr ⟨hnot, .inr ⟨_, rfl⟩⟩

theorem checkCount_cases (name : String) (d : Datum) :
    d.IsBeyondWriting ∧
        checkCount name d = .error (.misuse (.tooManyDigits Numeral.maxDigits)) ∨
      ¬ d.IsBeyondWriting ∧
        ((∃ n : Nat, d = .number (.whole n) ∧ checkCount name d = .ok n) ∨
          ∃ cause, checkCount name d = .error (.invalid cause)) := by
  fun_cases checkCount name d with
  | case1 i hnegative =>
    rw [Numeral.written]
    split
    · rename_i hlong
      exact .inl ⟨⟨i, rfl, hnegative, hlong⟩, rfl⟩
    · rename_i hshort
      refine .inr ⟨?_, .inr ⟨_, rfl⟩⟩
      rintro ⟨j, ⟨⟩, -, hlong⟩
      exact hshort hlong
  | case2 i hnonneg =>
    refine .inr ⟨?_, .inl ⟨i.toNat, by rw [Int.toNat_of_nonneg (Int.not_lt.mp hnonneg)], rfl⟩⟩
    rintro ⟨j, ⟨⟩, hnegative, -⟩
    exact hnonneg hnegative
  | case3 d hwhole =>
    refine .inr ⟨?_, .inr ⟨_, rfl⟩⟩
    rintro ⟨i, rfl, -, -⟩
    exact hwhole _ rfl

@[simp]
theorem checkCount_whole (name : String) (n : Nat) :
    checkCount name (.number (.whole n)) = .ok n := by
  simp only [checkCount]
  rw [if_neg (Int.not_lt.mpr (Int.natCast_nonneg n)), Int.toNat_natCast]

end Options

end LinearSystems
