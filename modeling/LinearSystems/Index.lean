import LinearSystems.Fault

/-!
# Places

A place on an axis may be counted from the end by a negative number: the last one is `-1`.
-/

namespace LinearSystems.Index

/-- The place that a number stands for on an axis of the given size, if there is one. -/
def resolve? (i : Int) (size : Nat) : Option (Fin size) :=
  if h : 0 ≤ i ∧ i < size then some ⟨i.toNat, by omega⟩
  else if h : -size ≤ i ∧ i < 0 then some ⟨(size + i).toNat, by omega⟩
  else none

/-- The place that a number stands for, or the fault that names the axis. -/
def resolve (i : Int) (axis size : Nat) : Except Fault (Fin size) :=
  match resolve? i size with
  | some k => .ok k
  | none => .error (.misuse (.outOfRange i axis size))

/-- Where a range begins that starts at a number; beyond either end it starts at that end. -/
def rangeStart (i : Int) (size : Nat) : Nat :=
  if i < 0 then (size + i).toNat else min i.toNat size

end LinearSystems.Index
