import Mathlib.Algebra.Order.Ring.Rat
import Mathlib.Data.List.Forall2
import LinearSystems.Console.Program
import LinearSystems.Proofs.Tensor.Check

/-!
# Rows that are read from lines

A line is read as a row of numbers exactly if it has as many words as the row has numbers and each
word is read as its number. Whatever else a line holds is bad input, and a size or a count is read
from it as it is.
-/

namespace LinearSystems

theorem Datum.differs_whole (m n : Nat) :
    (Datum.number (.whole m)).differs (.number (.whole n)) = .ok (m != n) := by
  have hsame : Datum.same (.number (.whole m)) (.number (.whole n)) = (m == n) := by
    rw [Bool.eq_iff_iff]
    simp [Datum.same, Datum.sameNumber, Number.place?]
  show Except.ok (!Datum.same (.number (.whole m)) (.number (.whole n))) = _
  rw [hsame]
  rfl

/-- A list is gone through without a fault exactly if none of its elements gives one. -/
theorem mapM_eq_ok_iff {ε α β : Type} {f : α → Except ε β} {xs : List α} {ys : List β} :
    xs.mapM f = .ok ys ↔ List.Forall₂ (fun x y => f x = .ok y) xs ys := by
  induction xs generalizing ys with
  | nil => cases ys <;> simp [pure, Except.pure]
  | cons x xs ih =>
    rw [List.mapM_cons, bind_eq_ok_iff]
    cases ys with
    | nil => simp [bind_eq_ok_iff, pure, Except.pure]
    | cons y ys => simp [bind_eq_ok_iff, pure, Except.pure, ih]

namespace Console

/-- The line holds the numbers of a row, one a word. -/
def IsRow (line : String) (row : List Float) : Prop :=
  List.Forall₂ (fun word x => readReal (String.ofList word) = .ok x) (Text.words line.toList) row

/-- The row on a line: its words, if there are as many as expected and all are real numbers.
    Otherwise what is wrong with the line is the number of its words or the first word that is no
    number. -/
def lineRow (width : Nat) (line : String) : Except BadInput (List Float) :=
  let words := Text.words line.toList
  if words.length = width then words.mapM fun word => readReal (String.ofList word)
  else .error (.tokenCount (.number (.whole width)) words.length)

theorem reported_eq_ok_iff {α : Type} {x : Except BadInput α} {a : α} :
    reported x = .ok a ↔ x = .ok a := by
  cases x <;> simp [reported]

theorem mapM_reported {α β : Type} (f : α → Except BadInput β) (xs : List α) :
    (xs.mapM fun x => reported (f x)) = reported (xs.mapM f) := by
  induction xs with
  | nil => rfl
  | cons x xs ih =>
    rw [List.mapM_cons, List.mapM_cons, ih]
    cases f x with
    | error e => rfl
    | ok y => cases xs.mapM f <;> rfl

variable {width : Nat} {line : String} {row : List Float}

/-- A line holds a row exactly if it holds its numbers, and these are as many as expected. -/
theorem lineRow_eq_ok_iff : lineRow width line = .ok row ↔ IsRow line row ∧ row.length = width := by
  unfold lineRow
  by_cases hwidth : (Text.words line.toList).length = width
  · rw [if_pos hwidth, mapM_eq_ok_iff]
    constructor
    · intro h
      exact ⟨h, h.length_eq.symm.trans hwidth⟩
    · exact And.left
  · rw [if_neg hwidth]
    constructor
    · intro h
      cases h
    · rintro ⟨h, hlength⟩
      exact absurd (h.length_eq.trans hlength) hwidth

theorem readRow_whole (width : Nat) (line : String) :
    readRow (.number (.whole width)) line = reported (lineRow width line) := by
  rw [readRow, Datum.differs_whole, ok_bind, lineRow]
  by_cases hwidth : (Text.words line.toList).length = width
  · simp [hwidth, mapM_reported]
  · simp [hwidth]
    rfl

/-- A line is read as a row exactly if it holds its numbers, and these are as many as expected. -/
theorem readRow_eq_ok_iff :
    readRow (.number (.whole width)) line = .ok row ↔ IsRow line row ∧ row.length = width := by
  rw [readRow_whole, reported_eq_ok_iff, lineRow_eq_ok_iff]

/-- A line that is not read as a row is bad input. -/
theorem exists_badInput_of_readRow {f : Fault}
    (h : readRow (.number (.whole width)) line = .error f) : ∃ e, f = .badInput e := by
  rw [readRow_whole] at h
  cases hline : lineRow width line with
  | ok row =>
    rw [hline] at h
    cases h
  | error e =>
    rw [hline] at h
    cases h
    exact ⟨e, rfl⟩

/-- A whole number of at least one is read as a size. -/
theorem readSize_of_whole? {text : String} {n : Nat} (h : Numeral.whole? text = some (n : Int))
    (hn : 0 < n) : readSize text = .ok n := by
  rw [readSize, readWhole, h, ok_bind, checkSize, if_neg (by omega), Int.toNat_natCast]

end Console

end LinearSystems
