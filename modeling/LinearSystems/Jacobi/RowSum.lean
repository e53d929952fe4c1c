import LinearSystems.Dense

/-!
# Row sums

The sum of a row is taken in blocks so that rounding errors stay small: fewer than eight terms are
added from left to right, up to 128 terms in eight interleaved lanes that are then added in pairs,
and a longer row is cut near its middle, at a multiple of eight. Every term is added exactly once.
-/

namespace LinearSystems.Jacobi

variable {α : Type u} [Scalar α]

/-- Eight running sums. -/
structure Lanes (α : Type u) where
  a : α
  b : α
  c : α
  d : α
  e : α
  f : α
  g : α
  h : α

/-- The eight sums added in pairs, pairs of pairs, and halves. -/
def Lanes.total (r : Lanes α) : α :=
  ((r.a + r.b) + (r.c + r.d)) + ((r.e + r.f) + (r.g + r.h))

/-- Adds the terms to the lanes, eight at a time, then the lanes to one sum and to that the terms
    that are left over. -/
def Lanes.finish (r : Lanes α) : List α → α
  | a :: b :: c :: d :: e :: f :: g :: h :: rest =>
    Lanes.finish
      ⟨r.a + a, r.b + b, r.c + c, r.d + d, r.e + e, r.f + f, r.g + g, r.h + h⟩ rest
  | rest => rest.foldl (· + ·) r.total

/-- The sum of at most 128 terms. A sum of fewer than eight starts at negative zero, which adds
    nothing to any term, itself included. -/
def blockSum : List α → α
  | a :: b :: c :: d :: e :: f :: g :: h :: rest => Lanes.finish ⟨a, b, c, d, e, f, g, h⟩ rest
  | short => short.foldl (· + ·) (-0)

/-- Where a long row is cut: the largest multiple of eight up to its middle. -/
def cut (length : Nat) : Nat :=
  length / 2 - length / 2 % 8

/-- The sum of a row. -/
def pairwiseSum (row : List α) : α :=
  if row.length ≤ 128 then blockSum row
  else
    pairwiseSum (row.take (cut row.length)) + pairwiseSum (row.drop (cut row.length))
termination_by row.length
decreasing_by
  all_goals simp only [List.length_take, List.length_drop, cut]; omega

/-- The largest sum of magnitudes over the rows, or the first sum that is not a number. -/
def infNorm {m n : Nat} (A : Dense α m n) : α :=
  A.foldl (fun best row => Scalar.larger best (pairwiseSum (row.toList.map Scalar.abs))) 0

end LinearSystems.Jacobi
