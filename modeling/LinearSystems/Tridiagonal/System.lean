import LinearSystems.Tensor.Check
import LinearSystems.Tridiagonal.Sweep

/-!
# Tridiagonal systems

A system of three diagonals and a right-hand side that is ready to be swept: vectors of one length,
at least one row, all entries finite. The corners that belong to no unknown are set to zero before
the entries are tested, so anything may stand there. A system may also be read off a square matrix
that is zero outside its three diagonals.
-/

namespace LinearSystems.Tridiagonal

/-- A tridiagonal system that passed all checks. -/
structure System where
  n : Nat
  n_pos : 0 < n
  band : Band Float n
  lower_first : band.lower[0] = 0.0
  upper_last : band.upper[n - 1] = 0.0
  lower_finite : ∀ i : Fin n, band.lower[i].isFinite = true
  diag_finite : ∀ i : Fin n, band.diag[i].isFinite = true
  upper_finite : ∀ i : Fin n, band.upper[i].isFinite = true
  rhs_finite : ∀ i : Fin n, band.rhs[i].isFinite = true

/-- All entries of a vector are finite; the name is the one that a fault shows. -/
def checkFinite {n : Nat} (v : Vector Float n) (name : String) :
    Except Fault (PLift (∀ i : Fin n, v[i].isFinite = true)) :=
  ((Tensor.ofVector v).checkFinite name).map fun h =>
    ⟨fun i => h.down _ (by simp [Tensor.ofVector])⟩

/-- A vector from data, with its length. -/
def vectorOf (name : String) (d : Datum) :
    Except Fault { p : Tensor × Nat // p.1.shape = [p.2] } := do
  let t ← Tensor.ofDatum name d
  let ⟨n, h⟩ ← t.checkVector name
  return ⟨(t, n), h⟩

namespace System

/-- The system of three diagonals and a right-hand side, all of one length. -/
def ofDiagonals (lower diag upper rhs : Datum) : Except Fault System := do
  let ⟨(tc, nc), hc⟩ ← vectorOf "c" lower
  let ⟨(td, n), hd⟩ ← vectorOf "d" diag
  let ⟨(te, ne), he⟩ ← vectorOf "e" upper
  let ⟨(tb, nb), hb⟩ ← vectorOf "b" rhs
  let ⟨hlengths⟩ ← Tensor.checkLengths [td, tc, te, tb] ["d", "c", "e", "b"]
  let ⟨k, hpos, hhead⟩ ← td.checkNonempty "d"
  have hn : 0 < n := Tensor.rows_pos hpos hhead hd
  have hc' : tc.shape = [n] := by rw [hc, hlengths.eq (by simp) (by simp) hc hd]
  have he' : te.shape = [n] := by rw [he, hlengths.eq (by simp) (by simp) he hd]
  have hb' : tb.shape = [n] := by rw [hb, hlengths.eq (by simp) (by simp) hb hd]
  let c := (tc.toVector n hc').set 0 0.0 hn
  let d := td.toVector n hd
  let e := (te.toVector n he').set (n - 1) 0.0 (Nat.sub_one_lt_of_lt hn)
  let b := tb.toVector n hb'
  let ⟨hfinitec⟩ ← checkFinite c "c"
  let ⟨hfinited⟩ ← checkFinite d "d"
  let ⟨hfinitee⟩ ← checkFinite e "e"
  let ⟨hfiniteb⟩ ← checkFinite b "b"
  return {
    n
    n_pos := hn
    band := { lower := c, diag := d, upper := e, rhs := b }
    lower_first := by simp [c]
    upper_last := by simp [e]
    lower_finite := hfinitec
    diag_finite := hfinited
    upper_finite := hfinitee
    rhs_finite := hfiniteb }

/-- Whether a place lies on one of the three diagonals. -/
def inBand {n : Nat} (i j : Fin n) : Bool :=
  i.val ≤ j.val + 1 && j.val ≤ i.val + 1

/-- The first place outside the band, row by row, that does not hold zero. -/
def firstOutside? {n : Nat} (A : Dense Float n n) : Option (Fin n × Fin n) :=
  ((List.finRange n).flatMap fun i => (List.finRange n).map fun j => (i, j)).find?
    fun p => !inBand p.1 p.2 && A[p.1][p.2] != 0.0

/-- The diagonal below the main one, with a zero in front. -/
def lowerOf {n : Nat} (A : Dense Float n n) : Vector Float n :=
  Vector.ofFn fun i => ((previous? i).map fun p => A[i][p]).getD 0.0

/-- The main diagonal. -/
def diagOf {n : Nat} (A : Dense Float n n) : Vector Float n :=
  Vector.ofFn fun i => A[i][i]

/-- The diagonal above the main one, with a zero at its end. -/
def upperOf {n : Nat} (A : Dense Float n n) : Vector Float n :=
  Vector.ofFn fun i => ((following? i).map fun j => A[i][j]).getD 0.0

/-- A vector as data. -/
def vectorDatum {n : Nat} (v : Vector Float n) : Datum :=
  .array (.ofTensor (Tensor.ofVector v))

/-- The system of a square matrix that is zero outside its three diagonals. -/
def ofMatrix (A rhs : Datum) : Except Fault System := do
  let t ← Tensor.ofDatum "A" A
  let _ ← t.checkMatrix "A"
  let _ ← t.checkNonempty "A"
  let ⟨n, hshape⟩ ← t.checkSquare "A"
  let _ ← t.checkFinite "A"
  let M := t.toDense n n hshape
  match firstOutside? M with
  | some (i, j) => throw (.invalid (.outsideBand i j M[i][j]))
  | none =>
    ofDiagonals (vectorDatum (lowerOf M)) (vectorDatum (diagOf M)) (vectorDatum (upperOf M)) rhs

/-- The coefficient matrix. -/
def toDense (S : System) : Dense Float S.n S.n :=
  S.band.toDense

end System

end LinearSystems.Tridiagonal
