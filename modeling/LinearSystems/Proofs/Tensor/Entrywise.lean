import LinearSystems.Proofs.Tensor.Ranges
import LinearSystems.Tensor.Entrywise

/-!
# Matrices entry by entry

What the operations on arrays of any shape come to where the arrays are matrices and vectors: the
coordinates of a place are its row and its column, arrays of one shape are combined place by place,
and a vector that is spread over the columns of a matrix gives its entry to every place of the row.
-/

namespace LinearSystems

variable {m n : Nat}

theorem length_coordinates (shape : List Nat) (k : Nat) :
    (coordinates shape k).length = shape.length := by
  induction shape generalizing k with
  | nil => rfl
  | cons n rest ih => rw [coordinates, List.length_cons, ih, List.length_cons]

/-- The coordinates of a place in a matrix are its row and its column. -/
theorem coordinates_matrix (i : Fin m) (j : Fin n) :
    coordinates [m, n] (i.val * n + j.val) = [i.val, j.val] := by
  simp [coordinates, Tensor.row_of_place i.val j.isLt, Nat.mod_eq_of_lt j.isLt]

namespace Tensor

/-- An array of the shape of a vector with the entries of a vector is that vector. -/
theorem eq_ofVector {t : Tensor} {v : Vector Float n} (hshape : t.shape = [n])
    (h : ∀ i : Fin n, t.entries[i.val]? = some v[i]) : t = ofVector v := by
  have hsize : t.entries.size = n := by simp [t.size_eq, hshape]
  apply Tensor.ext hshape
  apply Array.ext
  · rw [hsize, ofVector, Vector.size_toArray]
  · intro i hi hi'
    have hentry := h ⟨i, hsize ▸ hi⟩
    rw [Array.getElem?_eq_getElem hi] at hentry
    exact Option.some.inj hentry

/-- Elements that are read as the entries of an array make up that array. -/
theorem ofElements_map {α : Type} (read : α → Except Fault Float) (element : Float → α)
    (hread : ∀ x, read (element x) = .ok x) (t : Tensor)
    (h : (t.entries.toList.map element).length = volume t.shape) :
    ofElements read t.shape (t.entries.toList.map element) h = .ok t := by
  have helements : (⟨(t.entries.toList.map element).toArray, by simp [t.size_eq]⟩ :
      Vector α (volume t.shape)) = Vector.map element ⟨t.entries, t.size_eq⟩ := by
    apply Vector.toArray_inj.mp
    show (t.entries.toList.map element).toArray = t.entries.map element
    rw [← Array.toList_map, Array.toArray_toList]
  have hpure : read ∘ element = fun x => pure (id x) := funext hread
  rw [ofElements]
  simp only [helements, Vector.mapM_map, hpure, Vector.mapM_pure, Vector.map_id]
  rfl

/-- An array of doubles is taken as it comes. -/
theorem coerce_ofTensor (t : Tensor) : coerce (.array (.ofTensor t)) = .ok t :=
  ofElements_map (Datum.doubleOfElement (.real 64)) (fun x => .number (.real x)) (fun _ => rfl) t
    (TypedArray.ofTensor t).length_eq

/-- At the coordinates of one of its places an array has the entry of that place. -/
theorem entryAt_coordinates {t : Tensor} {k : Nat} (hk : k < volume t.shape) :
    t.entryAt (coordinates t.shape k) = t.entries.getD k 0.0 := by
  rw [entryAt, length_coordinates, padded, Nat.sub_self, List.replicate_zero, List.nil_append,
    placeOf_coordinates hk]

theorem entryAt_ofDense (A : Dense Float m n) (i : Fin m) (j : Fin n) :
    (ofDense A).entryAt [i.val, j.val] = A[i][j] := by
  have hentry := entryAt_coordinates (t := ofDense A) (place_lt_volume i j)
  rw [show coordinates (ofDense A).shape (i.val * n + j.val) = [i.val, j.val] from
    coordinates_matrix i j] at hentry
  rw [hentry, Array.getD_eq_getD_getElem?, getElem?_entries_ofDense, Option.getD_some]

/-- A vector that is spread has its entries in the rows, whatever the column is. -/
theorem entryAt_spread_ofVector (d : Vector Float m) (i : Fin m) (j : Nat) :
    (ofVector d).spread.entryAt [i.val, j] = d[i] := by
  have hplace : placeOf [m, 1] [i.val, j] = i.val := by
    simp [placeOf]
    omega
  show d.toArray.getD (placeOf [m, 1] [i.val, j]) 0.0 = d[i]
  rw [hplace]
  simp

/-- Two arrays whose shapes meet are combined at the coordinates of every place. -/
theorem exists_zipWith_eq_ok (f : Float → Float → Float) {t u : Tensor} {shape : List Nat}
    (h : commonShape? t.shape u.shape = some shape) :
    ∃ r, t.zipWith f u = .ok r ∧ r.shape = shape ∧ ∀ k < volume shape,
      r.entries[k]? =
        some (f (t.entryAt (coordinates shape k)) (u.entryAt (coordinates shape k))) := by
  rw [zipWith, h]
  refine ⟨_, rfl, rfl, ?_⟩
  intro k hk
  simp [hk]

/-- Vectors are combined entry by entry. -/
theorem zipWith_ofVector (f : Float → Float → Float) (v w : Vector Float n) :
    (ofVector v).zipWith f (ofVector w) = .ok (ofVector (Vector.zipWith f v w)) := by
  have hshape : commonShape? (ofVector v).shape (ofVector w).shape = some [n] := by
    simp [commonShape?, ofVector, padded, commonLength?]
  obtain ⟨r, hr, hrshape, hentries⟩ := exists_zipWith_eq_ok f hshape
  rw [hr, eq_ofVector hrshape]
  intro i
  have hplace : i.val < volume [n] := by simp
  have hentry (v : Vector Float n) : (ofVector v).entryAt (coordinates [n] i.val) = v[i] := by
    have hat := entryAt_coordinates (t := ofVector v) hplace
    rw [show coordinates (ofVector v).shape i.val = coordinates [n] i.val from rfl] at hat
    rw [hat]
    simp [ofVector]
  rw [hentries i.val hplace, hentry, hentry]
  simp

/-- Every entry of a matrix is combined with the entry that a vector has for its row. -/
theorem zipWith_spread (f : Float → Float → Float) (A : Dense Float m n) (d : Vector Float m) :
    (ofDense A).zipWith f (ofVector d).spread =
      .ok (ofDense (Dense.ofFn fun (i : Fin m) (j : Fin n) => f A[i][j] d[i])) := by
  have hcolumns : commonLength? n 1 = some n := by
    rw [commonLength?]
    split_ifs <;> simp_all
  have hshape : commonShape? (ofDense A).shape (ofVector d).spread.shape = some [m, n] := by
    show commonShape? [m, n] [m, 1] = some [m, n]
    simp [commonShape?, padded, hcolumns, show commonLength? m m = some m from if_pos rfl]
  obtain ⟨r, hr, hrshape, hentries⟩ := exists_zipWith_eq_ok f hshape
  rw [hr, eq_ofDense hrshape]
  intro i j
  rw [hentries _ (place_lt_volume i j), coordinates_matrix, entryAt_ofDense,
    entryAt_spread_ofVector, Dense.getElem_ofFn]

theorem diagonal_ofDense (A : Dense Float n n) :
    (ofDense A).diagonal = .ok (ofVector (Vector.ofFn fun i : Fin n => A[i][i])) := by
  have hdiagonal : (ofDense A).diagonal = .ok {
      shape := [min n n]
      entries := Array.ofFn fun i : Fin (min n n) =>
        (ofDense A).entries.getD (i.val * n + i.val) 0.0
      size_eq := by simp } := rfl
  rw [hdiagonal]
  congr 1
  apply eq_ofVector (by simp)
  intro i
  simp [Array.getD_eq_getD_getElem?, getElem?_entries_ofDense A i i]

/-- In a matrix the places with equal coordinates are those of the diagonal. -/
theorem clearDiagonal_ofDense (A : Dense Float n n) :
    (ofDense A).clearDiagonal =
      .ok (ofDense (Dense.ofFn fun (i j : Fin n) => if i = j then 0.0 else A[i][j])) := by
  have hrank : ¬ (2 < (ofDense A).shape.length ∧ (!onDiagonal (ofDense A).shape) = true) :=
    fun h => Nat.lt_irrefl 2 h.1
  rw [clearDiagonal, if_neg hrank]
  congr 1
  apply eq_ofDense rfl
  intro i j
  have hplace : coordinates (ofDense A).shape (i.val * n + j.val) = [i.val, j.val] :=
    coordinates_matrix i j
  have hequal : onDiagonal [i.val, j.val] = true ↔ i = j := by
    simp [onDiagonal, Fin.ext_iff, eq_comm (a := i.val)]
  simp only [Array.getElem?_mapIdx, getElem?_entries_ofDense A i j, hplace, hequal,
    Option.map_some, Dense.getElem_ofFn]

end Tensor

end LinearSystems
