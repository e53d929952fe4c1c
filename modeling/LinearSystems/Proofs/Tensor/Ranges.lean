import Mathlib
import LinearSystems.Proofs.Tensor.Reading
import LinearSystems.Selection.Basic

/-!
# Ranges of a matrix

What two ranges select of an array that is a matrix: the array of the rows from one place on, with
the columns between two others. The places in the storage are counted through the whole matrix, so
this is where the coordinates in the part meet the coordinates in the matrix.
-/

namespace LinearSystems

namespace Selection

theorem rangeStart_of_le {i size : Nat} (h : i ≤ size) : Index.rangeStart i size = i := by
  rw [Index.rangeStart, if_neg (by omega)]
  simpa using h

theorem ofPlaces_ranges {m w r c c' : Nat} (hr : r ≤ m) (hc : c ≤ w) (hc' : c' ≤ w) :
    ofPlaces [m, w] [.range (some r) none, .range (some c) (some c')] =
      .ok { pieces := [.range 0 r (m - r), .range 1 c (c' - c)] } := by
  have hplaces : ofPlaces [m, w] [.range (some r) none, .range (some c) (some c')] =
      .ok { pieces := [rangeOf 0 m (some r) none, rangeOf 1 w (some c) (some c')] } := rfl
  rw [hplaces]
  simp [rangeOf, rangeStart_of_le hr, rangeStart_of_le hc, rangeStart_of_le hc']

/-- Two ranges have the shape of their lengths, and their places stand row by row. -/
theorem resolve_ranges (m w r a c b : Nat) :
    ({ pieces := [.range 0 r a, .range 1 c b] } : Selection [m, w]).resolve =
      .ok ([a, b], (List.range (a * b)).map fun k => (r + k / b) * w + (c + k % b)) := by
  have hlists : ({ pieces := [.range 0 r a, .range 1 c b] } : Selection [m, w]).listShape =
      .ok [] := rfl
  have hnamed : ({ pieces := [.range 0 r a, .range 1 c b] } : Selection [m, w]).checkNamed [] =
      .ok () := rfl
  simp only [resolve, hlists, hnamed, bind, Except.bind, pure, Except.pure]
  simp [resultShape, storagePlaces, ownShape, leading, Piece.isGathered, Piece.ownLength?,
    coordinates, storagePlace]

end Selection

namespace Tensor

theorem getElem?_entries_ofDense {m w : Nat} (A : Dense Float m w) (r : Fin m) (c : Fin w) :
    (ofDense A).entries[r.val * w + c.val]? = some A[r][c] := by
  have h := congrArg (fun B : Dense Float m w => B[r][c]) (toDense_ofDense A)
  simp only [toDense, Dense.getElem_ofFn] at h
  rw [Array.getElem?_eq_getElem (offset_lt rfl r c), h]

theorem place_lt_volume (i : Fin m) (j : Fin n) : i.val * n + j.val < volume [m, n] := by
  have hplace := offset_lt (t := zeros [m, n]) rfl i j
  rwa [size_eq] at hplace

/-- An array of the shape of a matrix with the entries of a matrix is that matrix. -/
theorem eq_ofDense {t : Tensor} {A : Dense Float m n} (hshape : t.shape = [m, n])
    (h : ∀ (i : Fin m) (j : Fin n), t.entries[i.val * n + j.val]? = some A[i][j]) :
    t = ofDense A := by
  have hsize : t.entries.size = m * n := by simp [t.size_eq, hshape]
  apply Tensor.ext hshape
  apply Array.ext_getElem?
  intro k
  by_cases hk : k < m * n
  · have hn : 0 < n := Nat.pos_of_mul_pos_left (Nat.zero_lt_of_lt hk)
    have hrow : k / n < m := Nat.div_lt_of_lt_mul (by rwa [Nat.mul_comm])
    have hgiven := h ⟨k / n, hrow⟩ ⟨k % n, Nat.mod_lt k hn⟩
    have hmatrix := getElem?_entries_ofDense A ⟨k / n, hrow⟩ ⟨k % n, Nat.mod_lt k hn⟩
    simp only [Nat.div_add_mod'] at hgiven hmatrix
    rw [hgiven, hmatrix]
  · have hsize' : (ofDense A).entries.size = m * n := by
      rw [size_eq]
      simp [ofDense]
    rw [Array.getElem?_eq_none (by omega), Array.getElem?_eq_none (by omega)]

/-- What is selected has the resolved shape, and its entries are those at the resolved places. -/
theorem exists_select_eq_ok {t : Tensor} {places : List Place} {S : Selection t.shape}
    {shape storage : List Nat} (hS : Selection.ofPlaces t.shape places = .ok S)
    (hstorage : S.resolve = .ok (shape, storage)) :
    ∃ u, t.select places = .ok u ∧ u.shape = shape ∧ ∀ k < volume shape,
      u.entries[k]? = some ((storage[k]?.bind fun i => t.entries[i]?).getD 0.0) := by
  rw [select, hS]
  simp only [bind, Except.bind, hstorage]
  refine ⟨_, rfl, rfl, ?_⟩
  intro k hk
  simp [hk]

/-- The rows from `r` on, in the columns from `c` up to `c'`. -/
def part {m w : Nat} (A : Dense Float m w) (r c c' : Nat) (hc' : c' ≤ w) :
    Dense Float (m - r) (c' - c) :=
  Dense.ofFn fun j l => A[(⟨r + j, by omega⟩ : Fin m)][(⟨c + l, by omega⟩ : Fin w)]

theorem getElem_part {m w r c c' : Nat} (A : Dense Float m w) (hc' : c' ≤ w) (j : Fin (m - r))
    (l : Fin (c' - c)) :
    (part A r c c' hc')[j][l] =
      A[(⟨r + j, by omega⟩ : Fin m)][(⟨c + l, by omega⟩ : Fin w)] := by
  rw [part, Dense.getElem_ofFn]

/-- Two ranges select a part of a matrix. -/
theorem select_ranges {m w r c c' : Nat} (A : Dense Float m w) (hr : r ≤ m) (hc : c ≤ c')
    (hc' : c' ≤ w) :
    (ofDense A).select [.range (some r) none, .range (some c) (some c')] =
      .ok (ofDense (part A r c c' hc')) := by
  obtain ⟨u, hu, hshape, hentries⟩ := exists_select_eq_ok (t := ofDense A)
    (Selection.ofPlaces_ranges hr (hc.trans hc') hc') (Selection.resolve_ranges _ _ _ _ _ _)
  rw [hu, eq_ofDense hshape]
  intro j l
  have hplace := place_lt_volume j l
  rw [hentries _ hplace, List.getElem?_map, List.getElem?_range (by simpa using hplace)]
  simp only [Option.map_some, Option.bind_some, row_of_place j.val l.isLt,
    Nat.mul_add_mod_of_lt l.isLt]
  rw [getElem?_entries_ofDense A ⟨r + j, by omega⟩ ⟨c + l, by omega⟩, Option.getD_some, getElem_part]

end Tensor

end LinearSystems
