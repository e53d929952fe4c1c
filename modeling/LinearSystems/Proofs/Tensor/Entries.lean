import LinearSystems.Proofs.Tensor.Ranges
import LinearSystems.Tensor.Operations

/-!
# Entries of a vector

An entry that is taken from a vector is an array without dimensions. Two of them are combined like
numbers, and what is combined is tested and stored as a number.
-/

namespace LinearSystems

namespace Selection

theorem resolve_of_lt {i size : Nat} (axis : Nat) (h : i < size) :
    Index.resolve i axis size = .ok ⟨i, h⟩ := by
  have hbounds : (0 : Int) ≤ i ∧ (i : Int) < size := by omega
  rw [Index.resolve, Index.resolve?, dif_pos hbounds]
  rfl

theorem ofPlaces_entry {n i : Nat} (hi : i < n) :
    ofPlaces [n] [.entry i] = .ok { pieces := [.entry 0 i] } := by
  have hpieces : layOut [n] 0 [.entry i] = .ok [.entry 0 i] := by
    rw [layOut, List.getD_cons_zero, resolve_of_lt 0 hi]
    rfl
  have hplaces : ofPlaces [n] [.entry i] = (layOut [n] 0 [.entry i]).map (fun pieces => ⟨pieces⟩) :=
    rfl
  rw [hplaces, hpieces]
  rfl

/-- A single entry has no dimensions, and its place is the one in the vector. -/
theorem resolve_entry (n i : Nat) :
    ({ pieces := [.entry 0 i] } : Selection [n]).resolve = .ok ([], [i]) := by
  have hlists : ({ pieces := [.entry 0 i] } : Selection [n]).listShape = .ok [] := rfl
  have hnamed : ({ pieces := [.entry 0 i] } : Selection [n]).checkNamed [] = .ok () := rfl
  have hshape : ({ pieces := [.entry 0 i] } : Selection [n]).resultShape [] = [] := rfl
  simp only [resolve, hlists, hnamed, bind, Except.bind, pure, Except.pure]
  simp [hshape, storagePlaces, storagePlace]

end Selection

namespace Tensor

/-- A number as an array. -/
def single (x : Float) : Tensor where
  shape := []
  entries := #[x]
  size_eq := rfl

variable {n : Nat}

/-- A row of a vector is its entry. -/
theorem row_ofVector (v : Vector Float n) (i : Fin n) :
    (ofVector v).row (i.val : Int) = .ok (single v[i]) := by
  obtain ⟨u, hu, hshape, hentries⟩ := exists_select_eq_ok (t := ofVector v)
    (Selection.ofPlaces_entry i.isLt) (Selection.resolve_entry n i)
  rw [row, hu]
  congr 1
  apply Tensor.ext hshape
  have hsize := u.size_eq
  rw [hshape] at hsize
  apply Array.ext hsize
  intro k hk hk'
  obtain rfl : k = 0 := Nat.lt_one_iff.mp hk'
  have hentry := hentries 0 (Nat.lt_one_iff.mpr rfl)
  rw [Array.getElem?_eq_getElem hk] at hentry
  rw [Option.some.inj hentry]
  simp [ofVector, single]

theorem zipWith_single (f : Float → Float → Float) (x y : Float) :
    (single x).zipWith f (single y) = .ok (single (f x y)) := rfl

theorem stored_single (x : Float) : (single x).stored = .ok x := rfl

theorem checkDivisor_single (v t : Float) (small : Float → Fault) :
    (single v).checkDivisor t small =
      if Scalar.isBelow t v then .error (small v) else .ok () := rfl

end Tensor

end LinearSystems
