import LinearSystems.Proofs.Tensor.Reading

/-!
# Lists read as arrays

A list of doubles is read as a vector, and a list of rows of one length as a matrix, if there is at
least one of each. So the lists alone decide of which shape an array is that is read from them.
-/

namespace LinearSystems

namespace Tensor

variable {n : Nat}

/-- Data that are single elements end the nesting. -/
theorem unfold_of_isSingle {limit allowed : Nat} {shape : List Nat} {items : List Datum}
    (h : items.length = volume shape) (hsingle : items.all Datum.isSingle) :
    unfold limit allowed shape items h = .ok ⟨shape, items, h⟩ := by
  cases allowed with
  | zero => rw [unfold, if_pos hsingle]
  | succ allowed => rw [unfold, if_pos hsingle]

/-- Lists of one length, if there is one at all and it is not zero, make a dimension. -/
theorem exists_unfold_eq (limit allowed : Nat) (shape : List Nat) (items : List Datum)
    (h : items.length = volume shape) (hitems : items ≠ []) (hn : 0 < n)
    (huniform : ∀ d ∈ items, ∃ parts, d.parts? = some parts ∧ parts.length = n) :
    ∃ h', unfold limit (allowed + 1) shape items h =
      unfold limit allowed (shape ++ [n]) (items.flatMap Datum.parts) h' := by
  have hall : allOfLength n items = true := by
    rw [allOfLength, List.all_eq_true]
    intro d hd
    obtain ⟨parts, hparts, hlength⟩ := huniform d hd
    simp [hparts, hlength]
  obtain ⟨first, rest, rfl⟩ := List.exists_cons_of_ne_nil hitems
  obtain ⟨parts, hparts, hlength⟩ := huniform first List.mem_cons_self
  have hsingle : ¬ (first :: rest).all Datum.isSingle = true := by
    simp [Datum.isSingle, hparts]
  have hfirst : ((first :: rest).headD .null).parts.length = n := by
    simp [Datum.parts, hparts, hlength]
  refine ⟨by rw [length_flatMap_parts hall, volume_append_singleton, h], ?_⟩
  rw [unfold, if_neg hsingle]
  simp only [hfirst, hall, dif_pos, if_neg (Nat.ne_of_gt hn)]

end Tensor

namespace Datum

variable {xs : List Float} {rows : List (List Float)} {n width : Nat} {t : Tensor}

theorem isSingle_real (x : Float) : (Datum.number (.real x)).isSingle = true := rfl

theorem parts?_ofFloats (xs : List Float) :
    (Datum.ofFloats xs).parts? = some (xs.map fun x => .number (.real x)) := rfl

/-- A nesting with elements is not held back by arrays without any. -/
theorem nesting_eq_ok {d : Datum} {N : Tensor.Nesting}
    (h : Tensor.unfold Tensor.maxRank Tensor.maxRank [] [d] rfl = .ok N) (hpos : 0 < volume N.shape) :
    Tensor.nesting d = .ok N := by
  have hleaves : ¬ N.leaves.isEmpty = true := by
    rw [List.isEmpty_iff_length_eq_zero, N.length_eq]
    exact Nat.ne_of_gt hpos
  rw [Tensor.nesting, Tensor.nestingWithin, h, ok_bind, if_neg hleaves]
  rfl

theorem exists_nesting_ofFloats (hpos : 0 < xs.length) :
    ∃ N, Tensor.nesting (.ofFloats xs) = .ok N ∧ N.shape = [xs.length] := by
  obtain ⟨hxs, hstep⟩ := Tensor.exists_unfold_eq Tensor.maxRank 63 [] [.ofFloats xs] rfl (by simp) hpos (by simp [parts?_ofFloats])
  have hflat : [Datum.ofFloats xs].flatMap parts = xs.map fun x => .number (.real x) := by
    simp [parts, parts?_ofFloats]
  have hsingle : ([Datum.ofFloats xs].flatMap parts).all isSingle = true := by
    simp [hflat, isSingle_real]
  refine ⟨_, nesting_eq_ok (hstep.trans (Tensor.unfold_of_isSingle _ hsingle)) ?_, rfl⟩
  simpa using hpos

theorem exists_nesting_ofRows (hpos : 0 < rows.length) (hwidth : 0 < width)
    (hrows : ∀ row ∈ rows, row.length = width) :
    ∃ N, Tensor.nesting (.ofRows rows) = .ok N ∧ N.shape = [rows.length, width] := by
  have hflat : [Datum.ofRows rows].flatMap parts = rows.map ofFloats := by
    simp [parts, ofRows, parts?]
  obtain ⟨houter, hstep⟩ := Tensor.exists_unfold_eq Tensor.maxRank 63 [] [.ofRows rows] rfl (by simp) hpos (by simp [ofRows, parts?])
  have hne : [Datum.ofRows rows].flatMap parts ≠ [] := by
    rw [hflat]
    exact fun hnil => Nat.ne_of_gt hpos (by simpa using hnil)
  obtain ⟨hinner, hstep'⟩ := Tensor.exists_unfold_eq Tensor.maxRank 62 _ _ houter hne hwidth (by
      rw [hflat]
      simpa [parts?_ofFloats] using hrows)
  have hsingle : (([Datum.ofRows rows].flatMap parts).flatMap parts).all isSingle = true := by
    rw [hflat]
    simp [parts, parts?_ofFloats, isSingle_real]
  refine ⟨_, nesting_eq_ok (hstep.trans (hstep'.trans (Tensor.unfold_of_isSingle _ hsingle))) ?_,
    rfl⟩
  simpa using ⟨hpos, hwidth⟩

/-- A list of doubles, at least one, is read as a vector of as many entries. -/
theorem shape_of_reads_ofFloats (hpos : 0 < xs.length) (h : (Datum.ofFloats xs).Reads t) :
    t.shape = [xs.length] := by
  obtain ⟨N, hN, hshape⟩ := exists_nesting_ofFloats hpos
  have hread := h ""
  rw [Tensor.ofDatum_of_ne_array (by rintro a ⟨⟩), hN] at hread
  obtain ⟨-, -, rfl⟩ := map_eq_ok_iff.mp hread
  exact hshape

/-- A list of rows of one length, at least one of each, is read as a matrix of as many rows and
    columns. -/
theorem shape_of_reads_ofRows (hpos : 0 < rows.length) (hwidth : 0 < width)
    (hrows : ∀ row ∈ rows, row.length = width) (h : (Datum.ofRows rows).Reads t) :
    t.shape = [rows.length, width] := by
  obtain ⟨N, hN, hshape⟩ := exists_nesting_ofRows hpos hwidth hrows
  have hread := h ""
  rw [Tensor.ofDatum_of_ne_array (by rintro a ⟨⟩), hN] at hread
  obtain ⟨-, -, rfl⟩ := map_eq_ok_iff.mp hread
  exact hshape

end Datum

end LinearSystems
