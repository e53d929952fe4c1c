import Mathlib
import LinearSystems.Proofs.Tensor.Check
import LinearSystems.Tensor.Conversion

/-!
# Data read as arrays

Data is read as an array of real numbers in the same way whatever name a fault would show. What is
read is a matrix or a vector if it has two dimensions or one, and a column if its second dimension
is one.
-/

namespace LinearSystems

theorem map_eq_ok_iff {ε α β : Type} {x : Except ε α} {f : α → β} {b : β} :
    x.map f = .ok b ↔ ∃ a, x = .ok a ∧ f a = b := by
  cases x with
  | error e => simp [Except.map]
  | ok a => simp [Except.map]

namespace Tensor

variable {t : Tensor} {m n : Nat}

@[ext]
theorem ext {t u : Tensor} (hshape : t.shape = u.shape) (hentries : t.entries = u.entries) :
    t = u := by
  obtain ⟨shape, entries, hsize⟩ := t
  cases hshape
  cases hentries
  rfl

@[simp]
theorem ofVector_toVector (t : Tensor) (h : t.shape = [n]) : ofVector (t.toVector n h) = t :=
  Tensor.ext h.symm rfl

@[simp]
theorem toVector_ofVector (v : Vector Float n) : (ofVector v).toVector n rfl = v := rfl

/-- The row of a place in a matrix that is stored row by row. -/
theorem row_of_place (i : Nat) {j n : Nat} (hj : j < n) : (i * n + j) / n = i := by
  rw [Nat.mul_comm, Nat.mul_add_div (Nat.zero_lt_of_lt hj), Nat.div_eq_of_lt hj, Nat.add_zero]

theorem entries_ofDense (A : Dense Float m n) : (ofDense A).entries = A.flatten.toArray := rfl

@[simp]
theorem toDense_ofDense (A : Dense Float m n) : (ofDense A).toDense m n rfl = A := by
  apply Vector.ext
  intro i hi
  apply Vector.ext
  intro j hj
  simp [toDense, Dense.ofFn, entries_ofDense, row_of_place i hj, Nat.mod_eq_of_lt hj]

/-- The entries of an array are those of its matrix. -/
theorem forall_mem_entries_iff {p : Float → Prop} (h : t.shape = [m, n]) :
    (∀ x ∈ t.entries, p x) ↔ ∀ (i : Fin m) (j : Fin n), p (t.toDense m n h)[i][j] := by
  constructor
  · intro hall i j
    exact hall _ (t.toDense_mem h i j)
  · intro hall x hx
    obtain ⟨k, hk, rfl⟩ := Array.getElem_of_mem hx
    have hsize : t.entries.size = m * n := by simp [t.size_eq, h]
    have hn : 0 < n := by
      rcases Nat.eq_zero_or_pos n with rfl | hn
      · omega
      · exact hn
    have hrow : k / n < m := Nat.div_lt_of_lt_mul (by rw [Nat.mul_comm, ← hsize]; exact hk)
    have hplace : k / n * n + k % n = k := Nat.div_add_mod' k n
    simpa [toDense, Dense.ofFn, hplace] using hall ⟨k / n, hrow⟩ ⟨k % n, Nat.mod_lt k hn⟩

theorem forall_mem_entries_vector_iff {p : Float → Prop} (h : t.shape = [n]) :
    (∀ x ∈ t.entries, p x) ↔ ∀ i : Fin n, p (t.toVector n h)[i] := by
  constructor
  · intro hall i
    exact hall _ (t.toVector_mem h i)
  · intro hall x hx
    obtain ⟨k, hk, rfl⟩ := Array.getElem_of_mem hx
    exact hall ⟨k, by simpa [t.size_eq, h] using hk⟩

theorem flattenColumn_of_vector (h : t.shape = [n]) : t.flattenColumn = t := by
  obtain ⟨shape, entries, hsize⟩ := t
  cases h
  rfl

/-- A column becomes a vector of its entries. -/
theorem flattenColumn_of_column (h : t.shape = [n, 1]) :
    ∃ hflat : t.flattenColumn.shape = [n],
      t.flattenColumn.toVector n hflat = (t.toDense n 1 h).map fun row => row[(0 : Fin 1)] := by
  obtain ⟨shape, entries, hsize⟩ := t
  cases h
  refine ⟨rfl, ?_⟩
  apply Vector.ext
  intro i hi
  simp [toVector, toDense, Dense.ofFn, flattenColumn]

/-- Only a vector or a column is flattened to a vector. -/
theorem shape_of_flattenColumn (h : t.flattenColumn.shape = [n]) :
    t.shape = [n] ∨ t.shape = [n, 1] := by
  rw [flattenColumn] at h
  split at h
  · rename_i k hk
    rw [hk]
    simp_all
  · exact .inl h

theorem checkType_eq_ok_iff {name typeName : String} {T : ElementType} {u : Unit} :
    checkType name T typeName = .ok u ↔ T ≠ .object ∧ T.isReal = true := by
  rw [checkType]
  split_ifs with hobject hreal
  · simp [hobject]
  · simp [hobject, hreal]
  · simp [hreal]

theorem onlyRefuses_checkType (name typeName : String) (T : ElementType) :
    OnlyRefuses (checkType name T typeName) := by
  rw [checkType]
  split_ifs
  · exact .invalid _
  · exact .ok _
  · exact .invalid _

theorem ofDatum_of_ne_array {d : Datum} (h : ∀ a, d ≠ .array a) (name : String) :
    ofDatum name d =
      match nesting d with
      | .error defect => Except.error (.invalid (.notArray name defect))
      | .ok N => (checkType name d.elementType d.elementType.name).map fun _ => ofNesting N := by
  cases d with
  | array a => exact absurd rfl (h a)
  | _ => rfl

/-- The name that a fault would show does not decide whether data is an array. -/
theorem ofDatum_eq_ok_of_name {d : Datum} {name : String} (h : ofDatum name d = .ok t)
    (other : String) : ofDatum other d = .ok t := by
  by_cases harray : ∃ a, d = .array a
  · obtain ⟨a, rfl⟩ := harray
    simp only [ofDatum, map_eq_ok_iff, checkType_eq_ok_iff] at h ⊢
    exact h
  · rw [not_exists] at harray
    rw [ofDatum_of_ne_array harray] at h ⊢
    cases hnesting : nesting d with
    | error defect =>
      rw [hnesting] at h
      cases h
    | ok N =>
      rw [hnesting] at h
      simp only [map_eq_ok_iff, checkType_eq_ok_iff] at h ⊢
      exact h

theorem onlyRefuses_ofDatum (name : String) (d : Datum) : OnlyRefuses (ofDatum name d) := by
  unfold ofDatum
  split
  · exact (onlyRefuses_checkType _ _ _).map _
  · split
    · exact .invalid _
    · exact (onlyRefuses_checkType _ _ _).map _

end Tensor

namespace Datum

variable {d : Datum} {t u : Tensor} {m n : Nat}

/-- The datum is read as the array, whatever name a fault would show. -/
def Reads (d : Datum) (t : Tensor) : Prop :=
  ∀ name, Tensor.ofDatum name d = .ok t

theorem reads_iff (name : String) : d.Reads t ↔ Tensor.ofDatum name d = .ok t :=
  ⟨fun h => h name, fun h => Tensor.ofDatum_eq_ok_of_name h⟩

theorem Reads.eq (ht : d.Reads t) (hu : d.Reads u) : t = u :=
  Except.ok.inj ((ht "").symm.trans (hu ""))

/-- What is read as an array is not nothing. -/
theorem Reads.given?_eq (h : d.Reads t) : given? (some d) = some d := by
  cases d with
  | null => nomatch h ""
  | _ => rfl

theorem reads_ofTensor (t : Tensor) : Reads (.array (.ofTensor t)) t :=
  fun name => Tensor.ofDatum_ofTensor name t

/-- The datum is read as the matrix. -/
def IsMatrix (d : Datum) (M : Dense Float m n) : Prop :=
  ∃ (t : Tensor) (h : t.shape = [m, n]), d.Reads t ∧ t.toDense m n h = M

/-- The datum is read as the vector. -/
def IsVector (d : Datum) (v : Vector Float n) : Prop :=
  ∃ (t : Tensor) (h : t.shape = [n]), d.Reads t ∧ t.toVector n h = v

theorem IsVector.length_eq {v : Vector Float n} {w : Vector Float m} (hv : d.IsVector v)
    (hw : d.IsVector w) : n = m := by
  obtain ⟨t, ht, hreads, -⟩ := hv
  obtain ⟨u, hu, hreads', -⟩ := hw
  obtain rfl := hreads.eq hreads'
  exact (List.cons.inj (ht.symm.trans hu)).1

theorem IsVector.eq {v w : Vector Float n} (hv : d.IsVector v) (hw : d.IsVector w) : v = w := by
  obtain ⟨t, ht, hreads, rfl⟩ := hv
  obtain ⟨u, hu, hreads', rfl⟩ := hw
  obtain rfl := hreads.eq hreads'
  rfl

/-- A matrix as data is read as itself. -/
theorem isMatrix_ofDense (M : Dense Float m n) : IsMatrix (.array (.ofTensor (.ofDense M))) M :=
  ⟨Tensor.ofDense M, rfl, reads_ofTensor _, Tensor.toDense_ofDense M⟩

theorem IsMatrix.rows_eq {k l : Nat} {M : Dense Float m n} {N : Dense Float k l}
    (hM : d.IsMatrix M) (hN : d.IsMatrix N) : m = k := by
  obtain ⟨t, ht, hreads, -⟩ := hM
  obtain ⟨u, hu, hreads', -⟩ := hN
  obtain rfl := hreads.eq hreads'
  exact (List.cons.inj (ht.symm.trans hu)).1

theorem IsMatrix.eq {M N : Dense Float m n} (hM : d.IsMatrix M) (hN : d.IsMatrix N) : M = N := by
  obtain ⟨t, ht, hreads, rfl⟩ := hM
  obtain ⟨u, hu, hreads', rfl⟩ := hN
  obtain rfl := hreads.eq hreads'
  rfl

/-- The datum is read as a matrix of one column, which holds the entries of the vector. -/
def IsColumn (d : Datum) (v : Vector Float n) : Prop :=
  ∃ M : Dense Float n 1, d.IsMatrix M ∧ v = M.map fun row => row[(0 : Fin 1)]

/-- A right-hand side is read as a vector, or as a column of the same entries. -/
theorem map_flattenColumn_eq_ok_iff {v : Vector Float n} (name : String) :
    (Tensor.ofDatum name d).map Tensor.flattenColumn = .ok (Tensor.ofVector v) ↔
      d.IsVector v ∨ d.IsColumn v := by
  rw [map_eq_ok_iff]
  constructor
  · rintro ⟨t, ht, hflat⟩
    have ht := (reads_iff _).mpr ht
    have hshape : t.flattenColumn.shape = [n] := by
      rw [hflat]
      rfl
    have hv : t.flattenColumn.toVector n hshape = v := by
      simp only [hflat]
      rfl
    rcases Tensor.shape_of_flattenColumn hshape with hvector | hcolumn
    · refine .inl ⟨t, hvector, ht, ?_⟩
      rw [← hv]
      simp only [Tensor.flattenColumn_of_vector hvector]
    · obtain ⟨_, hentries⟩ := Tensor.flattenColumn_of_column hcolumn
      exact .inr ⟨_, ⟨t, hcolumn, ht, rfl⟩, hv.symm.trans hentries⟩
  · rintro (⟨t, hshape, ht, rfl⟩ | ⟨M, ⟨t, hshape, ht, rfl⟩, rfl⟩)
    · exact ⟨t, ht _, by rw [Tensor.flattenColumn_of_vector hshape, Tensor.ofVector_toVector]⟩
    · obtain ⟨hflat, hentries⟩ := Tensor.flattenColumn_of_column hshape
      exact ⟨t, ht _, by rw [← hentries, Tensor.ofVector_toVector]⟩

end Datum

end LinearSystems
