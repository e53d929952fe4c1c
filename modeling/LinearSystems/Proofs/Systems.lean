import LinearSystems.Proofs.Tensor.Reading
import LinearSystems.Gauss.System
import LinearSystems.Jacobi.System
import LinearSystems.Tridiagonal.System
import LinearSystems.Workspace.Prepared

/-!
# Which data become systems

A system is made exactly from the data that it is meant to be made from: arrays of real numbers of
the right shape, with at least one row and with finite entries. All other data is refused, so no
check is reached on an array that it cannot be made on.

The order of the checks matters for that: a check that reads a dimension comes after the one that
counts the dimensions.
-/

namespace LinearSystems

variable {A b d : Datum}

/-- All entries of the matrix are finite. -/
def Dense.AllFinite {m n : Nat} (M : Dense Float m n) : Prop :=
  ∀ (i : Fin m) (j : Fin n), M[i][j].isFinite = true

theorem Dense.allFinite_glue_iff {n : Nat} {M : Dense Float n n} {v : Vector Float n} :
    (Dense.glue M v).AllFinite ↔ M.AllFinite ∧ ∀ i : Fin n, v[i].isFinite = true := by
  constructor
  · intro h
    refine ⟨?_, ?_⟩
    · intro i j
      rw [← Dense.getElem_glue_castSucc M v]
      exact h i j.castSucc
    · intro i
      rw [← Dense.getElem_glue_last M v]
      exact h i (Fin.last n)
  · rintro ⟨hM, hv⟩ i j
    refine Fin.lastCases ?_ (fun j => ?_) j
    · rw [Dense.getElem_glue_last]
      exact hv i
    · rw [Dense.getElem_glue_castSucc]
      exact hM i j

namespace Gauss.System

theorem ofTensor_eq_ok_iff {t : Tensor} {S : System} :
    ofTensor t = .ok S ↔
      ∃ h : t.shape = [S.n, S.n + 1], t.toDense S.n (S.n + 1) h = S.augmented := by
  constructor
  · intro h
    rw [ofTensor] at h
    obtain ⟨_, -, h⟩ := bind_eq_ok_iff.mp h
    obtain ⟨⟨_, _, _⟩, -, h⟩ := bind_eq_ok_iff.mp h
    obtain ⟨⟨n, hshape⟩, -, h⟩ := bind_eq_ok_iff.mp h
    obtain ⟨⟨hfinite⟩, -, h⟩ := bind_eq_ok_iff.mp h
    cases h
    exact ⟨hshape, rfl⟩
  · rintro ⟨h, hS⟩
    have hfinite : ∀ x ∈ t.entries, x.isFinite = true := by
      rw [Tensor.forall_mem_entries_iff h, hS]
      exact S.finite
    rw [ofTensor, Tensor.checkMatrix_eq_ok _ h, Tensor.checkNonempty_eq_ok _ h S.n_pos,
      Tensor.checkAugmented_eq_ok _ h, Tensor.checkFinite_eq_ok _ hfinite]
    obtain ⟨⟨n, n_pos, augmented⟩, finite⟩ := S
    dsimp only at h hS
    subst hS
    rfl

theorem onlyRefuses_ofTensor (t : Tensor) : OnlyRefuses (ofTensor t) := by
  rw [ofTensor]
  refine (t.onlyRefuses_checkMatrix _).bind ?_
  rintro ⟨⟨m, n⟩, hshape⟩
  refine (Tensor.onlyRefuses_checkNonempty _ hshape).bind ?_
  rintro ⟨_, _, _⟩
  refine (Tensor.onlyRefuses_checkAugmented _ hshape).bind ?_
  rintro ⟨_, _⟩
  refine (t.onlyRefuses_checkFinite _).bind ?_
  rintro ⟨_⟩
  exact .ok _

theorem ofAugmented_eq_ok_iff {S : System} : ofAugmented d = .ok S ↔ d.IsMatrix S.augmented := by
  rw [ofAugmented]
  constructor
  · intro h
    obtain ⟨t, ht, h⟩ := bind_eq_ok_iff.mp h
    obtain ⟨hshape, hS⟩ := ofTensor_eq_ok_iff.mp h
    exact ⟨t, hshape, (Datum.reads_iff _).mpr ht, hS⟩
  · rintro ⟨t, hshape, ht, hS⟩
    exact bind_eq_ok_iff.mpr ⟨t, ht _, ofTensor_eq_ok_iff.mpr ⟨hshape, hS⟩⟩

/-- Data becomes a system for elimination exactly if it is read as a matrix of finite entries with
    one more column than rows. -/
theorem exists_ofAugmented_eq_ok_iff :
    (∃ S, ofAugmented d = .ok S) ↔
      ∃ (n : Nat) (M : Dense Float n (n + 1)), 0 < n ∧ d.IsMatrix M ∧ M.AllFinite := by
  constructor
  · rintro ⟨S, h⟩
    exact ⟨S.n, S.augmented, S.n_pos, ofAugmented_eq_ok_iff.mp h, S.finite⟩
  · rintro ⟨n, M, hn, hM, hfinite⟩
    exact ⟨⟨⟨n, hn, M⟩, hfinite⟩, ofAugmented_eq_ok_iff.mpr hM⟩

/-- A matrix and a right-hand side become what the matrix becomes that they are joined to. -/
theorem ofParts_eq {n : Nat} {M : Dense Float n n} {v : Vector Float n} (hn : 0 < n)
    (hA : A.IsMatrix M) (hb : b.IsVector v) :
    ofParts A b = ofTensor (Tensor.ofDense (Dense.glue M v)) := by
  obtain ⟨tA, hAshape, hA, rfl⟩ := hA
  obtain ⟨tb, hbshape, hb, rfl⟩ := hb
  have hheads : ∀ t ∈ [tA, tb], t.shape.head? = some n := by simp [hAshape, hbshape]
  rw [ofParts, hA, ok_bind, hb, ok_bind, Tensor.checkMatrix_eq_ok _ hAshape,
    Tensor.checkVector_eq_ok _ hbshape, Tensor.checkNonempty_eq_ok _ hAshape hn,
    Tensor.checkSquare_eq_ok _ hAshape, Tensor.checkLengths_eq_ok rfl hheads]
  rfl

theorem ofParts_eq_ok_iff {S : System} :
    ofParts A b = .ok S ↔
      ∃ (M : Dense Float S.n S.n) (v : Vector Float S.n),
        A.IsMatrix M ∧ b.IsVector v ∧ S.augmented = Dense.glue M v := by
  constructor
  · intro h
    rw [ofParts] at h
    obtain ⟨tA, hA, h⟩ := bind_eq_ok_iff.mp h
    obtain ⟨tb, hb, h⟩ := bind_eq_ok_iff.mp h
    obtain ⟨_, -, h⟩ := bind_eq_ok_iff.mp h
    obtain ⟨⟨m, hbshape⟩, -, h⟩ := bind_eq_ok_iff.mp h
    obtain ⟨_, -, h⟩ := bind_eq_ok_iff.mp h
    obtain ⟨⟨n, hAshape⟩, -, h⟩ := bind_eq_ok_iff.mp h
    obtain ⟨⟨hlengths⟩, -, h⟩ := bind_eq_ok_iff.mp h
    obtain ⟨hshape, hS⟩ := ofTensor_eq_ok_iff.mp h
    obtain rfl : n = S.n := (List.cons.inj hshape).1
    refine ⟨_, _, ⟨tA, hAshape, (Datum.reads_iff _).mpr hA, rfl⟩,
      ⟨tb, hlengths.shape_eq hbshape hAshape, (Datum.reads_iff _).mpr hb, rfl⟩, ?_⟩
    rw [← hS, Tensor.toDense_ofDense]
  · rintro ⟨M, v, hM, hv, hS⟩
    rw [ofParts_eq S.n_pos hM hv]
    exact ofTensor_eq_ok_iff.mpr ⟨rfl, by rw [Tensor.toDense_ofDense, hS]⟩

/-- A matrix and a right-hand side become a system for elimination exactly if they are a square
    matrix and a vector of its order with finite entries. -/
theorem exists_ofParts_eq_ok_iff :
    (∃ S, ofParts A b = .ok S) ↔
      ∃ (n : Nat) (M : Dense Float n n) (v : Vector Float n),
        0 < n ∧ A.IsMatrix M ∧ b.IsVector v ∧ M.AllFinite ∧ ∀ i : Fin n, v[i].isFinite = true := by
  constructor
  · rintro ⟨S, h⟩
    obtain ⟨M, v, hM, hv, hS⟩ := ofParts_eq_ok_iff.mp h
    have hfinite : (Dense.glue M v).AllFinite := hS ▸ S.finite
    exact ⟨S.n, M, v, S.n_pos, hM, hv, Dense.allFinite_glue_iff.mp hfinite⟩
  · rintro ⟨n, M, v, hn, hM, hv, hfinite⟩
    exact ⟨⟨⟨n, hn, Dense.glue M v⟩, Dense.allFinite_glue_iff.mpr hfinite⟩,
      ofParts_eq_ok_iff.mpr ⟨M, v, hM, hv, rfl⟩⟩

theorem onlyRefuses_ofAugmented (d : Datum) : OnlyRefuses (ofAugmented d) :=
  (Tensor.onlyRefuses_ofDatum _ d).bind onlyRefuses_ofTensor

theorem onlyRefuses_ofParts (A b : Datum) : OnlyRefuses (ofParts A b) := by
  refine (Tensor.onlyRefuses_ofDatum _ A).bind fun tA => ?_
  refine (Tensor.onlyRefuses_ofDatum _ b).bind fun tb => ?_
  refine (tA.onlyRefuses_checkMatrix _).bind ?_
  rintro ⟨⟨m, k⟩, hA⟩
  refine (tb.onlyRefuses_checkVector _).bind ?_
  rintro ⟨l, hb⟩
  refine (Tensor.onlyRefuses_checkNonempty _ hA).bind fun _ => ?_
  refine (Tensor.onlyRefuses_checkSquare _ hA).bind ?_
  rintro ⟨n, hsquare⟩
  have hshapes : ∀ t ∈ [tA, tb], t.shape ≠ [] := by simp [hA, hb]
  refine (Tensor.onlyRefuses_checkLengths rfl hshapes).bind ?_
  rintro ⟨_⟩
  exact onlyRefuses_ofTensor _

end Gauss.System

namespace Jacobi.System

theorem ofParts_eq_ok_iff {S : System} :
    ofParts A b = .ok S ↔ A.IsMatrix S.matrix ∧ (b.IsVector S.rhs ∨ b.IsColumn S.rhs) := by
  rw [← Datum.map_flattenColumn_eq_ok_iff "b"]
  constructor
  · intro h
    rw [ofParts] at h
    obtain ⟨tA, hA, h⟩ := bind_eq_ok_iff.mp h
    obtain ⟨tb, hb, h⟩ := bind_eq_ok_iff.mp h
    obtain ⟨_, -, h⟩ := bind_eq_ok_iff.mp h
    obtain ⟨⟨m, hbshape⟩, -, h⟩ := bind_eq_ok_iff.mp h
    obtain ⟨⟨_, _, _⟩, -, h⟩ := bind_eq_ok_iff.mp h
    obtain ⟨⟨n, hAshape⟩, -, h⟩ := bind_eq_ok_iff.mp h
    obtain ⟨⟨hlengths⟩, -, h⟩ := bind_eq_ok_iff.mp h
    obtain ⟨⟨_⟩, -, h⟩ := bind_eq_ok_iff.mp h
    obtain ⟨⟨_⟩, -, h⟩ := bind_eq_ok_iff.mp h
    cases h
    refine ⟨⟨tA, hAshape, (Datum.reads_iff _).mpr hA, rfl⟩, ?_⟩
    rw [hb, Tensor.ofVector_toVector]
  · rintro ⟨⟨tA, hAshape, hA, hmatrix⟩, hb⟩
    have hfiniteA : ∀ x ∈ tA.entries, x.isFinite = true := by
      rw [Tensor.forall_mem_entries_iff hAshape, hmatrix]
      exact S.matrix_finite
    have hfiniteb : ∀ x ∈ (Tensor.ofVector S.rhs).entries, x.isFinite = true :=
      (Tensor.forall_mem_entries_vector_iff rfl).mpr S.rhs_finite
    have hheads : ∀ t ∈ [tA, Tensor.ofVector S.rhs], t.shape.head? = some S.n := by
      simp [hAshape, Tensor.ofVector]
    rw [ofParts, hA, ok_bind, hb, ok_bind, Tensor.checkMatrix_eq_ok _ hAshape,
      Tensor.checkVector_eq_ok (n := S.n) _ rfl, Tensor.checkNonempty_eq_ok _ hAshape S.n_pos,
      Tensor.checkSquare_eq_ok _ hAshape, Tensor.checkLengths_eq_ok rfl hheads,
      Tensor.checkFinite_eq_ok _ hfiniteA, Tensor.checkFinite_eq_ok _ hfiniteb]
    obtain ⟨n, n_pos, matrix, rhs, matrix_finite, rhs_finite⟩ := S
    dsimp only at hAshape hmatrix
    subst hmatrix
    rfl

/-- A matrix and a right-hand side become a system for the iteration exactly if they are a square
    matrix and a vector of its order, which may be given as a column, with finite entries. -/
theorem exists_ofParts_eq_ok_iff :
    (∃ S, ofParts A b = .ok S) ↔
      ∃ (n : Nat) (M : Dense Float n n) (v : Vector Float n),
        0 < n ∧ A.IsMatrix M ∧ (b.IsVector v ∨ b.IsColumn v) ∧ M.AllFinite ∧
          ∀ i : Fin n, v[i].isFinite = true := by
  constructor
  · rintro ⟨S, h⟩
    obtain ⟨hM, hv⟩ := ofParts_eq_ok_iff.mp h
    exact ⟨S.n, S.matrix, S.rhs, S.n_pos, hM, hv, S.matrix_finite, S.rhs_finite⟩
  · rintro ⟨n, M, v, hn, hM, hv, hmatrix, hrhs⟩
    exact ⟨⟨n, hn, M, v, hmatrix, hrhs⟩, ofParts_eq_ok_iff.mpr ⟨hM, hv⟩⟩

theorem onlyRefuses_ofParts (A b : Datum) : OnlyRefuses (ofParts A b) := by
  refine (Tensor.onlyRefuses_ofDatum _ A).bind fun tA => ?_
  refine ((Tensor.onlyRefuses_ofDatum _ b).map _).bind fun tb => ?_
  refine (tA.onlyRefuses_checkMatrix _).bind ?_
  rintro ⟨⟨m, k⟩, hA⟩
  refine (tb.onlyRefuses_checkVector _).bind ?_
  rintro ⟨l, hb⟩
  refine (Tensor.onlyRefuses_checkNonempty _ hA).bind ?_
  rintro ⟨_, _, _⟩
  refine (Tensor.onlyRefuses_checkSquare _ hA).bind ?_
  rintro ⟨n, hsquare⟩
  have hshapes : ∀ t ∈ [tA, tb], t.shape ≠ [] := by simp [hA, hb]
  refine (Tensor.onlyRefuses_checkLengths rfl hshapes).bind ?_
  rintro ⟨_⟩
  refine (tA.onlyRefuses_checkFinite _).bind ?_
  rintro ⟨_⟩
  refine (tb.onlyRefuses_checkFinite _).bind ?_
  rintro ⟨_⟩
  exact .ok _

end Jacobi.System

namespace Tridiagonal

theorem vectorOf_eq_ok {n : Nat} {v : Vector Float n} (name : String) (h : d.IsVector v) :
    vectorOf name d = .ok ⟨(Tensor.ofVector v, n), rfl⟩ := by
  obtain ⟨t, hshape, ht, rfl⟩ := h
  rw [vectorOf, ht, ok_bind, Tensor.checkVector_eq_ok _ hshape]
  simp only [Tensor.ofVector_toVector]
  rfl

theorem isVector_of_vectorOf {name : String} {p : { p : Tensor × Nat // p.1.shape = [p.2] }}
    (h : vectorOf name d = .ok p) : d.IsVector (p.1.1.toVector p.1.2 p.2) := by
  rw [vectorOf] at h
  obtain ⟨t, ht, h⟩ := bind_eq_ok_iff.mp h
  obtain ⟨⟨n, hshape⟩, -, h⟩ := bind_eq_ok_iff.mp h
  cases h
  exact ⟨t, hshape, (Datum.reads_iff _).mpr ht, rfl⟩

theorem onlyRefuses_vectorOf (name : String) (d : Datum) : OnlyRefuses (vectorOf name d) := by
  refine (Tensor.onlyRefuses_ofDatum _ d).bind fun t => ?_
  refine (t.onlyRefuses_checkVector _).bind ?_
  rintro ⟨_, _⟩
  exact .ok _

theorem checkFinite_eq_ok {n : Nat} {v : Vector Float n} (name : String)
    (h : ∀ i : Fin n, v[i].isFinite = true) : checkFinite v name = .ok ⟨h⟩ := by
  have hentries : ∀ x ∈ (Tensor.ofVector v).entries, x.isFinite = true :=
    (Tensor.forall_mem_entries_vector_iff rfl).mpr h
  rw [checkFinite, Tensor.checkFinite_eq_ok name hentries]
  rfl

theorem onlyRefuses_checkFinite {n : Nat} (v : Vector Float n) (name : String) :
    OnlyRefuses (checkFinite v name) :=
  ((Tensor.ofVector v).onlyRefuses_checkFinite name).map _

namespace System

variable {c e : Datum}

theorem ofDiagonals_eq_ok_iff {S : System} :
    ofDiagonals c d e b = .ok S ↔
      ∃ lower upper : Vector Float S.n,
        c.IsVector lower ∧ d.IsVector S.band.diag ∧ e.IsVector upper ∧ b.IsVector S.band.rhs ∧
          S.band.lower = lower.set 0 0.0 S.n_pos ∧
          S.band.upper = upper.set (S.n - 1) 0.0 (Nat.sub_one_lt_of_lt S.n_pos) := by
  constructor
  · intro h
    rw [ofDiagonals] at h
    obtain ⟨⟨⟨tc, nc⟩, hc⟩, hreadc, h⟩ := bind_eq_ok_iff.mp h
    obtain ⟨⟨⟨td, n⟩, hd⟩, hreadd, h⟩ := bind_eq_ok_iff.mp h
    obtain ⟨⟨⟨te, ne⟩, he⟩, hreade, h⟩ := bind_eq_ok_iff.mp h
    obtain ⟨⟨⟨tb, nb⟩, hb⟩, hreadb, h⟩ := bind_eq_ok_iff.mp h
    obtain ⟨⟨hlengths⟩, -, h⟩ := bind_eq_ok_iff.mp h
    obtain ⟨⟨_, _, _⟩, -, h⟩ := bind_eq_ok_iff.mp h
    obtain ⟨⟨_⟩, -, h⟩ := bind_eq_ok_iff.mp h
    obtain ⟨⟨_⟩, -, h⟩ := bind_eq_ok_iff.mp h
    obtain ⟨⟨_⟩, -, h⟩ := bind_eq_ok_iff.mp h
    obtain ⟨⟨_⟩, -, h⟩ := bind_eq_ok_iff.mp h
    cases h
    obtain rfl : nc = n := hlengths.eq (by simp) (by simp) hc hd
    obtain rfl : ne = nc := hlengths.eq (by simp) (by simp) he hd
    obtain rfl : nb = ne := hlengths.eq (by simp) (by simp) hb hd
    exact ⟨_, _, isVector_of_vectorOf hreadc, isVector_of_vectorOf hreadd,
      isVector_of_vectorOf hreade, isVector_of_vectorOf hreadb, rfl, rfl⟩
  · rintro ⟨lower, upper, hc, hd, he, hb, hlower, hupper⟩
    have hheads : ∀ t ∈ [Tensor.ofVector S.band.diag, Tensor.ofVector lower,
        Tensor.ofVector upper, Tensor.ofVector S.band.rhs], t.shape.head? = some S.n := by
      simp [Tensor.ofVector]
    obtain ⟨n, hn, ⟨lower', diag, upper', rhs⟩, _, _, hfinitec, hfinited, hfinitee, hfiniteb⟩ := S
    dsimp only at lower upper hc hd he hb hheads
    obtain rfl : lower' = lower.set 0 0.0 hn := hlower
    obtain rfl : upper' = upper.set (n - 1) 0.0 (Nat.sub_one_lt_of_lt hn) := hupper
    rw [ofDiagonals]
    refine bind_eq_ok_iff.mpr ⟨_, vectorOf_eq_ok _ hc, ?_⟩
    refine bind_eq_ok_iff.mpr ⟨_, vectorOf_eq_ok _ hd, ?_⟩
    refine bind_eq_ok_iff.mpr ⟨_, vectorOf_eq_ok _ he, ?_⟩
    refine bind_eq_ok_iff.mpr ⟨_, vectorOf_eq_ok _ hb, ?_⟩
    refine bind_eq_ok_iff.mpr ⟨_, Tensor.checkLengths_eq_ok rfl hheads, ?_⟩
    refine bind_eq_ok_iff.mpr ⟨_, Tensor.checkNonempty_eq_ok _ rfl hn, ?_⟩
    refine bind_eq_ok_iff.mpr ⟨_, checkFinite_eq_ok _ hfinitec, ?_⟩
    refine bind_eq_ok_iff.mpr ⟨_, checkFinite_eq_ok _ hfinited, ?_⟩
    refine bind_eq_ok_iff.mpr ⟨_, checkFinite_eq_ok _ hfinitee, ?_⟩
    exact bind_eq_ok_iff.mpr ⟨_, checkFinite_eq_ok _ hfiniteb, rfl⟩

theorem isFinite_zero : (0.0 : Float).isFinite = true := by
  decide +kernel

/-- Setting an entry to zero leaves a vector finite exactly if its other entries are. -/
theorem forall_isFinite_set_zero_iff {n k : Nat} (v : Vector Float n) (hk : k < n) :
    (∀ i : Fin n, (v.set k 0.0 hk)[i].isFinite = true) ↔
      ∀ i : Fin n, i.val ≠ k → v[i].isFinite = true := by
  refine forall_congr' fun i => ?_
  rw [getElem_fin, Vector.getElem_set]
  split_ifs with hi
  · simp [hi, isFinite_zero]
  · simp [Ne.symm hi]

/-- Four data become a tridiagonal system exactly if they are vectors of one length whose entries
    are finite, but for the two that belong to no unknown. -/
theorem exists_ofDiagonals_eq_ok_iff :
    (∃ S, ofDiagonals c d e b = .ok S) ↔
      ∃ (n : Nat) (lower diag upper rhs : Vector Float n),
        0 < n ∧ c.IsVector lower ∧ d.IsVector diag ∧ e.IsVector upper ∧ b.IsVector rhs ∧
          (∀ i : Fin n, i.val ≠ 0 → lower[i].isFinite = true) ∧
          (∀ i : Fin n, diag[i].isFinite = true) ∧
          (∀ i : Fin n, i.val ≠ n - 1 → upper[i].isFinite = true) ∧
          ∀ i : Fin n, rhs[i].isFinite = true := by
  constructor
  · rintro ⟨S, h⟩
    obtain ⟨lower, upper, hc, hd, he, hb, hlower, hupper⟩ := ofDiagonals_eq_ok_iff.mp h
    exact ⟨S.n, lower, _, upper, _, S.n_pos, hc, hd, he, hb,
      (forall_isFinite_set_zero_iff _ _).mp (hlower ▸ S.lower_finite), S.diag_finite,
      (forall_isFinite_set_zero_iff _ _).mp (hupper ▸ S.upper_finite), S.rhs_finite⟩
  · rintro ⟨n, lower, diag, upper, rhs, hn, hc, hd, he, hb, hlower, hdiag, hupper, hrhs⟩
    have hlower := (forall_isFinite_set_zero_iff lower hn).mpr hlower
    have hupper := (forall_isFinite_set_zero_iff upper (Nat.sub_one_lt_of_lt hn)).mpr hupper
    let S : System := {
      n
      n_pos := hn
      band := {
        lower := lower.set 0 0.0 hn
        diag
        upper := upper.set (n - 1) 0.0 (Nat.sub_one_lt_of_lt hn)
        rhs }
      lower_first := by simp
      upper_last := by simp
      lower_finite := hlower
      diag_finite := hdiag
      upper_finite := hupper
      rhs_finite := hrhs }
    exact ⟨S, ofDiagonals_eq_ok_iff.mpr ⟨lower, upper, hc, hd, he, hb, rfl, rfl⟩⟩

theorem onlyRefuses_ofDiagonals (c d e b : Datum) : OnlyRefuses (ofDiagonals c d e b) := by
  refine (onlyRefuses_vectorOf _ c).bind ?_
  rintro ⟨⟨tc, nc⟩, hc⟩
  refine (onlyRefuses_vectorOf _ d).bind ?_
  rintro ⟨⟨td, n⟩, hd⟩
  refine (onlyRefuses_vectorOf _ e).bind ?_
  rintro ⟨⟨te, ne⟩, he⟩
  refine (onlyRefuses_vectorOf _ b).bind ?_
  rintro ⟨⟨tb, nb⟩, hb⟩
  have hshapes : ∀ t ∈ [td, tc, te, tb], t.shape ≠ [] := by
    dsimp only at hc hd he hb
    simp [hc, hd, he, hb]
  refine (Tensor.onlyRefuses_checkLengths rfl hshapes).bind ?_
  rintro ⟨_⟩
  refine (Tensor.onlyRefuses_checkNonempty _ hd).bind ?_
  rintro ⟨_, _, _⟩
  refine (onlyRefuses_checkFinite _ _).bind ?_
  rintro ⟨_⟩
  refine (onlyRefuses_checkFinite _ _).bind ?_
  rintro ⟨_⟩
  refine (onlyRefuses_checkFinite _ _).bind ?_
  rintro ⟨_⟩
  refine (onlyRefuses_checkFinite _ _).bind ?_
  rintro ⟨_⟩
  exact .ok _

/-- The matrix is zero outside its three diagonals. -/
def IsBanded {n : Nat} (M : Dense Float n n) : Prop :=
  ∀ i j : Fin n, i.val + 1 < j.val ∨ j.val + 1 < i.val → (M[i][j] == 0.0) = true

theorem inBand_eq_false_iff {n : Nat} {i j : Fin n} :
    inBand i j = false ↔ i.val + 1 < j.val ∨ j.val + 1 < i.val := by
  simp only [inBand, Bool.and_eq_false_iff, decide_eq_false_iff_not]
  omega

theorem firstOutside?_eq_none_iff {n : Nat} {M : Dense Float n n} :
    firstOutside? M = none ↔ IsBanded M := by
  have hplace (i j : Fin n) : (!inBand i j && M[i][j] != 0.0) = true ↔
      (i.val + 1 < j.val ∨ j.val + 1 < i.val) ∧ ¬ (M[i][j] == 0.0) = true := by
    rw [Bool.and_eq_true, Bool.not_eq_true', inBand_eq_false_iff, bne, Bool.not_eq_true',
      Bool.not_eq_true]
  rw [firstOutside?, List.find?_eq_none]
  constructor
  · intro h i j hij
    by_contra hzero
    exact h (i, j) (by simp) ((hplace i j).mpr ⟨hij, hzero⟩)
  · rintro h ⟨i, j⟩ - houtside
    obtain ⟨hij, hzero⟩ := (hplace i j).mp houtside
    exact hzero (h i j hij)

theorem ofMatrix_eq {n : Nat} {M : Dense Float n n} (hn : 0 < n) (hA : A.IsMatrix M)
    (hfinite : M.AllFinite) :
    ofMatrix A b =
      match firstOutside? M with
      | some (i, j) => .error (.invalid (.outsideBand i j M[i][j]))
      | none =>
        ofDiagonals (vectorDatum (lowerOf M)) (vectorDatum (diagOf M)) (vectorDatum (upperOf M))
          b := by
  obtain ⟨t, hshape, ht, rfl⟩ := hA
  have hentries : ∀ x ∈ t.entries, x.isFinite = true :=
    (Tensor.forall_mem_entries_iff hshape).mpr hfinite
  rw [ofMatrix, ht, ok_bind, Tensor.checkMatrix_eq_ok _ hshape,
    Tensor.checkNonempty_eq_ok _ hshape hn, Tensor.checkSquare_eq_ok _ hshape,
    Tensor.checkFinite_eq_ok _ hentries]
  rfl

theorem isVector_vectorDatum {n : Nat} (v : Vector Float n) : (vectorDatum v).IsVector v :=
  ⟨Tensor.ofVector v, rfl, Datum.reads_ofTensor _, rfl⟩

theorem exists_isMatrix_of_ofMatrix {S : System} (h : ofMatrix A b = .ok S) :
    ∃ (n : Nat) (M : Dense Float n n), 0 < n ∧ A.IsMatrix M ∧ M.AllFinite := by
  rw [ofMatrix] at h
  obtain ⟨t, ht, h⟩ := bind_eq_ok_iff.mp h
  obtain ⟨_, -, h⟩ := bind_eq_ok_iff.mp h
  obtain ⟨⟨k, hpos, hhead⟩, -, h⟩ := bind_eq_ok_iff.mp h
  obtain ⟨⟨n, hshape⟩, -, h⟩ := bind_eq_ok_iff.mp h
  obtain ⟨⟨hfinite⟩, -, h⟩ := bind_eq_ok_iff.mp h
  exact ⟨n, _, Tensor.rows_pos hpos hhead hshape, ⟨t, hshape, (Datum.reads_iff _).mpr ht, rfl⟩,
    (Tensor.forall_mem_entries_iff hshape).mp hfinite⟩

/-- A matrix and a right-hand side become a tridiagonal system exactly if they are a square matrix
    that is zero outside its three diagonals and a vector of its order, with finite entries. -/
theorem exists_ofMatrix_eq_ok_iff :
    (∃ S, ofMatrix A b = .ok S) ↔
      ∃ (n : Nat) (M : Dense Float n n) (v : Vector Float n),
        0 < n ∧ A.IsMatrix M ∧ M.AllFinite ∧ IsBanded M ∧ b.IsVector v ∧
          ∀ i : Fin n, v[i].isFinite = true := by
  constructor
  · rintro ⟨S, h⟩
    obtain ⟨n, M, hn, hM, hfinite⟩ := exists_isMatrix_of_ofMatrix h
    rw [ofMatrix_eq hn hM hfinite] at h
    cases hplace : firstOutside? M with
    | some p =>
      rw [hplace] at h
      cases h
    | none =>
      rw [hplace] at h
      obtain ⟨_, _, -, hd, -, hb, -, -⟩ := ofDiagonals_eq_ok_iff.mp h
      obtain rfl : n = S.n := (isVector_vectorDatum (diagOf M)).length_eq hd
      exact ⟨S.n, M, S.band.rhs, hn, hM, hfinite, firstOutside?_eq_none_iff.mp hplace, hb,
        S.rhs_finite⟩
  · rintro ⟨n, M, v, hn, hM, hfinite, hbanded, hv, hrhs⟩
    rw [ofMatrix_eq hn hM hfinite, firstOutside?_eq_none_iff.mpr hbanded]
    refine exists_ofDiagonals_eq_ok_iff.mpr ⟨n, _, _, _, v, hn, isVector_vectorDatum _,
      isVector_vectorDatum _, isVector_vectorDatum _, hv, ?_, ?_, ?_, hrhs⟩
    · intro i _
      simp only [lowerOf, getElem_fin, Vector.getElem_ofFn]
      cases previous? i with
      | none => exact isFinite_zero
      | some p => exact hfinite i p
    · intro i
      simp only [diagOf, getElem_fin, Vector.getElem_ofFn]
      exact hfinite i i
    · intro i _
      simp only [upperOf, getElem_fin, Vector.getElem_ofFn]
      cases following? i with
      | none => exact isFinite_zero
      | some j => exact hfinite i j

theorem onlyRefuses_ofMatrix (A b : Datum) : OnlyRefuses (ofMatrix A b) := by
  refine (Tensor.onlyRefuses_ofDatum _ A).bind fun t => ?_
  refine (t.onlyRefuses_checkMatrix _).bind ?_
  rintro ⟨⟨m, k⟩, hshape⟩
  refine (Tensor.onlyRefuses_checkNonempty _ hshape).bind fun _ => ?_
  refine (Tensor.onlyRefuses_checkSquare _ hshape).bind ?_
  rintro ⟨n, hsquare⟩
  refine (t.onlyRefuses_checkFinite _).bind fun _ => ?_
  dsimp only
  split
  · exact .invalid _
  · exact onlyRefuses_ofDiagonals _ _ _ _

end System

end Tridiagonal

theorem Blueprint.onlyRefuses_prepare (B : Blueprint) : OnlyRefuses B.prepare := by
  cases B with
  | augmented M => exact (Gauss.System.onlyRefuses_ofAugmented M).map _
  | parts A b => exact (Gauss.System.onlyRefuses_ofParts A b).map _
  | square A b => exact (Jacobi.System.onlyRefuses_ofParts A b).map _
  | diagonals c d e b => exact (Tridiagonal.System.onlyRefuses_ofDiagonals c d e b).map _
  | banded A b => exact (Tridiagonal.System.onlyRefuses_ofMatrix A b).map _

/-- Systems are made exactly from the data that they are meant to be made from, whatever is given,
    and all other data is refused:
    an augmented matrix with a row, one more column than rows and finite entries;
    a square matrix and a vector of its order, which become the system of the matrix that they are
    joined to; the same for the iteration, where the vector may come as a column;
    three diagonals and a right-hand side of one length, finite but for the two corners;
    and a square matrix that is zero outside its three diagonals, with a vector of its order. -/
theorem systems_made_from_wellFormed_data :
    (∀ M : Datum, (∃ S, Gauss.System.ofAugmented M = .ok S) ↔
      ∃ (n : Nat) (M' : Dense Float n (n + 1)), 0 < n ∧ M.IsMatrix M' ∧ M'.AllFinite) ∧
    (∀ A b : Datum, (∃ S, Gauss.System.ofParts A b = .ok S) ↔
      ∃ (n : Nat) (A' : Dense Float n n) (b' : Vector Float n),
        0 < n ∧ A.IsMatrix A' ∧ b.IsVector b' ∧ A'.AllFinite ∧
          ∀ i : Fin n, b'[i].isFinite = true) ∧
    (∀ (A b : Datum) (S : Gauss.System), Gauss.System.ofParts A b = .ok S ↔
      ∃ (A' : Dense Float S.n S.n) (b' : Vector Float S.n),
        A.IsMatrix A' ∧ b.IsVector b' ∧ S.augmented = Dense.glue A' b') ∧
    (∀ A b : Datum, (∃ S, Jacobi.System.ofParts A b = .ok S) ↔
      ∃ (n : Nat) (A' : Dense Float n n) (b' : Vector Float n),
        0 < n ∧ A.IsMatrix A' ∧ (b.IsVector b' ∨ b.IsColumn b') ∧ A'.AllFinite ∧
          ∀ i : Fin n, b'[i].isFinite = true) ∧
    (∀ (A b : Datum) (S : Jacobi.System), Jacobi.System.ofParts A b = .ok S ↔
      A.IsMatrix S.matrix ∧ (b.IsVector S.rhs ∨ b.IsColumn S.rhs)) ∧
    (∀ c d e b : Datum, (∃ S, Tridiagonal.System.ofDiagonals c d e b = .ok S) ↔
      ∃ (n : Nat) (c' d' e' b' : Vector Float n),
        0 < n ∧ c.IsVector c' ∧ d.IsVector d' ∧ e.IsVector e' ∧ b.IsVector b' ∧
          (∀ i : Fin n, i.val ≠ 0 → c'[i].isFinite = true) ∧
          (∀ i : Fin n, d'[i].isFinite = true) ∧
          (∀ i : Fin n, i.val ≠ n - 1 → e'[i].isFinite = true) ∧
          ∀ i : Fin n, b'[i].isFinite = true) ∧
    (∀ A b : Datum, (∃ S, Tridiagonal.System.ofMatrix A b = .ok S) ↔
      ∃ (n : Nat) (A' : Dense Float n n) (b' : Vector Float n),
        0 < n ∧ A.IsMatrix A' ∧ A'.AllFinite ∧ Tridiagonal.System.IsBanded A' ∧ b.IsVector b' ∧
          ∀ i : Fin n, b'[i].isFinite = true) ∧
    ∀ B : Blueprint, OnlyRefuses B.prepare :=
  ⟨fun _ => Gauss.System.exists_ofAugmented_eq_ok_iff,
    fun _ _ => Gauss.System.exists_ofParts_eq_ok_iff,
    fun _ _ _ => Gauss.System.ofParts_eq_ok_iff,
    fun _ _ => Jacobi.System.exists_ofParts_eq_ok_iff,
    fun _ _ _ => Jacobi.System.ofParts_eq_ok_iff,
    fun _ _ _ _ => Tridiagonal.System.exists_ofDiagonals_eq_ok_iff,
    fun _ _ => Tridiagonal.System.exists_ofMatrix_eq_ok_iff,
    Blueprint.onlyRefuses_prepare⟩

end LinearSystems
