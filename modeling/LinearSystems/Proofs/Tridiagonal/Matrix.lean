import Mathlib
import LinearSystems.Proofs.DoubleSign
import LinearSystems.Proofs.Systems
import LinearSystems.Proofs.Tridiagonal.Step

/-!
# Three diagonals and their matrix

A tridiagonal system is read off a matrix, and it gives one back. A matrix with an entry outside the
three diagonals is refused, and the fault shows the first such entry, row by row. Otherwise nothing
is lost on the way, in either direction: an entry comes back as the number that it was. It is added
to zeros, so only the sign of a zero may change; and the corners, which have no place in the matrix,
are zero in a system.
-/

namespace LinearSystems.Tridiagonal

variable {n : Nat}

namespace Band

/-! The entries of the matrix of a band. -/

theorem toDense_diag (B : Band Float n) (i : Fin n) :
    Double.SameNumber B.toDense[i][i] B.diag[i] := by
  rw [toDense, Dense.getElem_ofFn, if_pos rfl, if_neg (by omega), if_neg (by omega)]
  exact (Double.sameNumber_add_zero _).trans (Double.sameNumber_add_zero _)

theorem toDense_lower (B : Band Float n) {i j : Fin n} (h : i.val = j.val + 1) :
    Double.SameNumber B.toDense[i][j] B.lower[i] := by
  have hne : i ≠ j := by
    rintro rfl
    omega
  rw [toDense, Dense.getElem_ofFn, if_neg hne, if_pos h, if_neg (by omega)]
  exact (Double.sameNumber_add_zero _).trans (Double.sameNumber_zero_add _)

theorem toDense_upper (B : Band Float n) {i j : Fin n} (h : i.val + 1 = j.val) :
    Double.SameNumber B.toDense[i][j] B.upper[i] := by
  have hne : i ≠ j := by
    rintro rfl
    omega
  rw [toDense, Dense.getElem_ofFn, if_neg hne, if_neg (by omega), if_pos h]
  have hzero : (0.0 : Float) + 0.0 = 0.0 := by decide +kernel
  show Double.SameNumber ((0.0 : Float) + 0.0 + B.upper[i]) _
  rw [hzero]
  exact Double.sameNumber_zero_add _

theorem toDense_outside (B : Band Float n) {i j : Fin n}
    (h : i.val + 1 < j.val ∨ j.val + 1 < i.val) : B.toDense[i][j] = 0.0 := by
  have hne : i ≠ j := by
    rintro rfl
    omega
  rw [toDense, Dense.getElem_ofFn, if_neg hne, if_neg (by omega), if_neg (by omega)]
  decide +kernel

end Band

namespace System

variable {A b : Datum} {M : Dense Float n n}

/-! The entries of the diagonals of a matrix. -/

theorem getElem_lowerOf_of_zero (M : Dense Float n n) {i : Fin n} (hi : i.val = 0) :
    (lowerOf M)[i] = 0.0 := by
  simp [lowerOf, previous?_of_eq_zero hi]

theorem getElem_lowerOf (M : Dense Float n n) {i j : Fin n} (h : i.val = j.val + 1) :
    (lowerOf M)[i] = M[i][j] := by
  simp [lowerOf, previous?_of_eq_succ h]

theorem getElem_diagOf (M : Dense Float n n) (i : Fin n) : (diagOf M)[i] = M[i][i] := by
  simp [diagOf]

theorem getElem_upperOf (M : Dense Float n n) {i j : Fin n} (h : i.val + 1 = j.val) :
    (upperOf M)[i] = M[i][j] := by
  simp [upperOf, following?_of_eq_succ h.symm]

theorem getElem_upperOf_of_last (M : Dense Float n n) {i : Fin n} (hi : n ≤ i.val + 1) :
    (upperOf M)[i] = 0.0 := by
  simp [upperOf, following?_of_last hi]

theorem set_lowerOf (hn : 0 < n) (M : Dense Float n n) :
    (lowerOf M).set 0 0.0 hn = lowerOf M := by
  rw [← getElem_lowerOf_of_zero M (i := ⟨0, hn⟩) rfl]
  exact Vector.set_getElem_self hn

theorem set_upperOf (hn : 0 < n) (M : Dense Float n n) :
    (upperOf M).set (n - 1) 0.0 (Nat.sub_one_lt_of_lt hn) = upperOf M := by
  have hlast : n - 1 < n := Nat.sub_one_lt_of_lt hn
  rw [← getElem_upperOf_of_last M (i := ⟨n - 1, hlast⟩) (Nat.le_add_of_sub_le le_rfl)]
  exact Vector.set_getElem_self hlast

/-- The system of a matrix holds the three diagonals of the matrix, which is zero outside them. -/
theorem ofMatrix_eq_ok_iff {S : System} :
    ofMatrix A b = .ok S ↔
      b.IsVector S.band.rhs ∧ ∃ M : Dense Float S.n S.n, A.IsMatrix M ∧ M.AllFinite ∧
        IsBanded M ∧ S.band.lower = lowerOf M ∧ S.band.diag = diagOf M ∧
          S.band.upper = upperOf M := by
  constructor
  · intro h
    obtain ⟨n, M, hn, hM, hfinite⟩ := exists_isMatrix_of_ofMatrix h
    rw [ofMatrix_eq hn hM hfinite] at h
    cases hplace : firstOutside? M with
    | some p =>
      rw [hplace] at h
      cases h
    | none =>
      rw [hplace] at h
      obtain ⟨lower, upper, hc, hd, he, hb, hlower, hupper⟩ := ofDiagonals_eq_ok_iff.mp h
      obtain rfl : n = S.n := (isVector_vectorDatum (diagOf M)).length_eq hd
      obtain rfl := hc.eq (isVector_vectorDatum (lowerOf M))
      obtain rfl := he.eq (isVector_vectorDatum (upperOf M))
      rw [set_lowerOf hn] at hlower
      rw [set_upperOf hn] at hupper
      exact ⟨hb, M, hM, hfinite, firstOutside?_eq_none_iff.mp hplace, hlower,
        hd.eq (isVector_vectorDatum _), hupper⟩
  · rintro ⟨hb, M, hM, hfinite, hbanded, hlower, hdiag, hupper⟩
    rw [ofMatrix_eq S.n_pos hM hfinite, firstOutside?_eq_none_iff.mpr hbanded]
    refine ofDiagonals_eq_ok_iff.mpr ⟨lowerOf M, upperOf M, isVector_vectorDatum _, ?_,
      isVector_vectorDatum _, hb, ?_, ?_⟩
    · rw [hdiag]
      exact isVector_vectorDatum _
    · rw [hlower, set_lowerOf S.n_pos]
    · rw [hupper, set_upperOf S.n_pos]

/-- An entry outside the three diagonals that is not zero, of either sign. -/
structure Stray (M : Dense Float n n) (i j : Fin n) : Prop where
  outside : i.val + 1 < j.val ∨ j.val + 1 < i.val
  nonzero : ¬ (M[i][j] == 0.0) = true

theorem isBanded_iff_no_stray : IsBanded M ↔ ∀ i j : Fin n, ¬ Stray M i j := by
  constructor
  · intro h i j hstray
    exact hstray.nonzero (h i j hstray.outside)
  · intro h i j hij
    by_contra hzero
    exact h i j ⟨hij, hzero⟩

/-- The first entry outside the three diagonals, row by row, that is not zero. -/
structure IsFirstStray (M : Dense Float n n) (i j : Fin n) : Prop where
  stray : Stray M i j
  first : ∀ k l : Fin n, k < i ∨ k = i ∧ l < j → ¬ Stray M k l

/-- There is at most one. -/
theorem IsFirstStray.eq {p q : Fin n × Fin n} (hp : IsFirstStray M p.1 p.2)
    (hq : IsFirstStray M q.1 q.2) : p = q := by
  rcases lt_trichotomy (toLex p) (toLex q) with hlt | heq | hlt
  · exact absurd hp.stray (hq.first _ _ (Prod.Lex.toLex_lt_toLex.mp hlt))
  · exact toLex_inj.mp heq
  · exact absurd hq.stray (hp.first _ _ (Prod.Lex.toLex_lt_toLex.mp hlt))

/-- The places are searched row by row. -/
theorem pairwise_places (n : Nat) :
    ((List.finRange n).flatMap fun i => (List.finRange n).map fun j => (i, j)).Pairwise
      fun p q => toLex p < toLex q := by
  rw [List.pairwise_flatMap]
  constructor
  · intro i _
    rw [List.pairwise_map]
    refine (List.pairwise_lt_finRange n).imp fun hlt => ?_
    exact Prod.Lex.toLex_lt_toLex.mpr (.inr ⟨rfl, hlt⟩)
  · refine (List.pairwise_lt_finRange n).imp fun hlt p hp q hq => ?_
    obtain ⟨j, -, rfl⟩ := List.mem_map.mp hp
    obtain ⟨l, -, rfl⟩ := List.mem_map.mp hq
    exact Prod.Lex.toLex_lt_toLex.mpr (.inl hlt)

theorem not_inBand_and_ne_zero_iff {i j : Fin n} :
    (!inBand i j && M[i][j] != 0.0) = true ↔ Stray M i j := by
  rw [Bool.and_eq_true, Bool.not_eq_true', inBand_eq_false_iff, bne, Bool.not_eq_true']
  constructor
  · rintro ⟨houtside, hzero⟩
    exact ⟨houtside, Bool.eq_false_iff.mp hzero⟩
  · intro hstray
    exact ⟨hstray.outside, Bool.eq_false_iff.mpr hstray.nonzero⟩

theorem isFirstStray_of_firstOutside? {p : Fin n × Fin n} (h : firstOutside? M = some p) :
    IsFirstStray M p.1 p.2 := by
  rw [firstOutside?, List.find?_eq_some_iff_append] at h
  obtain ⟨hfound, before, after, hsplit, hnone⟩ := h
  refine ⟨not_inBand_and_ne_zero_iff.mp hfound, fun k l hlt hstray => ?_⟩
  have hlt : toLex (k, l) < toLex p := Prod.Lex.toLex_lt_toLex.mpr hlt
  have horder := pairwise_places n
  rw [hsplit, List.pairwise_append, List.pairwise_cons] at horder
  have hmem : (k, l) ∈ before ++ p :: after := by
    rw [← hsplit]
    simp
  -- An earlier place has been passed over, as it would have been found; a later one is not earlier.
  rcases List.mem_append.mp hmem with hbefore | hmem
  · have hpassed := hnone _ hbefore
    rw [not_inBand_and_ne_zero_iff.mpr hstray] at hpassed
    cases hpassed
  · rcases List.mem_cons.mp hmem with rfl | hafter
    · exact lt_irrefl _ hlt
    · exact lt_asymm hlt (horder.2.1.1 _ hafter)

/-- The search finds the first stray entry. -/
theorem firstOutside?_eq_some_iff {p : Fin n × Fin n} :
    firstOutside? M = some p ↔ IsFirstStray M p.1 p.2 := by
  refine ⟨isFirstStray_of_firstOutside?, fun h => ?_⟩
  cases hfound : firstOutside? M with
  | none =>
    have hbanded := firstOutside?_eq_none_iff.mp hfound
    exact absurd h.stray (isBanded_iff_no_stray.mp hbanded _ _)
  | some q => rw [(isFirstStray_of_firstOutside? hfound).eq h]

/-- If there is a stray entry, there is a first one. -/
theorem exists_isFirstStray_iff :
    (∃ i j, IsFirstStray M i j) ↔ ∃ i j, Stray M i j := by
  constructor
  · rintro ⟨i, j, h⟩
    exact ⟨i, j, h.stray⟩
  · rintro ⟨i, j, hstray⟩
    cases hfound : firstOutside? M with
    | none =>
      have hbanded := firstOutside?_eq_none_iff.mp hfound
      exact absurd hstray (isBanded_iff_no_stray.mp hbanded i j)
    | some p => exact ⟨p.1, p.2, firstOutside?_eq_some_iff.mp hfound⟩

/-- The fault names the entry outside the three diagonals and shows its value. -/
structure Names (f : Fault) (M : Dense Float n n) (i j : Fin n) : Prop where
  cause : f = .invalid (.outsideBand i j M[i][j])
  message : f.message = "A: not tridiagonal, A[" ++ toString i.val ++ "," ++ toString j.val ++ "] = "
    ++ Decimal.general 6 M[i][j] ++ " lies outside the band"

/-- A finite matrix beside a finite vector is refused for its first stray entry, and for nothing
    else. -/
theorem ofMatrix_eq_error_iff {v : Vector Float n} {f : Fault} (hn : 0 < n) (hA : A.IsMatrix M)
    (hfinite : M.AllFinite) (hb : b.IsVector v) (hv : ∀ i : Fin n, v[i].isFinite = true) :
    ofMatrix A b = .error f ↔ ∃ i j, IsFirstStray M i j ∧ Names f M i j := by
  cases hfound : firstOutside? M with
  | some p =>
    have hfirst := firstOutside?_eq_some_iff.mp hfound
    rw [ofMatrix_eq hn hA hfinite, hfound]
    constructor
    · intro h
      cases h
      exact ⟨p.1, p.2, hfirst, rfl, rfl⟩
    · rintro ⟨i, j, hstray, hcause, -⟩
      obtain rfl : p = (i, j) := hfirst.eq hstray
      rw [hcause]
  | none =>
    have hbanded := firstOutside?_eq_none_iff.mp hfound
    obtain ⟨S, hS⟩ := exists_ofMatrix_eq_ok_iff.mpr ⟨n, M, v, hn, hA, hfinite, hbanded, hb, hv⟩
    constructor
    · intro h
      rw [hS] at h
      cases h
    · rintro ⟨i, j, hfirst, -⟩
      exact absurd hfirst.stray (isBanded_iff_no_stray.mp hbanded i j)

/-- A place is on the main diagonal, on the one below, on the one above, or on none of them. -/
theorem place_cases (i j : Fin n) :
    i = j ∨ i.val = j.val + 1 ∨ i.val + 1 = j.val ∨ i.val + 1 < j.val ∨ j.val + 1 < i.val := by
  rw [Fin.ext_iff]
  omega

/-- The diagonals of a banded matrix give the matrix back. -/
theorem sameNumber_toDense (hbanded : IsBanded M) (v : Vector Float n) (i j : Fin n) :
    Double.SameNumber (Band.toDense ⟨lowerOf M, diagOf M, upperOf M, v⟩)[i][j] M[i][j] := by
  rcases place_cases i j with rfl | hlower | hupper | houtside
  · exact (Band.toDense_diag _ i).trans (getElem_diagOf M i ▸ .refl _)
  · exact (Band.toDense_lower _ hlower).trans (getElem_lowerOf M hlower ▸ .refl _)
  · exact (Band.toDense_upper _ hupper).trans (getElem_upperOf M hupper ▸ .refl _)
  · rw [Band.toDense_outside _ houtside]
    exact (Double.sameNumber_zero_of_beq (hbanded i j houtside)).symm

/-- A banded matrix of finite entries is the matrix of the system that it makes. -/
theorem exists_toDense_of_ofMatrix {v : Vector Float n} (hn : 0 < n) (hA : A.IsMatrix M)
    (hfinite : M.AllFinite) (hbanded : IsBanded M) (hb : b.IsVector v)
    (hv : ∀ i : Fin n, v[i].isFinite = true) :
    ∃ S, ofMatrix A b = .ok S ∧ ∃ h : S.n = n,
      ∀ i j : Fin S.n, (S.toDense[i][j] == M[i.cast h][j.cast h]) = true := by
  obtain ⟨S, hS⟩ := exists_ofMatrix_eq_ok_iff.mpr ⟨n, M, v, hn, hA, hfinite, hbanded, hb, hv⟩
  obtain ⟨-, N, hN, -, -, hlower, hdiag, hupper⟩ := ofMatrix_eq_ok_iff.mp hS
  obtain rfl : S.n = n := hN.rows_eq hA
  obtain rfl : N = M := hN.eq hA
  have hband : S.band = ⟨lowerOf N, diagOf N, upperOf N, S.band.rhs⟩ := by
    rw [← hlower, ← hdiag, ← hupper]
  refine ⟨S, hS, rfl, fun i j => ?_⟩
  rw [toDense, hband]
  exact (sameNumber_toDense hbanded _ i j).beq (hfinite i j)

/-! The matrix of a system gives its diagonals back. -/

theorem sameNumber_lowerOf (S : System) (i : Fin S.n) :
    Double.SameNumber (lowerOf S.toDense)[i] S.band.lower[i] := by
  rcases eq_zero_or_eq_succ i with hi | ⟨j, hj⟩
  · obtain rfl : i = ⟨0, S.n_pos⟩ := Fin.ext hi
    rw [getElem_lowerOf_of_zero _ rfl]
    exact S.lower_first ▸ .refl _
  · rw [getElem_lowerOf _ hj]
    exact S.band.toDense_lower hj

theorem sameNumber_diagOf (S : System) (i : Fin S.n) :
    Double.SameNumber (diagOf S.toDense)[i] S.band.diag[i] := by
  rw [getElem_diagOf]
  exact S.band.toDense_diag i

theorem sameNumber_upperOf (S : System) (i : Fin S.n) :
    Double.SameNumber (upperOf S.toDense)[i] S.band.upper[i] := by
  by_cases hi : i.val + 1 < S.n
  · have hj : i.val + 1 = (⟨i.val + 1, hi⟩ : Fin S.n).val := rfl
    rw [getElem_upperOf _ hj]
    exact S.band.toDense_upper hj
  · obtain rfl : i = ⟨S.n - 1, Nat.sub_one_lt_of_lt S.n_pos⟩ := by
      apply Fin.ext
      dsimp only
      omega
    rw [getElem_upperOf_of_last _ (Nat.not_lt.mp hi)]
    exact S.upper_last ▸ .refl _

theorem isBanded_toDense (S : System) : IsBanded S.toDense := by
  intro i j hij
  rw [toDense, S.band.toDense_outside hij]
  decide +kernel

theorem allFinite_toDense (S : System) : S.toDense.AllFinite := by
  intro i j
  rcases place_cases i j with rfl | hlower | hupper | houtside
  · rw [toDense, (S.band.toDense_diag i).isFinite_eq]
    exact S.diag_finite i
  · rw [toDense, (S.band.toDense_lower hlower).isFinite_eq]
    exact S.lower_finite i
  · rw [toDense, (S.band.toDense_upper hupper).isFinite_eq]
    exact S.upper_finite i
  · rw [toDense, S.band.toDense_outside houtside]
    exact isFinite_zero

/-- The systems are of the same size and hold the same numbers, where zeros of either sign are the
    same number. -/
structure SameNumbers (S T : System) : Prop where
  size : S.n = T.n
  lower : ∀ i : Fin S.n, (S.band.lower[i] == T.band.lower[i.cast size]) = true
  diag : ∀ i : Fin S.n, (S.band.diag[i] == T.band.diag[i.cast size]) = true
  upper : ∀ i : Fin S.n, (S.band.upper[i] == T.band.upper[i.cast size]) = true
  rhs : ∀ i : Fin S.n, (S.band.rhs[i] == T.band.rhs[i.cast size]) = true

/-- A system is made again from its matrix and its right-hand side. -/
theorem exists_sameNumbers_of_toDense (S : System) (hA : A.IsMatrix S.toDense)
    (hb : b.IsVector S.band.rhs) : ∃ T, ofMatrix A b = .ok T ∧ T.SameNumbers S := by
  obtain ⟨T, hT⟩ := exists_ofMatrix_eq_ok_iff.mpr
    ⟨S.n, S.toDense, S.band.rhs, S.n_pos, hA, S.allFinite_toDense, S.isBanded_toDense, hb,
      S.rhs_finite⟩
  obtain ⟨hrhs, M, hM, -, -, hlower, hdiag, hupper⟩ := ofMatrix_eq_ok_iff.mp hT
  refine ⟨T, hT, ?_⟩
  -- Only the sizes of the two systems have to be identified; then all entries are compared in place.
  have hsize : T.n = S.n := hM.rows_eq hA
  obtain ⟨n, hn, ⟨lower, diag, upper, rhs⟩, _, _, _, _, _, _⟩ := T
  dsimp only at M hlower hdiag hupper hrhs hsize
  subst hsize
  obtain rfl : M = S.toDense := hM.eq hA
  subst hlower hdiag hupper
  obtain rfl : rhs = S.band.rhs := hrhs.eq hb
  refine ⟨rfl, ?_, ?_, ?_, ?_⟩
  · intro i
    exact (S.sameNumber_lowerOf i).beq (S.lower_finite i)
  · intro i
    exact (S.sameNumber_diagOf i).beq (S.diag_finite i)
  · intro i
    exact (S.sameNumber_upperOf i).beq (S.upper_finite i)
  · intro i
    exact (Double.SameNumber.refl _).beq (S.rhs_finite i)

/-- Reading a system off a matrix and building the matrix of a system undo each other, for every
    size. A finite square matrix beside a finite vector of its order is refused exactly if some entry
    outside its three diagonals is not a zero of either sign; then the fault names the first such
    entry, row by row, and shows its value. Otherwise the matrix of the system that is made equals
    the given one in every entry. And a system is made again, with the same numbers, from its matrix
    and its right-hand side. -/
theorem ofMatrix_and_toDense_inverse :
    (∀ (A b : Datum) (n : Nat) (M : Dense Float n n) (v : Vector Float n), 0 < n → A.IsMatrix M →
      M.AllFinite → b.IsVector v → (∀ i : Fin n, v[i].isFinite = true) →
      ((∃ f, ofMatrix A b = .error f) ↔ ∃ i j, Stray M i j) ∧
      (∀ f, ofMatrix A b = .error f ↔ ∃ i j, IsFirstStray M i j ∧ Names f M i j) ∧
      ((∀ i j, ¬ Stray M i j) → ∃ S, ofMatrix A b = .ok S ∧ ∃ h : S.n = n,
        ∀ i j : Fin S.n, (S.toDense[i][j] == M[i.cast h][j.cast h]) = true)) ∧
    ∀ (S : System) (A b : Datum), A.IsMatrix S.toDense → b.IsVector S.band.rhs →
      ∃ T, ofMatrix A b = .ok T ∧ T.SameNumbers S := by
  constructor
  · intro A b n M v hn hA hfinite hb hv
    have herror (f : Fault) := ofMatrix_eq_error_iff (f := f) hn hA hfinite hb hv
    refine ⟨?_, herror, ?_⟩
    · rw [← exists_isFirstStray_iff]
      constructor
      · rintro ⟨f, hf⟩
        obtain ⟨i, j, hfirst, -⟩ := (herror f).mp hf
        exact ⟨i, j, hfirst⟩
      · rintro ⟨i, j, hfirst⟩
        exact ⟨_, (herror _).mpr ⟨i, j, hfirst, rfl, rfl⟩⟩
    · intro hnone
      exact exists_toDense_of_ofMatrix hn hA hfinite (isBanded_iff_no_stray.mpr hnone) hb hv
  · intro S A b hA hb
    exact S.exists_sameNumbers_of_toDense hA hb

/-- The first matrix is refused for the entry in its last row, as the one at the end of its first row
    is a zero. The second one makes a system, which is made again from its own matrix, though it has
    lost the sign of a zero. -/
theorem ofMatrix_and_toDense_inverse_three_rows :
    (∃ f, ofMatrix (.array (.ofTensor (.ofDense #v[#v[4, 1, -0.0], #v[1, 4, 1], #v[7, 1, 4]])))
        (vectorDatum #v[1, 2, 3]) = .error f ∧
      f.message = "A: not tridiagonal, A[2,0] = 7 lies outside the band") ∧
    ∃ S T, ofMatrix (.array (.ofTensor (.ofDense #v[#v[4, 1, -0.0], #v[1, 4, -0.0], #v[0, 1, 4]])))
        (vectorDatum #v[1, 2, 3]) = .ok S ∧
      ofMatrix (.array (.ofTensor (.ofDense S.toDense))) (vectorDatum S.band.rhs) = .ok T ∧
      T.SameNumbers S := by
  obtain ⟨hmatrix, hsystem⟩ := ofMatrix_and_toDense_inverse
  have hrhs : ∀ i : Fin 3, (#v[1, 2, 3] : Vector Float 3)[i].isFinite = true := by
    decide +kernel
  constructor
  · have hfinite :
        Dense.AllFinite (#v[#v[4, 1, -0.0], #v[1, 4, 1], #v[7, 1, 4]] : Dense Float 3 3) := by
      unfold Dense.AllFinite
      decide +kernel
    have hstray : Stray (#v[#v[4, 1, -0.0], #v[1, 4, 1], #v[7, 1, 4]] : Dense Float 3 3) 2 0 :=
      ⟨by decide, by decide +kernel⟩
    have hfirst : ∀ k l : Fin 3, k < 2 ∨ k = 2 ∧ l < 0 →
        (k.val + 1 < l.val ∨ l.val + 1 < k.val) →
        ((#v[#v[4, 1, -0.0], #v[1, 4, 1], #v[7, 1, 4]] : Dense Float 3 3)[k][l] == 0.0) = true := by
      decide +kernel
    obtain ⟨-, herror, -⟩ := hmatrix _ _ 3 _ _ (by decide) (Datum.isMatrix_ofDense _) hfinite
      (isVector_vectorDatum _) hrhs
    refine ⟨_, (herror _).mpr ⟨2, 0, ⟨hstray, ?_⟩, rfl, rfl⟩, ?_⟩
    · intro k l hlt hother
      exact hother.nonzero (hfirst k l hlt hother.outside)
    · decide +kernel
  · have hfinite :
        Dense.AllFinite (#v[#v[4, 1, -0.0], #v[1, 4, -0.0], #v[0, 1, 4]] : Dense Float 3 3) := by
      unfold Dense.AllFinite
      decide +kernel
    have hbanded : IsBanded (#v[#v[4, 1, -0.0], #v[1, 4, -0.0], #v[0, 1, 4]] : Dense Float 3 3) := by
      unfold IsBanded
      decide +kernel
    obtain ⟨-, -, hok⟩ := hmatrix _ _ 3 _ _ (by decide) (Datum.isMatrix_ofDense _) hfinite
      (isVector_vectorDatum _) hrhs
    obtain ⟨S, hS, -⟩ := hok (isBanded_iff_no_stray.mp hbanded)
    obtain ⟨T, hT, hsame⟩ := hsystem S _ _ (Datum.isMatrix_ofDense _) (isVector_vectorDatum _)
    exact ⟨S, T, hS, hT, hsame⟩

end System

end LinearSystems.Tridiagonal
