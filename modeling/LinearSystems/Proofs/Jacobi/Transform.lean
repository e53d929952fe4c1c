import Mathlib
import LinearSystems.FaultClass
import LinearSystems.Jacobi.Kernel
import LinearSystems.Proofs.DoubleValue
import LinearSystems.Proofs.Jacobi.Divisor
import LinearSystems.Proofs.Largest
import LinearSystems.Proofs.Tensor.Entrywise

/-!
# The transform of a system

On a square matrix and a right-hand side of its height, the operations on arrays of any shape come
to the fixed-point form of the system: the diagonal is tested from its first entry on, every row is
divided by its own diagonal entry, and the diagonal of the quotients is overwritten. In exact
arithmetic the fixed points of the form are the solutions of the system.
-/

namespace LinearSystems.Jacobi

variable {n : Nat}

/-- The transform of a matrix and a right-hand side of doubles. -/
def transformed (A : Dense Float n n) (b : Vector Float n) : Except Fault Transformed :=
  transform (.array (.ofTensor (.ofDense A))) (.array (.ofTensor (.ofVector b)))

/-- The test of a diagonal that passes, and the one that does not. -/
theorem checkDiagonal_ofVector (A : Dense Float n n) :
    checkDiagonal (.ofVector (Vector.ofFn fun i : Fin n => A[i][i])) =
      match firstSmall? pivotThreshold A with
      | some i => .error (.smallDiagonal (i.val + 1) A[i][i] pivotThreshold)
      | none => .ok () := by
  have hsearch : (Vector.ofFn fun i : Fin n => A[i][i]).toArray.findIdx?
      (fun v => Scalar.isBelow pivotThreshold v) = (firstSmall? pivotThreshold A).map Fin.val := by
    cases hsmall : firstSmall? pivotThreshold A with
    | none =>
      have hpassed := firstSmall?_eq_none_iff.mp hsmall
      rw [Option.map_none, Array.findIdx?_eq_none_iff]
      intro v hv
      obtain ⟨i, hi, rfl⟩ := Array.getElem_of_mem hv
      simpa using hpassed ⟨i, by simpa using hi⟩
    | some i =>
      obtain ⟨hi, hbefore⟩ := firstSmall?_eq_some_iff.mp hsmall
      rw [Option.map_some, Array.findIdx?_eq_some_iff_getElem]
      refine ⟨by simp, by simpa using hi, fun j hj => ?_⟩
      simpa using hbefore ⟨j, hj.trans i.isLt⟩ hj
  rw [checkDiagonal]
  simp only [Tensor.ofVector, hsearch]
  cases firstSmall? pivotThreshold A with
  | none => rfl
  | some i => simp

/-- The terms along the second axis of a matrix are those of a row. -/
theorem termsAlong_ofDense {m : Nat} (A : Dense Float m n) (i : Fin m) :
    termsAlong (.ofDense A) n 1 i.val 0 = A[i].toList := by
  apply List.ext_getElem
  · simp [termsAlong]
  · intro j hj hj'
    have hn : j < n := by simpa using hj'
    have hentry := Tensor.getElem?_entries_ofDense A i ⟨j, hn⟩
    simp only [termsAlong, List.getElem_map, List.getElem_range, Nat.mul_one, Nat.add_zero,
      Array.getD_eq_getD_getElem?]
    rw [hentry]
    simp

/-- The largest sum along the second axis of a matrix is its norm. -/
theorem largestSum_ofDense {m : Nat} (hm : 0 < m) (A : Dense Float m n) :
    largestSum (.ofDense A) = .ok (infNorm A) := by
  have hrows : (List.range m).map (fun i => sumAlong (.ofDense A) n 1 i 0) =
      A.toList.map fun row => pairwiseSum (row.toList.map Scalar.abs) := by
    apply List.ext_getElem
    · simp
    · intro i hi hi'
      have hrow : i < m := by simpa using hi
      have hterms := termsAlong_ofDense A ⟨i, hrow⟩
      simp only [List.getElem_map, List.getElem_range, sumAlong, if_pos]
      rw [hterms]
      simp
      rfl
  have hsome : ¬ m * volume [] = 0 := by simpa using hm.ne'
  have hlargest : largestSum (.ofDense A) =
      .ok ((List.range m).foldl
        (fun best i => Scalar.larger best (sumAlong (.ofDense A) n 1 i 0)) 0.0) :=
    if_neg hsome
  rw [hlargest, infNorm, ← Vector.foldl_toList, ← List.foldl_map (f := fun i => _),
    hrows, List.foldl_map]
  rfl

/-- The transform answers with the fixed-point form, or it refuses the first diagonal entry that is
    too small for it. -/
theorem transformed_eq (hn : 0 < n) (A : Dense Float n n) (b : Vector Float n) :
    transformed A b =
      match toFixedPoint pivotThreshold A b with
      | .error d => .error (.smallDiagonal (d.index.val + 1) d.value pivotThreshold)
      | .ok F => .ok {
          alpha := .ofDense F.alpha
          beta := .ofVector F.beta
          norm := infNorm F.alpha } := by
  rw [transformed, transform, Tensor.coerce_ofTensor, Tensor.coerce_ofTensor, toFixedPoint]
  simp only [ok_bind, Tensor.diagonal_ofDense, checkDiagonal_ofVector]
  cases firstSmall? pivotThreshold A with
  | some i => rfl
  | none =>
    have hdiagonal (i : Fin n) : (Vector.ofFn fun i : Fin n => A[i][i])[i] = A[i][i] := by simp
    have hbeta : Vector.zipWith (· / ·) b (Vector.ofFn fun i : Fin n => A[i][i]) =
        (FixedPoint.divide A b).beta := by
      apply Vector.ext
      intro i hi
      simp [FixedPoint.divide]
    have halpha : (Dense.ofFn fun i j : Fin n => if i = j then 0.0 else
        (Dense.ofFn fun i j : Fin n => -A[i][j] / (Vector.ofFn fun i : Fin n => A[i][i])[i])[i][j]) =
          (FixedPoint.divide A b).alpha := by
      simp only [hdiagonal, Dense.getElem_ofFn]
      rfl
    simp only [ok_bind, Tensor.zipWith_ofVector, Tensor.zipWith_spread,
      Tensor.clearDiagonal_ofDense, largestSum_ofDense hn, hbeta, halpha]
    rfl

theorem isBelow_pivotThreshold_eq_true_iff {v : Float} :
    Scalar.isBelow pivotThreshold v = true ↔ v.abs < pivotThreshold :=
  decide_eq_true_iff

/-- A transform that fails names the first diagonal entry that is too small for it. -/
theorem transformed_eq_error_iff (hn : 0 < n) {A : Dense Float n n} {b : Vector Float n}
    {f : Fault} :
    transformed A b = .error f ↔ ∃ i : Fin n, A[i][i].abs < pivotThreshold ∧
      (∀ j < i, ¬ A[j][j].abs < pivotThreshold) ∧
      f = .smallDiagonal (i.val + 1) A[i][i] pivotThreshold := by
  have hfirst (i : Fin n) : firstSmall? pivotThreshold A = some i ↔
      A[i][i].abs < pivotThreshold ∧ ∀ j < i, ¬ A[j][j].abs < pivotThreshold := by
    simp only [firstSmall?_eq_some_iff, ← Bool.not_eq_true, isBelow_pivotThreshold_eq_true_iff]
  simp only [← and_assoc, ← hfirst, transformed_eq hn, toFixedPoint]
  cases firstSmall? pivotThreshold A with
  | none => simp
  | some i => simp [eq_comm]

/-- In exact arithmetic a vector is a fixed point of the form exactly if it solves the system. -/
theorem exists_toFixedPoint_and_iff {t : Rat} (ht : 0 < t) {A : Dense Rat n n}
    (hdiagonal : ∀ i : Fin n, t ≤ |A[i][i]|) (b : Vector Rat n) :
    ∃ F, toFixedPoint t A b = .ok F ∧ (∀ i : Fin n, F.alpha[i][i] = 0) ∧
      ∀ x : Vector Rat n,
        (∀ i : Fin n, x[i] = ∑ j : Fin n, F.alpha[i][j] * x[j] + F.beta[i]) ↔
          ∀ i : Fin n, ∑ j : Fin n, A[i][j] * x[j] = b[i] := by
  have hne (i : Fin n) : A[i][i] ≠ 0 := abs_pos.mp (ht.trans_le (hdiagonal i))
  refine ⟨_, toFixedPoint_eq_divide hdiagonal b, fun i => ?_, fun x => ?_⟩
  · rw [FixedPoint.getElem_alpha_divide, if_pos rfl]
  · have hnext : (FixedPoint.divide A b).next x = x ↔ ∀ i : Fin n,
        x[i] = ∑ j : Fin n, (FixedPoint.divide A b).alpha[i][j] * x[j] +
          (FixedPoint.divide A b).beta[i] := by
      rw [Vector.ext_iff, Fin.forall_iff]
      refine forall₂_congr fun i hi => ?_
      have hcomponent := FixedPoint.getElem_next (FixedPoint.divide A b) x ⟨i, hi⟩
      rw [Dense.dot_eq_sum, add_comm] at hcomponent
      rw [← hcomponent]
      exact eq_comm
    rw [← hnext, next_divide_eq_self_iff hne, Dense.isSolution_glue_iff]

/-- The transform of a finite system refuses exactly the systems with a diagonal entry below the
    threshold, and names the first one, counted from one, and its value. In every other case it
    answers with a form whose `alpha` has a zero diagonal; and done exactly on the values of the
    entries, the transform gives a form of which a vector is a fixed point exactly if it solves the
    system. -/
theorem fixed_points_are_solutions (hn : 0 < n) {A : Dense Float n n} {b : Vector Float n}
    (hA : ∀ i j : Fin n, A[i][j].isFinite = true) (hb : ∀ i : Fin n, b[i].isFinite = true) :
    ((∃ f, transformed A b = .error f ∧ f.faultClass = .zeroDiagonal) ↔
      ∃ i : Fin n, A[i][i].abs < pivotThreshold) ∧
    (∀ f, transformed A b = .error f ↔ ∃ i : Fin n, A[i][i].abs < pivotThreshold ∧
      (∀ j < i, ¬ A[j][j].abs < pivotThreshold) ∧
      f = .smallDiagonal (i.val + 1) A[i][i] pivotThreshold) ∧
    ((∀ i : Fin n, ¬ A[i][i].abs < pivotThreshold) →
      (∃ F, toFixedPoint pivotThreshold A b = .ok F ∧
        transformed A b =
          .ok { alpha := .ofDense F.alpha, beta := .ofVector F.beta, norm := infNorm F.alpha } ∧
        ∀ i : Fin n, F.alpha[i][i] = 0.0) ∧
      ∃ (t : Rat) (Q : Dense Rat n n) (r : Vector Rat n),
        Number.exactValue? pivotThreshold = some t ∧
        (∀ i j : Fin n, Number.exactValue? A[i][j] = some Q[i][j]) ∧
        (∀ i : Fin n, Number.exactValue? b[i] = some r[i]) ∧
        ∃ F, toFixedPoint t Q r = .ok F ∧ (∀ i : Fin n, F.alpha[i][i] = 0) ∧
          ∀ x : Vector Rat n,
            (∀ i : Fin n, x[i] = ∑ j : Fin n, F.alpha[i][j] * x[j] + F.beta[i]) ↔
              ∀ i : Fin n, ∑ j : Fin n, Q[i][j] * x[j] = r[i]) := by
  refine ⟨?_, fun f => transformed_eq_error_iff hn, ?_⟩
  · constructor
    · rintro ⟨f, hf, -⟩
      obtain ⟨i, hi, -⟩ := (transformed_eq_error_iff hn).mp hf
      exact ⟨i, hi⟩
    · rintro ⟨i, hi⟩
      obtain ⟨d, hd⟩ := exists_toFixedPoint_eq_error (b := b)
        (isBelow_pivotThreshold_eq_true_iff.mpr hi)
      exact ⟨_, by rw [transformed_eq hn, hd], rfl⟩
  · intro hdiagonal
    constructor
    · have hform : toFixedPoint pivotThreshold A b = .ok (FixedPoint.divide A b) := by
        rw [toFixedPoint_eq_ok_iff]
        refine ⟨fun i => ?_, rfl⟩
        rw [← Bool.not_eq_true, isBelow_pivotThreshold_eq_true_iff]
        exact hdiagonal i
      refine ⟨_, hform, by rw [transformed_eq hn, hform], fun i => ?_⟩
      rw [FixedPoint.getElem_alpha_divide, if_pos rfl]
      rfl
    · obtain ⟨t, ht⟩ : ∃ t, Number.exactValue? pivotThreshold = some t :=
        Double.exists_exactValue?_iff.mpr (by decide +kernel)
      choose Q hQ using fun i j : Fin n => Double.exists_exactValue?_iff.mpr (hA i j)
      choose r hr using fun i : Fin n => Double.exists_exactValue?_iff.mpr (hb i)
      have hpositive : 0 < t :=
        (Double.lt_iff_exactValue (Double.exactValue?_of_zero Double.unpack_zero) ht).mp
          (by decide +kernel)
      refine ⟨t, Dense.ofFn Q, Vector.ofFn r, ht, fun i j => ?_, fun i => ?_, ?_⟩
      · rw [Dense.getElem_ofFn, hQ]
      · simpa using hr i
      · apply exists_toFixedPoint_and_iff hpositive
        intro i
        rw [Dense.getElem_ofFn, ← not_lt]
        exact mt (Double.lt_iff_exactValue (Double.exactValue?_abs (hQ i i)) ht).mpr (hdiagonal i)

/-- Two systems of two rows: the one is refused at its second diagonal entry, and of the other the
    vector `(5/3, 4/3)` is the fixed point and the solution. -/
theorem fixed_points_are_solutions_two_rows :
    transformed #v[#v[1.0, 1.0], #v[1.0, 0.0]] #v[1.0, 1.0] =
        .error (.smallDiagonal 2 0.0 pivotThreshold) ∧
      ∃ (t : Rat) (Q : Dense Rat 2 2) (r : Vector Rat 2),
        Number.exactValue? pivotThreshold = some t ∧
        (∀ i j : Fin 2, Number.exactValue?
          (#v[#v[4.0, 1.0], #v[2.0, 5.0]] : Dense Float 2 2)[i][j] = some Q[i][j]) ∧
        (∀ i : Fin 2, Number.exactValue? (#v[8.0, 10.0] : Vector Float 2)[i] = some r[i]) ∧
        ∃ F, toFixedPoint t Q r = .ok F ∧ (∀ i : Fin 2, F.alpha[i][i] = 0) ∧
          ∀ i : Fin 2, (#v[5 / 3, 4 / 3] : Vector Rat 2)[i] =
            ∑ j : Fin 2, F.alpha[i][j] * (#v[5 / 3, 4 / 3] : Vector Rat 2)[j] + F.beta[i] := by
  constructor
  · obtain ⟨-, hrefused, -⟩ := fixed_points_are_solutions (n := 2) (by decide)
      (A := #v[#v[1.0, 1.0], #v[1.0, 0.0]]) (b := #v[1.0, 1.0]) (by decide +kernel)
      (by decide +kernel)
    exact (hrefused _).mpr ⟨1, by decide +kernel, by decide +kernel, rfl⟩
  · obtain ⟨-, -, hform⟩ := fixed_points_are_solutions (n := 2) (by decide)
      (A := #v[#v[4.0, 1.0], #v[2.0, 5.0]]) (b := #v[8.0, 10.0]) (by decide +kernel)
      (by decide +kernel)
    obtain ⟨t, Q, r, ht, hQ, hr, F, hF, hzero, hiff⟩ := (hform (by decide +kernel)).2
    refine ⟨t, Q, r, ht, hQ, hr, F, hF, hzero, (hiff _).mpr ?_⟩
    have hcoefficients (i j : Fin 2) :
        Q[i][j] = (#v[#v[4, 1], #v[2, 5]] : Dense Rat 2 2)[i][j] := by
      apply Option.some.inj
      rw [← hQ i j]
      revert i j
      decide +kernel
    have hright (i : Fin 2) : r[i] = (#v[8, 10] : Vector Rat 2)[i] := by
      apply Option.some.inj
      rw [← hr i]
      revert i
      decide +kernel
    simp only [hcoefficients, hright]
    decide +kernel

end LinearSystems.Jacobi
