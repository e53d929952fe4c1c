import Mathlib
import LinearSystems.Proofs.DoubleSign
import LinearSystems.Proofs.Jacobi.Divisor
import LinearSystems.Proofs.Jacobi.Request
import LinearSystems.Proofs.Jacobi.RowSum

/-!
# The verdict on the norm

A run that compares the norm of `alpha` with one says either that it is below or that it is not
below, and a value that is no number would be neither below one nor at least one. No such value
comes up: a finite entry divided by an admissible one is a number, if perhaps an infinite one,
magnitudes are not negative, and sums of values that are not negative are not negative again. So the
norm is a number from zero on, and what the run says of it is true.
-/

namespace LinearSystems.Jacobi

variable {n : Nat}

/-- The magnitude of an admissible value is not that of a zero. -/
theorem unpack_ne_zero_of_admissible {v : Float} (h : Admissible v)
    (s : Float.Model.UnpackedFloat.Sign) : v.toModel.unpack ≠ .zero s := by
  intro hzero
  have hthreshold : ¬ pivotThreshold ≤ 0.0 := by
    decide +kernel
  apply hthreshold
  rw [← Double.abs_of_unpack_eq_zero hzero]
  exact h.2

/-- Additions alone do not lead below zero. -/
theorem AddsOnce.zero_le {s : Multiset Float} {a : Float} (h : AddsOnce s a)
    (hs : ∀ x ∈ s, 0.0 ≤ x) : 0.0 ≤ a := by
  induction h with
  | nothing => decide +kernel
  | term a => exact hs a (Multiset.mem_singleton_self a)
  | add _ _ iha ihb =>
    apply Double.zero_le_add
    · exact iha fun x hx => hs x (Multiset.mem_add.mpr (.inl hx))
    · exact ihb fun x hx => hs x (Multiset.mem_add.mpr (.inr hx))

/-- A matrix of numbers has a norm that is not negative. Some of the numbers, or some of their sums,
    may be infinite. -/
theorem zero_le_infNorm {m : Nat} {A : Dense Float m n}
    (h : ∀ (i : Fin m) (j : Fin n), (A[i][j]).isNaN = false) : 0.0 ≤ infNorm A := by
  have hrow (i : Fin m) : 0.0 ≤ pairwiseSum (A[i].toList.map Scalar.abs) := by
    apply (addsOnce_pairwiseSum _).zero_le
    intro x hx
    obtain ⟨a, ha, rfl⟩ := List.mem_map.mp (Multiset.mem_coe.mp hx)
    obtain ⟨j, hj, rfl⟩ := List.getElem_of_mem ha
    have hj : j < n := by simpa using hj
    exact Double.zero_le_abs (h i ⟨j, hj⟩)
  -- The largest sum is one of those of the rows, or the zero that the search starts from.
  have hlargest := Scalar.isLargest_foldl_vector
    (fun row : Vector Float n => pairwiseSum (row.toList.map Scalar.abs)) A
  rcases List.mem_cons.mp hlargest.mem with hzero | hmem
  · rw [infNorm, hzero]
    decide +kernel
  · obtain ⟨i, hi⟩ := List.mem_ofFn.mp hmem
    rw [infNorm, ← hi]
    exact hrow i

/-- The entries of `alpha` are numbers, whatever overflows in a quotient. -/
theorem isNaN_alpha_divide {A : Dense Float n n} (hfinite : ∀ i j : Fin n, A[i][j].isFinite = true)
    (hdiagonal : ∀ i : Fin n, Admissible A[i][i]) (b : Vector Float n) (i j : Fin n) :
    ((FixedPoint.divide A b).alpha[i][j]).isNaN = false := by
  simp only [FixedPoint.divide, Dense.getElem_ofFn]
  split_ifs with hij
  · rfl
  · apply Double.isNaN_div_eq_false
    · rw [Double.isFinite_neg]
      exact hfinite i j
    · exact hfinite i i
    · exact unpack_ne_zero_of_admissible (hdiagonal i)

/-- What a result says of the norm `q` of `alpha` that was compared: that it is below one, or that
    it is at least one. The facts of the run show the flag, and among their messages is the one on
    the norm. -/
structure Tells (result : Result (Params n)) (q : Float) (below : Bool) : Prop where
  alphaNorm : result.params.alphaNorm = some q
  conditionMet : result.params.conditionMet = some below
  shown : ∃ facts messages, result.info = .record facts ∧
    facts.lookup "convergence_condition_met" = some (.bool below) ∧
    facts.lookup "messages" = some (.list messages) ∧
    .text (if below then "Convergence condition satisfied: ||alpha|| = " ++ Decimal.general 6 q
      else "Convergence condition not satisfied: ||alpha|| = " ++ Decimal.general 6 q ++ " >= 1")
        ∈ messages

/-- Settings that ask for the comparison have a plan that makes it. -/
theorem Settings.check_of_plan {s : Settings} {p : Plan} (hcheck : s.check.truth = .ok true)
    (h : s.plan = .ok p) : p.check = true := by
  rw [Settings.plan, hcheck, ok_bind] at h
  obtain ⟨budget, -, h⟩ := bind_eq_ok_iff.mp h
  split at h
  · cases h
    rfl
  · obtain ⟨tolerance, -, h⟩ := bind_eq_ok_iff.mp h
    cases h
    rfl

/-- A run that is asked to compare the norm tells whether it is below one. -/
theorem tells_of_run {S : System} {F : FixedPoint Float S.n}
    (hF : toFixedPoint pivotThreshold S.matrix S.rhs = .ok F) {s : Settings}
    (hcheck : s.check.truth = .ok true) {result : Result (Params S.n)} (h : S.run s = .ok result) :
    Tells result (infNorm F.alpha) (Scalar.less (infNorm F.alpha) 1.0) := by
  rw [System.run, hF] at h
  simp only at h
  obtain ⟨p, hp, h⟩ := bind_eq_ok_iff.mp h
  have hasked : p.check = true := Settings.check_of_plan hcheck hp
  have hnorm : (F.params p).alphaNorm = some (infNorm F.alpha) := by
    rw [FixedPoint.params, hasked]
    rfl
  have hmet : (F.params p).conditionMet = some (Scalar.less (infNorm F.alpha) 1.0) := by
    rw [Params.conditionMet, hnorm]
    rfl
  obtain ⟨-, -, h⟩ := bind_eq_ok_iff.mp h
  cases h
  refine ⟨hnorm, hmet, (F.params p).info s, _, rfl, ?_, rfl, ?_⟩
  · simp only [Params.info, hmet]
    rfl
  · rw [Params.messages, hnorm]
    exact List.mem_cons_self

/-- For every system whose diagonal passes the test, whatever overflows in its fixed-point form or in
    the sums over its rows: the norm of `alpha` is a number from zero on, if perhaps an infinite one.
    A run that is asked to compare the norm says that it is below one only if it is, and that it is
    not below one only if it is at least one. Every run with a tolerance and a number of steps has a
    result, and every request that asks for them and for the comparison gets it. -/
theorem verdict_is_truthful {source : Source} {b : Option Datum} {S : System}
    (hsystem : source.Makes b S)
    (hdiagonal : ∀ i : Fin S.n, Scalar.isBelow pivotThreshold S.matrix[i][i] = false) :
    ∃ F, toFixedPoint pivotThreshold S.matrix S.rhs = .ok F ∧
      (infNorm F.alpha).isNaN = false ∧ 0.0 ≤ infNorm F.alpha ∧
      (∀ s result, s.check.truth = .ok true → S.run s = .ok result →
        ∃ below, Tells result (infNorm F.alpha) below ∧
          (below = true → infNorm F.alpha < 1.0) ∧ (below = false → 1.0 ≤ infNorm F.alpha)) ∧
      ∀ epsilon m, ∃ result, S.run (Settings.ofNumbers epsilon m true) = .ok result ∧
        ∀ r : Request, r.AsksFor epsilon m true →
          solve source b r = .ok (S.answer epsilon m result) := by
  have hadmissible (i : Fin S.n) := (S.isBelow_eq_false_iff i).mp (hdiagonal i)
  have hform : toFixedPoint pivotThreshold S.matrix S.rhs =
      .ok (FixedPoint.divide S.matrix S.rhs) :=
    toFixedPoint_eq_ok_iff.mpr ⟨hdiagonal, rfl⟩
  have hnorm : 0.0 ≤ infNorm (FixedPoint.divide S.matrix S.rhs).alpha :=
    zero_le_infNorm (isNaN_alpha_divide S.matrix_finite hadmissible S.rhs)
  have hnumber := (Double.isNaN_of_le hnorm).2
  refine ⟨_, hform, hnumber, hnorm, ?_, ?_⟩
  · intro s result hcheck hrun
    refine ⟨_, tells_of_run hform hcheck hrun, Double.less_eq_true_iff.mp, fun hfalse => ?_⟩
    have hone : (1.0 : Float).isNaN = false := by
      decide +kernel
    -- What is not below one may be no number, but the norm is one.
    rcases (Double.not_lt_iff hone).mp (Double.less_eq_false_iff.mp hfalse) with hnan | hle
    · rw [hnumber] at hnan
      cases hnan
    · exact hle
  · intro epsilon m
    have hrun : S.run (Settings.ofNumbers epsilon m true) =
        .ok ((FixedPoint.divide S.matrix S.rhs).result epsilon m true) := by
      rw [S.run_ofNumbers, hform]
    refine ⟨_, hrun, fun r hr => ?_⟩
    rw [hsystem.solve_eq, S.solveWith_eq_map hr, hrun]
    rfl

/-- The first row divides `1e308` by `1e-6`, and the norm is infinite. That it is at least one is
    what the run says of it, even if no step is allowed. -/
theorem verdict_is_truthful_two_rows :
    ∃ (S : System) (F : FixedPoint Float S.n) (result : Result (Params S.n)),
      (Source.prepared S).Makes none S ∧ toFixedPoint pivotThreshold S.matrix S.rhs = .ok F ∧
        (infNorm F.alpha).isFinite = false ∧ 1.0 ≤ infNorm F.alpha ∧
        S.run (Settings.ofNumbers 1e-6 0 true) = .ok result ∧
        Tells result (infNorm F.alpha) false := by
  have hmatrix : ∀ i j : Fin 2,
      (#v[#v[1e-6, 1e308], #v[0, 1]] : Dense Float 2 2)[i][j].isFinite = true := by
    decide +kernel
  have hrhs : ∀ i : Fin 2, (#v[1, 1] : Vector Float 2)[i].isFinite = true := by
    decide +kernel
  have hdiagonal : ∀ i : Fin 2, Scalar.isBelow pivotThreshold
      (#v[#v[1e-6, 1e308], #v[0, 1]] : Dense Float 2 2)[i][i] = false := by
    decide +kernel
  have hinfinite : (infNorm (FixedPoint.divide
        (#v[#v[1e-6, 1e308], #v[0, 1]] : Dense Float 2 2) #v[1, 1]).alpha).isFinite = false ∧
      ¬ infNorm (FixedPoint.divide
        (#v[#v[1e-6, 1e308], #v[0, 1]] : Dense Float 2 2) #v[1, 1]).alpha < 1.0 := by
    decide +kernel
  have hmakes := Source.Makes.prepared (b := none)
    ⟨2, Nat.two_pos, #v[#v[1e-6, 1e308], #v[0, 1]], #v[1, 1], hmatrix, hrhs⟩ rfl
  obtain ⟨F, hF, -, -, htells, hruns⟩ := verdict_is_truthful hmakes hdiagonal
  rw [← show F = FixedPoint.divide #v[#v[1e-6, 1e308], #v[0, 1]] #v[1, 1] from
    (toFixedPoint_eq_ok_iff.mp hF).2] at hinfinite
  obtain ⟨result, hresult, -⟩ := hruns 1e-6 0
  obtain ⟨below, htold, hbelow, hleast⟩ := htells _ result rfl hresult
  cases below with
  | true => exact absurd (hbelow rfl) hinfinite.2
  | false => exact ⟨_, F, result, hmakes, hF, hinfinite.1, hleast rfl, hresult, htold⟩

end LinearSystems.Jacobi
