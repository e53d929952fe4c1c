import Mathlib
import LinearSystems.Proofs.DoubleFinite
import LinearSystems.Proofs.Jacobi.Search

/-!
# Runs that overflow

A component that is infinite or no number is no number after the next step, because the zero on the
diagonal of `alpha` meets it in its own row. So an iterate that is not finite is followed by no
finite one. A change below a tolerance lies between two finite iterates: a run that converges
answers with a finite one, and a run that comes to one that is not finite uses up its budget.
-/

namespace LinearSystems.Jacobi

variable {n : Nat}

/-- Some component is infinite or no number. -/
def BlownUp (x : Vector Float n) : Prop :=
  ∃ i : Fin n, x[i].isFinite = false

instance (x : Vector Float n) : Decidable (BlownUp x) :=
  inferInstanceAs (Decidable (∃ i : Fin n, x[i].isFinite = false))

theorem isFinite_sub_of_change_lt (hn : 0 < n) {y x : Vector Float n} {c : Float}
    (h : change y x < c) (i : Fin n) : (y[i] - x[i]).isFinite = true := by
  have hentry : (y[i] - x[i]).abs < c :=
    (isLargest_change hn y x).lt h (List.mem_ofFn.mpr ⟨i, rfl⟩)
  exact Double.isFinite_of_abs_lt hentry

theorem isFinite_change_of_lt (hn : 0 < n) {y x : Vector Float n} {c : Float}
    (h : change y x < c) : (change y x).isFinite = true := by
  obtain ⟨i, hi⟩ := List.mem_ofFn.mp (isLargest_change hn y x).mem
  have habs : (y[i] - x[i]).abs = change y x := hi
  rw [← habs, Double.isFinite_abs]
  exact isFinite_sub_of_change_lt hn h i

/-- A change that is below anything lies between two finite vectors. -/
theorem not_blownUp_of_change_lt (hn : 0 < n) {y x : Vector Float n} {c : Float}
    (h : change y x < c) : ¬ BlownUp y ∧ ¬ BlownUp x := by
  have hfinite (i : Fin n) := Double.isFinite_of_isFinite_sub (isFinite_sub_of_change_lt hn h i)
  constructor
  · rintro ⟨i, hi⟩
    rw [(hfinite i).1] at hi
    cases hi
  · rintro ⟨i, hi⟩
    rw [(hfinite i).2] at hi
    cases hi

/-- One term that is not a number spoils a running sum. -/
theorem isNaN_foldl_add {β : Type} (f : β → Float) (l : List β) {s : Float}
    (h : s.isNaN = true ∨ ∃ k ∈ l, (f k).isNaN = true) :
    (l.foldl (fun s k => s + f k) s).isNaN = true := by
  induction l generalizing s with
  | nil => simpa using h
  | cons a l ih =>
    rw [List.foldl_cons]
    apply ih
    rcases h with hs | ⟨k, hk, hterm⟩
    · exact .inl (Double.isNaN_add (.inl hs))
    · rcases List.mem_cons.mp hk with rfl | hmem
      · exact .inl (Double.isNaN_add (.inr hterm))
      · exact .inr ⟨k, hmem, hterm⟩

theorem isNaN_dot {u v : Vector Float n} {i : Fin n} (h : (u[i] * v[i]).isNaN = true) :
    (Dense.dot u v).isNaN = true := by
  rw [Dense.dot, Fin.foldl_eq_foldl_finRange]
  exact isNaN_foldl_add (fun k : Fin n => u[k] * v[k]) _ (.inr ⟨i, List.mem_finRange i, h⟩)

namespace FixedPoint

variable {F : FixedPoint Float n}

/-- The zero on the diagonal keeps a component that is not finite in its own row. -/
theorem isNaN_next {x : Vector Float n} {i : Fin n} (hzero : F.alpha[i][i] = 0.0)
    (hx : x[i].isFinite = false) : ((F.next x)[i]).isNaN = true := by
  have hterm : (F.alpha[i][i] * x[i]).isNaN = true := by
    rw [hzero]
    exact Double.isNaN_zero_mul hx
  rw [F.getElem_next]
  exact Double.isNaN_add (.inr (isNaN_dot hterm))

theorem blownUp_iterateAt_of_le (hzero : ∀ i : Fin n, F.alpha[i][i] = 0.0) {k j : Nat}
    (hkj : k ≤ j) (hk : BlownUp (F.iterateAt k)) : BlownUp (F.iterateAt j) := by
  induction hkj with
  | refl => exact hk
  | step _ ih =>
    obtain ⟨i, hi⟩ := ih
    exact ⟨i, Double.not_isFinite_of_isNaN (isNaN_next (hzero i) hi)⟩

/-- From a blown-up iterate on, the step to it included, no change is small. -/
theorem not_changeAt_lt_of_blownUp (hn : 0 < n) (hzero : ∀ i : Fin n, F.alpha[i][i] = 0.0)
    {k j : Nat} (hk : BlownUp (F.iterateAt k)) (hkj : k ≤ j + 1) (tolerance : Float) :
    ¬ F.changeAt j < tolerance := by
  intro hsmall
  have hfinite : ¬ BlownUp (F.iterateAt (j + 1)) := (not_blownUp_of_change_lt hn hsmall).1
  exact hfinite (blownUp_iterateAt_of_le hzero hkj hk)

end FixedPoint

/-- For every system with an admissible diagonal, every tolerance and every number `m` of allowed
    steps, whatever overflows on the way: if the run converges, all components of its answer and its
    last change are finite. From the first iterate on that has a component which is infinite or no
    number, `beta` included, no change is below the tolerance, and neither is that of the step to
    this iterate; so a run that comes to it, with no small change before it, ends at its cap. -/
theorem finite_or_capped (S : System) (hdiagonal : ∀ i : Fin S.n, Admissible S.matrix[i][i])
    (epsilon : Float) (m : Nat) (check : Bool) :
    ∃ F, toFixedPoint pivotThreshold S.matrix S.rhs = .ok F ∧
      ∃ result, S.run (Settings.ofNumbers epsilon m check) = .ok result ∧
        (∀ r : Request, r.AsksFor epsilon m check → S.solveWith r =
          .ok { system := S, epsilon, maxIterations := m, result, x := result.params.x }) ∧
        (result.params.converged = true →
          (∀ i : Fin S.n, result.params.x[i].isFinite = true) ∧
            result.params.finalDifference.isFinite = true) ∧
        ∀ k, BlownUp (F.iterateAt k) →
          (∀ j, k ≤ j + 1 → ¬ F.changeAt j < epsilon) ∧
          ((∀ j, j + 1 < k → ¬ F.changeAt j < epsilon) →
            Ended result false "max_iterations" m (F.iterateAt m)
              (if m = 0 then noDifference else F.changeAt (m - 1))) := by
  have hform : toFixedPoint pivotThreshold S.matrix S.rhs =
      .ok (FixedPoint.divide S.matrix S.rhs) :=
    toFixedPoint_eq_ok_iff.mpr
      ⟨fun i => isBelow_pivotThreshold_eq_false_iff.mpr (.inr (hdiagonal i)), rfl⟩
  have hzero (i : Fin S.n) : (FixedPoint.divide S.matrix S.rhs).alpha[i][i] = 0.0 := by
    rw [FixedPoint.divide, Dense.getElem_ofFn, if_pos rfl]
    rfl
  obtain ⟨result, hresult, hended⟩ := S.exists_run_eq_ok hform epsilon m check rfl
  refine ⟨_, hform, result, hresult, fun r hr => S.solveWith_eq hr hresult, ?_, ?_⟩
  · intro hconverged
    rw [hended.converged] at hconverged
    obtain ⟨k, -, hsmall, hrun⟩ := exists_less_of_converged hconverged
    have hlt := Double.less_eq_true_iff.mp hsmall
    rw [hrun] at hended
    constructor
    · intro i
      rw [hended.x, ← Bool.not_eq_false]
      exact fun hi => (not_blownUp_of_change_lt S.n_pos hlt).1 ⟨i, hi⟩
    · rw [hended.finalDifference]
      exact isFinite_change_of_lt S.n_pos hlt
  · intro k hk
    have hlater (j : Nat) (hj : k ≤ j + 1) :=
      FixedPoint.not_changeAt_lt_of_blownUp S.n_pos hzero hk hj epsilon
    refine ⟨hlater, fun hearlier => ?_⟩
    have hnone (j : Nat) : ¬ (FixedPoint.divide S.matrix S.rhs).changeAt j < epsilon := by
      by_cases hj : k ≤ j + 1
      · exact hlater j hj
      · exact hearlier j (not_le.mp hj)
    rw [iterate_of_not_less fun j _ => Double.less_eq_false_iff.mpr (hnone j)] at hended
    cases m with
    | zero => exact hended
    | succ m => exact hended

/-- The first system overflows in its second step, before any change is small, and uses up its five
    steps; the second one converges. -/
theorem finite_or_capped_two_rows :
    (∃ (S : System) (F : FixedPoint Float S.n) (result : Result (Params S.n)),
      toFixedPoint pivotThreshold S.matrix S.rhs = .ok F ∧
        ¬ BlownUp (F.iterateAt 1) ∧ BlownUp (F.iterateAt 2) ∧
        S.run (Settings.ofNumbers 1e-6 5 true) = .ok result ∧
        Ended result false "max_iterations" 5 (F.iterateAt 5) (F.changeAt 4)) ∧
    ∃ (S : System) (result : Result (Params S.n)),
      S.run (Settings.ofNumbers 1e-6 2 true) = .ok result ∧ result.params.converged = true ∧
        (∀ i : Fin S.n, result.params.x[i].isFinite = true) ∧
        result.params.finalDifference.isFinite = true := by
  have hrhs : ∀ i : Fin 2, (#v[1, 1] : Vector Float 2)[i].isFinite = true := by
    decide +kernel
  constructor
  · have hmatrix : ∀ i j : Fin 2,
        (#v[#v[1e-6, 1e150], #v[1e150, 1e-6]] : Dense Float 2 2)[i][j].isFinite = true := by
      decide +kernel
    have hdiagonal : ∀ i : Fin 2,
        Admissible (#v[#v[1e-6, 1e150], #v[1e150, 1e-6]] : Dense Float 2 2)[i][i] := by
      simp only [Admissible]
      decide +kernel
    have hblown : ¬ BlownUp ((FixedPoint.divide
          (#v[#v[1e-6, 1e150], #v[1e150, 1e-6]] : Dense Float 2 2) #v[1, 1]).iterateAt 1) ∧
        BlownUp ((FixedPoint.divide
          (#v[#v[1e-6, 1e150], #v[1e150, 1e-6]] : Dense Float 2 2) #v[1, 1]).iterateAt 2) ∧
        ¬ (FixedPoint.divide
          (#v[#v[1e-6, 1e150], #v[1e150, 1e-6]] : Dense Float 2 2) #v[1, 1]).changeAt 0 <
            1e-6 := by
      decide +kernel
    obtain ⟨F, hF, result, hresult, -, -, hcapped⟩ := finite_or_capped
      ⟨2, Nat.two_pos, #v[#v[1e-6, 1e150], #v[1e150, 1e-6]], #v[1, 1], hmatrix, hrhs⟩ hdiagonal
      1e-6 5 true
    rw [← show F = FixedPoint.divide #v[#v[1e-6, 1e150], #v[1e150, 1e-6]] #v[1, 1] from
      (toFixedPoint_eq_ok_iff.mp hF).2] at hblown
    have hearlier (j : Nat) (hj : j + 1 < 2) : ¬ F.changeAt j < 1e-6 := by
      obtain rfl : j = 0 := by omega
      exact hblown.2.2
    exact ⟨_, F, result, hF, hblown.1, hblown.2.1, hresult,
      (hcapped 2 hblown.2.1).2 hearlier⟩
  · have hmatrix : ∀ i j : Fin 2,
        (#v[#v[1, 1], #v[0, 1]] : Dense Float 2 2)[i][j].isFinite = true := by
      decide +kernel
    have hdiagonal : ∀ i : Fin 2,
        Admissible (#v[#v[1, 1], #v[0, 1]] : Dense Float 2 2)[i][i] := by
      simp only [Admissible]
      decide +kernel
    have hend : (iterate (FixedPoint.divide (#v[#v[1, 1], #v[0, 1]] : Dense Float 2 2) #v[1, 1])
        1e-6 2).converged = true := by
      decide +kernel
    obtain ⟨F, hF, result, hresult, -, hfinite, -⟩ := finite_or_capped
      ⟨2, Nat.two_pos, #v[#v[1, 1], #v[0, 1]], #v[1, 1], hmatrix, hrhs⟩ hdiagonal 1e-6 2 true
    rw [← show F = FixedPoint.divide #v[#v[1, 1], #v[0, 1]] #v[1, 1] from
      (toFixedPoint_eq_ok_iff.mp hF).2] at hend
    obtain ⟨found, hfound, hended⟩ := System.exists_run_eq_ok _ hF 1e-6 2 true rfl
    obtain rfl : found = result := Except.ok.inj (hfound.symm.trans hresult)
    have hconverged : found.params.converged = true := hended.converged.trans hend
    exact ⟨_, found, hfound, hconverged, hfinite hconverged⟩

end LinearSystems.Jacobi
