import LinearSystems.Proofs.Exact
import LinearSystems.Proofs.Upwards
import LinearSystems.Gauss.Substitution

/-!
# Triangular systems

Back substitution gives the one vector whose every entry is what its row makes of the entries after
it; this holds for every scalar. In exact arithmetic a row without the unknowns before its own says
just that, so on a triangular system back substitution gives the only solution.
-/

namespace LinearSystems.Gauss

universe u

section

variable {α : Type u} [Scalar α] {n : Nat}

/-- A row takes its unknown from the unknowns after it. -/
theorem fromLater_solveRow (M : Dense α n (n + 1)) : FromLater (solveRow M) := by
  intro i x y h
  have hterm : (fun (s : α) (k : Fin n) => if i < k then s + M[i][k.castSucc] * x[k] else s) =
      fun s k => if i < k then s + M[i][k.castSucc] * y[k] else s := by
    funext s k
    split
    · rename_i hk
      rw [h k hk]
    · rfl
  rw [solveRow, solveRow, tail, tail, hterm]

theorem eq_backSubstitute_iff (M : Dense α n (n + 1)) (x : Vector α n) :
    x = backSubstitute M ↔ ∀ i : Fin n, x[i] = solveRow M i x :=
  (fromLater_solveRow M).eq_foldr_iff _ x

end

variable {n : Nat}

/-- What a row takes from the unknowns after its own is the sum of their terms. -/
theorem tail_eq_sum (M : Dense Rat n (n + 1)) (i : Fin n) (x : Vector Rat n) :
    tail M i x = ∑ k : Fin n, if i < k then M[i][k.castSucc] * x[k] else 0 := by
  rw [← foldl_add_eq_sum, tail]
  congr 1
  funext s k
  split
  · rfl
  · exact (add_zero s).symm

/-- The first `k` unknowns are gone from the rows after their own. -/
def Cleared (M : Dense Rat n (n + 1)) (k : Nat) : Prop :=
  ∀ j l : Fin n, l.val < k → l < j → M[j][l.castSucc] = 0

/-- A row without the unknowns before its own reads as its diagonal term and its tail. -/
theorem Cleared.sum_eq {M : Dense Rat n (n + 1)} (h : Cleared M n) (i : Fin n)
    (x : Vector Rat n) :
    ∑ j : Fin n, M[i][j.castSucc] * x[j] = M[i][i.castSucc] * x[i] + tail M i x := by
  have hterm (j : Fin n) : M[i][j.castSucc] * x[j] =
      (if j = i then M[i][i.castSucc] * x[i] else 0) +
        if i < j then M[i][j.castSucc] * x[j] else 0 := by
    rcases lt_trichotomy j i with hlt | rfl | hgt
    · rw [if_neg hlt.ne, if_neg hlt.not_gt, h i j j.isLt hlt, zero_mul, add_zero]
    · rw [if_pos rfl, if_neg (lt_irrefl j), add_zero]
    · rw [if_neg hgt.ne', if_pos hgt, zero_add]
  rw [tail_eq_sum, Finset.sum_congr rfl fun j _ => hterm j, Finset.sum_add_distrib,
    Finset.sum_ite_eq' Finset.univ i, if_pos (Finset.mem_univ i)]

/-- On a triangular system whose diagonal has no zero, back substitution gives the only solution. -/
theorem Cleared.isSolution_iff {M : Dense Rat n (n + 1)} (h : Cleared M n)
    (hdiagonal : ∀ i : Fin n, M[i][i.castSucc] ≠ 0) (x : Vector Rat n) :
    Dense.IsSolution M x ↔ x = backSubstitute M := by
  rw [eq_backSubstitute_iff]
  apply forall_congr'
  intro i
  rw [h.sum_eq, solveRow]
  constructor
  · intro hrow
    rw [eq_div_iff (hdiagonal i), ← hrow]
    ring
  · intro hx
    rw [hx, mul_div_cancel₀ _ (hdiagonal i)]
    ring

end LinearSystems.Gauss
