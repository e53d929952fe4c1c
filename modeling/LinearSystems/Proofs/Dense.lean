import Mathlib
import LinearSystems.Dense

/-!
# Rearranged systems

An augmented matrix whose rows and coefficient columns stand in another order; the right-hand side
moves with its rows and stays in the last column. Rearranging twice is rearranging once, and an
exchange of two rows and of two columns is a rearrangement.

A permutation that leaves the places before `k` alone is what the steps from `k` on can do to an
order, so it keeps apart the places before `k` and those from `k` on.
-/

namespace LinearSystems

universe u

variable {α : Type u}

/-- The permutation leaves every place before `k` alone. -/
def FixesBelow {n : Nat} (σ : Equiv.Perm (Fin n)) (k : Nat) : Prop :=
  ∀ j : Fin n, j.val < k → σ j = j

namespace FixesBelow

variable {n k : Nat} {σ : Equiv.Perm (Fin n)}

theorem mono {l : Nat} (h : FixesBelow σ k) (hl : l ≤ k) : FixesBelow σ l :=
  fun j hj => h j (Nat.lt_of_lt_of_le hj hl)

/-- A place is moved to one from `k` on exactly if it is one itself. -/
theorem le_apply_iff (h : FixesBelow σ k) (j : Fin n) : k ≤ (σ j).val ↔ k ≤ j.val := by
  constructor
  · intro hσ
    by_contra hj
    rw [h j (by omega)] at hσ
    exact hj hσ
  · intro hj
    by_contra hσ
    have hfix : σ (σ j) = σ j := h (σ j) (by omega)
    rw [σ.injective hfix] at hσ
    exact hσ hj

/-- A permutation that leaves one place more alone. -/
theorem succ (h : FixesBelow σ k) {i : Fin n} (hi : i.val = k) (hσ : σ i = i) :
    FixesBelow σ (k + 1) := by
  intro j hj
  rcases Nat.lt_or_eq_of_le (Nat.le_of_lt_succ hj) with hlt | heq
  · exact h j hlt
  · obtain rfl : j = i := Fin.ext (heq.trans hi.symm)
    exact hσ

theorem mul {τ : Equiv.Perm (Fin n)} (hσ : FixesBelow σ k) (hτ : FixesBelow τ k) :
    FixesBelow (σ * τ) k := by
  intro j hj
  rw [Equiv.Perm.mul_apply, hτ j hj, hσ j hj]

/-- Only the identity leaves all places alone. -/
theorem eq_one (h : FixesBelow σ n) : σ = 1 :=
  Equiv.ext fun j => h j j.isLt

theorem swap {a b : Fin n} (ha : k ≤ a.val) (hb : k ≤ b.val) :
    FixesBelow (Equiv.swap a b) k := by
  intro j hj
  apply Equiv.swap_apply_of_ne_of_ne
  · rintro rfl
    omega
  · rintro rfl
    omega

end FixesBelow

namespace Dense

/-- Two matrices with the same entries are the same. -/
theorem ext_entries {m w : Nat} {M N : Dense α m w}
    (h : ∀ (i : Fin m) (j : Fin w), M[i][j] = N[i][j]) : M = N := by
  apply Vector.ext
  intro i hi
  apply Vector.ext
  intro j hj
  exact h ⟨i, hi⟩ ⟨j, hj⟩

variable {n : Nat}

/-- Two augmented matrices with the same coefficients and the same right-hand side are the same. -/
theorem ext_augmented {M N : Dense α n (n + 1)}
    (hcoefficients : ∀ i j : Fin n, M[i][j.castSucc] = N[i][j.castSucc])
    (hright : ∀ i : Fin n, M[i][Fin.last n] = N[i][Fin.last n]) : M = N := by
  apply ext_entries
  intro i j
  refine Fin.lastCases ?_ ?_ j
  · exact hright i
  · exact hcoefficients i

/-- The system whose row `k` is row `s k` and whose coefficient column `l` is column `p l`. -/
def rearranged (M : Dense α n (n + 1)) (s p : Fin n → Fin n) : Dense α n (n + 1) :=
  glue (ofFn fun k l => M[s k][(p l).castSucc]) (Vector.ofFn fun k => M[s k][Fin.last n])

theorem getElem_rearranged_castSucc (M : Dense α n (n + 1)) (s p : Fin n → Fin n) (k l : Fin n) :
    (M.rearranged s p)[k][l.castSucc] = M[s k][(p l).castSucc] := by
  rw [rearranged, getElem_glue_castSucc, getElem_ofFn]

theorem getElem_rearranged_last (M : Dense α n (n + 1)) (s p : Fin n → Fin n) (k : Fin n) :
    (M.rearranged s p)[k][Fin.last n] = M[s k][Fin.last n] := by
  simp [rearranged, glue]

theorem rearranged_id (M : Dense α n (n + 1)) : M.rearranged id id = M := by
  apply ext_augmented
  · intro i j
    simp only [getElem_rearranged_castSucc, id_eq]
  · intro i
    simp only [getElem_rearranged_last, id_eq]

theorem rearranged_rearranged (M : Dense α n (n + 1)) (s p σ τ : Fin n → Fin n) :
    (M.rearranged s p).rearranged σ τ = M.rearranged (s ∘ σ) (p ∘ τ) := by
  apply ext_augmented
  · intro i j
    simp only [getElem_rearranged_castSucc, Function.comp_apply]
  · intro i
    simp only [getElem_rearranged_last, Function.comp_apply]

/-- To exchange two rows and two coefficient columns is to rearrange by the two exchanges. -/
theorem swapColumns_swapRows (M : Dense α n (n + 1)) (a b c d : Fin n) :
    (M.swapRows a b).swapColumns c.castSucc d.castSucc =
      M.rearranged (Equiv.swap a b) (Equiv.swap c d) := by
  have hrow (i : Fin n) : (M.swapRows a b)[i] = M[Equiv.swap a b i] := by
    rw [getElem_swapRows]
    simp only [Equiv.swap_apply_def]
    split_ifs <;> rfl
  apply ext_augmented
  · intro i j
    rw [getElem_swapColumns, getElem_rearranged_castSucc]
    simp only [hrow, Fin.castSucc_inj, Equiv.swap_apply_def c d]
    split_ifs <;> rfl
  · intro i
    rw [getElem_swapColumns, getElem_rearranged_last]
    have hlast (k : Fin n) : Fin.last n ≠ k.castSucc := (Fin.castSucc_ne_last k).symm
    simp only [hrow, hlast, if_false]

end Dense

end LinearSystems
