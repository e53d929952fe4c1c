import LinearSystems.Proofs.Gauss.Rearranged

/-!
# Pivoting does not look at the right-hand side

Two systems with the same coefficients are eliminated by the same choices, whatever stands on their
right: the same exchanges, the same pivots, the same multiples of rows, and the same end. Only the
right-hand sides of the working matrices differ.

Nothing is assumed of the arithmetic, so this holds also where entries overflow or are not numbers.
What carries the induction is that the search, the exchanges and the factors of a step read
coefficients only, and that every coefficient is computed from coefficients.
-/

namespace LinearSystems.Gauss

universe u

variable {α : Type u} {n : Nat}

/-- The matrices have the same coefficients. -/
def SameCoefficients (M N : Dense α n (n + 1)) : Prop :=
  ∀ i j : Fin n, M[i][j.castSucc] = N[i][j.castSucc]

namespace SameCoefficients

variable {M N : Dense α n (n + 1)}

theorem coefficients_eq (h : SameCoefficients M N) : M.coefficients = N.coefficients := by
  apply Dense.ext_entries
  intro i j
  rw [Dense.getElem_coefficients, Dense.getElem_coefficients, h i j]

theorem glue (A : Dense α n n) (b c : Vector α n) :
    SameCoefficients (Dense.glue A b) (Dense.glue A c) := by
  intro i j
  rw [Dense.getElem_glue_castSucc, Dense.getElem_glue_castSucc]

theorem rearranged (h : SameCoefficients M N) (s p : Fin n → Fin n) :
    SameCoefficients (M.rearranged s p) (N.rearranged s p) := by
  intro i j
  rw [Dense.getElem_rearranged_castSucc, Dense.getElem_rearranged_castSucc, h]

variable [Scalar α]

/-- The factors and the coefficients of the row that is subtracted are coefficients. -/
theorem eliminateBelow (h : SameCoefficients M N) (i : Fin n) :
    SameCoefficients (eliminateBelow M i) (eliminateBelow N i) := by
  intro j k
  rw [getElem_eliminateBelow, getElem_eliminateBelow, h j k, h j i, h i i, h i k]

/-- The search looks at coefficients only. -/
theorem largestFrom_eq (h : SameCoefficients M N) (i : Fin n) :
    largestFrom M i = largestFrom N i := by
  have hmagnitude : magnitude M = magnitude N := by
    funext p
    rw [magnitude, magnitude, h p.1 p.2]
  rw [largestFrom, largestFrom, hmagnitude]

end SameCoefficients

namespace Progress

/-- The two states differ at most in the right-hand sides of their matrices. -/
structure SameBesideRight (P Q : Progress α n) : Prop where
  matrix : SameCoefficients P.matrix Q.matrix
  columns : P.columns = Q.columns
  pivots : P.pivots = Q.pivots

theorem SameBesideRight.start {M N : Dense α n (n + 1)} (h : SameCoefficients M N) :
    SameBesideRight (start M) (start N) :=
  ⟨h, rfl, rfl⟩

/-- The two runs end alike: in states that differ at most in their right-hand sides, or at the same
    pivot of the same step. -/
inductive SameEnd : Except (Breakdown α n) (Progress α n) →
    Except (Breakdown α n) (Progress α n) → Prop
  | finished {P Q : Progress α n} (h : SameBesideRight P Q) : SameEnd (.ok P) (.ok Q)
  | stopped {b c : Breakdown α n} (step : b.step = c.step) (pivot : b.pivot = c.pivot) :
      SameEnd (.error b) (.error c)

namespace SameEnd

variable {r s : Except (Breakdown α n) (Progress α n)}

theorem bind (h : SameEnd r s) {f : Progress α n → Except (Breakdown α n) (Progress α n)}
    (hf : ∀ P Q : Progress α n, SameBesideRight P Q → SameEnd (f P) (f Q)) :
    SameEnd (r.bind f) (s.bind f) := by
  cases h with
  | finished hsame => exact hf _ _ hsame
  | stopped hstep hpivot => exact .stopped hstep hpivot

theorem finished_or_stopped (h : SameEnd r s) :
    (∃ P Q, r = .ok P ∧ s = .ok Q ∧ SameBesideRight P Q) ∨
      ∃ b c, r = .error b ∧ s = .error c ∧ b.step = c.step ∧ b.pivot = c.pivot := by
  cases h with
  | finished hsame => exact .inl ⟨_, _, rfl, rfl, hsame⟩
  | stopped hstep hpivot => exact .inr ⟨_, _, rfl, rfl, hstep, hpivot⟩

end SameEnd

variable [Scalar α] {P Q : Progress α n}

namespace SameBesideRight

/-- The exchanges of a step are the same ones. -/
theorem arrange (h : SameBesideRight P Q) (mode : Pivoting) (i : Fin n) :
    SameBesideRight (P.arrange mode i) (Q.arrange mode i) := by
  cases mode with
  | diagonal => exact h
  | complete =>
    have hplace := h.matrix.largestFrom_eq i
    simp only [arrange_complete, hplace, h.columns]
    exact ⟨h.matrix.rearranged _ _, rfl, h.pivots⟩

theorem pivotAt_eq (h : SameBesideRight P Q) (mode : Pivoting) (i : Fin n) :
    P.pivotAt mode i = Q.pivotAt mode i :=
  (h.arrange mode i).matrix i i

theorem accepted (h : SameBesideRight P Q) (mode : Pivoting) (i : Fin n) :
    SameBesideRight (P.accepted mode i) (Q.accepted mode i) where
  matrix := (h.arrange mode i).matrix.eliminateBelow i
  columns := (h.arrange mode i).columns
  pivots := by rw [Progress.accepted, Progress.accepted, h.pivots, h.pivotAt_eq mode i]

end SameBesideRight

/-- A step accepts its pivot in both runs or refuses it in both. -/
theorem SameBesideRight.advance (h : SameBesideRight P Q) (mode : Pivoting) (t : α) (i : Fin n) :
    SameEnd (P.advance mode t i) (Q.advance mode t i) := by
  rw [advance_eq, advance_eq, h.pivotAt_eq mode i]
  split
  · exact .stopped rfl (h.pivotAt_eq mode i)
  · exact .finished (h.accepted mode i)

/-- Runs of every length on systems with the same coefficients end alike. -/
theorem sameEnd_after (mode : Pivoting) (t : α) {M N : Dense α n (n + 1)}
    (h : SameCoefficients M N) (k : Nat) (hk : k ≤ n) :
    SameEnd (after mode t M k hk) (after mode t N k hk) := by
  induction k with
  | zero => exact .finished (.start h)
  | succ k ih =>
    rw [after_succ, after_succ]
    exact (ih (Nat.le_of_succ_le hk)).bind fun P Q hsame => hsame.advance mode t ⟨k, hk⟩

end Progress

variable [Scalar α]

/-- For every matrix and any two right-hand sides, with either way of pivoting: both runs finish,
    with the same pivots, the same order of the columns and the same coefficients in the working
    matrix, or both break down at the same step with the same pivot. -/
theorem eliminate_glue_independent_of_right (mode : Pivoting) (t : α) (A : Dense α n n)
    (b c : Vector α n) :
    (∃ P Q : Progress α n,
      eliminate mode t (Dense.glue A b) = .ok P ∧ eliminate mode t (Dense.glue A c) = .ok Q ∧
        P.pivots = Q.pivots ∧ P.columns = Q.columns ∧
        P.matrix.coefficients = Q.matrix.coefficients) ∨
    ∃ B C : Breakdown α n,
      eliminate mode t (Dense.glue A b) = .error B ∧
        eliminate mode t (Dense.glue A c) = .error C ∧ B.step = C.step ∧ B.pivot = C.pivot := by
  rcases (Progress.sameEnd_after mode t (SameCoefficients.glue A b c) n
      (Nat.le_refl n)).finished_or_stopped with
    ⟨P, Q, hP, hQ, hsame⟩ | ⟨B, C, hB, hC, hstep, hpivot⟩
  · exact .inl ⟨P, Q, hP, hQ, hsame.pivots, hsame.columns, hsame.matrix.coefficients_eq⟩
  · exact .inr ⟨B, C, hB, hC, hstep, hpivot⟩

end LinearSystems.Gauss
