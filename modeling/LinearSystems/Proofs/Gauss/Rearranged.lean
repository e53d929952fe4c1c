import LinearSystems.Proofs.Dense
import LinearSystems.Proofs.Gauss.Step

/-!
# Complete pivoting as elimination of a rearranged system

Elimination with complete pivoting makes the very same operations as elimination without pivoting on
the system that has all its exchanges made in advance. This holds for every scalar, so also where
operations round, overflow or give values that are not numbers: nothing is assumed of the
arithmetic, and of the search only that it looks at the places not yet eliminated.

The later exchanges do move rows and columns that earlier steps have written to. What carries the
induction is that the first `k` steps do not depend on the order of the rows and columns from `k`
on, apart from the order of what they leave there.
-/

namespace LinearSystems.Gauss

universe u

variable {α : Type u} [Scalar α] {n : Nat} {t : α}

/-- Eliminating an unknown does not depend on the order of the rows and columns after it. -/
theorem eliminateBelow_rearranged (M : Dense α n (n + 1)) (i : Fin n) {σ τ : Equiv.Perm (Fin n)}
    (hσ : FixesBelow σ (i.val + 1)) (hτ : FixesBelow τ (i.val + 1)) :
    eliminateBelow (M.rearranged σ τ) i = (eliminateBelow M i).rearranged σ τ := by
  have hσi : σ i = i := hσ i (Nat.lt_succ_self _)
  have hτi : τ i = i := hτ i (Nat.lt_succ_self _)
  -- Row `i` and column `i` stay, so the entries that change are the same ones, moved.
  have hrow (j : Fin n) : i < σ j ↔ i < j := hσ.le_apply_iff j
  have hcolumn (l : Fin n) : i ≤ τ l ↔ i ≤ l := (hτ.mono (Nat.le_succ _)).le_apply_iff l
  apply Dense.ext_augmented
  · intro j l
    simp only [getElem_eliminateBelow, Dense.getElem_rearranged_castSucc, hσi, hτi, hrow, hcolumn,
      Fin.castSucc_le_castSucc_iff]
  · intro j
    simp only [getElem_eliminateBelow, Dense.getElem_rearranged_castSucc,
      Dense.getElem_rearranged_last, hσi, hτi, hrow]

namespace Progress

/-- The state with its matrix rearranged. -/
def rearranged (P : Progress α n) (σ τ : Fin n → Fin n) : Progress α n :=
  { P with matrix := P.matrix.rearranged σ τ }

/-- The state with its columns in their own order, as a run that exchanges nothing has them. -/
def inOrder (P : Progress α n) : Progress α n :=
  { P with columns := Vector.ofFn id }

/-- The unknown that a column stands for. -/
def unknown (P : Progress α n) (l : Fin n) : Fin n :=
  P.columns[l]

/-- The first `k` steps without pivoting do not depend on the order of the rows and columns from `k`
    on. -/
theorem after_diagonal_rearranged {M : Dense α n (n + 1)} {k : Nat} {hk : k ≤ n}
    {P : Progress α n} {σ τ : Equiv.Perm (Fin n)} (hσ : FixesBelow σ k) (hτ : FixesBelow τ k)
    (hP : after .diagonal t M k hk = .ok P) :
    after .diagonal t (M.rearranged σ τ) k hk = .ok (P.rearranged σ τ) := by
  induction k generalizing P with
  | zero =>
    cases hP
    rfl
  | succ k ih =>
    obtain ⟨Q, hQ, hpivot, rfl⟩ := after_succ_eq_ok_iff.mp hP
    have hsame : (Q.rearranged σ τ).pivotAt .diagonal ⟨k, hk⟩ = Q.pivotAt .diagonal ⟨k, hk⟩ := by
      simp only [pivotAt, arrange_diagonal, rearranged, Dense.getElem_rearranged_castSucc,
        hσ ⟨k, hk⟩ (Nat.lt_succ_self k), hτ ⟨k, hk⟩ (Nat.lt_succ_self k)]
    refine after_succ_eq_ok_iff.mpr
      ⟨Q.rearranged σ τ, ih (hσ.mono (Nat.le_succ k)) (hτ.mono (Nat.le_succ k)) hQ, ?_, ?_⟩
    · rw [hsame]
      exact hpivot
    · rw [accepted, accepted, hsame]
      simp only [rearranged, arrange_diagonal]
      rw [eliminateBelow_rearranged Q.matrix ⟨k, hk⟩ hσ hτ]

theorem arrange_complete (P : Progress α n) (i : Fin n) :
    P.arrange .complete i =
      { matrix := P.matrix.rearranged (Equiv.swap i (largestFrom P.matrix i).1)
          (Equiv.swap i (largestFrom P.matrix i).2)
        columns := P.columns.swap i (largestFrom P.matrix i).2
        pivots := P.pivots } := by
  rw [← Dense.swapColumns_swapRows]
  rfl

theorem unknown_arrange_complete (P : Progress α n) (i : Fin n) :
    (P.arrange .complete i).unknown = P.unknown ∘ Equiv.swap i (largestFrom P.matrix i).2 := by
  funext l
  rw [arrange_complete]
  simp only [unknown, Function.comp_apply, getElem_fin, Vector.getElem_swap,
    Equiv.swap_apply_def, ← Fin.ext_iff]
  split_ifs <;> rfl

end Progress

/-- The row of the system that stands at each place after the row exchanges of the first `k` steps
    with complete pivoting. A step makes its exchange before it tests its pivot, so the exchange
    counts also if the pivot is refused. -/
def rowOrder (t : α) (M : Dense α n (n + 1)) : (k : Nat) → k ≤ n → Equiv.Perm (Fin n)
  | 0, _ => 1
  | k + 1, h =>
    match Progress.after .complete t M k (Nat.le_of_succ_le h) with
    | .ok P =>
      rowOrder t M k (Nat.le_of_succ_le h) * Equiv.swap ⟨k, h⟩ (largestFrom P.matrix ⟨k, h⟩).1
    | .error _ => rowOrder t M k (Nat.le_of_succ_le h)

namespace Progress

/-- What the plain run of the rearranged system has to do with a run that pivots: after `k` steps
    both stand at the same matrix with the same pivots, and no unknown has been lost. -/
structure Mirrors (t : α) (M : Dense α n (n + 1)) (k : Nat) (hk : k ≤ n) (s : Equiv.Perm (Fin n))
    (P : Progress α n) : Prop where
  unknown_bijective : Function.Bijective P.unknown
  after_diagonal : after .diagonal t (M.rearranged s P.unknown) k hk = .ok P.inOrder

/-- The exchanges of the next step, made in advance, keep the mirror image. -/
theorem Mirrors.arrange {M : Dense α n (n + 1)} {k : Nat} {hk : k ≤ n} {s : Equiv.Perm (Fin n)}
    {P : Progress α n} (h : Mirrors t M k hk s P) {i : Fin n} (hi : i.val = k) :
    Mirrors t M k hk (s * Equiv.swap i (largestFrom P.matrix i).1) (P.arrange .complete i) := by
  obtain ⟨hr, hc⟩ := le_largestFrom P.matrix i
  have hrows : FixesBelow (Equiv.swap i (largestFrom P.matrix i).1) k :=
    FixesBelow.swap (by omega) (by rw [← hi]; exact hr)
  have hcolumns : FixesBelow (Equiv.swap i (largestFrom P.matrix i).2) k :=
    FixesBelow.swap (by omega) (by rw [← hi]; exact hc)
  refine ⟨?_, ?_⟩
  · rw [unknown_arrange_complete]
    exact h.unknown_bijective.comp (Equiv.bijective _)
  · have hrun := after_diagonal_rearranged hrows hcolumns h.after_diagonal
    rw [Dense.rearranged_rearranged] at hrun
    rw [unknown_arrange_complete, arrange_complete, Equiv.Perm.coe_mul]
    exact hrun

/-- Every run with complete pivoting is the plain run of the system with its exchanges made in
    advance. -/
theorem mirrors_of_after {M : Dense α n (n + 1)} {k : Nat} {hk : k ≤ n} {P : Progress α n}
    (hP : after .complete t M k hk = .ok P) : Mirrors t M k hk (rowOrder t M k hk) P := by
  induction k generalizing P with
  | zero =>
    cases hP
    have hid : (start M).unknown = id := by
      funext l
      simp [unknown, start]
    refine ⟨hid ▸ Function.bijective_id, ?_⟩
    rw [hid]
    exact congrArg (fun N => Except.ok (start N)) (Dense.rearranged_id M)
  | succ k ih =>
    obtain ⟨Q, hQ, hpivot, rfl⟩ := after_succ_eq_ok_iff.mp hP
    have hnext := (ih hQ).arrange (i := ⟨k, hk⟩) rfl
    simp only [rowOrder, hQ]
    exact ⟨hnext.unknown_bijective,
      after_succ_eq_ok_iff.mpr ⟨_, hnext.after_diagonal, hpivot, rfl⟩⟩

/-- A run with complete pivoting breaks down where the plain run of the system does that has the
    exchanges up to the refused pivot made in advance. -/
theorem mirrors_of_after_eq_error {M : Dense α n (n + 1)} {b : Breakdown α n}
    (hb : eliminate .complete t M = .error b) :
    Function.Bijective b.progress.unknown ∧
      eliminate .diagonal t
          (M.rearranged (rowOrder t M (b.step + 1) b.step.isLt) b.progress.unknown) =
        .error { b with progress := b.progress.inOrder } := by
  obtain ⟨j, hj, P, hP, hpivot, rfl⟩ := exists_refused_of_after_eq_error hb
  -- The refused step has made its exchanges, so they belong to the mirror image as well.
  have hnext := (mirrors_of_after hP).arrange (i := ⟨j, hj⟩) rfl
  have horder : rowOrder t M (j + 1) hj = rowOrder t M j (Nat.le_of_lt hj) *
      Equiv.swap ⟨j, hj⟩ (largestFrom P.matrix ⟨j, hj⟩).1 := by
    simp only [rowOrder, hP]
  refine ⟨hnext.unknown_bijective, ?_⟩
  apply after_eq_error_of_le hj (Nat.le_refl n) hj
  refine after_succ_eq_error_iff.mpr (.inr ⟨(P.arrange .complete ⟨j, hj⟩).inOrder, ?_, hpivot, rfl⟩)
  rw [← hnext.after_diagonal]
  simp only [refused, horder]

end Progress

omit [Scalar α] in
/-- Of values written one after another to different places, every one is there in the end. -/
theorem getElem_foldl_set {c : Fin n → Fin n} (hc : Function.Injective c) (y x : Vector α n)
    {l : List (Fin n)} {k : Fin n} (hk : k ∈ l) :
    (l.foldl (fun x k => x.set (c k) y[k] (c k).isLt) x)[c k] = y[k] := by
  induction l using List.reverseRecOn with
  | nil => cases hk
  | append_singleton l a ih =>
    rw [List.foldl_append, List.foldl_cons, List.foldl_nil, getElem_fin, Vector.getElem_set]
    split
    · rename_i heq
      rw [hc (Fin.ext heq)]
    · rename_i hne
      rcases List.mem_append.mp hk with hmem | hmem
      · exact ih hmem
      · rw [List.mem_singleton.mp hmem] at hne
        exact absurd rfl hne

omit [Scalar α] in
/-- Each value is given to the unknown that its column stands for. -/
theorem getElem_unpermute {columns : Vector (Fin n) n}
    (hc : Function.Injective fun k : Fin n => columns[k]) (y : Vector α n) (k : Fin n) :
    (unpermute columns y)[columns[k]] = y[k] := by
  rw [unpermute, Fin.foldl_eq_foldl_finRange]
  exact getElem_foldl_set hc y y (List.mem_finRange k)

/-- A solution with complete pivoting is the plain solution of the rearranged system, each value
    under the unknown of its column. -/
theorem exists_solve_diagonal {M : Dense α n (n + 1)} {P : Progress α n}
    (hP : eliminate .complete t M = .ok P) :
    ∃ x y, solve .complete t M = .ok x ∧
      solve .diagonal t (M.rearranged (rowOrder t M n (Nat.le_refl n)) P.unknown) = .ok y ∧
      y.pivots = x.pivots ∧ ∀ k, x.x[P.unknown k] = y.x[k] := by
  have hmirror := Progress.mirrors_of_after hP
  have hplain : eliminate .diagonal t (M.rearranged (rowOrder t M n (Nat.le_refl n)) P.unknown) =
      .ok P.inOrder := hmirror.after_diagonal
  refine ⟨P.solved .complete, P.inOrder.solved .diagonal, ?_, ?_, rfl, ?_⟩
  · exact solve_eq_ok_iff.mpr ⟨P, hP, rfl⟩
  · exact solve_eq_ok_iff.mpr ⟨P.inOrder, hplain, rfl⟩
  · exact getElem_unpermute hmirror.unknown_bijective.injective (backSubstitute P.matrix)

/-- Complete pivoting is plain elimination of the rearranged system, operation by operation: after
    every step the columns stand for all unknowns, each once; a run that ends has the working matrix
    and the pivots of the plain run, whose values go each to the unknown of its column and leave no
    unknown without one; and a run that breaks down does so where the plain run does, at the same
    pivot. -/
theorem eliminate_complete_eq_diagonal (t : α) (M : Dense α n (n + 1)) :
    (∀ (k : Nat) (hk : k ≤ n) (P : Progress α n),
      Progress.after .complete t M k hk = .ok P → Function.Bijective P.unknown) ∧
    (∀ P : Progress α n, eliminate .complete t M = .ok P →
      eliminate .diagonal t (M.rearranged (rowOrder t M n (Nat.le_refl n)) P.unknown) =
        .ok P.inOrder ∧
      (∀ i, ∃! k, P.unknown k = i) ∧
      ∃ x y, solve .complete t M = .ok x ∧
        solve .diagonal t (M.rearranged (rowOrder t M n (Nat.le_refl n)) P.unknown) = .ok y ∧
        y.pivots = x.pivots ∧ ∀ k, x.x[P.unknown k] = y.x[k]) ∧
    (∀ b : Breakdown α n, eliminate .complete t M = .error b →
      Function.Bijective b.progress.unknown ∧
      eliminate .diagonal t
          (M.rearranged (rowOrder t M (b.step + 1) b.step.isLt) b.progress.unknown) =
        .error { b with progress := b.progress.inOrder }) := by
  refine ⟨?_, ?_, ?_⟩
  · intro k hk P hP
    exact (Progress.mirrors_of_after hP).unknown_bijective
  · intro P hP
    have hmirror := Progress.mirrors_of_after hP
    exact ⟨hmirror.after_diagonal, hmirror.unknown_bijective.existsUnique,
      exists_solve_diagonal hP⟩
  · intro b hb
    exact Progress.mirrors_of_after_eq_error hb

/-- Both ends of a run occur: the first system is solved after an exchange of its columns, and the
    second one, which is singular, is given up at its last step. -/
theorem eliminate_complete_eq_diagonal_two_rows :
    (∃ P : Progress Float 2,
      eliminate .complete 1e-6 #v[#v[1, 2, 4], #v[3, 8, 11]] = .ok P ∧ P.unknown 0 = 1 ∧
        eliminate .diagonal 1e-6 (Dense.rearranged #v[#v[1, 2, 4], #v[3, 8, 11]]
            (rowOrder 1e-6 #v[#v[1, 2, 4], #v[3, 8, 11]] 2 (Nat.le_refl 2)) P.unknown) =
          .ok P.inOrder) ∧
    ∃ b : Breakdown Float 2,
      eliminate .complete 1e-6 #v[#v[1, 2, 4], #v[2, 4, 11]] = .error b ∧ b.step = 1 ∧
        eliminate .diagonal 1e-6 (Dense.rearranged #v[#v[1, 2, 4], #v[2, 4, 11]]
            (rowOrder 1e-6 #v[#v[1, 2, 4], #v[2, 4, 11]] (b.step + 1) b.step.isLt)
            b.progress.unknown) =
          .error { b with progress := b.progress.inOrder } := by
  refine ⟨?_, ?_⟩
  · have hend : (match eliminate .complete (1e-6 : Float) #v[#v[1, 2, 4], #v[3, 8, 11]] with
        | .ok P => P.unknown 0 == 1
        | .error _ => false) = true := by
      decide +kernel
    split at hend
    · rename_i P hP
      exact ⟨P, hP, eq_of_beq hend, ((eliminate_complete_eq_diagonal _ _).2.1 P hP).1⟩
    · cases hend
  · have hend : (match eliminate .complete (1e-6 : Float) #v[#v[1, 2, 4], #v[2, 4, 11]] with
        | .ok _ => false
        | .error b => b.step == 1) = true := by
      decide +kernel
    split at hend
    · cases hend
    · rename_i b hb
      exact ⟨b, hb, eq_of_beq hend, ((eliminate_complete_eq_diagonal _ _).2.2 b hb).2⟩

end LinearSystems.Gauss
