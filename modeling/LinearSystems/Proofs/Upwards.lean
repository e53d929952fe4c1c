import Mathlib
import LinearSystems.Dense

/-!
# Filling a vector from its last entry upwards

Back substitutions compute each entry from the entries after it, the last entry first. What they
fill in is the only vector whose every entry is what its later entries ask for, whatever the vector
held before. This is all that is needed to reason about them, and it holds for every arithmetic.
-/

namespace LinearSystems

universe u

variable {α : Type u} {n : Nat}

/-- What is asked of an entry depends on the entries after it only. -/
def FromLater (g : Fin n → Vector α n → α) : Prop :=
  ∀ (i : Fin n) (x y : Vector α n), (∀ j, i < j → x[j] = y[j]) → g i x = g i y

namespace FromLater

variable {g : Fin n → Vector α n → α}

/-- Filling the entries of an ascending list from its end leaves each of them as it is asked for. -/
theorem getElem_foldr (hg : FromLater g) (v : Vector α n) {l : List (Fin n)}
    (hl : l.Pairwise (· < ·)) :
    ∀ i ∈ l, (l.foldr (fun (i : Fin n) x => x.set i (g i x) i.isLt) v)[i] =
      g i (l.foldr (fun (i : Fin n) x => x.set i (g i x) i.isLt) v) := by
  induction l with
  | nil => simp
  | cons a l ih =>
    obtain ⟨ha, hl⟩ := List.pairwise_cons.mp hl
    rw [List.foldr_cons]
    generalize l.foldr (fun (i : Fin n) x => x.set i (g i x) i.isLt) v = w at ih ⊢
    -- The new entry stands before all that were filled in, so none of them asks for another value.
    have hlater (i : Fin n) (hi : a ≤ i) : g i (w.set a (g a w)) = g i w := by
      apply hg
      intro j hj
      have hne : a.val ≠ j.val := by omega
      simp [hne]
    intro i hi
    rcases List.mem_cons.mp hi with rfl | hmem
    · rw [hlater i (Nat.le_refl _)]
      simp
    · have hlt : a < i := ha i hmem
      have hne : a.val ≠ i.val := by omega
      rw [hlater i (Nat.le_of_lt hlt), ← ih hl i hmem]
      simp [hne]

/-- Two vectors whose entries are all as their later entries ask for are the same. -/
theorem eq_of_forall (hg : FromLater g) {x y : Vector α n} (hx : ∀ i : Fin n, x[i] = g i x)
    (hy : ∀ i : Fin n, y[i] = g i y) : x = y := by
  -- The induction is on how many entries from the last on are known to agree.
  have hagree : ∀ (k : Nat) (i : Fin n), n - k ≤ i.val → x[i] = y[i] := by
    intro k
    induction k with
    | zero => intro i hi; omega
    | succ k ih =>
      intro i hi
      rw [hx i, hy i]
      apply hg
      intro j hj
      exact ih j (by omega)
  apply Vector.ext
  intro i hi
  exact hagree n ⟨i, hi⟩ (by simp)

/-- The vector filled from the last entry upwards is the one whose every entry is as its later
    entries ask for. -/
theorem eq_foldr_iff (hg : FromLater g) (v x : Vector α n) :
    x = Fin.foldr n (fun (i : Fin n) x => x.set i (g i x) i.isLt) v ↔
      ∀ i : Fin n, x[i] = g i x := by
  have hfilled (i : Fin n) : (Fin.foldr n (fun (i : Fin n) x => x.set i (g i x) i.isLt) v)[i] =
      g i (Fin.foldr n (fun (i : Fin n) x => x.set i (g i x) i.isLt) v) := by
    rw [Fin.foldr_eq_foldr_finRange]
    exact hg.getElem_foldr v (List.pairwise_lt_finRange n) i (List.mem_finRange i)
  constructor
  · rintro rfl
    exact hfilled
  · intro hx
    exact hg.eq_of_forall hx hfilled

end FromLater

end LinearSystems
