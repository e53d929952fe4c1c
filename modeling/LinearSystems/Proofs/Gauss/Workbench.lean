import Mathlib
import LinearSystems.Gauss.Workbench
import LinearSystems.Proofs.Gauss.PivotSearch
import LinearSystems.Proofs.Tensor.Ranges

/-!
# Pivots searched by hand

On a workbench the largest coefficient is searched for in a flat list: the block that is left is
taken out of the array, its entries are counted through row by row, and the count is turned back
into a row and a column. On an augmented matrix this finds the place that a step of the elimination
chooses, because counting through a block keeps the order of its places.
-/

namespace LinearSystems.Gauss

open Workbench (largestPlace numeral)

variable {n : Nat}

/-- The count that the place has in the block from `i` on. -/
def flatPlace (i : Fin n) (p : Fin n × Fin n) : Nat :=
  (p.1.val - i.val) * (n - i.val) + (p.2.val - i.val)

/-- The place that has a count in the block from `i` on. -/
def placeAt (i : Fin n) (k : Nat) (hk : k < (n - i.val) * (n - i.val)) : Fin n × Fin n :=
  have hrow : k / (n - i.val) < n - i.val := Nat.div_lt_of_lt_mul hk
  have hcolumn : k % (n - i.val) < n - i.val := Nat.mod_lt k (by omega)
  (⟨i + k / (n - i.val), by omega⟩, ⟨i + k % (n - i.val), by omega⟩)

theorem flatPlace_placeAt {i : Fin n} {k : Nat} (hk : k < (n - i.val) * (n - i.val)) :
    flatPlace i (placeAt i k hk) = k := by
  rw [flatPlace, placeAt]
  simp only [Nat.add_sub_cancel_left, Nat.div_add_mod']

theorem le_placeAt {i : Fin n} {k : Nat} (hk : k < (n - i.val) * (n - i.val)) :
    i ≤ (placeAt i k hk).1 ∧ i ≤ (placeAt i k hk).2 :=
  ⟨Nat.le_add_right _ _, Nat.le_add_right _ _⟩

/-- The places of a later row have larger counts. -/
theorem mul_add_lt_mul {r r' w c : Nat} (hr : r < r') (hc : c < w) : r * w + c < r' * w := by
  calc r * w + c < r * w + w := Nat.add_lt_add_left hc _
    _ = (r + 1) * w := (Nat.succ_mul r w).symm
    _ ≤ r' * w := Nat.mul_le_mul_right w hr

theorem flatPlace_lt {i : Fin n} {p : Fin n × Fin n} :
    flatPlace i p < (n - i.val) * (n - i.val) :=
  mul_add_lt_mul (by omega) (by omega)

theorem flatPlace_lt_flatPlace {i : Fin n} {p q : Fin n × Fin n} (hp : i ≤ p.1 ∧ i ≤ p.2)
    (hpq : toLex p < toLex q) : flatPlace i p < flatPlace i q := by
  rcases Prod.Lex.toLex_lt_toLex.mp hpq with hrow | ⟨hrow, hcolumn⟩
  · have hlt : flatPlace i p < (q.1.val - i.val) * (n - i.val) :=
      mul_add_lt_mul (by omega) (by omega)
    exact hlt.trans_le (Nat.le_add_right _ _)
  · rw [flatPlace, flatPlace, hrow]
    omega

/-- The block that is left at step `i`, as an array. -/
theorem select_block (M : Dense Float n (n + 1)) (i : Fin n) :
    (Tensor.ofDense M).select [.range (some (i : Nat)) none, .range (some (i : Nat)) (some n)] =
      .ok (Tensor.ofDense (Tensor.part M i i n (Nat.le_succ n))) :=
  Tensor.select_ranges M i.isLt.le i.isLt.le _

/-- The count of a place leads to its magnitude. -/
theorem abs_getD_part (M : Dense Float n (n + 1)) {i : Fin n} {p : Fin n × Fin n}
    (hr : i ≤ p.1) (hc : i ≤ p.2) :
    Scalar.abs ((Tensor.ofDense (Tensor.part M i i n (Nat.le_succ n))).entries.getD
      (flatPlace i p) 0.0) = magnitude M p := by
  have hentry := Tensor.getElem?_entries_ofDense (Tensor.part M i i n (Nat.le_succ n))
    ⟨p.1 - i, by omega⟩ ⟨p.2 - i, by omega⟩
  rw [Tensor.getElem_part] at hentry
  simp only [Nat.add_sub_cancel' hr, Nat.add_sub_cancel' hc] at hentry
  rw [Array.getD_eq_getD_getElem?, flatPlace, hentry, magnitude]
  rfl

/-- The flat search ends at the count of the place that leads row by row. -/
theorem largestPlace_part (M : Dense Float n (n + 1)) (i : Fin n) :
    ∃ (k : Nat) (hk : k < (n - i.val) * (n - i.val)),
      largestPlace (Tensor.ofDense (Tensor.part M i i n (Nat.le_succ n))) =
        .ok (k / (n - i.val), k % (n - i.val)) ∧ placeAt i k hk = largestFrom M i := by
  let t := Tensor.ofDense (Tensor.part M i i n (Nat.le_succ n))
  let k := firstLargest (fun k => Scalar.abs (t.entries.getD k 0.0)) 0 (List.range t.entries.size)
  have hsize : t.entries.size = (n - i.val) * (n - i.val) := by
    rw [t.size_eq]
    show (n - i.val) * ((n - i.val) * 1) = _
    rw [Nat.mul_one]
  have hpos : 0 < (n - i.val) * (n - i.val) := by
    have hrows : 0 < n - i.val := by omega
    exact Nat.mul_pos hrows hrows
  have hlead : Leads (fun k => Scalar.abs (t.entries.getD k 0.0)) id
      (· ∈ 0 :: List.range t.entries.size) k := by
    apply leads_firstLargest
    exact List.pairwise_cons.mpr ⟨fun _ _ => Nat.zero_le _, List.pairwise_le_range⟩
  have hcounts (l : Nat) :
      l ∈ 0 :: List.range t.entries.size ↔ l < (n - i.val) * (n - i.val) := by
    rw [List.mem_cons, List.mem_range, hsize]
    omega
  have hk : k < (n - i.val) * (n - i.val) := (hcounts k).mp hlead.mem
  refine ⟨k, hk, ?_, ?_⟩
  · have hfilled : t.entries.isEmpty = false := by
      rw [Array.isEmpty, decide_eq_false_iff_not, hsize]
      exact hpos.ne'
    rw [largestPlace, hfilled]
    rfl
  · apply Leads.eq toLex.injective _ (leads_largestFrom M i)
    rw [← flatPlace_placeAt hk] at hlead
    refine hlead.comap (le_placeAt hk) ?_ ?_ ?_
    · intro q _
      exact (hcounts _).mpr flatPlace_lt
    · intro q hq
      exact abs_getD_part M hq.1 hq.2
    · intro q hq hlt
      exact flatPlace_lt_flatPlace hq hlt

/-- The search by hand finds the place that a step with complete pivoting chooses. -/
theorem findLargest_numeral {W : Workbench} {M : Dense Float n (n + 1)}
    (hW : W.matrix = Tensor.ofDense M) (i : Fin n) :
    W.findLargest (numeral i) =
      .ok (numeral (largestFrom M i).1, numeral (largestFrom M i).2) := by
  obtain ⟨k, hk, hlargest, hplace⟩ := largestPlace_part M i
  have hcount : W.rowCount = .ok n := by
    rw [Workbench.rowCount, hW]
    rfl
  have hbound : Place.bound (numeral i) = .ok (some ((i : Nat) : Int)) := rfl
  rw [Workbench.findLargest, hcount]
  simp only [hbound, hW, bind, Except.bind, select_block, hlargest]
  rw [← hplace]
  rfl

end LinearSystems.Gauss
