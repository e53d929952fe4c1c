import Mathlib
import LinearSystems.Jacobi.RowSum
import LinearSystems.Proofs.Largest

/-!
# Row sums

Whichever way a row is cut into blocks and lanes, every term is added exactly once. This is a fact
about the order of the additions, so it holds for every arithmetic. Where no addition rounds, a row
sum therefore is the sum of the row, and the norm of a matrix bounds the sum of magnitudes of each
of its rows.
-/

namespace LinearSystems.Jacobi

universe u

section

variable {α : Type u} [Scalar α]

/-- A value that is made of some terms by additions alone: each of the terms goes in exactly once.
    Without terms it is negative zero, from which a short sum starts. -/
inductive AddsOnce : Multiset α → α → Prop
  | nothing : AddsOnce 0 (-0)
  | term (a : α) : AddsOnce {a} a
  | add {s t : Multiset α} {a b : α} : AddsOnce s a → AddsOnce t b → AddsOnce (s + t) (a + b)

/-- A running sum takes in the terms that it meets. -/
theorem AddsOnce.foldl {s : Multiset α} {a : α} (h : AddsOnce s a) (l : List α) :
    AddsOnce (s + (l : Multiset α)) (l.foldl (· + ·) a) := by
  induction l generalizing s a with
  | nil => simpa using h
  | cons b l ih =>
    have hnext := ih (h.add (.term b))
    rwa [add_assoc, Multiset.singleton_add, Multiset.cons_coe] at hnext

/-- The lanes hold some terms between them, each in one lane. -/
inductive Lanes.Holds : Lanes α → Multiset α → Prop
  | of {r : Lanes α} {a b c d e f g h : Multiset α} (ha : AddsOnce a r.a) (hb : AddsOnce b r.b)
      (hc : AddsOnce c r.c) (hd : AddsOnce d r.d) (he : AddsOnce e r.e) (hf : AddsOnce f r.f)
      (hg : AddsOnce g r.g) (hh : AddsOnce h r.h) :
      Holds r (((a + b) + (c + d)) + ((e + f) + (g + h)))

theorem Lanes.Holds.total {r : Lanes α} {s : Multiset α} (h : r.Holds s) :
    AddsOnce s r.total := by
  cases h with
  | of ha hb hc hd he hf hg hh =>
    exact ((ha.add hb).add (hc.add hd)).add ((he.add hf).add (hg.add hh))

/-- Eight more terms go to the lanes, one to each. -/
theorem Lanes.Holds.step {r : Lanes α} {s : Multiset α} (hr : r.Holds s) (a b c d e f g h : α) :
    Lanes.Holds ⟨r.a + a, r.b + b, r.c + c, r.d + d, r.e + e, r.f + f, r.g + g, r.h + h⟩
      (s + ↑[a, b, c, d, e, f, g, h]) := by
  cases hr with
  | @of sa sb sc sd se sf sg sh ha hb hc hd he hf hg hh =>
    have hstep := Lanes.Holds.of
      (r := ⟨r.a + a, r.b + b, r.c + c, r.d + d, r.e + e, r.f + f, r.g + g, r.h + h⟩)
      (ha.add (.term a)) (hb.add (.term b)) (hc.add (.term c)) (hd.add (.term d))
      (he.add (.term e)) (hf.add (.term f)) (hg.add (.term g)) (hh.add (.term h))
    convert hstep using 1
    simp only [← Multiset.cons_coe, ← Multiset.singleton_add, Multiset.coe_nil]
    abel

theorem Lanes.Holds.finish {r : Lanes α} {s : Multiset α} (h : r.Holds s) (l : List α) :
    AddsOnce (s + (l : Multiset α)) (r.finish l) := by
  fun_induction Lanes.finish r l generalizing s with
  | case1 r a b c d e f g h' rest ih =>
    have hrest := ih (h.step a b c d e f g h')
    rwa [add_assoc, Multiset.coe_add] at hrest
  | case2 r rest => exact h.total.foldl rest

theorem addsOnce_blockSum (l : List α) : AddsOnce ↑l (blockSum l) := by
  fun_cases blockSum l with
  | case1 a b c d e f g h rest =>
    have hlanes := Lanes.Holds.of (r := ⟨a, b, c, d, e, f, g, h⟩) (.term a) (.term b) (.term c)
      (.term d) (.term e) (.term f) (.term g) (.term h)
    convert hlanes.finish rest using 1
    simp only [← Multiset.cons_coe, ← Multiset.singleton_add]
    abel
  | case2 l =>
    have hall := AddsOnce.nothing.foldl l
    rwa [zero_add] at hall

/-- A row sum adds every term of the row exactly once, however long the row is. -/
theorem addsOnce_pairwiseSum (row : List α) : AddsOnce ↑row (pairwiseSum row) := by
  fun_induction pairwiseSum row with
  | case1 row hshort => exact addsOnce_blockSum row
  | case2 row hlong ihleft ihright =>
    have hboth := ihleft.add ihright
    rwa [Multiset.coe_add, List.take_append_drop] at hboth

end

theorem AddsOnce.eq_sum {s : Multiset Rat} {a : Rat} (h : AddsOnce s a) : a = s.sum := by
  induction h with
  | nothing => simp
  | term a => simp
  | add _ _ ihs iht => rw [Multiset.sum_add, ← ihs, ← iht]

theorem pairwiseSum_eq_sum (row : List Rat) : pairwiseSum row = row.sum := by
  rw [(addsOnce_pairwiseSum row).eq_sum, Multiset.sum_coe]

theorem pairwiseSum_magnitudes {n : Nat} (row : Vector Rat n) :
    pairwiseSum (row.toList.map Scalar.abs) = ∑ j : Fin n, |row[j]| := by
  rw [pairwiseSum_eq_sum, ← List.sum_ofFn]
  congr 1
  apply List.ext_getElem
  · simp
  · intro j hj hj'
    simp [Scalar.abs_rat]

/-- The norm of a matrix is the largest of the sums of magnitudes of its rows, or zero if there is
    no row. -/
theorem isLargest_infNorm {m n : Nat} (A : Dense Rat m n) :
    IsLargest (0 :: List.ofFn fun i : Fin m => ∑ j : Fin n, |A[i][j]|) (infNorm A) := by
  simp only [infNorm, pairwiseSum_magnitudes]
  exact Scalar.isLargest_foldl_vector (fun row : Vector Rat n => ∑ j : Fin n, |row[j]|) A

theorem sum_abs_le_infNorm {m n : Nat} (A : Dense Rat m n) (i : Fin m) :
    ∑ j : Fin n, |A[i][j]| ≤ infNorm A :=
  (isLargest_infNorm A).le (List.mem_cons_of_mem _ (List.mem_ofFn.mpr ⟨i, rfl⟩))

theorem infNorm_nonneg {m n : Nat} (A : Dense Rat m n) : 0 ≤ infNorm A :=
  (isLargest_infNorm A).le List.mem_cons_self

/-- A bound of all row sums is one of the norm. -/
theorem infNorm_le {m n : Nat} {A : Dense Rat m n} {c : Rat} (hc : 0 ≤ c)
    (h : ∀ i : Fin m, ∑ j : Fin n, |A[i][j]| ≤ c) : infNorm A ≤ c := by
  rcases List.mem_cons.mp (isLargest_infNorm A).mem with hzero | hmem
  · exact hzero.trans_le hc
  · obtain ⟨i, hi⟩ := List.mem_ofFn.mp hmem
    exact hi.symm.trans_le (h i)

end LinearSystems.Jacobi
