import Mathlib
import LinearSystems.Proofs.Tensor.Rows
import LinearSystems.Tensor.Conversion

/-!
# Nested lists

What a nested list holds is found by paths of indices. Its nesting is rectangular if all that is
found by paths of one length is lists of one length, or no list at all. The dimensions are taken
from the lists of one depth after the other: all data of one depth stand in a row, and the lists
among them are put one after the other to make the row of the next depth. So what is found by a path
stands in the row of its depth at the place that counts the indices of the path row by row.
-/

namespace LinearSystems

namespace Datum

/-- What a path of indices leads to in nested lists. -/
def at? : List Nat → Datum → Option Datum
  | [], d => some d
  | i :: path, .list items => items[i]?.bind (at? path)
  | _ :: _, _ => none

/-- The length of a list; none for data of another kind, which is a leaf. -/
def length? : Datum → Option Nat
  | .list items => some items.length
  | _ => none

/-- The path leads to a leaf. -/
def LeafAt (d : Datum) (path : List Nat) (v : Datum) : Prop :=
  d.at? path = some v ∧ v.length? = none

/-- The datum consists of nested lists and of leaves that are no arrays. -/
def IsNested (d : Datum) : Prop :=
  ∀ path v, d.at? path = some v → v.isArray = false

/-- At every depth all data are lists of one length, or none is a list. -/
def IsRectangular (d : Datum) : Prop :=
  ∀ path path' v v', path.length = path'.length → d.at? path = some v → d.at? path' = some v' →
    v.length? = v'.length?

/-- The lists are nested at most to a depth. -/
def IsWithin (limit : Nat) (d : Datum) : Prop :=
  ∀ path v, d.at? path = some v → v.length? ≠ none → path.length < limit

/-- The shape of nested lists: at each of its depths there are data, and they are lists of the
    length that stands there; behind its last depth there are leaves alone. -/
structure HasShape (d : Datum) (shape : List Nat) : Prop where
  length_eq : ∀ path v, d.at? path = some v → v.length? = shape[path.length]?
  reaches : ∀ k < shape.length, ∃ path v, path.length = k ∧ d.at? path = some v

variable {d v : Datum} {items : List Datum} {n : Nat}

@[simp] theorem at?_list_cons (items : List Datum) (i : Nat) (path : List Nat) :
    (Datum.list items).at? (i :: path) = items[i]?.bind (at? path) := rfl

theorem length?_eq_some_iff : d.length? = some n ↔ ∃ items, d = .list items ∧ items.length = n := by
  cases d <;> simp [length?]

theorem at?_cons_of_length? (h : d.length? = none) (i : Nat) (path : List Nat) :
    d.at? (i :: path) = none := by
  cases d with
  | list items => cases h
  | _ => rfl

/-- Data that is no array has the parts that it has as a list. -/
theorem map_length_parts? (h : d.isArray = false) : d.parts?.map List.length = d.length? := by
  cases d with
  | array a => cases h
  | objects shape items => cases h
  | _ => rfl

theorem isSingle_iff (h : d.isArray = false) : d.isSingle = true ↔ d.length? = none := by
  rw [← map_length_parts? h, Option.map_eq_none_iff, isSingle, Option.isNone_iff_eq_none]

theorem parts_of_length? (h : d.length? = some n) : d = .list d.parts ∧ d.parts.length = n := by
  obtain ⟨items, rfl, hlength⟩ := length?_eq_some_iff.mp h
  exact ⟨rfl, hlength⟩

/-- What holds of leaves, and of a list if it holds of its elements, holds of nested lists. -/
theorem nested_induction {P : Datum → Prop} (leaf : ∀ d, d.length? = none → P d)
    (list : ∀ items, (∀ d ∈ items, P d) → P (.list items)) (d : Datum) : P d :=
  match d with
  | .list items => list items fun d _ => nested_induction leaf list d
  | .null => leaf _ rfl
  | .bool _ => leaf _ rfl
  | .number _ => leaf _ rfl
  | .text _ => leaf _ rfl
  | .record _ => leaf _ rfl
  | .array _ => leaf _ rfl
  | .objects _ _ => leaf _ rfl

theorem isNested_of_leaf (hleaf : d.length? = none) (hplain : d.isArray = false) : d.IsNested := by
  intro path v hv
  cases path with
  | nil =>
    cases hv
    exact hplain
  | cons i path =>
    rw [at?_cons_of_length? hleaf] at hv
    cases hv

theorem IsNested.ne_array (h : d.IsNested) (a : TypedArray) : d ≠ .array a := by
  rintro rfl
  cases h [] _ rfl

theorem isNested_list_iff : (Datum.list items).IsNested ↔ ∀ d ∈ items, d.IsNested := by
  constructor
  · intro h d hd path v hv
    obtain ⟨i, hi⟩ := List.mem_iff_getElem?.mp hd
    exact h (i :: path) v (by rw [at?_list_cons, hi]; exact hv)
  · intro h path v hv
    cases path with
    | nil =>
      cases hv
      rfl
    | cons i path =>
      obtain ⟨d, hd, hv⟩ := Option.bind_eq_some_iff.mp hv
      exact h d (List.mem_of_getElem? hd) path v hv

/-- In a list of one datum, the paths lead through that datum. -/
theorem at?_singleton {i : Nat} {path : List Nat} :
    (Datum.list [d]).at? (i :: path) = some v ↔ i = 0 ∧ d.at? path = some v := by
  rw [at?_list_cons]
  cases i with
  | zero => simp
  | succ i => simp

theorem isNested_singleton (h : d.IsNested) : (Datum.list [d]).IsNested :=
  isNested_list_iff.mpr fun _ hmem => List.mem_singleton.mp hmem ▸ h

theorem isRectangular_singleton (h : d.IsRectangular) : (Datum.list [d]).IsRectangular := by
  intro path path' v v' hlength hv hv'
  cases path with
  | nil =>
    cases path' with
    | nil =>
      cases hv
      cases hv'
      rfl
    | cons i' path' => cases hlength
  | cons i path =>
    cases path' with
    | nil => cases hlength
    | cons i' path' =>
      exact h path path' v v' (Nat.succ.inj hlength) (at?_singleton.mp hv).2
        (at?_singleton.mp hv').2

theorem isWithin_singleton {limit : Nat} (h : d.IsWithin limit) :
    (Datum.list [d]).IsWithin (limit + 1) := by
  intro path v hv hlist
  cases path with
  | nil => exact Nat.succ_pos limit
  | cons i path => exact Nat.succ_lt_succ (h path v (at?_singleton.mp hv).2 hlist)

/-- Nested lists that have a shape are rectangular. -/
theorem HasShape.isRectangular {shape : List Nat} (h : d.HasShape shape) : d.IsRectangular := by
  intro path path' v v' hlength hv hv'
  rw [h.length_eq path v hv, h.length_eq path' v' hv', hlength]

theorem HasShape.isWithin {shape : List Nat} {limit : Nat} (h : d.HasShape shape)
    (hlimit : shape.length ≤ limit) : d.IsWithin limit := by
  intro path v hv hlist
  rw [h.length_eq path v hv, ne_eq, List.getElem?_eq_none_iff] at hlist
  omega

section Rows

variable (hitems : ∀ d ∈ items, d.length? = some n)

include hitems

theorem getElem?_flatMap_parts {j : Nat} (hj : j < n) (i : Nat) :
    (items.flatMap parts)[i * n + j]? = items[i]?.bind fun d => d.parts[j]? := by
  induction items generalizing i with
  | nil => simp
  | cons d rest ih =>
    have hd := (parts_of_length? (hitems d List.mem_cons_self)).2
    rw [List.flatMap_cons]
    cases i with
    | zero =>
      rw [Nat.zero_mul, Nat.zero_add, List.getElem?_append_left (hd ▸ hj)]
      rfl
    | succ i =>
      have hplace : (i + 1) * n + j = d.parts.length + (i * n + j) := by
        rw [hd]
        ring
      rw [hplace, List.getElem?_append_right (Nat.le_add_right _ _), Nat.add_sub_cancel_left,
        ih (fun d hd => hitems d (List.mem_cons_of_mem _ hd))]
      rfl

/-- Two indices into rows of one length are one index into the rows put one after the other. -/
theorem at?_flatMap_parts {j : Nat} (hj : j < n) (i : Nat) (path : List Nat) :
    (Datum.list (items.flatMap parts)).at? ((i * n + j) :: path) =
      (Datum.list items).at? (i :: j :: path) := by
  rw [at?_list_cons, at?_list_cons, getElem?_flatMap_parts hitems hj, Option.bind_assoc]
  cases hi : items[i]? with
  | none => rfl
  | some d =>
    have hd := (parts_of_length? (hitems d (List.mem_of_getElem? hi))).1
    rw [Option.bind_some, Option.bind_some, hd, at?_list_cons]
    rfl

theorem at?_flatMap_parts_div (hn : 0 < n) (k : Nat) (path : List Nat) :
    (Datum.list (items.flatMap parts)).at? (k :: path) =
      (Datum.list items).at? (k / n :: k % n :: path) := by
  rw [← at?_flatMap_parts hitems (Nat.mod_lt k hn), Nat.div_add_mod']

/-- A path with an index beyond the length of a row leads nowhere. -/
theorem lt_of_at?_eq_some {i j : Nat} {path : List Nat}
    (h : (Datum.list items).at? (i :: j :: path) = some v) : j < n := by
  rw [at?_list_cons] at h
  obtain ⟨d, hd, hv⟩ := Option.bind_eq_some_iff.mp h
  obtain ⟨hlist, hlength⟩ := parts_of_length? (hitems d (List.mem_of_getElem? hd))
  rw [hlist, at?_list_cons] at hv
  obtain ⟨w, hw, -⟩ := Option.bind_eq_some_iff.mp hv
  exact hlength ▸ (List.getElem?_eq_some_iff.mp hw).1

theorem isNested_flatMap (hn : 0 < n) (h : (Datum.list items).IsNested) :
    (Datum.list (items.flatMap parts)).IsNested := by
  intro path v hv
  cases path with
  | nil =>
    cases hv
    rfl
  | cons k path =>
    rw [at?_flatMap_parts_div hitems hn] at hv
    exact h _ v hv

theorem isRectangular_flatMap (hn : 0 < n) (h : (Datum.list items).IsRectangular) :
    (Datum.list (items.flatMap parts)).IsRectangular := by
  intro path path' v v' hlength hv hv'
  cases path with
  | nil =>
    cases path' with
    | nil =>
      cases hv
      cases hv'
      rfl
    | cons k path' => cases hlength
  | cons k path =>
    cases path' with
    | nil => cases hlength
    | cons k' path' =>
      rw [at?_flatMap_parts_div hitems hn] at hv hv'
      refine h _ _ v v' ?_ hv hv'
      exact congrArg Nat.succ hlength

theorem isWithin_flatMap (hn : 0 < n) {limit : Nat} (h : (Datum.list items).IsWithin (limit + 1))
    (hlimit : 0 < limit) : (Datum.list (items.flatMap parts)).IsWithin limit := by
  intro path v hv hlist
  cases path with
  | nil => exact hlimit
  | cons k path =>
    rw [at?_flatMap_parts_div hitems hn] at hv
    exact Nat.lt_of_succ_lt_succ (h _ v hv hlist)

end Rows

end Datum

namespace Tensor

open Datum

/-- The place that a path of indices has in a shape, when the places are counted row by row. -/
def rowMajor : (shape path : List Nat) → Nat
  | _ :: shape, i :: path => i * volume shape + rowMajor shape path
  | _, _ => 0

/-- The rows of one depth, and the leaves that they hold in order: below the rows the lists have the
    given dimensions, and the leaf at a path stands where the place of the row and the indices after
    it say. Every leaf of the order is one of these. -/
structure Lays (items : List Datum) (rest : List Nat) (leaves : List Datum) : Prop where
  length_eq : ∀ i path v, (Datum.list items).at? (i :: path) = some v →
    v.length? = rest[path.length]?
  reaches : ∀ k < rest.length, ∃ i path v, path.length = k ∧
    (Datum.list items).at? (i :: path) = some v
  places : ∀ i path v, (Datum.list items).LeafAt (i :: path) v →
    leaves[i * volume rest + rowMajor rest path]? = some v
  fills : ∀ k < leaves.length, ∃ i path v, (Datum.list items).LeafAt (i :: path) v ∧
    i * volume rest + rowMajor rest path = k

variable {items leaves : List Datum} {rest : List Nat} {n : Nat}

/-- Leaves stand in their own order. -/
theorem lays_of_leaves (h : ∀ d ∈ items, d.length? = none) : Lays items [] items := by
  have hpath {i : Nat} {path : List Nat} {v : Datum}
      (hv : (Datum.list items).at? (i :: path) = some v) : path = [] ∧ items[i]? = some v := by
    obtain ⟨d, hd, hv⟩ := Option.bind_eq_some_iff.mp hv
    cases path with
    | nil => exact ⟨rfl, hd.trans hv⟩
    | cons j path =>
      rw [at?_cons_of_length? (h d (List.mem_of_getElem? hd))] at hv
      cases hv
  constructor
  · intro i path v hv
    obtain ⟨rfl, hi⟩ := hpath hv
    rw [h v (List.mem_of_getElem? hi)]
    rfl
  · intro k hk
    cases hk
  · rintro i path v ⟨hv, -⟩
    obtain ⟨rfl, hi⟩ := hpath hv
    simpa [rowMajor] using hi
  · intro k hk
    refine ⟨k, [], items[k], ⟨?_, h _ (List.getElem_mem hk)⟩, by simp [rowMajor]⟩
    rw [at?_list_cons, List.getElem?_eq_getElem hk]
    rfl

/-- Lists without elements hold no leaf. -/
theorem lays_of_empty (hne : items ≠ []) (h : ∀ d ∈ items, d.length? = some 0) :
    Lays items [0] [] := by
  have hpath {i : Nat} {path : List Nat} {v : Datum}
      (hv : (Datum.list items).at? (i :: path) = some v) : path = [] ∧ v ∈ items := by
    cases path with
    | nil =>
      obtain ⟨d, hd, hv⟩ := Option.bind_eq_some_iff.mp hv
      cases hv
      exact ⟨rfl, List.mem_of_getElem? hd⟩
    | cons j path => exact absurd (lt_of_at?_eq_some h hv) (Nat.not_lt_zero j)
  constructor
  · intro i path v hv
    obtain ⟨rfl, hmem⟩ := hpath hv
    exact h v hmem
  · intro k hk
    obtain ⟨first, others, rfl⟩ := List.exists_cons_of_ne_nil hne
    obtain rfl : k = 0 := Nat.lt_one_iff.mp hk
    exact ⟨0, [], first, rfl, rfl⟩
  · rintro i path v ⟨hv, hleaf⟩
    obtain ⟨-, hmem⟩ := hpath hv
    rw [h v hmem] at hleaf
    cases hleaf
  · intro k hk
    cases hk

/-- The rows of the next depth are those of this depth, put one after the other. -/
theorem Lays.cons (hn : 0 < n) (hne : items ≠ []) (hitems : ∀ d ∈ items, d.length? = some n)
    (h : Lays (items.flatMap parts) rest leaves) : Lays items (n :: rest) leaves := by
  have hplace (i j : Nat) (path : List Nat) :
      (i * n + j) * volume rest + rowMajor rest path =
        i * volume (n :: rest) + rowMajor (n :: rest) (j :: path) := by
    rw [volume_cons, rowMajor]
    ring
  constructor
  · intro i path v hv
    cases path with
    | nil =>
      obtain ⟨d, hd, hv⟩ := Option.bind_eq_some_iff.mp hv
      cases hv
      exact hitems _ (List.mem_of_getElem? hd)
    | cons j path =>
      rw [← at?_flatMap_parts hitems (lt_of_at?_eq_some hitems hv)] at hv
      exact h.length_eq _ path v hv
  · intro k hk
    cases k with
    | zero =>
      obtain ⟨first, others, rfl⟩ := List.exists_cons_of_ne_nil hne
      exact ⟨0, [], first, rfl, rfl⟩
    | succ k =>
      obtain ⟨i, path, v, hlength, hv⟩ := h.reaches k (Nat.lt_of_succ_lt_succ hk)
      rw [at?_flatMap_parts_div hitems hn] at hv
      exact ⟨i / n, i % n :: path, v, congrArg Nat.succ hlength, hv⟩
  · rintro i path v ⟨hv, hleaf⟩
    cases path with
    | nil =>
      obtain ⟨d, hd, hv⟩ := Option.bind_eq_some_iff.mp hv
      cases hv
      rw [hitems _ (List.mem_of_getElem? hd)] at hleaf
      cases hleaf
    | cons j path =>
      rw [← at?_flatMap_parts hitems (lt_of_at?_eq_some hitems hv)] at hv
      rw [← hplace]
      exact h.places _ path v ⟨hv, hleaf⟩
  · intro k hk
    obtain ⟨i, path, v, ⟨hv, hleaf⟩, rfl⟩ := h.fills k hk
    rw [at?_flatMap_parts_div hitems hn] at hv
    refine ⟨i / n, i % n :: path, v, ⟨hv, hleaf⟩, ?_⟩
    rw [← hplace, Nat.div_add_mod']

variable {limit allowed : Nat} {shape : List Nat}

theorem all_isSingle_iff (h : ∀ d ∈ items, d.isArray = false) :
    items.all Datum.isSingle = true ↔ ∀ d ∈ items, d.length? = none := by
  rw [List.all_eq_true]
  constructor
  · intro hall d hd
    exact (isSingle_iff (h d hd)).mp (hall d hd)
  · intro hall d hd
    exact (isSingle_iff (h d hd)).mpr (hall d hd)

theorem allOfLength_iff (h : ∀ d ∈ items, d.isArray = false) :
    allOfLength n items = true ↔ ∀ d ∈ items, d.length? = some n := by
  rw [allOfLength, List.all_eq_true]
  constructor
  · intro hall d hd
    rw [← map_length_parts? (h d hd)]
    exact beq_iff_eq.mp (hall d hd)
  · intro hall d hd
    rw [map_length_parts? (h d hd), hall d hd]
    exact beq_self_eq_true _

/-- Lists without elements add one dimension, if there is room for it. -/
theorem exists_hollow_eq (limit : Nat) (shape : List Nat) (hroom : shape.length + 1 ≤ limit)
    (hne : items ≠ []) (h : ∀ d ∈ items, d.length? = some 0) :
    ∃ hvolume, hollow limit shape items = .ok ⟨shape ++ [0], [], hvolume⟩ := by
  have hkept : (rest : List Datum) → (∀ d ∈ rest, d.length? = some 0) →
      rest.foldl Common.takeIn ⟨some [0], false⟩ = ⟨some [0], false⟩ := by
    intro rest hrest
    induction rest with
    | nil => rfl
    | cons d rest ih =>
      obtain ⟨hd, hrest⟩ := List.forall_mem_cons.mp hrest
      rw [List.foldl_cons, (parts_of_length? hd).1]
      exact ih hrest
  obtain ⟨first, others, rfl⟩ := List.exists_cons_of_ne_nil hne
  obtain ⟨hfirst, hothers⟩ := List.forall_mem_cons.mp h
  have hcommon : (first :: others).foldl Common.takeIn {} = ⟨some [0], false⟩ := by
    rw [List.foldl_cons, (parts_of_length? hfirst).1]
    exact hkept others hothers
  have hshape : ((((first :: others).head?.bind Datum.arrayShape?).getD [0]).length) = 1 := by
    rw [(parts_of_length? hfirst).1]
    rfl
  have hvolume : volume (shape ++ [0]) = 0 := by rw [volume_append_singleton, Nat.mul_zero]
  refine ⟨hvolume.symm, ?_⟩
  rw [hollow]
  simp only [hcommon, hshape, if_neg (not_lt.mpr hroom), Option.getD_some]
  exact dif_pos ⟨rfl, hvolume⟩

/-- So they end the nesting. -/
theorem exists_unfold_of_empty {k : Nat} (h : items.length = volume shape)
    (hroom : shape.length + 1 ≤ limit) (hne : items ≠ [])
    (hitems : ∀ d ∈ items, d.length? = some 0) :
    ∃ h', unfold limit (k + 1) shape items h = .ok ⟨shape ++ [0], [], h'⟩ := by
  have hplain : ∀ d ∈ items, d.isArray = false := by
    intro d hd
    rw [(parts_of_length? (hitems d hd)).1]
    rfl
  obtain ⟨first, others, rfl⟩ := List.exists_cons_of_ne_nil hne
  have hfirst := hitems first List.mem_cons_self
  have hlength : ((first :: others).headD .null).parts.length = 0 := (parts_of_length? hfirst).2
  have hlists : ¬ (first :: others).all Datum.isSingle = true := by
    intro hall
    have hnone := (all_isSingle_iff hplain).mp hall first List.mem_cons_self
    rw [hfirst] at hnone
    cases hnone
  obtain ⟨hvolume, hhollow⟩ := exists_hollow_eq limit shape hroom hne hitems
  refine ⟨hvolume, ?_⟩
  rw [unfold, if_neg hlists]
  simp only [hlength]
  rw [dif_pos ((allOfLength_iff hplain).mpr hitems), if_pos trivial, hhollow]

/-- What the data of one depth can be: leaves alone; lists without elements alone; lists of one
    length alone, which are unfolded to the next depth; or what ends the nesting, because they are
    not uniform or are lists where none is allowed any more. -/
theorem unfold_cases (h : items.length = volume shape) (hroom : shape.length + allowed = limit)
    (hnested : (Datum.list items).IsNested) :
    ((∀ d ∈ items, d.length? = none) ∧ unfold limit allowed shape items h = .ok ⟨shape, items, h⟩) ∨
    (0 < allowed ∧ items ≠ [] ∧ (∀ d ∈ items, d.length? = some 0) ∧
      ∃ h', unfold limit allowed shape items h = .ok ⟨shape ++ [0], [], h'⟩) ∨
    (∃ n k h', 0 < n ∧ allowed = k + 1 ∧ items ≠ [] ∧ (∀ d ∈ items, d.length? = some n) ∧
      unfold limit allowed shape items h =
        unfold limit k (shape ++ [n]) (items.flatMap parts) h') ∨
    ((∃ defect, unfold limit allowed shape items h = .error defect) ∧
      ¬ ((Datum.list items).IsRectangular ∧ (Datum.list items).IsWithin (allowed + 1))) := by
  have hmem {d : Datum} (hd : d ∈ items) : ∃ i, (Datum.list items).at? [i] = some d := by
    obtain ⟨i, hi⟩ := List.mem_iff_getElem?.mp hd
    exact ⟨i, by rw [at?_list_cons, hi]; rfl⟩
  have hplain : ∀ d ∈ items, d.isArray = false := by
    intro d hd
    obtain ⟨i, hi⟩ := hmem hd
    exact hnested [i] d hi
  by_cases hleaves : ∀ d ∈ items, d.length? = none
  · exact .inl ⟨hleaves, unfold_of_isSingle h ((all_isSingle_iff hplain).mpr hleaves)⟩
  have hlists : ¬ items.all Datum.isSingle = true := fun hall =>
    hleaves ((all_isSingle_iff hplain).mp hall)
  obtain ⟨d, hd, hlist⟩ : ∃ d ∈ items, d.length? ≠ none := by simpa using hleaves
  cases allowed with
  | zero =>
    obtain ⟨i, hi⟩ := hmem hd
    refine .inr (.inr (.inr ⟨⟨.tooDeep limit, by rw [unfold, if_neg hlists]⟩, ?_⟩))
    rintro ⟨-, hwithin⟩
    exact absurd (hwithin [i] d hi hlist) (lt_irrefl 1)
  | succ k =>
    by_cases huniform : ∃ n, ∀ d ∈ items, d.length? = some n
    · obtain ⟨n, hitems⟩ := huniform
      have hne : items ≠ [] := List.ne_nil_of_mem hd
      rcases Nat.eq_zero_or_pos n with rfl | hn
      · have hdepth : shape.length + 1 ≤ limit := by omega
        exact .inr (.inl ⟨Nat.succ_pos k, hne, hitems,
          exists_unfold_of_empty h hdepth hne hitems⟩)
      · obtain ⟨h', hunfold⟩ := exists_unfold_eq limit k shape items h hne hn (by
          intro d hd
          rw [← Option.map_eq_some_iff, map_length_parts? (hplain d hd)]
          exact hitems d hd)
        exact .inr (.inr (.inl ⟨n, k, h', hn, rfl, hne, hitems, hunfold⟩))
    · have hragged : allOfLength (items.headD .null).parts.length items ≠ true := fun hall =>
        huniform ⟨_, (allOfLength_iff hplain).mp hall⟩
      refine .inr (.inr (.inr ⟨⟨.ragged shape, ?_⟩, ?_⟩))
      · rw [unfold, if_neg hlists]
        exact dif_neg hragged
      · rintro ⟨hrectangular, -⟩
        obtain ⟨n, hn⟩ := Option.ne_none_iff_exists'.mp hlist
        apply huniform
        refine ⟨n, ?_⟩
        intro d' hd'
        obtain ⟨i, hi⟩ := hmem hd
        obtain ⟨i', hi'⟩ := hmem hd'
        rw [← hn]
        exact hrectangular [i'] [i] d' d rfl hi' hi

/-- What unfolds without a defect is laid out. -/
theorem exists_lays {N : Nesting} (h : items.length = volume shape)
    (hroom : shape.length + allowed = limit) (hnested : (Datum.list items).IsNested)
    (hN : unfold limit allowed shape items h = .ok N) :
    ∃ rest, N.shape = shape ++ rest ∧ rest.length ≤ allowed ∧ Lays items rest N.leaves := by
  induction allowed using Nat.strong_induction_on generalizing shape items with
  | h allowed ih =>
    rcases unfold_cases h hroom hnested with
      ⟨hleaves, hok⟩ | ⟨hpos, hne, hitems, h', hok⟩ | ⟨n, k, h', hn, rfl, hne, hitems, hnext⟩ |
        ⟨⟨defect, herror⟩, -⟩
    · rw [hok] at hN
      cases hN
      exact ⟨[], (List.append_nil shape).symm, Nat.zero_le _, lays_of_leaves hleaves⟩
    · rw [hok] at hN
      cases hN
      exact ⟨[0], rfl, hpos, lays_of_empty hne hitems⟩
    · rw [hnext] at hN
      have hroom' : (shape ++ [n]).length + k = limit := by
        rw [List.length_append, List.length_singleton]
        omega
      obtain ⟨rest, hshape, hlength, hlays⟩ :=
        ih k (Nat.lt_succ_self k) h' hroom' (isNested_flatMap hitems hn hnested) hN
      refine ⟨n :: rest, ?_, Nat.succ_le_succ hlength, hlays.cons hn hne hitems⟩
      rw [hshape, List.append_assoc, List.singleton_append]
    · rw [herror] at hN
      cases hN

/-- What does not unfold is not rectangular or nested too deep. -/
theorem not_isRectangular_of_unfold {defect : ShapeDefect} (h : items.length = volume shape)
    (hroom : shape.length + allowed = limit) (hnested : (Datum.list items).IsNested)
    (herror : unfold limit allowed shape items h = .error defect) :
    ¬ ((Datum.list items).IsRectangular ∧ (Datum.list items).IsWithin (allowed + 1)) := by
  induction allowed using Nat.strong_induction_on generalizing shape items with
  | h allowed ih =>
    rcases unfold_cases h hroom hnested with
      ⟨-, hok⟩ | ⟨-, -, -, h', hok⟩ | ⟨n, k, h', hn, rfl, -, hitems, hnext⟩ | ⟨-, hnot⟩
    · rw [hok] at herror
      cases herror
    · rw [hok] at herror
      cases herror
    · rw [hnext] at herror
      have hroom' : (shape ++ [n]).length + k = limit := by
        rw [List.length_append, List.length_singleton]
        omega
      rintro ⟨hrectangular, hwithin⟩
      exact ih k (Nat.lt_succ_self k) h' hroom' (isNested_flatMap hitems hn hnested) herror
        ⟨isRectangular_flatMap hitems hn hrectangular,
          isWithin_flatMap hitems hn hwithin (Nat.succ_pos k)⟩
    · exact hnot

/-- The leaves are those of the nested lists, and each of them stands where its path says. -/
structure LaidOut (d : Datum) (shape : List Nat) (leaves : List Datum) : Prop where
  hasShape : d.HasShape shape
  places : ∀ path v, d.LeafAt path v → leaves[rowMajor shape path]? = some v
  fills : ∀ k < leaves.length, ∃ path v, d.LeafAt path v ∧ rowMajor shape path = k

theorem Lays.laidOut {d : Datum} {shape : List Nat} (h : Lays [d] shape leaves) :
    LaidOut d shape leaves := by
  refine ⟨⟨?_, ?_⟩, ?_, ?_⟩
  · intro path v hv
    exact h.length_eq 0 path v (at?_singleton.mpr ⟨rfl, hv⟩)
  · intro k hk
    obtain ⟨i, path, v, hlength, hv⟩ := h.reaches k hk
    exact ⟨path, v, hlength, (at?_singleton.mp hv).2⟩
  · rintro path v ⟨hv, hleaf⟩
    have hplace := h.places 0 path v ⟨at?_singleton.mpr ⟨rfl, hv⟩, hleaf⟩
    rw [Nat.zero_mul, Nat.zero_add] at hplace
    exact hplace
  · intro k hk
    obtain ⟨i, path, v, ⟨hv, hleaf⟩, hplace⟩ := h.fills k hk
    obtain ⟨rfl, hv⟩ := at?_singleton.mp hv
    rw [Nat.zero_mul, Nat.zero_add] at hplace
    exact ⟨path, v, ⟨hv, hleaf⟩, hplace⟩

theorem firstUnfit?_eq_none {place : List Nat} (h : ∀ d ∈ items, unfit? place d = none) :
    firstUnfit? place items = none := by
  induction items with
  | nil => rw [firstUnfit?]
  | cons d rest ih =>
    obtain ⟨hd, hrest⟩ := List.forall_mem_cons.mp h
    rw [firstUnfit?, hd, ih hrest]
    rfl

/-- Only an array does not fit its place. -/
theorem unfit?_eq_none {d : Datum} (hd : d.IsNested) (place : List Nat) :
    unfit? place d = none := by
  induction d using nested_induction generalizing place with
  | leaf d hleaf =>
    have hplain := hd [] d rfl
    cases d with
    | list items => cases hleaf
    | array a => cases hplain
    | objects shape items => cases hplain
    | _ => rw [unfit?] <;> simp
  | list items ih =>
    rw [unfit?]
    exact firstUnfit?_eq_none fun d hmem => ih d hmem (isNested_list_iff.mp hd d hmem) _

theorem nesting_eq_unfold {d : Datum} (hd : d.IsNested) :
    nesting d = unfold maxRank maxRank [] [d] rfl := by
  rw [nesting, nestingWithin]
  cases unfold maxRank maxRank [] [d] rfl with
  | error defect => rfl
  | ok N =>
    rw [ok_bind, unfit?_eq_none hd]
    cases N.leaves.isEmpty <;> rfl

/-- Nested lists that have a nesting are laid out in it. -/
theorem laidOut_of_nesting {d : Datum} {N : Nesting} (hd : d.IsNested) (hN : nesting d = .ok N) :
    N.shape.length ≤ maxRank ∧ LaidOut d N.shape N.leaves := by
  rw [nesting_eq_unfold hd] at hN
  obtain ⟨rest, hshape, hlength, hlays⟩ :=
    exists_lays rfl (Nat.zero_add maxRank) (isNested_singleton hd) hN
  rw [List.nil_append] at hshape
  rw [hshape]
  exact ⟨hlength, hlays.laidOut⟩

/-- Nested lists have a defect exactly if they are not rectangular or nested too deep. -/
theorem exists_nesting_eq_error_iff {d : Datum} (hd : d.IsNested) :
    (∃ defect, nesting d = .error defect) ↔ ¬ (d.IsRectangular ∧ d.IsWithin maxRank) := by
  constructor
  · rintro ⟨defect, herror⟩ ⟨hrectangular, hwithin⟩
    rw [nesting_eq_unfold hd] at herror
    exact not_isRectangular_of_unfold rfl (Nat.zero_add maxRank) (isNested_singleton hd) herror
      ⟨isRectangular_singleton hrectangular, isWithin_singleton hwithin⟩
  · intro hnot
    cases hN : nesting d with
    | error defect => exact ⟨defect, rfl⟩
    | ok N =>
      obtain ⟨hlength, hlaid⟩ := laidOut_of_nesting hd hN
      exact absurd ⟨hlaid.hasShape.isRectangular, hlaid.hasShape.isWithin hlength⟩ hnot

end Tensor

end LinearSystems
