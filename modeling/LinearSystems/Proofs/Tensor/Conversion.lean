import Mathlib
import LinearSystems.Proofs.DoubleRounding
import LinearSystems.Proofs.Tensor.Nesting

/-!
# Nested lists as arrays

Nested lists become an array of doubles exactly if they are rectangular, not nested too deep, and
hold truth values and numbers alone, among which there is a number if there is anything at all. The
types of their leaves are few, and joined they are a type of numbers only if all of them are. Where
a leaf stands in the array is counted row by row; a truth value stands for zero or one there, and a
whole number for the double that is nearest to it.
-/

namespace LinearSystems

namespace ElementType

/-- The types of the leaves of nested lists, and of what they meet in. -/
inductive Plain : ElementType → Prop
  | truth : Plain .truth
  | integer (signed : Bool) : Plain (.integer signed 64)
  | real : Plain (.real 64)
  | text (width : Nat) : Plain (.text width)
  | object : Plain .object

/-- The elements are truth values or real numbers. -/
def IsNumeric (t : ElementType) : Prop :=
  t = .truth ∨ t.isReal = true

variable {s t : ElementType} {ts : List ElementType}

theorem Plain.join (hs : Plain s) (ht : Plain t) : Plain (join s t) := by
  cases hs with
  | truth => cases ht <;> constructor
  | integer signed =>
    cases ht with
    | integer signed' => cases signed <;> cases signed' <;> constructor
    | truth => constructor
    | real => constructor
    | text width => constructor
    | object => constructor
  | real => cases ht <;> constructor
  | text width => cases ht <;> constructor
  | object => cases ht <;> constructor

/-- Types meet in a type of numbers exactly if they are types of numbers. -/
theorem Plain.isNumeric_join (hs : Plain s) (ht : Plain t) :
    IsNumeric (ElementType.join s t) ↔ IsNumeric s ∧ IsNumeric t := by
  unfold IsNumeric
  cases hs with
  | integer signed =>
    cases ht with
    | integer signed' => cases signed <;> cases signed' <;> decide
    | _ => simp [ElementType.join, isReal]
  | _ => cases ht <;> simp [ElementType.join, isReal]

/-- What several types meet in is decided by all of them. -/
theorem Plain.foldl_join (hs : Plain s) (hts : ∀ t ∈ ts, Plain t) :
    (IsNumeric (ts.foldl ElementType.join s) ↔ IsNumeric s ∧ ∀ t ∈ ts, IsNumeric t) ∧
      (ts.foldl ElementType.join s = .truth ↔ s = .truth ∧ ∀ t ∈ ts, t = .truth) := by
  induction ts generalizing s with
  | nil => simp
  | cons t ts ih =>
    obtain ⟨ht, hts⟩ := List.forall_mem_cons.mp hts
    obtain ⟨hnumeric, htruth⟩ := ih (hs.join ht) hts
    rw [List.foldl_cons, hnumeric, htruth, hs.isNumeric_join ht, join_eq_truth,
      List.forall_mem_cons, List.forall_mem_cons, and_assoc, and_assoc]
    exact ⟨Iff.rfl, Iff.rfl⟩

/-- Only truth values, and at least one, meet in truth values; where there is none, the type is one
    of real numbers. -/
theorem joinAll_iff (hts : ∀ t ∈ ts, Plain t) :
    (IsNumeric (joinAll ts) ↔ ∀ t ∈ ts, IsNumeric t) ∧
      (joinAll ts = .truth ↔ ts ≠ [] ∧ ∀ t ∈ ts, t = .truth) := by
  cases ts with
  | nil => simp [joinAll, IsNumeric, isReal]
  | cons t ts =>
    obtain ⟨ht, hts⟩ := List.forall_mem_cons.mp hts
    obtain ⟨hnumeric, htruth⟩ := ht.foldl_join hts
    rw [joinAll, hnumeric, htruth, List.forall_mem_cons, List.forall_mem_cons]
    simp

/-- The check on types takes the types of numbers other than that of truth values. -/
theorem isReal_iff : t ≠ .object ∧ t.isReal = true ↔ IsNumeric t ∧ t ≠ .truth := by
  unfold IsNumeric
  cases t <;> simp [isReal]

end ElementType

namespace Datum

variable {d v : Datum}

/-- A leaf that an array of numbers takes: a truth value, a double, or a whole number of a word with
    or without a sign. -/
def IsEntry : Datum → Prop
  | .bool _ => True
  | .number (.real _) => True
  | .number (.whole i) => -2 ^ 63 ≤ i ∧ i < 2 ^ 64
  | _ => False

/-- The double that stands for a leaf. -/
def StandsFor : Datum → Float → Prop
  | .bool b, x => x = if b then 1.0 else 0.0
  | .number (.real y), x => x = y
  | .number (.whole i), x => Double.IsNearest i x
  | _, _ => False

/-- All leaves are taken as entries. -/
def HoldsEntries (d : Datum) : Prop :=
  ∀ path v, d.LeafAt path v → v.IsEntry

/-- There is a leaf, and all leaves are truth values. -/
def HoldsTruthAlone (d : Datum) : Prop :=
  (∃ path v, d.LeafAt path v) ∧ ∀ path v, d.LeafAt path v → ∃ b, v = .bool b

theorem listElementTypes_eq (items : List Datum) :
    listElementTypes items = items.flatMap elementTypes := by
  induction items with
  | nil => rw [listElementTypes, List.flatMap_nil]
  | cons d rest ih => rw [listElementTypes, ih, List.flatMap_cons]

/-- The types of the elements are those of the leaves. -/
theorem mem_elementTypes {t : ElementType} :
    t ∈ d.elementTypes ↔ ∃ path v, d.LeafAt path v ∧ v.singleType = t := by
  induction d using nested_induction with
  | leaf d hleaf =>
    have htypes : d.elementTypes = [d.singleType] := by
      cases d with
      | list items => cases hleaf
      | _ =>
        rw [elementTypes]
        simp
    rw [htypes, List.mem_singleton]
    constructor
    · intro ht
      exact ⟨[], d, ⟨rfl, hleaf⟩, ht.symm⟩
    · rintro ⟨path, v, ⟨hv, -⟩, rfl⟩
      cases path with
      | nil =>
        cases hv
        rfl
      | cons i path =>
        rw [at?_cons_of_length? hleaf] at hv
        cases hv
  | list items ih =>
    rw [elementTypes, listElementTypes_eq, List.mem_flatMap]
    constructor
    · rintro ⟨d, hd, ht⟩
      obtain ⟨path, v, ⟨hv, hleaf⟩, ht⟩ := (ih d hd).mp ht
      obtain ⟨i, hi⟩ := List.mem_iff_getElem?.mp hd
      exact ⟨i :: path, v, ⟨by rw [at?_list_cons, hi]; exact hv, hleaf⟩, ht⟩
    · rintro ⟨path, v, ⟨hv, hleaf⟩, ht⟩
      cases path with
      | nil =>
        cases hv
        cases hleaf
      | cons i path =>
        rw [at?_list_cons] at hv
        obtain ⟨d, hd, hv⟩ := Option.bind_eq_some_iff.mp hv
        have hmem := List.mem_of_getElem? hd
        exact ⟨d, hmem, (ih d hmem).mpr ⟨path, v, ⟨hv, hleaf⟩, ht⟩⟩

theorem forall_mem_elementTypes_iff {P : ElementType → Prop} :
    (∀ t ∈ d.elementTypes, P t) ↔ ∀ path v, d.LeafAt path v → P v.singleType := by
  constructor
  · intro h path v hv
    exact h _ (mem_elementTypes.mpr ⟨path, v, hv, rfl⟩)
  · intro h t ht
    obtain ⟨path, v, hv, rfl⟩ := mem_elementTypes.mp ht
    exact h path v hv

theorem elementTypes_ne_nil_iff : d.elementTypes ≠ [] ↔ ∃ path v, d.LeafAt path v := by
  constructor
  · intro hne
    obtain ⟨t, ht⟩ := List.exists_mem_of_ne_nil _ hne
    obtain ⟨path, v, hv, -⟩ := mem_elementTypes.mp ht
    exact ⟨path, v, hv⟩
  · rintro ⟨path, v, hv⟩
    exact List.ne_nil_of_mem (mem_elementTypes.mpr ⟨path, v, hv, rfl⟩)

theorem singleType_whole (i : Int) :
    (Datum.number (.whole i)).singleType =
      if -2 ^ 63 ≤ i ∧ i < 2 ^ 63 then .integer true 64
      else if 0 ≤ i ∧ i < 2 ^ 64 then .integer false 64
      else .object := rfl

/-- A leaf that is no array has one of the few types. -/
theorem plain_singleType (hleaf : d.length? = none) (hplain : d.isArray = false) :
    d.singleType.Plain := by
  cases d with
  | list items => cases hleaf
  | array a => cases hplain
  | objects shape items => cases hplain
  | null => exact .object
  | bool b => exact .truth
  | text s => exact .text _
  | record fields => exact .object
  | number x =>
    cases x with
    | real x => exact .real
    | whole i =>
      rw [singleType_whole]
      split_ifs
      · exact .integer true
      · exact .integer false
      · exact .object

theorem isNumeric_singleType_iff (hplain : d.isArray = false) :
    d.singleType.IsNumeric ↔ d.IsEntry := by
  cases d with
  | array a => cases hplain
  | number x =>
    cases x with
    | real x => simp [singleType, IsEntry, ElementType.IsNumeric, ElementType.isReal]
    | whole i =>
      rw [singleType_whole, IsEntry, ElementType.IsNumeric]
      split_ifs <;> simp only [ElementType.isReal] <;> simp <;> omega
  | _ => simp [singleType, IsEntry, ElementType.IsNumeric, ElementType.isReal]

theorem singleType_eq_truth_iff (hplain : d.isArray = false) :
    d.singleType = .truth ↔ ∃ b, d = .bool b := by
  cases d with
  | array a => cases hplain
  | number x =>
    cases x with
    | real x => simp [singleType]
    | whole i =>
      rw [singleType_whole]
      split_ifs <;> simp
  | _ => simp [singleType]

/-- The type of nested lists is one of real numbers exactly if all leaves are taken as entries and
    they are not truth values alone. -/
theorem isReal_elementType_iff (hd : d.IsNested) :
    d.elementType ≠ .object ∧ d.elementType.isReal = true ↔
      d.HoldsEntries ∧ ¬ d.HoldsTruthAlone := by
  have hplain : ∀ t ∈ d.elementTypes, ElementType.Plain t :=
    forall_mem_elementTypes_iff.mpr fun path v hv => plain_singleType hv.2 (hd path v hv.1)
  obtain ⟨hnumeric, htruth⟩ := ElementType.joinAll_iff hplain
  have hentries : (∀ t ∈ d.elementTypes, t.IsNumeric) ↔ d.HoldsEntries :=
    forall_mem_elementTypes_iff.trans <| forall₃_congr fun path v hv =>
      isNumeric_singleType_iff (hd path v hv.1)
  have hall : (∀ t ∈ d.elementTypes, t = .truth) ↔ ∀ path v, d.LeafAt path v → ∃ b, v = .bool b :=
    forall_mem_elementTypes_iff.trans <| forall₃_congr fun path v hv =>
      singleType_eq_truth_iff (hd path v hv.1)
  rw [ElementType.isReal_iff, elementType, hnumeric, ne_eq, htruth, hentries,
    elementTypes_ne_nil_iff, hall]
  exact Iff.rfl

/-- An entry is converted to the double that stands for it. -/
theorem standsFor_elementValue (h : v.IsEntry) : v.StandsFor v.elementValue := by
  cases v with
  | bool b => exact rfl
  | number x =>
    cases x with
    | real x => exact rfl
    | whole i =>
      have hsize : i.natAbs < 2 ^ 64 := by
        have hi : -2 ^ 63 ≤ i ∧ i < 2 ^ 64 := h
        omega
      have hlog : i.natAbs.log2 ≤ 1022 := by
        by_cases hzero : i.natAbs = 0
        · simp [hzero]
        · have := (Nat.log2_lt hzero).mpr hsize
          omega
      exact Double.isNearest_ofInt hlog
  | _ => cases h

end Datum

namespace Tensor

open Datum

variable {d : Datum} {t : Tensor} {name : String}

theorem volume_eq_prod (shape : List Nat) : volume shape = shape.prod := by
  induction shape with
  | nil => rfl
  | cons n shape ih => rw [volume_cons, ih, List.prod_cons]

/-- The array has the shape of the nested lists and as many entries as the shape asks for. Each leaf
    stands for the entry at the place that its path has row by row, and each entry is that of a
    leaf. -/
structure Holds (t : Tensor) (d : Datum) : Prop where
  hasShape : d.HasShape t.shape
  size_eq : t.entries.size = t.shape.prod
  places : ∀ path v, d.LeafAt path v →
    ∃ x, t.entries[rowMajor t.shape path]? = some x ∧ v.StandsFor x
  fills : ∀ k < t.entries.size, ∃ path v, d.LeafAt path v ∧ rowMajor t.shape path = k

/-- Nested lists become an array if they have a nesting and their leaves have a type of real
    numbers. -/
theorem ofDatum_eq_ok_iff (hd : d.IsNested) :
    ofDatum name d = .ok t ↔
      (d.HoldsEntries ∧ ¬ d.HoldsTruthAlone) ∧ ∃ N, nesting d = .ok N ∧ ofNesting N = t := by
  rw [ofDatum_of_ne_array hd.ne_array, ← isReal_elementType_iff hd]
  cases nesting d with
  | error defect => simp
  | ok N => simp [map_eq_ok_iff, checkType_eq_ok_iff]

/-- A check on types that fails tells the name of the data first. -/
theorem checkType_eq_error {typeName : String} {T : ElementType} {f : Fault}
    (h : checkType name T typeName = .error f) :
    f = .invalid (.objects name) ∨ f = .invalid (.notNumeric name typeName) := by
  rw [checkType] at h
  split_ifs at h
  · cases h
    exact .inl rfl
  · cases h
    exact .inr rfl

/-- What refuses nested lists is a defect of their nesting, and only without one the type of their
    leaves. -/
theorem ofDatum_eq_error_cases (hd : d.IsNested) {f : Fault} (h : ofDatum name d = .error f) :
    (∃ defect, nesting d = .error defect ∧ f = .invalid (.notArray name defect)) ∨
      (∃ N, nesting d = .ok N) ∧
        (f = .invalid (.objects name) ∨ ∃ typeName, f = .invalid (.notNumeric name typeName)) := by
  rw [ofDatum_of_ne_array hd.ne_array] at h
  cases hnesting : nesting d with
  | error defect =>
    rw [hnesting] at h
    cases h
    exact .inl ⟨defect, rfl, rfl⟩
  | ok N =>
    rw [hnesting] at h
    refine .inr ⟨⟨N, rfl⟩, ?_⟩
    cases hcheck : checkType name d.elementType d.elementType.name with
    | ok u =>
      rw [hcheck] at h
      cases h
    | error f' =>
      rw [hcheck] at h
      cases h
      exact (checkType_eq_error hcheck).imp_right fun hf => ⟨_, hf⟩

theorem exists_ofDatum_eq_ok_iff (name : String) (hd : d.IsNested) :
    (∃ t, ofDatum name d = .ok t) ↔
      d.IsRectangular ∧ d.IsWithin maxRank ∧ d.HoldsEntries ∧ ¬ d.HoldsTruthAlone := by
  have hnesting : (∃ N, nesting d = .ok N) ↔ d.IsRectangular ∧ d.IsWithin maxRank := by
    rw [← not_iff_not, ← exists_nesting_eq_error_iff hd]
    cases nesting d <;> simp
  rw [← and_assoc, ← hnesting]
  constructor
  · rintro ⟨t, ht⟩
    obtain ⟨hleaves, N, hN, -⟩ := (ofDatum_eq_ok_iff hd).mp ht
    exact ⟨⟨N, hN⟩, hleaves⟩
  · rintro ⟨⟨N, hN⟩, hleaves⟩
    exact ⟨ofNesting N, (ofDatum_eq_ok_iff hd).mpr ⟨hleaves, N, hN, rfl⟩⟩

/-- The array of nested lists holds their leaves in their places. -/
theorem holds_of_ofDatum (hd : d.IsNested) (h : ofDatum name d = .ok t) : t.Holds d := by
  obtain ⟨⟨hentries, -⟩, N, hN, rfl⟩ := (ofDatum_eq_ok_iff hd).mp h
  obtain ⟨-, hlaid⟩ := laidOut_of_nesting hd hN
  refine ⟨hlaid.hasShape, ?_, ?_, ?_⟩
  · rw [(ofNesting N).size_eq, volume_eq_prod]
  · intro path v hv
    refine ⟨v.elementValue, ?_, standsFor_elementValue (hentries path v hv)⟩
    have hplace := hlaid.places path v hv
    simp [ofNesting, hplace]
  · intro k hk
    have hk : k < N.leaves.length := by simpa [ofNesting] using hk
    exact hlaid.fills k hk

/-- All faults of nested lists are refusals that tell the name first. -/
theorem message_of_ofDatum_eq_error (hd : d.IsNested) {f : Fault}
    (h : ofDatum name d = .error f) :
    f.faultClass = .validation ∧ ∃ rest, f.message = name ++ ": " ++ rest := by
  have hfirst (start rest : String) :
      name ++ (": " ++ start) ++ rest = name ++ ": " ++ (start ++ rest) := by
    rw [String.append_assoc, String.append_assoc, String.append_assoc]
  rcases ofDatum_eq_error_cases hd h with ⟨defect, -, rfl⟩ | ⟨-, rfl | ⟨typeName, rfl⟩⟩
  · exact ⟨rfl, _, hfirst "cannot convert to array: " defect.message⟩
  · refine ⟨rfl, "converted to object dtype, indicating ragged rows or non-numeric data", ?_⟩
    rw [String.append_assoc]
    rfl
  · refine ⟨rfl, "non-numeric dtype " ++ (typeName ++ ", expected real numeric data"), ?_⟩
    rw [← hfirst, ← String.append_assoc]
    rfl

/-- Nested lists become an array exactly if they are rectangular, at most 64 deep, hold entries
    alone, and not truth values alone. The array then holds every leaf in its place. Otherwise they
    are refused by a fault that tells their name first, and by a defect of the shape exactly if
    there is one, whatever the leaves are. -/
theorem nested_lists_to_array (name : String) (hd : d.IsNested) :
    ((∃ t, ofDatum name d = .ok t) ↔
      d.IsRectangular ∧ d.IsWithin 64 ∧ d.HoldsEntries ∧ ¬ d.HoldsTruthAlone) ∧
    (∀ t, ofDatum name d = .ok t → t.Holds d) ∧
    ∀ f, ofDatum name d = .error f →
      f.faultClass = .validation ∧ (∃ rest, f.message = name ++ ": " ++ rest) ∧
      ((∃ defect, f = .invalid (.notArray name defect)) ↔ ¬ (d.IsRectangular ∧ d.IsWithin 64)) := by
  refine ⟨exists_ofDatum_eq_ok_iff name hd, fun t => holds_of_ofDatum hd, ?_⟩
  intro f hf
  obtain ⟨hclass, hmessage⟩ := message_of_ofDatum_eq_error hd hf
  refine ⟨hclass, hmessage, Iff.trans ?_ (exists_nesting_eq_error_iff hd)⟩
  rcases ofDatum_eq_error_cases hd hf with ⟨defect, hdefect, rfl⟩ | ⟨⟨N, hN⟩, hcause⟩
  · exact iff_of_true ⟨defect, rfl⟩ ⟨defect, hdefect⟩
  · apply iff_of_false
    · rintro ⟨defect, rfl⟩
      rcases hcause with h | ⟨typeName, h⟩ <;> cases h
    · rintro ⟨defect, hdefect⟩
      rw [hN] at hdefect
      cases hdefect

/-- Two rows of two leaves: a whole number that is between two doubles, a truth value, a double, and
    a negative whole number. -/
def twoRows : Datum :=
  .list [.list [.number (.whole (2 ^ 53 + 1)), .bool true],
    .list [.number (.real 2.5), .number (.whole (-7))]]

/-- Rows of different lengths, and a leaf that is no number. -/
def unequalRows : Datum :=
  .list [.list [.null], .list []]

/-- The two rows become an array that holds them. The unequal rows have a defect of their shape. -/
theorem nested_lists_to_array_two_rows :
    (twoRows.IsNested ∧ ∃ t, ofDatum "A" twoRows = .ok t ∧ t.shape = [2, 2] ∧ t.Holds twoRows) ∧
    unequalRows.IsNested ∧ ¬ unequalRows.IsRectangular ∧
      ∃ defect, ofDatum "A" unequalRows = .error (.invalid (.notArray "A" defect)) := by
  have htwo : twoRows.IsNested := by
    simp only [twoRows, isNested_list_iff, List.forall_mem_cons]
    refine ⟨⟨?_, ?_, by simp⟩, ⟨?_, ?_, by simp⟩, by simp⟩ <;> exact isNested_of_leaf rfl rfl
  have hunequal : unequalRows.IsNested := by
    simp only [unequalRows, isNested_list_iff, List.forall_mem_cons]
    exact ⟨⟨isNested_of_leaf rfl rfl, by simp⟩, by simp, by simp⟩
  have hragged : ¬ unequalRows.IsRectangular := by
    intro h
    have hlengths := h [0] [1] _ _ rfl rfl rfl
    cases hlengths
  refine ⟨⟨htwo, ?_⟩, hunequal, hragged, ?_⟩
  · obtain ⟨-, hholds, -⟩ := nested_lists_to_array "A" htwo
    exact ⟨_, rfl, rfl, hholds _ rfl⟩
  · obtain ⟨hok, -, herror⟩ := nested_lists_to_array "A" hunequal
    cases hdatum : ofDatum "A" unequalRows with
    | ok t => exact absurd (hok.mp ⟨t, hdatum⟩).1 hragged
    | error f =>
      obtain ⟨defect, rfl⟩ := (herror f hdatum).2.2.mpr fun h => hragged h.1
      exact ⟨defect, rfl⟩

end Tensor

end LinearSystems
