import Mathlib.Data.Fintype.Basic
import LinearSystems.FaultClass
import LinearSystems.Tensor.Check

/-!
# What the checks on arrays let through

Each check passes exactly on the arrays it is meant for, and then hands on what it was asked for. If
it does not pass, it refuses the array: the fault says that the data is not acceptable or that the
shapes do not fit. A check that reads a dimension does so only where the array has it, which the
checks before it have made sure of.

Data is taken as an array in the same way whatever name a fault would show, so the array that some
data stands for does not depend on the name.
-/

namespace LinearSystems

universe u v w

theorem bind_eq_ok_iff {ε : Type u} {α β : Type v} {x : Except ε α} {f : α → Except ε β} {b : β} :
    x >>= f = .ok b ↔ ∃ a, x = .ok a ∧ f a = .ok b := by
  cases x with
  | error e => simp [bind, Except.bind]
  | ok a => simp [bind, Except.bind]

theorem ok_bind {ε : Type u} {α β : Type v} (a : α) (f : α → Except ε β) :
    (Except.ok a >>= f) = f a := rfl

/-- The fault refuses data: it is not acceptable, or shapes do not fit. -/
def Fault.IsRefusal (f : Fault) : Prop :=
  f.faultClass = .validation ∨ f.faultClass = .dimensions

theorem Fault.isRefusal_invalid (cause : Invalid) : IsRefusal (.invalid cause) := .inl rfl

theorem Fault.isRefusal_mismatch (cause : Mismatch) : IsRefusal (.mismatch cause) := .inr rfl

/-- All that can go wrong is that data is refused. -/
def OnlyRefuses {α : Type u} (x : Except Fault α) : Prop :=
  ∀ f, x = .error f → f.IsRefusal

namespace OnlyRefuses

variable {α β : Type u}

theorem ok (a : α) : OnlyRefuses (.ok a) := by
  rintro f ⟨⟩

theorem invalid (cause : Invalid) : OnlyRefuses (.error (.invalid cause) : Except Fault α) := by
  rintro f ⟨⟩
  exact Fault.isRefusal_invalid cause

theorem mismatch (cause : Mismatch) : OnlyRefuses (.error (.mismatch cause) : Except Fault α) := by
  rintro f ⟨⟩
  exact Fault.isRefusal_mismatch cause

theorem bind {x : Except Fault α} {f : α → Except Fault β} (hx : OnlyRefuses x)
    (hf : ∀ a, OnlyRefuses (f a)) : OnlyRefuses (x >>= f) := by
  cases x with
  | error g =>
    rintro f' ⟨⟩
    exact hx g rfl
  | ok a => exact hf a

theorem map {x : Except Fault α} (f : α → β) (hx : OnlyRefuses x) : OnlyRefuses (x.map f) := by
  cases x with
  | error g =>
    rintro f' ⟨⟩
    exact hx g rfl
  | ok a => exact .ok (f a)

end OnlyRefuses

namespace Tensor

variable {t u : Tensor} {name : String} {m n : Nat}

theorem checkVector_eq_ok (name : String) (h : t.shape = [n]) :
    t.checkVector name = .ok ⟨n, h⟩ := by
  obtain ⟨shape, entries, hsize⟩ := t
  cases h
  rfl

theorem checkMatrix_eq_ok (name : String) (h : t.shape = [m, n]) :
    t.checkMatrix name = .ok ⟨(m, n), h⟩ := by
  obtain ⟨shape, entries, hsize⟩ := t
  cases h
  rfl

theorem checkNonempty_eq_ok (name : String) {rest : List Nat} (h : t.shape = n :: rest)
    (hn : 0 < n) : t.checkNonempty name = .ok ⟨n, hn, by rw [h]; rfl⟩ := by
  obtain ⟨shape, entries, hsize⟩ := t
  cases h
  cases n with
  | zero => cases hn
  | succ n => rfl

theorem checkSquare_eq_ok (name : String) (h : t.shape = [n, n]) :
    t.checkSquare name = .ok ⟨n, h⟩ := by
  obtain ⟨shape, entries, hsize⟩ := t
  cases h
  exact dif_pos rfl

theorem checkAugmented_eq_ok (name : String) (h : t.shape = [n, n + 1]) :
    t.checkAugmented name = .ok ⟨n, h⟩ := by
  obtain ⟨shape, entries, hsize⟩ := t
  cases h
  exact dif_pos rfl

theorem checkFinite_eq_ok (name : String) (h : ∀ x ∈ t.entries, x.isFinite = true) :
    t.checkFinite name = .ok ⟨h⟩ :=
  dif_pos h

/-- Arrays that each have a name and a first dimension are only asked whether they agree in it. -/
theorem checkLengths_eq {arrays : List Tensor} {names : List String}
    (hnames : arrays.length = names.length) (hshape : ∀ t ∈ arrays, t.shape ≠ []) :
    checkLengths arrays names =
      if h : SameLength arrays then .ok ⟨h⟩
      else .error (.mismatch (.lengths (names.zip (arrays.map fun t => t.shape.headD 0)))) := by
  have hsome : ¬ (2 ≤ arrays.length ∧ arrays.any (fun t => t.shape.isEmpty) = true) := by
    rintro ⟨-, hany⟩
    obtain ⟨t, ht, hempty⟩ := List.any_eq_true.mp hany
    exact hshape t ht (List.isEmpty_iff.mp hempty)
  rw [checkLengths, if_neg (not_not_intro hnames), if_neg hsome]

theorem sameLength_of_head {arrays : List Tensor} (h : ∀ t ∈ arrays, t.shape.head? = some n) :
    SameLength arrays := by
  intro t ht
  cases arrays with
  | nil => cases ht
  | cons a rest =>
    rw [h t ht, leadingLength?, List.head?_cons, Option.bind_some, h a List.mem_cons_self]

theorem checkLengths_eq_ok {arrays : List Tensor} {names : List String}
    (hnames : arrays.length = names.length) (h : ∀ t ∈ arrays, t.shape.head? = some n) :
    checkLengths arrays names = .ok ⟨sameLength_of_head h⟩ := by
  have hshape : ∀ t ∈ arrays, t.shape ≠ [] := by
    intro t ht hnil
    have hhead := h t ht
    rw [hnil] at hhead
    cases hhead
  rw [checkLengths_eq hnames hshape, dif_pos (sameLength_of_head h)]

theorem onlyRefuses_checkVector (t : Tensor) (name : String) :
    OnlyRefuses (t.checkVector name) := by
  refine .map _ ?_
  rw [checkRank]
  split
  · exact .ok _
  · exact .mismatch _

theorem onlyRefuses_checkMatrix (t : Tensor) (name : String) :
    OnlyRefuses (t.checkMatrix name) := by
  refine .map _ ?_
  rw [checkRank]
  split
  · exact .ok _
  · exact .mismatch _

/-- An array without dimensions has no first one to look at; any other is refused or passes. -/
theorem onlyRefuses_checkNonempty (name : String) {rest : List Nat} (h : t.shape = n :: rest) :
    OnlyRefuses (t.checkNonempty name) := by
  obtain ⟨shape, entries, hsize⟩ := t
  subst h
  cases n with
  | zero => exact .mismatch _
  | succ n => exact .ok _

theorem onlyRefuses_checkSquare (name : String) (h : t.shape = [m, n]) :
    OnlyRefuses (t.checkSquare name) := by
  obtain ⟨shape, entries, hsize⟩ := t
  subst h
  show OnlyRefuses (if _ : m = n then _ else _)
  split
  · exact .ok _
  · exact .mismatch _

theorem onlyRefuses_checkAugmented (name : String) (h : t.shape = [m, n]) :
    OnlyRefuses (t.checkAugmented name) := by
  obtain ⟨shape, entries, hsize⟩ := t
  subst h
  show OnlyRefuses (if _ : n = m + 1 then _ else _)
  split
  · exact .ok _
  · exact .mismatch _

theorem onlyRefuses_checkFinite (t : Tensor) (name : String) :
    OnlyRefuses (t.checkFinite name) := by
  rw [checkFinite]
  split
  · exact .ok _
  · exact .invalid _

theorem onlyRefuses_checkLengths {arrays : List Tensor} {names : List String}
    (hnames : arrays.length = names.length) (hshape : ∀ t ∈ arrays, t.shape ≠ []) :
    OnlyRefuses (checkLengths arrays names) := by
  rw [checkLengths_eq hnames hshape]
  split
  · exact .ok _
  · exact .mismatch _

end Tensor

end LinearSystems
