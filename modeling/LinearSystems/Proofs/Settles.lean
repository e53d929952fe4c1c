import LinearSystems.Proofs.Tensor.Check

/-!
# Computations that settle

A computation settles if it succeeds with a result of some kind or raises a fault of the solvers, so
that nothing comes of it that a caller does not expect.
-/

namespace LinearSystems

/-- What refuses data is a fault of the solvers. -/
theorem Fault.IsRefusal.isSolverFault {f : Fault} (h : f.IsRefusal) : f.isSolverFault = true := by
  rw [Fault.isSolverFault]
  rcases h with h | h <;> rw [h] <;> rfl

/-- A computation succeeds with a result of some kind, or raises a fault of the solvers. -/
def Settles {α : Type} (good : α → Prop) (x : Except Fault α) : Prop :=
  (∃ a, x = .ok a ∧ good a) ∨ ∃ f, x = .error f ∧ f.isSolverFault = true

namespace Settles

variable {α β : Type} {good : α → Prop} {better : β → Prop} {x : Except Fault α}

theorem ok {a : α} (h : good a) : Settles good (.ok a) :=
  .inl ⟨a, rfl, h⟩

theorem error {f : Fault} (h : f.isSolverFault = true) : Settles good (.error f) :=
  .inr ⟨f, rfl, h⟩

theorem bind {f : α → Except Fault β} (hx : Settles good x)
    (hf : ∀ a, good a → Settles better (f a)) : Settles better (x >>= f) := by
  rcases hx with ⟨a, rfl, ha⟩ | ⟨e, rfl, he⟩
  · exact hf a ha
  · exact error he

theorem imp {good' : α → Prop} (hx : Settles good x) (h : ∀ a, good a → good' a) :
    Settles good' x := by
  rcases hx with ⟨a, rfl, ha⟩ | ⟨e, rfl, he⟩
  · exact ok (h a ha)
  · exact error he

theorem of_eq_ok (hx : Settles good x) {a : α} (h : x = .ok a) : good a := by
  rcases hx with ⟨a', rfl, ha⟩ | ⟨e, rfl, -⟩
  · exact Except.ok.inj h ▸ ha
  · cases h

theorem of_eq_error (hx : Settles good x) {f : Fault} (h : x = .error f) :
    f.isSolverFault = true := by
  rcases hx with ⟨a, rfl, -⟩ | ⟨e, rfl, he⟩
  · cases h
  · exact Except.error.inj h ▸ he

/-- What can only refuse data settles, with whatever is known of its results. -/
theorem of_onlyRefuses (h : OnlyRefuses x) (hgood : ∀ a, x = .ok a → good a) : Settles good x := by
  cases x with
  | ok a => exact ok (hgood a rfl)
  | error f => exact error (h f rfl).isSolverFault

end Settles

end LinearSystems
