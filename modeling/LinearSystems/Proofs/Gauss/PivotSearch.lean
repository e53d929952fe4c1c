import Mathlib
import LinearSystems.Proofs.Gauss.Step
import LinearSystems.Proofs.Largest

/-!
# The search of complete pivoting

A search goes through its places in their order and keeps the one that leads so far. Where it ends,
no value outranks that of the place, and every value before it is outranked. There is only one such
place, so any other search through the same places in the same order finds the same one.

What carries the induction over the places is that not to be outranked passes on from one value to
the next, also past values that are not numbers.
-/

namespace LinearSystems

universe u v w

variable {α : Type u} [Scalar α]

namespace Scalar

theorem outranks_eq_true_iff {v best : α} :
    outranks v best = true ↔ isNaN best = false ∧ (isNaN v = true ∨ less best v = true) := by
  simp [outranks]

theorem outranks_eq_false_iff {v best : α} :
    outranks v best = false ↔ isNaN best = true ∨ isNaN v = false ∧ less best v = false := by
  rw [← Bool.not_eq_true, outranks_eq_true_iff]
  cases isNaN best <;> cases isNaN v <;> simp

variable [OrderedScalar α]

theorem outranks_asymm {a b : α} (h : outranks a b = true) : outranks b a = false := by
  obtain ⟨hb, ha | hless⟩ := outranks_eq_true_iff.mp h
  · exact outranks_eq_false_iff.mpr (.inl ha)
  · exact outranks_eq_false_iff.mpr (.inr ⟨hb, OrderedScalar.less_asymm hless⟩)

theorem outranks_self (a : α) : outranks a a = false := by
  cases h : outranks a a with
  | true => exact absurd (h.symm.trans (outranks_asymm h)) Bool.noConfusion
  | false => rfl

theorem not_outranks_trans {a b c : α} (hab : outranks a b = false) (hbc : outranks b c = false) :
    outranks a c = false := by
  rcases outranks_eq_false_iff.mp hbc with hc | ⟨hb, hcb⟩
  · exact outranks_eq_false_iff.mpr (.inl hc)
  · -- The middle value is a number, so the two tests are order tests.
    rcases outranks_eq_false_iff.mp hab with hnan | ⟨ha, hba⟩
    · rw [hb] at hnan
      cases hnan
    · exact outranks_eq_false_iff.mpr (.inr ⟨ha, OrderedScalar.not_less_trans hb hba hcb⟩)

/-- A value that outranks another one outranks all that do not outrank that other one. -/
theorem outranks_of_not_outranks {a b c : α} (hab : outranks a b = true)
    (hcb : outranks c b = false) : outranks a c = true := by
  cases h : outranks a c with
  | true => rfl
  | false => exact absurd (hab.symm.trans (not_outranks_trans h hcb)) Bool.noConfusion

end Scalar

namespace Gauss

variable {β : Type v} {κ : Type w} [LinearOrder κ] {value : β → α} {key : β → κ}

/-- The place leads some places, which are ordered by a key: none of their values outranks its own,
    and its own outranks those that come before it. -/
structure Leads (value : β → α) (key : β → κ) (places : β → Prop) (p : β) : Prop where
  mem : places p
  not_outranked : ∀ q, places q → Scalar.outranks (value q) (value p) = false
  outranks : ∀ q, places q → key q < key p → Scalar.outranks (value p) (value q) = true

/-- No two places lead. -/
theorem Leads.eq {places : β → Prop} {p q : β} (hkey : Function.Injective key)
    (hp : Leads value key places p) (hq : Leads value key places q) : p = q := by
  apply hkey
  apply le_antisymm
  · by_contra hlt
    have hahead := hp.outranks q hq.mem (not_le.mp hlt)
    rw [hq.not_outranked p hp.mem] at hahead
    cases hahead
  · by_contra hlt
    have hahead := hq.outranks p hp.mem (not_le.mp hlt)
    rw [hp.not_outranked q hq.mem] at hahead
    cases hahead

/-- A place leads if a map that keeps values and the order takes it to one that does. -/
theorem Leads.comap {γ : Type v} {κ' : Type w} [LinearOrder κ'] {value' : γ → α} {key' : γ → κ'}
    {places : β → Prop} {places' : γ → Prop} {f : β → γ} {p : β}
    (h : Leads value' key' places' (f p)) (hp : places p)
    (hplaces : ∀ q, places q → places' (f q)) (hvalue : ∀ q, places q → value' (f q) = value q)
    (hkey : ∀ q, places q → key q < key p → key' (f q) < key' (f p)) :
    Leads value key places p where
  mem := hp
  not_outranked := by
    intro q hq
    rw [← hvalue q hq, ← hvalue p hp]
    exact h.not_outranked (f q) (hplaces q hq)
  outranks := by
    intro q hq hlt
    rw [← hvalue q hq, ← hvalue p hp]
    exact h.outranks (f q) (hplaces q hq) (hkey q hq hlt)

variable [OrderedScalar α]

/-- What leads some places stands for them in a search that goes on. -/
theorem Leads.append {l l' : List β} {m m' : β} (h : Leads value key (· ∈ l) m)
    (h' : Leads value key (· ∈ m :: l') m') : Leads value key (· ∈ l ++ l') m' where
  mem := by
    rcases List.mem_cons.mp h'.mem with rfl | hmem
    · exact List.mem_append_left _ h.mem
    · exact List.mem_append_right _ hmem
  not_outranked := by
    intro q hq
    rcases List.mem_append.mp hq with hq | hq
    · exact Scalar.not_outranks_trans (h.not_outranked q hq) (h'.not_outranked m List.mem_cons_self)
    · exact h'.not_outranked q (List.mem_cons_of_mem _ hq)
  outranks := by
    intro q hq hlt
    rcases List.mem_append.mp hq with hq | hq
    · rcases lt_or_ge (key q) (key m) with hqm | hmq
      · -- The old leader outranks the place and does not outrank the new one.
        by_contra hnot
        have hold := h.outranks q hq hqm
        rw [Scalar.not_outranks_trans (h'.not_outranked m List.mem_cons_self)
          (Bool.not_eq_true _ ▸ hnot)] at hold
        cases hold
      · exact Scalar.outranks_of_not_outranks
          (h'.outranks m List.mem_cons_self (hmq.trans_lt hlt)) (h.not_outranked q hq)
    · exact h'.outranks q (List.mem_cons_of_mem _ hq) hlt

/-- Of two places the first one leads unless the second one outranks it. -/
theorem leads_pair {p q : β} (hpq : key p ≤ key q) :
    Leads value key (· ∈ [p, q]) (if Scalar.outranks (value q) (value p) then q else p) := by
  cases hahead : Scalar.outranks (value q) (value p) with
  | true =>
    rw [if_pos rfl]
    refine ⟨by simp, ?_, ?_⟩
    · simp [Scalar.outranks_self, Scalar.outranks_asymm hahead]
    · simp [hahead]
  | false =>
    rw [if_neg Bool.false_ne_true]
    refine ⟨by simp, ?_, ?_⟩
    · simp [Scalar.outranks_self, hahead]
    · simp [not_lt.mpr hpq]

theorem leads_singleton (p : β) : Leads value key (· ∈ [p]) p := by
  refine ⟨List.mem_singleton_self p, ?_, ?_⟩
  · simp [Scalar.outranks_self]
  · simp

/-- A search through places in their order ends at the one that leads them. -/
theorem leads_firstLargest {p : β} {ps : List β}
    (hsorted : (p :: ps).Pairwise fun a b => key a ≤ key b) :
    Leads value key (· ∈ p :: ps) (firstLargest value p ps) := by
  induction ps generalizing p with
  | nil => exact leads_singleton p
  | cons q qs ih =>
    obtain ⟨hp, hqs⟩ := List.pairwise_cons.mp hsorted
    rw [firstLargest_cons]
    refine (leads_pair (hp q List.mem_cons_self)).append (ih ?_)
    split
    · exact hqs
    · exact List.pairwise_cons.mpr
        ⟨fun r hr => hp r (List.mem_cons_of_mem q hr), (List.pairwise_cons.mp hqs).2⟩

variable {n : Nat}

omit [Scalar α] [OrderedScalar α] in
/-- The places of a block stand row by row. -/
theorem pairwise_block (n row column : Nat) :
    (block n row column).Pairwise fun p q => toLex p < toLex q := by
  rw [block, List.pairwise_flatMap]
  refine ⟨?_, ?_⟩
  · intro r _
    split
    · refine List.Pairwise.map _ ?_ ((List.pairwise_lt_finRange n).filter _)
      intro c c' hc
      exact Prod.Lex.toLex_lt_toLex.mpr (.inr ⟨rfl, hc⟩)
    · exact List.Pairwise.nil
  · refine (List.pairwise_lt_finRange n).imp ?_
    intro r r' hr p hp q hq
    have hrow {s : Fin n} {x : Fin n × Fin n} (hx : x ∈ if row ≤ s.val then
        ((List.finRange n).filter fun c => column ≤ c.val).map fun c => (s, c) else []) :
        x.1 = s := by
      split at hx
      · obtain ⟨c, -, rfl⟩ := List.mem_map.mp hx
        rfl
      · cases hx
    rw [Prod.Lex.toLex_lt_toLex, hrow hp, hrow hq]
    exact .inl hr

/-- The place that complete pivoting chooses leads the coefficients that are left, row by row. -/
theorem leads_largestFrom (M : Dense α n (n + 1)) (i : Fin n) :
    Leads (magnitude M) toLex (fun p => i ≤ p.1 ∧ i ≤ p.2) (largestFrom M i) := by
  have hfirst (p : Fin n × Fin n) (hp : p ∈ block n i.val i.val) : toLex (i, i) ≤ toLex p := by
    obtain ⟨hr, hc⟩ := mem_block.mp hp
    exact Prod.Lex.toLex_mono ⟨hr, hc⟩
  have hlead : Leads (magnitude M) toLex (· ∈ (i, i) :: block n i.val i.val) (largestFrom M i) :=
    leads_firstLargest
      (List.pairwise_cons.mpr ⟨hfirst, (pairwise_block n i.val i.val).imp le_of_lt⟩)
  have hplaces (p : Fin n × Fin n) :
      p ∈ (i, i) :: block n i.val i.val ↔ i ≤ p.1 ∧ i ≤ p.2 := by
    rw [List.mem_cons, mem_block]
    constructor
    · rintro (rfl | h)
      · exact ⟨le_rfl, le_rfl⟩
      · exact h
    · exact .inr
  simp only [hplaces] at hlead
  exact hlead

end Gauss

end LinearSystems
