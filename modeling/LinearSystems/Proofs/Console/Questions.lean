import LinearSystems.Proofs.Beginning
import LinearSystems.Proofs.Console.Dialogue
import LinearSystems.Proofs.Console.Reading

/-!
# What the questions keep to

Once a size is read and used, the questions of a method go wrong only by a bad answer or by the end
of the input. They say nothing that looks like an unknown and its value, and what they end with is a
call of the method for a system of that size.
-/

namespace LinearSystems.Console

/-- The utterance is a line that shows an unknown. -/
def Utterance.ShowsUnknown : Utterance → Prop
  | .prompt _ => False
  | .line text => Text.begins "x[" text = true

instance : DecidablePred Utterance.ShowsUnknown
  | .prompt _ => isFalse id
  | .line text => inferInstanceAs (Decidable (Text.begins "x[" text = true))

/-- A dialogue that shows no unknown, and fails only with faults that the program reports. -/
abbrev Asks {α : Type} (answers : α → Prop) (d : Dialogue α) : Prop :=
  d.Keeps (fun u => ¬ u.ShowsUnknown) (fun f => isReported f = true) answers

/-- The lists of a call are those of a system of a size. -/
def Call.OfSize (n : Nat) : Call → Prop
  | .gauss rows _ => rows.length = n ∧ ∀ row ∈ rows, row.length = n + 1
  | .jacobi A b _ _ _ => A.length = n ∧ (∀ row ∈ A, row.length = n) ∧ b.length = n
  | .thomas c d e b => c.length = n ∧ d.length = n ∧ e.length = n ∧ b.length = n

theorem isReported_badInput (e : BadInput) : isReported (.badInput e) = true := rfl

theorem isReported_endOfInput : isReported .endOfInput = true := rfl

theorem not_showsUnknown_prompt (prompt : String) : ¬ (Utterance.prompt prompt).ShowsUnknown :=
  id

/-- A line that begins otherwise shows no unknown. -/
theorem not_showsUnknown_append {start : String} (h : Text.clash "x[" start = true)
    (rest : String) : ¬ (Utterance.line (start ++ rest)).ShowsUnknown := by
  rw [Utterance.ShowsUnknown, Text.begins_append_eq_false h]
  exact Bool.false_ne_true

namespace Asks

open Dialogue

variable {α : Type}

theorem inquire {answers : α → Prop} (prompt : String) {read : String → Except BadInput α}
    (h : ∀ line a, read line = .ok a → answers a) : Asks answers (Dialogue.inquire prompt read) :=
  Keeps.inquire (not_showsUnknown_prompt _) isReported_endOfInput isReported_badInput h

theorem question (prompt : String) : Asks (fun _ => True) (Dialogue.question prompt) :=
  Keeps.question (not_showsUnknown_prompt _) isReported_endOfInput

theorem row (width : Nat) (line : String) :
    Asks (fun row => row.length = width)
      (Dialogue.ofExcept (readRow (.number (.whole width)) line)) := by
  refine Keeps.ofExcept (fun row h => (readRow_eq_ok_iff.mp h).2) fun f h => ?_
  obtain ⟨e, rfl⟩ := exists_badInput_of_readRow h
  exact isReported_badInput e

theorem readRowsFrom (width count : Nat) (rows : List (List Float))
    (h : ∀ row ∈ rows, row.length = width) :
    Asks (fun all => all.length = rows.length + count ∧ ∀ row ∈ all, row.length = width)
      (Console.readRowsFrom (.number (.whole width)) count rows) := by
  induction count generalizing rows with
  | zero =>
    refine .done ⟨by simp, ?_⟩
    intro row hrow
    exact h row (List.mem_reverse.mp hrow)
  | succ count ih =>
    rw [Console.readRowsFrom]
    refine .ask (not_showsUnknown_prompt _) ?_ isReported_endOfInput ?_
    · intro line c hc
      rw [rowComplaint] at hc
      split at hc
      · cases hc
        rw [String.append_assoc]
        exact not_showsUnknown_append (by decide) _
      · cases hc
    · intro line _
      -- The line was read for the complaint, and it is read once more for the row.
      cases hread : readRow (.number (.whole width)) line with
      | ok row =>
        have hrow := (readRow_eq_ok_iff.mp hread).2
        have hrest := ih (row :: rows) (List.forall_mem_cons.mpr ⟨hrow, h⟩)
        rw [List.length_cons, Nat.add_right_comm] at hrest
        exact hrest
      | error f =>
        obtain ⟨e, rfl⟩ := exists_badInput_of_readRow hread
        exact .fail (isReported_badInput e)

theorem readRows (count width : Nat) :
    Asks (fun rows => rows.length = count ∧ ∀ row ∈ rows, row.length = width)
      (Console.readRows count width) := by
  have h := readRowsFrom width count [] (by simp)
  rw [List.length_nil, Nat.zero_add] at h
  exact h

theorem readEntriesFrom (name : String) (first count : Nat) (values : List Float) :
    Asks (fun all => all.length = values.length + count)
      (Console.readEntriesFrom name first count values) := by
  induction count generalizing values with
  | zero => exact .done (by simp)
  | succ count ih =>
    rw [Console.readEntriesFrom]
    refine .ask (not_showsUnknown_prompt _) (by simp) isReported_endOfInput fun line _ => ?_
    cases hread : readReal line with
    | ok x =>
      have hrest := ih (x :: values)
      rw [List.length_cons, Nat.add_right_comm] at hrest
      exact hrest
    | error e => exact .fail (isReported_badInput e)

theorem readEntries (name : String) (first count : Nat) :
    Asks (fun values => values.length = count) (Console.readEntries name first count) := by
  have h := readEntriesFrom name first count []
  rw [List.length_nil, Nat.zero_add] at h
  exact h

theorem gatherGauss (n : Nat) :
    Asks (fun c => c.method = .gauss ∧ c.OfSize n) (Console.gatherGauss n) := by
  refine Keeps.bind (Keeps.tell ?_) fun _ _ => ?_
  · rw [String.append_assoc]
    exact not_showsUnknown_append (by decide) _
  refine Keeps.bind (readRows n (n + 1)) fun rows hrows => ?_
  refine Keeps.bind (Keeps.tellAll (by decide)) fun _ _ => ?_
  refine Keeps.bind (inquire _ fun _ _ _ => trivial) fun mode _ => ?_
  exact .done ⟨rfl, hrows⟩

theorem gatherJacobi (n : Nat) :
    Asks (fun c => c.method = .jacobi ∧ c.OfSize n) (Console.gatherJacobi n) := by
  refine Keeps.bind (Keeps.tell ?_) fun _ _ => ?_
  · simp only [String.append_assoc]
    exact not_showsUnknown_append (by decide) _
  refine Keeps.bind (readRows n n) fun A hA => ?_
  refine Keeps.bind (Keeps.tell ?_) fun _ _ => ?_
  · rw [String.append_assoc]
    exact not_showsUnknown_append (by decide) _
  refine Keeps.bind (question "") fun line _ => ?_
  refine Keeps.bind (row n line) fun b hb => ?_
  refine Keeps.bind (inquire _ fun _ _ _ => trivial) fun epsilon _ => ?_
  refine Keeps.bind (inquire _ fun _ _ _ => trivial) fun maxIterations _ => ?_
  refine Keeps.bind (question _) fun check _ => ?_
  exact .done ⟨rfl, hA.1, hA.2, hb⟩

theorem gatherThomas {n : Nat} (hn : 0 < n) :
    Asks (fun c => c.method = .thomas ∧ c.OfSize n) (Console.gatherThomas n) := by
  refine Keeps.bind (Keeps.tell (by decide)) fun _ _ => ?_
  refine Keeps.bind (readEntries "d" 0 n) fun d hd => ?_
  refine Keeps.bind (Keeps.tell (by decide)) fun _ _ => ?_
  refine Keeps.bind (readEntries "c" 1 (n - 1)) fun c hc => ?_
  refine Keeps.bind (Keeps.tell (by decide)) fun _ _ => ?_
  refine Keeps.bind (readEntries "e" 0 (n - 1)) fun e he => ?_
  refine Keeps.bind (Keeps.tell (by decide)) fun _ _ => ?_
  refine Keeps.bind (readEntries "b" 0 n) fun b hb => ?_
  -- The corners make up for the entries that are not asked for.
  have hlower : (0.0 :: c).length = n := by
    rw [List.length_cons, hc]
    omega
  have hupper : (e ++ [0.0]).length = n := by
    rw [List.length_append, he, List.length_singleton]
    omega
  exact .done ⟨rfl, hlower, hd, hupper, hb⟩

/-- What a method asks for beside the size makes a call of the method for that size. -/
theorem gather (m : Method) {n : Nat} (hn : 0 < n) :
    Asks (fun c => c.method = m ∧ c.OfSize n) (m.gather n) := by
  cases m with
  | gauss => exact gatherGauss n
  | jacobi => exact gatherJacobi n
  | thomas => exact gatherThomas hn

end Asks

end LinearSystems.Console
