import Mathlib
import LinearSystems.Proofs.Beginning
import LinearSystems.Proofs.Jacobi.Request

/-!
# The advice and the channels of a run

Asking for the norm of `alpha` to be compared adds one line to the messages and changes nothing else
of what is computed. What a run tells of itself in several places, it tells alike: its flag, the word
for how it ended, its messages, its warnings, and the notice beside the answer.
-/

namespace LinearSystems.Jacobi

variable {n : Nat}

/-- A line that says that the norm is not below one. -/
def saysNotMet (line : String) : Bool :=
  Text.begins "Convergence condition not satisfied: " line

/-- A line that says that the allowed steps are used up. -/
def saysCapped (line : String) : Bool :=
  Text.begins "Maximum number of iterations reached (" line

/-- The line with which a run ends that converged. -/
def finishedLine (k : Nat) : String :=
  "Iteration finished after " ++ toString k ++ " iterations"

/-- The line with which a run ends that did not converge. -/
def cappedLine (m : Nat) : String :=
  "Maximum number of iterations reached (" ++ toString m ++ ")"

theorem finishedLine_inj {k l : Nat} : finishedLine k = finishedLine l ↔ k = l := by
  unfold finishedLine
  rw [String.append_left_inj, String.append_right_inj]
  exact Nat.repr_inj

theorem saysNotMet_conditionMessage (q : Float) :
    saysNotMet (Params.conditionMessage q) = !Scalar.less q 1.0 := by
  rw [saysNotMet, Params.conditionMessage]
  cases Scalar.less q 1.0 with
  | true => exact Text.begins_append_eq_false (by decide) _
  | false => exact Text.begins_append (Text.begins_append (by decide) _) _

theorem saysCapped_conditionMessage (q : Float) :
    saysCapped (Params.conditionMessage q) = false := by
  rw [saysCapped, Params.conditionMessage]
  cases Scalar.less q 1.0 with
  | true => exact Text.begins_append_eq_false (by decide) _
  | false =>
    rw [if_neg Bool.false_ne_true, String.append_assoc]
    exact Text.begins_append_eq_false (by decide) _

theorem saysNotMet_finishedLine (k : Nat) : saysNotMet (finishedLine k) = false := by
  unfold saysNotMet finishedLine
  rw [String.append_assoc]
  exact Text.begins_append_eq_false (by decide) _

theorem saysCapped_finishedLine (k : Nat) : saysCapped (finishedLine k) = false := by
  unfold saysCapped finishedLine
  rw [String.append_assoc]
  exact Text.begins_append_eq_false (by decide) _

theorem saysNotMet_cappedLine (m : Nat) : saysNotMet (cappedLine m) = false := by
  unfold saysNotMet cappedLine
  rw [String.append_assoc]
  exact Text.begins_append_eq_false (by decide) _

theorem saysCapped_cappedLine (m : Nat) : saysCapped (cappedLine m) = true := by
  unfold saysCapped cappedLine
  exact Text.begins_append (Text.begins_append (by decide) _) _

/-- The two ends of a run are told by different lines. -/
theorem cappedLine_ne_finishedLine (m k : Nat) : cappedLine m ≠ finishedLine k := by
  intro h
  have hcapped := saysCapped_cappedLine m
  rw [h, saysCapped_finishedLine] at hcapped
  cases hcapped

theorem Params.endMessage_eq (p : Params n) (m : Nat) :
    p.endMessage (.number (.whole m)) =
      if p.converged then finishedLine p.iterations else cappedLine m := rfl

/-- The line of a norm, if it says that the norm is not below one. -/
theorem filter_saysNotMet_condition (norm : Option Float) :
    (norm.map Params.conditionMessage).toList.filter saysNotMet =
      ((norm.filter fun q => !Scalar.less q 1.0).map Params.conditionMessage).toList := by
  cases norm with
  | none => rfl
  | some q =>
    simp only [Option.map_some, Option.toList_some, List.filter_singleton,
      saysNotMet_conditionMessage, Option.filter_some]
    cases Scalar.less q 1.0 <;> rfl

theorem filter_saysCapped_condition (norm : Option Float) :
    (norm.map Params.conditionMessage).toList.filter saysCapped = [] := by
  cases norm with
  | none => rfl
  | some q => simp [saysCapped_conditionMessage]

theorem less_one (q : Float) : Scalar.less q 1.0 = decide (q < 1.0) := rfl

/-- A line of a norm that warns says that the norm is not below one. -/
theorem filter_warns_condition (norm : Option Float) :
    (norm.map Params.conditionMessage).toList.filter
        (fun line => saysNotMet line || saysCapped line) =
      ((norm.filter fun q => !Scalar.less q 1.0).map Params.conditionMessage).toList := by
  rw [← filter_saysNotMet_condition]
  apply List.filter_congr
  intro line hline
  obtain ⟨q, -, rfl⟩ := by simpa using hline
  rw [saysCapped_conditionMessage, Bool.or_false]

/-- The channels of a solution agree, and the norm is the one that was compared, if it was. -/
structure Solution.Consistent (s : Solution) (compared : Option Float) : Prop where
  norm : s.params.alphaNorm = compared
  shown : ∃ facts, s.result.info = .record facts ∧
    facts.lookup "messages" = some (.list (s.messages.map .text)) ∧
    facts.lookup "termination" =
      some (.text (if s.params.converged then "converged" else "max_iterations"))
  /-- The warnings are the messages of the two kinds that warn, in their order. -/
  warnings : s.result.warnings =
    (s.messages.filter fun line => saysNotMet line || saysCapped line).map .text
  notMet : s.messages.filter saysNotMet =
    ((compared.filter fun q => !decide (q < 1.0)).map Params.conditionMessage).toList
  capped : s.messages.filter saysCapped =
    if s.params.converged then [] else [cappedLine s.maxIterations]
  last : ∀ k, s.messages.getLast? = some (finishedLine k) ↔
    s.params.converged = true ∧ k = s.params.iterations
  notice : s.notice?.toList.length = if s.params.converged then 0 else 1

section

variable (S : System) (epsilon : Float) (m : Nat) (F : FixedPoint Float S.n) (check : Bool)

/-- The norm that a run shows, if it is asked to compare it. -/
def comparedNorm {n : Nat} (F : FixedPoint Float n) (check : Bool) : Option Float :=
  if check then some (infNorm F.alpha) else none

theorem converged_answer :
    (S.answer epsilon m (F.result epsilon m check)).params.converged =
      (iterate F epsilon m).converged := rfl

theorem messages_answer :
    (S.answer epsilon m (F.result epsilon m check)).messages =
      ((comparedNorm F check).map Params.conditionMessage).toList ++
        [if (iterate F epsilon m).converged then finishedLine (iterate F epsilon m).iterations
          else cappedLine m] := rfl

theorem warnings_answer :
    (S.answer epsilon m (F.result epsilon m check)).result.warnings =
      ((((comparedNorm F check).filter fun q => !Scalar.less q 1.0).map
          Params.conditionMessage).toList ++
        if (iterate F epsilon m).converged then [] else [cappedLine m]).map .text := by
  show (Params.warnings _ _).map Datum.text = _
  rw [Params.warnings, Params.endMessage_eq]
  show List.map Datum.text (_ ++ if (iterate F epsilon m).converged then [] else _) = _
  cases hconverged : (iterate F epsilon m).converged with
  | true => rfl
  | false =>
    have hcapped : (F.params ⟨epsilon, m, check⟩).converged = false := hconverged
    rw [hcapped]
    rfl

/-- All that a run tells of itself is consistent. -/
theorem consistent_answer :
    (S.answer epsilon m (F.result epsilon m check)).Consistent (comparedNorm F check) where
  norm := rfl
  shown := ⟨_, rfl, rfl, rfl⟩
  warnings := by
    rw [warnings_answer, messages_answer, List.filter_append, filter_warns_condition]
    cases (iterate F epsilon m).converged <;>
      simp [saysNotMet_finishedLine, saysCapped_finishedLine, saysCapped_cappedLine]
  notMet := by
    rw [messages_answer, List.filter_append, filter_saysNotMet_condition]
    cases (iterate F epsilon m).converged <;>
      simp [saysNotMet_finishedLine, saysNotMet_cappedLine, less_one]
  capped := by
    rw [messages_answer, List.filter_append, filter_saysCapped_condition, converged_answer]
    cases (iterate F epsilon m).converged <;>
      simp [saysCapped_finishedLine, saysCapped_cappedLine, System.answer]
  last := by
    intro k
    rw [messages_answer, List.getLast?_concat, Option.some.injEq, converged_answer]
    show _ ↔ _ ∧ k = (iterate F epsilon m).iterations
    cases (iterate F epsilon m).converged with
    | true => simp [finishedLine_inj, eq_comm]
    | false => simp [cappedLine_ne_finishedLine]
  notice := by
    rw [Solution.notice?, converged_answer]
    cases (iterate F epsilon m).converged <;> rfl

end

/-- Two results say the same of what was computed and of how the run ended. -/
structure SameOutcome (result result' : Result (Params n)) : Prop where
  x : result.params.x = result'.params.x
  iterations : result.params.iterations = result'.params.iterations
  converged : result.params.converged = result'.params.converged
  finalDifference : result.params.finalDifference = result'.params.finalDifference
  termination : ∃ facts facts', result.info = .record facts ∧ result'.info = .record facts' ∧
    facts.lookup "termination" = facts'.lookup "termination"

/-- For every system, every tolerance and every number `m` of allowed steps: either every request
    for these is answered with the fault of the same diagonal entry, whether the norm is to be
    compared or not; or every request is answered with a solution, and a comparison adds its line in
    front of the messages and changes neither what was computed nor how the run ended. In every
    solution the channels agree: the warnings are those messages that say that the norm is not below
    one, which one does exactly if this was found, and that the steps were used up, which one does
    exactly if the run did not converge; the last message tells the steps counted exactly if it did;
    and there is one notice if it did not, and otherwise none. -/
theorem check_is_advice {source : Source} {b : Option Datum} {S : System}
    (hsystem : source.Makes b S) (epsilon : Float) (m : Nat) :
    (∃ i : Fin S.n, ∀ (check : Bool) (r : Request), r.AsksFor epsilon m check →
      solve source b r = .error (.smallDiagonal (i.val + 1) S.matrix[i][i] pivotThreshold)) ∨
    ∃ (F : FixedPoint Float S.n) (result : Bool → Result (Params S.n)),
      toFixedPoint pivotThreshold S.matrix S.rhs = .ok F ∧
      (∀ (check : Bool) (r : Request), r.AsksFor epsilon m check →
        solve source b r = .ok (S.answer epsilon m (result check))) ∧
      SameOutcome (result true) (result false) ∧
      (S.answer epsilon m (result true)).messages =
        Params.conditionMessage (infNorm F.alpha) ::
          (S.answer epsilon m (result false)).messages ∧
      ∀ check, (S.answer epsilon m (result check)).Consistent
        (if check then some (infNorm F.alpha) else none) := by
  rcases S.solveWith_cases epsilon m with ⟨i, hfault⟩ | ⟨F, hF, hanswer⟩
  · refine .inl ⟨i, fun check r hr => ?_⟩
    rw [hsystem.solve_eq]
    exact hfault r check hr
  · refine .inr ⟨F, fun check => F.result epsilon m check, hF, ?_, ?_, rfl, ?_⟩
    · intro check r hr
      rw [hsystem.solve_eq]
      exact hanswer r check hr
    · exact ⟨rfl, rfl, rfl, rfl, _, _, rfl, rfl, rfl⟩
    · exact fun check => consistent_answer S epsilon m F check

/-- The norm of `alpha` is three here. The run that compares it says so in front of all that the
    other run says, and the two agree. -/
theorem check_is_advice_two_rows :
    ∃ (S : System) (checked unchecked : Result (Params S.n)),
      solve (.prepared S) none { maxIterations := .number (.whole 1), check := .bool true } =
        .ok (S.answer 1e-6 1 checked) ∧
      solve (.prepared S) none { maxIterations := .number (.whole 1), check := .bool false } =
        .ok (S.answer 1e-6 1 unchecked) ∧
      SameOutcome checked unchecked ∧
      (S.answer 1e-6 1 checked).messages =
        "Convergence condition not satisfied: ||alpha|| = 3 >= 1" ::
          (S.answer 1e-6 1 unchecked).messages ∧
      (S.answer 1e-6 1 checked).Consistent (some 3) ∧
      (S.answer 1e-6 1 unchecked).Consistent none := by
  have hmatrix : ∀ i j : Fin 2,
      (#v[#v[1, 3], #v[0, 1]] : Dense Float 2 2)[i][j].isFinite = true := by
    decide +kernel
  have hrhs : ∀ i : Fin 2, (#v[1, 1] : Vector Float 2)[i].isFinite = true := by
    decide +kernel
  have hpassed : ∀ i : Fin 2, Scalar.isBelow pivotThreshold
      (#v[#v[1, 3], #v[0, 1]] : Dense Float 2 2)[i][i] = false := by
    decide +kernel
  have hpositive : ((1e-6 : Float).isFinite && decide ((0.0 : Float) < 1e-6)) = true := by
    decide +kernel
  have hnorm : infNorm
      (FixedPoint.divide (#v[#v[1, 3], #v[0, 1]] : Dense Float 2 2) #v[1, 1]).alpha = 3 := by
    decide +kernel
  have hline : Params.conditionMessage 3 =
      "Convergence condition not satisfied: ||alpha|| = 3 >= 1" := by
    decide +kernel
  let S : System := ⟨2, Nat.two_pos, #v[#v[1, 3], #v[0, 1]], #v[1, 1], hmatrix, hrhs⟩
  have hform : toFixedPoint pivotThreshold S.matrix S.rhs =
      .ok (FixedPoint.divide S.matrix S.rhs) :=
    toFixedPoint_eq_ok_iff.mpr ⟨hpassed, rfl⟩
  have hmakes : Source.Makes (.prepared S) none S := .prepared S rfl
  have hasks (check : Bool) := asksFor_of_numbers hpositive 1 check
  rcases check_is_advice hmakes 1e-6 1 with ⟨i, hfault⟩ | ⟨F, result, hF, hanswer, houtcome,
    hmessages, hconsistent⟩
  · have hrefused := hfault true _ (hasks true)
    rw [hmakes.solve_eq, S.solveWith_eq_map (hasks true), S.run_ofNumbers, hform] at hrefused
    cases hrefused
  · obtain rfl := Except.ok.inj (hF.symm.trans hform)
    rw [show infNorm (FixedPoint.divide S.matrix S.rhs).alpha = 3 from hnorm]
      at hmessages hconsistent
    rw [hline] at hmessages
    exact ⟨S, result true, result false, hanswer true _ (hasks true),
      hanswer false _ (hasks false), houtcome, hmessages, hconsistent true, hconsistent false⟩

end LinearSystems.Jacobi
