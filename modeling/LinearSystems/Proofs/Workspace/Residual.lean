import LinearSystems.Proofs.Largest
import LinearSystems.Proofs.Workspace.Cells
import LinearSystems.Workspace.KeptSolution
import LinearSystems.Workspace.Use

/-!
# The residual that a solution shows

A residual belongs to unknowns, and unknowns may be written to. The iteration and the sweep take the
residual anew for every look. Elimination keeps the one that was asked for first; it is the residual
of the unknowns as they stand as long as these are what they were at that time.

The uses of a solution are followed one after the other. Before the first look at a residual nothing
is kept, and after it what is kept stays.
-/

namespace LinearSystems

/-- One line of the text shows the size of a residual. -/
def HasNormLine (text : String) (norm : Float) : Prop :=
  ∃ before after, text =
    "\n".intercalate (before ++ ("Residual (inf-norm): " ++ Decimal.scientific 6 norm) :: after)

/-- The text ends with the size of a residual. -/
def EndsWithNorm (text : String) (norm : Float) : Prop :=
  ∃ before, text = before ++ "residual_norm=" ++ Decimal.scientific 3 norm ++ ")"

/-- The size comes after a comma. -/
theorem endsWithNorm_append (before : String) (norm : Float) :
    EndsWithNorm (before ++ ", residual_norm=" ++ Decimal.scientific 3 norm ++ ")") norm := by
  have hcomma : before ++ ", residual_norm=" = before ++ ", " ++ "residual_norm=" := by
    rw [String.append_assoc]
    rfl
  exact ⟨before ++ ", ", congrArg (· ++ Decimal.scientific 3 norm ++ ")") hcomma⟩

theorem EndsWithNorm.isInfix {text : String} {norm : Float} (h : EndsWithNorm text norm) :
    (Decimal.scientific 3 norm).toList <:+: text.toList := by
  obtain ⟨before, rfl⟩ := h
  rw [String.toList_append, String.toList_append]
  exact List.infix_append _ _ _

/-- A summary with the size of a residual among its facts shows it on a line. -/
theorem Summary.hasNormLine_text {s : Summary} {norm : Float} (h : residualFact norm ∈ s.facts) :
    HasNormLine s.text norm := by
  have hline : residualFact norm ∈ s.lines := by simp [lines, h]
  obtain ⟨before, after, hlines⟩ := List.append_of_mem hline
  have htext : s.text = "\n".intercalate (before ++ residualFact norm :: after) := by
    rw [text, hlines]
  exact ⟨before, after, htext⟩

namespace Solution

variable {S : Solution}

/-- The residual that an elimination has kept. -/
def kept : Solution → Option (List Float)
  | .gauss S => S.kept.map Vector.toList
  | _ => none

theorem residual_eq (S : Solution) : S.residual = S.kept.getD S.currentResidual := by
  cases S with
  | gauss S =>
    obtain ⟨E, mode, result, x, columns, kept⟩ := S
    cases kept <;> rfl
  | jacobi S => rfl
  | tridiagonal S => rfl

theorem kept_original (S : Solution) : S.original.kept = none := by
  cases S <;> rfl

theorem residual_keepResidual (S : Solution) : S.keepResidual.residual = S.residual := by
  cases S <;> rfl

theorem system_keepResidual (S : Solution) : S.keepResidual.system = S.system := by
  cases S <;> rfl

/-- Only an elimination keeps a residual. -/
theorem kept_eq_none (h : ∀ E, S.system ≠ .gauss E) : S.kept = none := by
  cases S with
  | gauss G => exact absurd rfl (h G.equations)
  | jacobi J => rfl
  | tridiagonal T => rfl

theorem kept_keepResidual (h : ∃ E, S.system = .gauss E) :
    S.keepResidual.kept = some S.residual := by
  obtain ⟨E, hE⟩ := h
  cases S with
  | gauss G => rfl
  | jacobi J => cases hE
  | tridiagonal T => cases hE

theorem isLargest_residualNorm (S : Solution) :
    IsLargest (S.residual.map Scalar.abs) S.residualNorm := by
  cases S with
  | gauss S =>
    have h := Dense.isLargest_maxAbs S.equations.n_pos S.residual
    rwa [Scalar.ofFn_eq_map_toList] at h
  | jacobi S =>
    have h := Dense.isLargest_maxAbs S.system.n_pos S.residual
    rwa [Scalar.ofFn_eq_map_toList] at h
  | tridiagonal S =>
    have h := Dense.isLargest_maxAbs S.system.n_pos S.residual
    rwa [Scalar.ofFn_eq_map_toList] at h

theorem hasNormLine_summaryWith (S : Solution) (time : Option String) :
    HasNormLine (S.summaryWith S.residualNorm time) S.residualNorm := by
  cases S <;> exact Summary.hasNormLine_text (by simp [residualNorm])

theorem endsWithNorm_briefWith (h : ∀ J, S.system ≠ .jacobi J) :
    EndsWithNorm (S.briefWith S.residualNorm) S.residualNorm := by
  cases S with
  | gauss S => exact endsWithNorm_append _ _
  | jacobi S => exact absurd rfl (h S.system)
  | tridiagonal S => exact endsWithNorm_append _ _

theorem system_writeUnknowns (S : Solution) (places : List Place) (value : Datum) :
    (S.assignArray "x" places value).1.system = S.system := by
  cases S <;> rfl

theorem kept_writeUnknowns (S : Solution) (places : List Place) (value : Datum) :
    (S.assignArray "x" places value).1.kept = S.kept := by
  cases S <;> rfl

theorem use_of_asksResidual {u : Use} (h : u.asksResidual = true) :
    (S.use u).1 = S.keepResidual := by
  cases u <;> first | rfl | cases h

theorem system_use (S : Solution) (u : Use) : (S.use u).1.system = S.system := by
  cases u with
  | unknowns => rfl
  | write places value => exact S.system_writeUnknowns places value
  | _ => exact S.system_keepResidual

theorem kept_use_of_not_asksResidual {u : Use} (h : u.asksResidual = false) :
    (S.use u).1.kept = S.kept := by
  cases u with
  | unknowns => rfl
  | write places value => exact S.kept_writeUnknowns places value
  | _ => cases h

/-- What is kept stays. -/
theorem kept_use_of_kept {r : List Float} (h : S.kept = some r) (u : Use) :
    (S.use u).1.kept = some r := by
  cases hu : u.asksResidual with
  | false => rw [kept_use_of_not_asksResidual hu, h]
  | true =>
    have hgauss : ∃ E, S.system = .gauss E := by
      by_contra hnot
      rw [kept_eq_none (not_exists.mp hnot)] at h
      cases h
    rw [use_of_asksResidual hu, kept_keepResidual hgauss, residual_eq, h, Option.getD_some]

/-- The last use is made of what the others leave. -/
theorem afterUses_concat (S : Solution) (uses : List Use) (u : Use) :
    S.afterUses (uses ++ [u]) = ((S.afterUses uses).use u).1 := by
  induction uses generalizing S with
  | nil => rfl
  | cons v uses ih => exact ih _

theorem system_afterUses (S : Solution) (uses : List Use) :
    (S.afterUses uses).system = S.system := by
  induction uses generalizing S with
  | nil => rfl
  | cons u uses ih => rw [afterUses, ih, system_use]

theorem system_atFirstAsk (S : Solution) (uses : List Use) :
    (S.atFirstAsk uses).system = S.system := by
  induction uses generalizing S with
  | nil => rfl
  | cons u uses ih =>
    rw [atFirstAsk]
    split
    · rfl
    · rw [ih, system_use]

theorem kept_afterUses_of_kept {r : List Float} (h : S.kept = some r) (uses : List Use) :
    (S.afterUses uses).kept = some r := by
  induction uses generalizing S with
  | nil => exact h
  | cons u uses ih => exact ih (kept_use_of_kept h u)

/-- Nothing is kept, or the residual that the unknowns had at the first look at it. -/
theorem kept_afterUses (hgauss : ∃ E, S.system = .gauss E) (h : S.kept = none) (uses : List Use) :
    (S.afterUses uses).kept = none ∨
      (S.afterUses uses).kept = some (S.atFirstAsk uses).currentResidual := by
  induction uses generalizing S with
  | nil => exact .inl h
  | cons u uses ih =>
    rw [afterUses, atFirstAsk]
    cases hu : u.asksResidual with
    | false =>
      rw [if_neg Bool.false_ne_true]
      exact ih (by rwa [system_use]) (by rw [kept_use_of_not_asksResidual hu, h])
    | true =>
      rw [if_pos rfl, use_of_asksResidual hu]
      refine .inr (kept_afterUses_of_kept ?_ uses)
      rw [kept_keepResidual hgauss, residual_eq, h, Option.getD_none]

/-- The residual follows from the system and from the unknowns alone. -/
theorem currentResidual_congr {T : Solution} (hsystem : S.system = T.system) (hx : S.x = T.x) :
    S.currentResidual = T.currentResidual := by
  cases S with
  | gauss G =>
    cases T with
    | gauss H =>
      obtain ⟨E, _, _, x, _, _⟩ := G
      obtain ⟨F, _, _, y, _, _⟩ := H
      cases hsystem
      cases Vector.toList_inj.mp hx
      rfl
    | jacobi J => cases hsystem
    | tridiagonal T => cases hsystem
  | jacobi J =>
    cases T with
    | gauss G => cases hsystem
    | jacobi K =>
      obtain ⟨A, _, _, _, x⟩ := J
      obtain ⟨B, _, _, _, y⟩ := K
      cases hsystem
      cases Vector.toList_inj.mp hx
      rfl
    | tridiagonal T => cases hsystem
  | tridiagonal U =>
    cases T with
    | gauss G => cases hsystem
    | jacobi J => cases hsystem
    | tridiagonal V =>
      obtain ⟨A, _, ⟨x, _, _⟩⟩ := U
      obtain ⟨B, _, ⟨y, _, _⟩⟩ := V
      cases hsystem
      cases Vector.toList_inj.mp hx
      rfl

/-- The unknowns of an elimination stand as they did when its residual was asked for first. The
    other kinds keep no residual, and nothing is asked of them. -/
def Settled (S : Solution) (uses : List Use) : Prop :=
  (∃ E, S.system = .gauss E) → (S.atFirstAsk uses).x = (S.afterUses uses).x

theorem residual_afterUses {uses : List Use} (hkept : S.kept = none) (h : S.Settled uses) :
    (S.afterUses uses).residual = (S.afterUses uses).currentResidual := by
  rw [residual_eq]
  by_cases hgauss : ∃ E, S.system = .gauss E
  · rcases kept_afterUses hgauss hkept uses with hnone | hsome
    · rw [hnone, Option.getD_none]
    · rw [hsome, Option.getD_some]
      refine currentResidual_congr ?_ (h hgauss)
      rw [system_atFirstAsk, system_afterUses]
  · have hnone : (S.afterUses uses).kept = none := by
      apply kept_eq_none
      rw [system_afterUses]
      exact not_exists.mp hgauss
    rw [hnone, Option.getD_none]

/-- The residual that a look shows is that of the unknowns as they stand, and its size and the
    summary show the largest magnitude in it. -/
structure ShowsOwnResidual (S : Solution) : Prop where
  residual : (S.use .residual).2 = .vector S.currentResidual
  norm : ∃ norm, (S.use .residualNorm).2 = .number norm ∧
    IsLargest (S.currentResidual.map Scalar.abs) norm ∧
    ∀ time, ∃ text, (S.use (.summary time)).2 = .text text ∧ HasNormLine text norm

/-- The one-line form shows the size of the residual as a look at it does. -/
def BriefShowsNorm (S : Solution) : Prop :=
  ∃ norm, (S.use .residualNorm).2 = .number norm ∧
    ∃ text, (S.use .brief).2 = .text text ∧ EndsWithNorm text norm

theorem showsOwnResidual_iff : S.ShowsOwnResidual ↔ S.residual = S.currentResidual := by
  constructor
  · intro h
    have hresidual := h.residual
    rw [use, residual_keepResidual] at hresidual
    exact Sight.vector.inj hresidual
  · intro h
    have hnorm := S.keepResidual.isLargest_residualNorm
    rw [residual_keepResidual, h] at hnorm
    refine ⟨?_, S.keepResidual.residualNorm, rfl, hnorm, fun time => ?_⟩
    · rw [use, residual_keepResidual, h]
    · exact ⟨_, rfl, S.keepResidual.hasNormLine_summaryWith time⟩

theorem briefShowsNorm (h : ∀ J, S.system ≠ .jacobi J) : S.BriefShowsNorm :=
  ⟨_, rfl, _, rfl, endsWithNorm_briefWith (by rwa [system_keepResidual])⟩

end Solution

namespace KeptSolution

variable {K : KeptSolution}

/-- The solution under a name stands as it was returned: no field of it was assigned. -/
def IsBare (K : KeptSolution) : Prop :=
  K.assigned = [] ∧ K.cleared = false

theorem givenResidual?_of_isBare (h : K.IsBare) : K.givenResidual? = none := by
  rw [givenResidual?, h.1]
  split <;> rfl

theorem checkPart_of_isBare (h : K.IsBare) (field part : String) :
    K.checkPart field part = .ok () := by
  rw [checkPart, held, h.1, h.2]
  rfl

theorem checkAction_of_isBare (h : K.IsBare) : K.checkAction = .ok () := by
  rw [checkAction, h.1]
  rfl

theorem asking_of_isBare {α : Type} (h : K.IsBare) (next : KeptSolution → Except Fault α) :
    K.asking next = ({ K with solution := K.solution.keepResidual },
      next { K with solution := K.solution.keepResidual }) := by
  have hcheck : K.checkResidual = .ok () := by
    rw [checkResidual, checkPart_of_isBare h, checkPart_of_isBare h]
    split <;> rfl
  have hkeep : K.keepResidual = { K with solution := K.solution.keepResidual } := by
    rw [keepResidual, givenResidual?_of_isBare h]
    rfl
  rw [asking, hcheck, hkeep]

/-- A request for the residual of a solution under a name is a look at it and at its size. -/
theorem askResidual_of_isBare (h : K.IsBare) :
    ∃ r norm, K.askResidual = ({ K with solution := K.solution.keepResidual },
        .ok (.ofFloats r, norm)) ∧
      (K.solution.use .residual).2 = .vector r ∧
      (K.solution.use .residualNorm).2 = .number norm := by
  have hbare : IsBare { K with solution := K.solution.keepResidual } := h
  refine ⟨_, _, ?_, rfl, rfl⟩
  rw [askResidual, asking_of_isBare h, residual, residualNorm, givenResidual?_of_isBare hbare]
  rfl

/-- What is reported of a solution under a name is what the looks at it show. -/
theorem report_of_isBare (h : K.IsBare) (time : String) :
    ∃ R r, K.report time = ({ K with solution := K.solution.keepResidual }, .ok R) ∧
      R.residual = .ofFloats r ∧ (K.solution.use .residual).2 = .vector r ∧
      (K.solution.use .residualNorm).2 = .number R.norm ∧
      (K.solution.use (.summary (some time))).2 = .text R.summary ∧
      (K.solution.use .brief).2 = .text R.brief := by
  have hbare : IsBare { K with solution := K.solution.keepResidual } := h
  have hshown : K.checkShown = .ok () := by
    rw [checkShown, checkPart_of_isBare h, checkPart_of_isBare h]
    split <;> rfl
  let T := K.solution.keepResidual
  refine ⟨{
    solution := T
    residual := .ofFloats T.residual
    norm := T.residualNorm
    summary := T.summaryWith T.residualNorm (some time)
    brief := T.briefWith T.residualNorm
    factNotes := K.factNotes
    timeNotes := K.timeNotes }, _, ?_, rfl, rfl, rfl, rfl, rfl⟩
  rw [report, hshown]
  simp only [asking_of_isBare h, residual, residualNorm, givenResidual?_of_isBare hbare,
    checkAction_of_isBare hbare, ok_bind]
  rfl

/-- A write to the unknowns of a solution under a name is a write to those of the solution. -/
theorem write_unknowns_of_isBare (h : K.IsBare) {places : Datum} {given : List Datum}
    {read : List Place} (hgiven : places.several = .ok given)
    (hread : given.mapM Place.ofDatum = .ok read) (value : Datum) :
    K.write "x" places value =
      ({ K with solution := (K.solution.assignArray "x" read value).1 },
        (K.solution.assignArray "x" read value).2) := by
  have hmember : K.solution.members.lookup "x" = some (.array, .result Solution.payload) := rfl
  have hsource : K.checkSource (.result Solution.payload) = (K, .ok ()) := by
    rw [checkSource, checkPart_of_isBare h]
  have hx : ¬ ("x" = Solution.residualMember ∧ K.givenResidual?.isSome = true) := by
    rintro ⟨h, -⟩
    exact absurd h (by decide)
  rw [write, hmember]
  simp only [hsource, hgiven]
  rw [writeShown, if_neg hx, writeArray, Place.reading, hread]

/-- The solution under a name after uses of it there, none of which assigns a field: its unknowns
    are looked at or written to, and its residual is asked for, by itself or with all that is
    reported. -/
inductive After (S : Solution) : List Use → KeptSolution → Prop
  | kept {K : KeptSolution} (hbare : K.IsBare) (hsolution : K.solution = S) : After S [] K
  | unknowns {uses : List Use} {K : KeptSolution} (h : After S uses K) :
      After S (uses ++ [.unknowns]) K
  | asked {uses : List Use} {K : KeptSolution} (h : After S uses K) {u : Use}
      (hu : u.asksResidual = true) : After S (uses ++ [u]) K.askResidual.1
  | reported {uses : List Use} {K : KeptSolution} (h : After S uses K) {u : Use}
      (hu : u.asksResidual = true) (time : String) : After S (uses ++ [u]) (K.report time).1
  | written {uses : List Use} {K : KeptSolution} (h : After S uses K) {places : Datum}
      {given : List Datum} {read : List Place} (hgiven : places.several = .ok given)
      (hread : given.mapM Place.ofDatum = .ok read) (value : Datum) :
      After S (uses ++ [.write read value]) (K.write "x" places value).1

/-- Each of them leaves the solution as a use of it does, and nothing assigned. -/
theorem After.solution_eq {S : Solution} {uses : List Use} (h : After S uses K) :
    K.IsBare ∧ K.solution = S.afterUses uses := by
  induction h with
  | kept hbare hsolution => exact ⟨hbare, hsolution⟩
  | unknowns _ ih => exact ⟨ih.1, by rw [ih.2, Solution.afterUses_concat, Solution.use]⟩
  | asked _ hu ih =>
    obtain ⟨r, norm, hask, -⟩ := askResidual_of_isBare ih.1
    rw [hask, Solution.afterUses_concat, Solution.use_of_asksResidual hu, ← ih.2]
    exact ⟨ih.1, rfl⟩
  | reported _ hu time ih =>
    obtain ⟨R, r, hreport, -⟩ := report_of_isBare ih.1 time
    rw [hreport, Solution.afterUses_concat, Solution.use_of_asksResidual hu, ← ih.2]
    exact ⟨ih.1, rfl⟩
  | written _ hgiven hread value ih =>
    rw [write_unknowns_of_isBare ih.1 hgiven hread, Solution.afterUses_concat, ← ih.2]
    exact ⟨ih.1, rfl⟩

/-- What is shown of the solution under a name is the residual of its unknowns as they stand, with
    the largest magnitude in it. -/
structure ShowsOwnResidual (K : KeptSolution) : Prop where
  asked : ∃ norm, K.askResidual.2 = .ok (.ofFloats K.solution.currentResidual, norm) ∧
    IsLargest (K.solution.currentResidual.map Scalar.abs) norm
  reported : ∀ time, ∃ R, (K.report time).2 = .ok R ∧
    R.residual = .ofFloats K.solution.currentResidual ∧
    IsLargest (K.solution.currentResidual.map Scalar.abs) R.norm ∧ HasNormLine R.summary R.norm ∧
    ((∀ J, K.solution.system ≠ .jacobi J) → EndsWithNorm R.brief R.norm)

theorem showsOwnResidual (hbare : K.IsBare) (h : K.solution.ShowsOwnResidual) :
    K.ShowsOwnResidual := by
  obtain ⟨norm, hnorm, hlargest, hsummary⟩ := h.norm
  constructor
  · obtain ⟨r, norm', hask, hresidual, hnorm'⟩ := askResidual_of_isBare hbare
    obtain rfl := Sight.vector.inj (hresidual.symm.trans h.residual)
    obtain rfl := Sight.number.inj (hnorm'.symm.trans hnorm)
    exact ⟨_, by rw [hask], hlargest⟩
  · intro time
    obtain ⟨R, r, hreport, hr, hresidual, hnorm', htext, hbrief⟩ := report_of_isBare hbare time
    obtain rfl := Sight.vector.inj (hresidual.symm.trans h.residual)
    obtain rfl := Sight.number.inj (hnorm'.symm.trans hnorm)
    obtain ⟨text, htext', hline⟩ := hsummary (some time)
    obtain rfl := Sight.text.inj (htext.symm.trans htext')
    refine ⟨R, by rw [hreport], hr, hlargest, hline, fun hjacobi => ?_⟩
    obtain ⟨_, hnorm'', text, htext'', hends⟩ := Solution.briefShowsNorm hjacobi
    obtain rfl := Sight.number.inj (hnorm''.symm.trans hnorm)
    obtain rfl := Sight.text.inj (htext''.symm.trans hbrief)
    exact hends

end KeptSolution

/-- After any uses a solution still belongs to the system that was solved, and what it shows of a
    residual is that of its unknowns as they stand; for an elimination, as long as these are what
    they were when its residual was asked for first. The one-line form of an iteration shows no
    residual at all. If the uses are made of the solution under a name, it stands there as they
    leave it, and what is shown of it there is the same. -/
theorem own_residual_shown {P : Prepared} {options : SolveOptions} {S : Solution}
    (h : P.solve options = .ok S) (uses : List Use) (hsettled : S.Settled uses) :
    (S.afterUses uses).system = P ∧ (S.afterUses uses).ShowsOwnResidual ∧
      ((∀ J, P ≠ .jacobi J) → (S.afterUses uses).BriefShowsNorm) ∧
      ∀ K, KeptSolution.After S uses K → K.solution = S.afterUses uses ∧ K.ShowsOwnResidual := by
  obtain ⟨hsystem, horiginal⟩ := Solution.of_solve h
  have hkept : S.kept = none := by rw [← horiginal, Solution.kept_original]
  have hafter : (S.afterUses uses).system = P := by rw [Solution.system_afterUses, hsystem]
  have hshows : (S.afterUses uses).ShowsOwnResidual :=
    Solution.showsOwnResidual_iff.mpr (Solution.residual_afterUses hkept hsettled)
  refine ⟨hafter, hshows, ?_, ?_⟩
  · intro hP
    exact Solution.briefShowsNorm (by rwa [hafter])
  · intro K hK
    obtain ⟨hbare, hsolution⟩ := hK.solution_eq
    exact ⟨hsolution, KeptSolution.showsOwnResidual hbare (hsolution ▸ hshows)⟩

/-- Elimination of `2 x = 4`. -/
def doubledByElimination : Prepared :=
  .gauss ⟨1, Nat.one_pos, #v[#v[2, 4]]⟩

/-- The iteration for `2 x = 4`. -/
def doubledByIteration : Prepared :=
  .jacobi {
    n := 1
    n_pos := Nat.one_pos
    matrix := #v[#v[2]]
    rhs := #v[4]
    matrix_finite := by decide +kernel
    rhs_finite := by decide +kernel }

/-- Replaces the first unknown by five. -/
def writeFive : Use :=
  .write [.entry 0] (.number (.real 5))

/-- Unknowns that are written to before the first look at their residual, also under a name. -/
theorem own_residual_shown_after_early_write :
    ∃ S, doubledByElimination.solve {} = .ok S ∧ S.Settled [writeFive, .residual, .brief] ∧
      (S.afterUses [writeFive, .residual, .brief]).ShowsOwnResidual ∧
      ∃ K, KeptSolution.After S [writeFive, .residual, .brief] K ∧ K.ShowsOwnResidual := by
  have hsolved : (doubledByElimination.solve {}).isOk = true := by decide +kernel
  cases h : doubledByElimination.solve {} with
  | error f =>
    rw [h] at hsolved
    cases hsolved
  | ok S =>
    have hsettled : S.Settled [writeFive, .residual, .brief] := by
      intro _
      cases S <;> rfl
    obtain ⟨-, hshows, -, hnamed⟩ := own_residual_shown h _ hsettled
    let K : KeptSolution := { solution := S, origin := 0 }
    have hkept : K.After S [] := .kept ⟨rfl, rfl⟩ rfl
    have hplaces : (Datum.list [.number (.whole 0)]).several = .ok [.number (.whole 0)] := rfl
    have hread : [Datum.number (.whole 0)].mapM Place.ofDatum = .ok [.entry 0] := rfl
    have hwritten : KeptSolution.After S [writeFive] _ :=
      hkept.written hplaces hread (.number (.real 5))
    have hasked : KeptSolution.After S [writeFive, .residual] _ := hwritten.asked rfl
    have hreported : KeptSolution.After S [writeFive, .residual, .brief] _ :=
      hasked.reported rfl "0.0000s"
    exact ⟨S, rfl, hsettled, hshows, _, hreported, (hnamed _ hreported).2⟩

/-- The residual of two is kept by elimination when the unknown has become five: zero is shown where
    six would be right. The one-line form of the iteration does not end with six, and has no six in
    it at all. -/
theorem exists_residual_not_shown :
    (∃ S, doubledByElimination.solve {} = .ok S ∧
      ¬ (S.afterUses [.residual, writeFive]).ShowsOwnResidual) ∧
    ∃ S, doubledByIteration.solve {} = .ok S ∧ ¬ (S.afterUses [writeFive]).BriefShowsNorm ∧
      ∃ norm text, ((S.afterUses [writeFive]).use .residualNorm).2 = .number norm ∧
        ((S.afterUses [writeFive]).use .brief).2 = .text text ∧
        ¬ (Decimal.scientific 3 norm).toList <:+: text.toList := by
  have hstale : (match doubledByElimination.solve {} with
      | .ok S =>
        let T := S.afterUses [.residual, writeFive]
        T.residual.all (· == 0) && !T.currentResidual.all (· == 0)
      | .error _ => false) = true := by
    decide +kernel
  have hbrief : (match doubledByIteration.solve {} with
      | .ok S =>
        let T := (S.afterUses [writeFive]).keepResidual
        let shown := T.briefWith T.residualNorm
        decide ((Decimal.scientific 3 T.residualNorm).toList <:+: shown.toList)
      | .error _ => true) = false := by
    decide +kernel
  constructor
  · split at hstale
    · rename_i S hS
      refine ⟨S, hS, fun h => ?_⟩
      rw [Bool.and_eq_true, Solution.showsOwnResidual_iff.mp h, Bool.not_eq_true'] at hstale
      exact absurd (hstale.1.symm.trans hstale.2) Bool.noConfusion
    · cases hstale
  · split at hbrief
    · rename_i S hS
      have hnone := of_decide_eq_false hbrief
      refine ⟨S, hS, ?_, _, _, rfl, rfl, hnone⟩
      rintro ⟨norm, hnorm, text, htext, hends⟩
      cases hnorm
      cases htext
      exact hnone hends.isInfix
    · cases hbrief

end LinearSystems
