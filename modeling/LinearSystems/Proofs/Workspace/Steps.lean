import LinearSystems.Proofs.Workspace.Sound

/-!
# What the steps of a caller preserve

A step that writes to no private member, and takes none in hand, leads from a sound workspace to a
sound one. The systems that were prepared before are still in the registry afterwards, so by
induction they are as they were after every run of such steps.
-/

namespace LinearSystems

/-- What is asked for is no private member. -/
def Handout.IsPublic : Handout → Prop
  | .member name => name.isPrivateName = false
  | _ => True

/-- A step that writes to no private member and takes none in hand. -/
def WorkspaceStep.IsPublic : WorkspaceStep → Prop
  | .write _ member _ _ => member.isPrivateName = false
  | .hold _ _ what => what.IsPublic
  | _ => True

namespace Workspace

variable {r : Registry} {W W' : Workspace} {name newName : Datum} {origin : Nat} {P : Prepared}
  {K K' : KeptSolution}

/-- A workspace that is sound with the given systems, and perhaps with more. -/
def Goes (r : Registry) (W : Workspace) : Prop :=
  ∃ r', r ⊆ r' ∧ W.Sound r'

theorem Sound.goes (h : W.Sound r) : Goes r W :=
  ⟨r, List.Subset.refl _, h⟩

theorem Goes.trans (h : Goes r W) (h' : ∀ r', W.Sound r' → Goes r' W') : Goes r W' := by
  obtain ⟨r', hsub, hsound⟩ := h
  obtain ⟨r'', hsub', hsound'⟩ := h' r' hsound
  exact ⟨r'', List.Subset.trans hsub hsub', hsound'⟩

theorem find_of_prepared {wrong : Solution → Fault} (h : W.prepared name wrong = .ok (origin, P)) :
    W.find name = .ok (.prepared origin P) := by
  obtain ⟨e, hfind, he⟩ := bind_eq_ok_iff.mp h
  cases e with
  | prepared origin P => cases he; exact hfind
  | solved K => cases he

theorem find_of_solved {member : String} (h : W.solved name member = .ok K) :
    W.find name = .ok (.solved K) := by
  obtain ⟨e, hfind, he⟩ := bind_eq_ok_iff.mp h
  cases e with
  | prepared origin P => cases he
  | solved K => cases he; exact hfind

/-- What is true of a workspace, and of it with what was made, is true after the attempt to keep
    it. -/
theorem keeping_cases {α : Type} {made : Except Fault α} {next : α → Workspace × WorkspaceAnswer}
    {p : Workspace → Prop} (hW : p W) (hnext : ∀ a, made = .ok a → p (next a).1) :
    p (W.keeping name made next).1 := by
  unfold keeping
  split
  · exact hnext _ rfl
  · exact hW
  · exact hW

/-- A write to an array in hand changes its cell, if it takes writes at all. -/
theorem alter_cases (W : Workspace) (name places value : Datum) :
    (W.alter name places value).1 = W ∨ ∃ handle v, W.handle name = .ok handle ∧
      handle.writable = true ∧
      (W.alter name places value).1 = { W with memory := W.memory.write handle.address v } := by
  unfold Workspace.alter
  split
  · exact .inl rfl
  · exact .inl rfl
  · rename_i handle places hname _
    split
    · rename_i hwritable
      rw [Place.reading]
      split
      · exact .inr ⟨handle, _, hname, hwritable, rfl⟩
      · exact .inl rfl
    · exact .inl rfl

namespace Sound

theorem putSolved_of_follows (h : W.Sound r) (hfind : W.find name = .ok (.solved K))
    (hK : K.Follows K') : (W.putSolved name K').Sound r :=
  h.putSolved ((h.find hfind).follows hK)

theorem onSolution {α : Type} {member : String} (h : W.Sound r)
    {next : KeptSolution → KeptSolution × Except Fault α}
    (hnext : ∀ K : KeptSolution, K.Follows (next K).1) :
    (W.onSolution name member next).1.Sound r := by
  rw [Workspace.onSolution]
  split
  · rename_i K hK
    exact h.putSolved_of_follows (find_of_solved hK) (hnext K)
  · exact h

theorem putSolved_of_solveIn {options : SolveOptions} {S : Solution} (h : W.Sound r)
    (hfind : W.find name = .ok (.prepared origin P))
    (hS : (P.solveIn W.memory options).2 = .ok S) :
    (({ W with memory := (P.solveIn W.memory options).1 } : Workspace).putSolved
      newName { solution := S, origin }).Sound r := by
  have htouches := P.touches_solveIn W.memory options
  have hP := (h.find hfind).sound.grow htouches.size_le
  rw [Prepared.solveIn_snd] at hS
  -- a solution that was just computed has no cells yet, so it meets no other one's
  exact (h.withMemory htouches nofun).putSolved
    ⟨hP.solved_of hS, fun _ _ _ => List.disjoint_nil_left _⟩

/-- A system that is written to its cells as it is stays there as it is. -/
theorem putWritten_eq (h : W.Sound r) (hfind : W.find name = .ok (.prepared origin P)) :
    W.putWritten name origin P = W.put name (.prepared origin P) := by
  have hstored : W.memory.readAll origin P.arrays.length = P.arrays :=
    (h.find hfind).sound.stored h.systems
  have hmemory := W.memory.writeAll_readAll origin P.arrays.length
  rw [hstored] at hmemory
  rw [putWritten, hmemory]
  rfl

/-- A write fails at once, or what it names is a system, which refuses it, or a solution. -/
theorem write_cases {member : Datum} (h : W.Sound r) (hpublic : member.isPrivateName = false)
    (name places value : Datum) :
    (∃ f, W.write name member places value = (W, .error f)) ∨
    (∃ origin P f, W.find name = .ok (.prepared origin P) ∧
      W.write name member places value = (W.put name (.prepared origin P), .error f)) ∨
    ∃ K s, W.find name = .ok (.solved K) ∧ member = .text s ∧
      W.write name member places value =
        (W.putSolved name (K.write s places value).1, (K.write s places value).2) := by
  unfold Workspace.write
  cases hfind : W.find name with
  | error f => exact .inl ⟨f, rfl⟩
  | ok e =>
    cases hname : member.memberName with
    | error f => exact .inl ⟨f, rfl⟩
    | ok s =>
      cases Datum.memberName_eq_ok_iff.mp hname
      cases e with
      | prepared origin P =>
        obtain ⟨f, hf⟩ := P.write_of_public places value hpublic
        refine .inr (.inl ⟨origin, P, f, rfl, ?_⟩)
        simp only [hf]
        rw [h.putWritten_eq hfind]
      | solved K => exact .inr (.inr ⟨K, s, rfl, rfl, rfl⟩)

theorem write {member places value : Datum} (h : W.Sound r)
    (hpublic : member.isPrivateName = false) : (W.write name member places value).1.Sound r := by
  rcases h.write_cases hpublic name places value with
    ⟨f, hwrite⟩ | ⟨origin, P, f, hfind, hwrite⟩ | ⟨K, s, hfind, -, hwrite⟩
  · rw [hwrite]
    exact h
  · rw [hwrite]
    exact h.put (h.find hfind)
  · rw [hwrite]
    exact h.putSolved_of_follows hfind (K.follows_write s places value)

theorem assign {field value : Datum} (h : W.Sound r) : (W.assign name field value).1.Sound r := by
  unfold Workspace.assign
  split
  · exact h
  · exact h
  · exact h
  · rename_i K s hfind _
    exact h.putSolved_of_follows hfind (K.follows_assign s value)

theorem backend {options : BackendOptions} (h : W.Sound r) :
    (W.backend name options).1.Sound r := by
  rw [Workspace.backend]
  split
  · exact h
  · exact h
  · rename_i origin P _
    exact h.withMemory (P.touches_runBackendIn W.memory options) nofun

theorem alter {places value : Datum} (h : W.Sound r) : (W.alter name places value).1.Sound r := by
  rcases alter_cases W name places value with heq | ⟨handle, v, hname, hwritable, heq⟩
  · rw [heq]
    exact h
  · have haddress := (h.handle hname).not_mem hwritable
    rw [heq]
    exact h.withMemory (W.memory.touches_write handle.address v) (by simpa using haddress)

theorem handle_prepared {what : Handout} {m : Memory} {handle : Handle}
    (h : (Entry.prepared origin P).Sound r m) (hr : r.Sound m) (hpublic : what.IsPublic)
    (hhandle : (P.handOut m origin what).2 = .ok handle) :
    handle.Sound r (P.handOut m origin what).1 := by
  rcases Prepared.handOut_ok hhandle with ⟨member, rfl, hmember⟩ | ⟨hnew, hlt⟩
  -- an array under a member lies in a cell of the system, so it must not take writes
  · have hcell := Registry.mem_cells h.known (Prepared.handle_mem_cells hmember)
    have hfixed := Prepared.handle_not_writable hmember hpublic
    exact ⟨hr.cells_lt _ hcell, fun hwritable => Bool.noConfusion (hwritable.symm.trans hfixed)⟩
  · exact .of_le hr hnew hlt

theorem handle_solved {m : Memory} {member : String} {handle : Handle}
    (h : (Entry.solved K).Sound r m) (hr : r.Sound m)
    (hhandle : (K.handle m member).2 = .ok handle) :
    handle.Sound r (K.handle m member).1 := by
  have hsize := (K.touches_handle m member).size_le
  rcases KeptSolution.handle_ok hhandle with hown | ⟨hnew, hlt⟩
  · exact ⟨Nat.lt_of_lt_of_le (h.own_lt _ hown) hsize, fun _ => h.own_not_mem _ hown⟩
  · exact .of_le hr hnew hlt

theorem handOut {what : Handout} (h : W.Sound r) (hpublic : what.IsPublic) (name : Datum) :
    (W.handOut name what).1.Sound r ∧
      ∀ handle, (W.handOut name what).2 = .ok handle →
        handle.Sound r (W.handOut name what).1.memory := by
  unfold Workspace.handOut
  split
  · exact ⟨h, nofun⟩
  · rename_i origin P hfind
    exact ⟨h.withMemory (P.touches_handOut W.memory origin what) nofun, fun handle hhandle =>
      handle_prepared (h.find hfind).sound h.systems hpublic hhandle⟩
  · rename_i K hfind
    have hfollows := K.follows_ask what
    -- asking may keep a residual, which is saved before anything is handed out
    generalize K.ask what = asked at hfollows ⊢
    obtain ⟨K', _ | member⟩ := asked
    · exact ⟨h.putSolved_of_follows hfind hfollows, nofun⟩
    · have hput := h.putSolved_of_follows hfind hfollows
      have hsaved := ((h.find hfind).follows hfollows).sound.saved h.systems
      have htouches := (K'.saved W.memory).1.touches_handle (W.putSolved name K').memory member
      exact ⟨hput.withMemory htouches nofun, fun handle hhandle =>
        handle_solved hsaved hput.systems hhandle⟩

theorem putMade {a : TypedArray} (h : W.Sound r) : (W.putMade name a).Sound r :=
  (h.withMemory (W.memory.touches_allocate a) nofun).putInHand
    (.of_le h.systems (Nat.le_refl _) (by simp))

/-- One step. Only a system that is newly prepared joins the registry. -/
theorem take {step : WorkspaceStep} (h : W.Sound r) (hpublic : step.IsPublic) :
    Goes r (W.take step).1 := by
  have hprepared (P : Prepared) (hP : ∃ blueprint, Blueprint.prepare blueprint = .ok P)
      (name : Datum) : Goes r (W.putPrepared name P) :=
    ⟨_, List.subset_cons_self _ _, h.putPrepared hP⟩
  cases step with
  | prepare name blueprint =>
    exact keeping_cases h.goes fun P hP => hprepared P ⟨blueprint, hP⟩ name
  | prepareFrom name supplies =>
    refine keeping_cases h.goes fun P hP => hprepared P ?_ name
    obtain ⟨blueprint, -, hprepare⟩ := bind_eq_ok_iff.mp hP
    exact ⟨blueprint, hprepare⟩
  | state name => exact h.goes
  | solve name newName options =>
    simp only [Workspace.take, solveIn]
    cases hP : W.prepared name Solution.asSystem with
    | error f => exact keeping_cases h.goes nofun
    | ok found =>
      obtain ⟨origin, P⟩ := found
      have htouches := P.touches_solveIn W.memory options
      refine keeping_cases (h.withMemory htouches nofun).goes fun K hK => ?_
      obtain ⟨S, hS, rfl⟩ := map_eq_ok_iff.mp hK
      exact (h.putSolved_of_solveIn (find_of_prepared hP) hS).goes
  | solution name time => exact (h.onSolution fun K => K.follows_report time).goes
  | residual name => exact (h.onSolution fun K => K.follows_askResidual).goes
  | write name member places value => exact (h.write hpublic).goes
  | workingCopy name value => exact h.goes
  | assign name field value => exact h.assign.goes
  | assignResult name field => exact h.goes
  | hasWarning name part => exact h.goes
  | summary name timing => exact h.goes
  | backend name options => exact h.backend.goes
  | make newName a => exact keeping_cases h.goes fun _ _ => h.putMade.goes
  | hold name newName what =>
    have ⟨hW, hhandle⟩ := h.handOut hpublic name
    exact keeping_cases hW.goes fun handle hmade => (hW.putInHand (hhandle handle hmade)).goes
  | alter name places value => exact h.alter.goes

theorem takeAll {steps : List WorkspaceStep} (h : W.Sound r)
    (hpublic : ∀ step ∈ steps, step.IsPublic) : Goes r (W.takeAll steps).1 := by
  -- the registry grows along the run, so it is generalized with the workspace
  induction steps generalizing W r with
  | nil => exact h.goes
  | cons step steps ih =>
    rw [List.forall_mem_cons] at hpublic
    exact (h.take hpublic.1).trans fun r' h' => ih h' hpublic.2

end Sound

end Workspace

end LinearSystems
