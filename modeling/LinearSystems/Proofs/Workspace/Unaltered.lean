import LinearSystems.Proofs.Workspace.Steps

/-!
# Systems and solutions are not altered by use

Whatever steps a caller takes that write to no private member and take none in hand: every system
stays as it was prepared, a solve of it answers what solving a newly prepared system answers, and
what it shows takes no writes. A write to an array of one solution leaves all other solutions as
they are, and the facts of its own run.
-/

namespace LinearSystems

/-- Prepares a system and solves it at once. -/
def Blueprint.solve (blueprint : Blueprint) (options : SolveOptions) : Except Fault Solution := do
  (← blueprint.prepare).solve options

/-- The facts of the run that a solution came from. -/
def Solution.info : Solution → Datum
  | .gauss S => S.result.info
  | .jacobi S => S.result.info
  | .tridiagonal S => S.result.info

theorem Solution.info_original (S : Solution) : S.original.info = S.info := by
  cases S <;> rfl

/-- The facts that a solution shows: those of its run, and what was added to them. -/
def KeptSolution.shownFacts (K : KeptSolution) : Datum × Notes :=
  (K.solution.info, K.factNotes)

theorem KeptSolution.FollowsQuietly.shownFacts {K K' : KeptSolution} (h : K.FollowsQuietly K') :
    K'.shownFacts = K.shownFacts := by
  rw [KeptSolution.shownFacts, ← Solution.info_original, h.original, Solution.info_original,
    h.factNotes, KeptSolution.shownFacts]

/-- The facts that an entry shows. A prepared system shows none. -/
def Entry.shownFacts? : Entry → Option (Datum × Notes)
  | .prepared .. => none
  | .solved K => some K.shownFacts

/-- What is read from its cells does not change the facts that an entry shows. -/
theorem Entry.Sound.shownFacts?_loaded {r : Registry} {m : Memory} {e : Entry}
    (h : e.Sound r m) (hr : r.Sound m) : (e.loaded m).shownFacts? = e.shownFacts? := by
  cases e with
  | prepared origin P => rfl
  | solved K =>
    have hfollows : K.FollowsQuietly (K.loaded m) :=
      ⟨⟨rfl, rfl, Solution.original_loaded (h.stored hr)⟩, rfl⟩
    exact congrArg some hfollows.shownFacts

/-- An entry does not see changes outside its own cells and those of the systems. -/
theorem Entry.Sound.loaded_congr {r : Registry} {m m' : Memory} {e : Entry} {cells : List Nat}
    (h : e.Sound r m) (hr : r.Sound m) (hm : m.Touches cells m') (hcells : ∀ a ∈ cells, a ∉ r.cells)
    (hown : cells.Disjoint e.ownCells) : e.loaded m' = e.loaded m := by
  have hsystem : ∀ a ∈ e.system.cells e.origin, m'.read a = m.read a := fun a ha =>
    hm.kept hr.cells_lt hcells a (Registry.mem_cells h.known ha)
  cases e with
  | prepared origin P => exact congrArg (Entry.prepared origin) (Prepared.loaded_congr hsystem)
  | solved K =>
    have hS : K.solution.loaded m' K.origin K.places = K.solution.loaded m K.origin K.places := by
      refine Solution.loaded_congr hsystem fun place hplace => ?_
      have hmem : place.2 ∈ K.cells := List.mem_map.mpr ⟨place, hplace, rfl⟩
      exact hm.read_eq _ (h.own_lt _ hmem) fun hcell => hown hcell hmem
    rw [Entry.loaded, Entry.loaded, KeptSolution.loaded, KeptSolution.loaded, hS]

namespace Workspace

/-- The system in the cells from an origin on is as it was prepared: its matrix and its vectors lie
    there, every name for it stands for it as it was, and its solutions are what solving it gives,
    but for writes to them. Solving it answers what solving a newly prepared system answers.
    Neither what it shows nor an array in hand that shows a cell of it takes writes. -/
structure Intact (W : Workspace) (origin : Nat) (P : Prepared) : Prop where
  loaded : P.loaded W.memory origin = P
  found : ∀ name Q, W.find name = .ok (.prepared origin Q) → Q = P
  made : ∃ blueprint : Blueprint, blueprint.prepare = .ok P
  solved : ∀ name, W.find name = .ok (.prepared origin P) → ∀ blueprint : Blueprint,
    blueprint.prepare = .ok P → ∀ options,
      (W.solve name options).map (·.solution) = blueprint.solve options
  solutions : ∀ name K, W.find name = .ok (.solved K) → K.origin = origin →
    K.solution.system = P ∧ ∃ options, P.solve options = .ok K.solution.original
  rejected : ∀ name, W.find name = .ok (.prepared origin P) → ∀ member places value,
    member.isPrivateName = false → ∃ f, (W.take (.write name member places value)).2 = .error f
  readOnly : ∀ name handle, W.handle name = .ok handle → handle.address ∈ P.cells origin →
    ∀ places value, ∃ f, W.take (.alter name places value) = (W, .error f)

/-- What other names stand for is the same in both workspaces. -/
def SameBeside (W W' : Workspace) (name : Datum) : Prop :=
  ∀ entry ∈ W.entries, entry.1.same name = false →
    entry ∈ W'.entries ∧ entry.2.loaded W'.memory = entry.2.loaded W.memory

/-- The solution is kept under the name, whatever cells its arrays lie in. -/
def Keeps (W : Workspace) (name : Datum) (K : KeptSolution) : Prop :=
  ∃ K', (name, .solved K') ∈ W.entries ∧ K'.loaded W.memory = { K with places := K'.places }

/-- What writes do, and what they leave as it is. A write by name to a solution does to it what it
    does to the solution alone, and leaves what all other names stand for; if it goes to an array,
    it leaves the facts that the solution shows. A write to an array in hand leaves these facts too,
    and everything in whose own cells the array does not lie; no cell is the own cell of two
    solutions. -/
structure WritesApart (W : Workspace) : Prop where
  own : ∀ name K, W.find name = .ok (.solved K) → ∀ member places value,
    (W.take (.write name (.text member) places value)).1.Keeps name
      (K.write member places value).1
  others : ∀ name member places value, member.isPrivateName = false →
    W.SameBeside (W.take (.write name member places value)).1 name
  facts : ∀ name K, W.find name = .ok (.solved K) → ∀ member source places value,
    K.solution.members.lookup member = some (.array, source) →
      (K.write member places value).1.shownFacts = K.shownFacts
  owner : W.entries.Pairwise Apart
  inHand : ∀ name handle, W.handle name = .ok handle → ∀ places value,
    (W.take (.alter name places value)).1.entries = W.entries ∧
    ∀ entry ∈ W.entries,
      (handle.address ∉ entry.2.ownCells →
        entry.2.loaded (W.take (.alter name places value)).1.memory = entry.2.loaded W.memory) ∧
      (entry.2.loaded (W.take (.alter name places value)).1.memory).shownFacts? =
        (entry.2.loaded W.memory).shownFacts?

variable {r : Registry} {W : Workspace} {name : Datum} {origin : Nat} {P : Prepared} {e : Entry}
  {m : Memory}

theorem mem_put {entry : Datum × Entry} (hentry : entry ∈ W.entries)
    (hother : entry.1.same name = false) : entry ∈ (W.put name e).entries :=
  List.mem_cons_of_mem _ (List.mem_filter.mpr ⟨hentry, by simp [hother]⟩)

theorem alter_readOnly {handle : Handle} (hname : W.handle name = .ok handle)
    (hwritable : handle.writable = false) (places value : Datum) :
    ∃ f, W.alter name places value = (W, .error f) := by
  unfold Workspace.alter
  rw [hname]
  cases places.several with
  | error f => exact ⟨f, rfl⟩
  | ok items => exact ⟨_, if_neg (by rw [hwritable]; exact Bool.noConfusion)⟩

namespace Sound

theorem intact (h : W.Sound r) (hP : (origin, P) ∈ r) : W.Intact origin P where
  loaded := (h.systems.stored _ hP).loaded_eq
  found name Q hfind := h.systems.eq_of_mem (h.find hfind).sound.known hP
  made := h.systems.made _ hP
  solved name hfind blueprint hprepare options := by
    have hprepared : W.prepared name Solution.asSystem = .ok (origin, P) := by
      rw [prepared, hfind]
      rfl
    rw [Workspace.solve, solveIn, hprepared, Blueprint.solve, hprepare]
    simp only [Prepared.solveIn_snd]
    rw [ok_bind]
    cases P.solve options <;> rfl
  solutions name K hfind horigin := by
    have hsound := (h.find hfind).sound
    have hsystem : K.solution.system = P :=
      h.systems.eq_of_mem hsound.known (show (K.origin, P) ∈ r by rwa [horigin])
    refine ⟨hsystem, ?_⟩
    obtain ⟨options, hoptions⟩ := hsound.computed K rfl
    exact ⟨options, by rw [← hsystem]; exact hoptions⟩
  rejected name hfind member places value hpublic := by
    rw [Workspace.take]
    rcases h.write_cases hpublic name places value with
      ⟨f, hwrite⟩ | ⟨_, _, f, _, hwrite⟩ | ⟨K, s, hsolved, -, -⟩
    · exact ⟨f, by rw [hwrite]; rfl⟩
    · exact ⟨f, by rw [hwrite]; rfl⟩
    · cases hfind.symm.trans hsolved
  readOnly name handle hname haddress places value := by
    have hcell := Registry.mem_cells hP haddress
    have hwritable : handle.writable = false := by
      by_contra htrue
      exact (h.handle hname).not_mem (by simpa using htrue) hcell
    obtain ⟨f, halter⟩ := alter_readOnly hname hwritable places value
    exact ⟨f, by rw [Workspace.take, halter]; rfl⟩

/-- A solution is kept as it was put under its name. -/
theorem keeps_putSolved {K : KeptSolution} (h : W.Sound r) (hK : W.Fits r name (.solved K)) :
    (W.putSolved name K).Keeps name K :=
  ⟨(K.saved W.memory).1, List.mem_cons_self, hK.sound.loaded_saved h.systems⟩

theorem writesApart (h : W.Sound r) : W.WritesApart where
  own name K hfind member places value := by
    have hwrite : (W.take (.write name (.text member) places value)).1 =
        W.putSolved name (K.write member places value).1 := by
      rw [Workspace.take, Workspace.write, hfind]
      rfl
    rw [hwrite]
    exact h.keeps_putSolved ((h.find hfind).follows (K.follows_write member places value))
  others name member places value hpublic entry hentry hother := by
    simp only [Workspace.take]
    rcases h.write_cases hpublic name places value with
      ⟨f, hwrite⟩ | ⟨_, _, f, _, hwrite⟩ | ⟨K, s, hfind, -, hwrite⟩
    · rw [hwrite]
      exact ⟨hentry, rfl⟩
    · rw [hwrite]
      exact ⟨mem_put hentry hother, rfl⟩
    · rw [hwrite]
      have hfits := (h.find hfind).follows (K.follows_write s places value)
      have htouches := (K.write s places value).1.touches_saved W.memory
      refine ⟨mem_put hentry hother, (h.entries entry hentry).loaded_congr h.systems htouches
        hfits.sound.own_not_mem ?_⟩
      exact hfits.apart entry hentry hother
  facts name K hfind member source places value harray :=
    (KeptSolution.followsQuietly_write_array harray places value).shownFacts
  owner := h.apart
  inHand name handle hname places value := by
    simp only [Workspace.take]
    rcases alter_cases W name places value with heq | ⟨handle', v, hname', hwritable, heq⟩
    · rw [heq]
      exact ⟨rfl, fun entry _ => ⟨fun _ => rfl, rfl⟩⟩
    · cases hname.symm.trans hname'
      rw [heq]
      have htouches := W.memory.touches_write handle.address v
      have hcell := (h.handle hname).not_mem hwritable
      have hW' := h.withMemory htouches (by simpa using hcell)
      refine ⟨rfl, fun entry hentry => ⟨fun hout => ?_, ?_⟩⟩
      · exact (h.entries entry hentry).loaded_congr h.systems htouches (by simpa using hcell)
          (by simpa using hout)
      · rw [(hW'.entries entry hentry).shownFacts?_loaded hW'.systems,
          (h.entries entry hentry).shownFacts?_loaded h.systems]

end Sound

/-- A system that a name stands for is intact after any public steps, and writes to solutions stay
    apart. -/
theorem unaltered_by_use (before later : List WorkspaceStep)
    (hpublic : ∀ step ∈ before ++ later, step.IsPublic) :
    (∀ name origin P, (takeAll {} before).1.find name = .ok (.prepared origin P) →
      ((takeAll {} before).1.takeAll later).1.Intact origin P) ∧
    ((takeAll {} before).1.takeAll later).1.WritesApart := by
  rw [List.forall_mem_append] at hpublic
  obtain ⟨r, -, hW⟩ := sound_empty.takeAll hpublic.1
  obtain ⟨r', hsub, hW'⟩ := hW.takeAll hpublic.2
  exact ⟨fun name origin P hfind => hW'.intact (hsub (hW.find hfind).sound.known),
    hW'.writesApart⟩

/-- A caller's array, and the system that is prepared from it. -/
def callersSystem : List WorkspaceStep :=
  [.make (.text "M") (.ofDense (#v[#v[2.0, 4.0]] : Dense Float 1 2)),
    .prepareFrom (.text "design") (.augmented (.inHand (.text "M")))]

/-- Writes to all that the caller has of the system: the array that it was prepared from, a copy to
    work on, what the system shows, and a solution. -/
def callersUse : List WorkspaceStep :=
  let first : Datum := .list [.number (.whole 0), .number (.whole 0)]
  [.alter (.text "M") first (.number (.real 9.0)),
    .hold (.text "design") (.text "copy") .workingCopy,
    .alter (.text "copy") first (.number (.real 9.0)),
    .hold (.text "design") (.text "A") (.member (.text "A")),
    .alter (.text "A") first (.number (.real 9.0)),
    .solve (.text "design") (.text "solution") {},
    .write (.text "solution") (.text "x") (.list [.number (.whole 0)]) (.number (.real 9.0))]

theorem callersSystem_unaltered :
    (∀ step ∈ callersSystem ++ callersUse, step.IsPublic) ∧
    (∃ P, (takeAll {} callersSystem).1.find (.text "design") = .ok (.prepared 1 P) ∧
      ((takeAll {} callersSystem).1.takeAll callersUse).1.Intact 1 P) ∧
    ((takeAll {} callersSystem).1.takeAll callersUse).1.WritesApart := by
  have hpublic : ∀ step ∈ callersSystem ++ callersUse, step.IsPublic := by
    simp [callersSystem, callersUse, WorkspaceStep.IsPublic, Handout.IsPublic,
      Datum.isPrivateName]
  have hfound : ((takeAll {} callersSystem).1.prepared (.text "design")
      Solution.asState).toOption.map (·.1) = some 1 := by
    decide +kernel
  obtain ⟨hintact, hapart⟩ := unaltered_by_use callersSystem callersUse hpublic
  cases hP : (takeAll {} callersSystem).1.prepared (.text "design") Solution.asState with
  | error f =>
    rw [hP] at hfound
    cases hfound
  | ok found =>
    obtain ⟨origin, P⟩ := found
    rw [hP] at hfound
    cases hfound
    have hfind := find_of_prepared hP
    exact ⟨hpublic, ⟨P, hfind, hintact _ _ _ hfind⟩, hapart⟩

/-- Only the write to what the system shows is refused. -/
example : (((takeAll {} callersSystem).1.takeAll callersUse).2.map fun answer => answer.isOk) =
    [true, true, true, true, false, true, true] := by
  decide +kernel

end Workspace

end LinearSystems
