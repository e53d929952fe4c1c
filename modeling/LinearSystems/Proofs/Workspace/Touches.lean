import LinearSystems.Proofs.Workspace.Follows
import LinearSystems.Proofs.Workspace.Saving

/-!
# What uses of memory leave as it was

Solving, calling a backend and handing out arrays change no cell that was there before: elimination
works in a new cell, and what is handed out is a new cell or one that is there already. Saving the
arrays of a solution changes its own cells only.
-/

namespace LinearSystems

/-- The second memory is the first with other contents in the given cells, and with more cells. -/
structure Memory.Touches (cells : List Nat) (m m' : Memory) : Prop where
  size_le : m.size ≤ m'.size
  read_eq : ∀ a < m.size, a ∉ cells → m'.read a = m.read a

namespace Memory

variable {m m' : Memory} {cells frozen : List Nat}

namespace Touches

theorem refl (cells : List Nat) (m : Memory) : m.Touches cells m :=
  ⟨Nat.le_refl _, fun _ _ _ => rfl⟩

theorem kept (h : m.Touches cells m') (hlt : ∀ a ∈ frozen, a < m.size)
    (hout : ∀ a ∈ cells, a ∉ frozen) : ∀ a ∈ frozen, m'.read a = m.read a :=
  fun a ha => h.read_eq a (hlt a ha) fun hcell => hout a hcell ha

end Touches

theorem touches_allocate (m : Memory) (v : TypedArray) : m.Touches [] (m.allocate v).1 where
  size_le := by simp
  read_eq _ ha _ := read_allocate_of_lt ha v

theorem touches_allocateAll (m : Memory) (vs : List TypedArray) :
    m.Touches [] (m.allocateAll vs) where
  size_le := by simp [size_allocateAll]
  read_eq _ ha _ := read_allocateAll_of_lt ha vs

theorem touches_write (m : Memory) (a : Nat) (v : TypedArray) : m.Touches [a] (m.write a v) where
  size_le := by simp
  read_eq _ _ hb := read_write_of_ne (by simpa using hb) v

end Memory

theorem Gauss.Equations.touches_runIn (E : Equations) (m : Memory) (mode : Pivoting) :
    m.Touches [] (E.runIn m mode).1 := by
  -- the working copy is a cell that is new, so the write to it touches no older one
  obtain ⟨v, w, hrun⟩ := E.runIn_fst m mode
  rw [hrun]
  constructor
  · simp
  · intro a ha _
    rw [Memory.read_write_of_ne (Nat.ne_of_lt ha), Memory.read_allocate_of_lt ha]

namespace Prepared

theorem touches_solveIn (P : Prepared) (m : Memory) (options : SolveOptions) :
    m.Touches [] (P.solveIn m options).1 := by
  cases P with
  | gauss E =>
    simp only [solveIn, Gauss.Equations.solveIn]
    split
    · exact .refl [] m
    · exact .refl [] m
    · exact E.touches_runIn m _
  | jacobi S => exact .refl [] m
  | tridiagonal S => exact .refl [] m

theorem touches_runBackendIn (P : Prepared) (m : Memory) (options : BackendOptions) :
    m.Touches [] (P.runBackendIn m options).1 := by
  unfold runBackendIn
  split
  · exact .refl [] m
  · rename_i E mode _
    exact E.touches_runIn m mode
  · exact .refl [] m

theorem touches_handOut (P : Prepared) (m : Memory) (origin : Nat) (what : Handout) :
    m.Touches [] (P.handOut m origin what).1 := by
  unfold handOut
  split
  · exact m.touches_allocate _
  · exact .refl [] m
  · exact m.touches_allocate _
  · exact .refl [] m
  · exact .refl [] m

end Prepared

namespace KeptSolution

/-- The cells of the arrays of the solution. -/
def cells (K : KeptSolution) : List Nat :=
  K.places.map (·.2)

theorem Follows.cells {K K' : KeptSolution} (h : K.Follows K') : K'.cells = K.cells := by
  rw [KeptSolution.cells, KeptSolution.cells, h.places]

theorem touches_saved (K : KeptSolution) (m : Memory) : m.Touches K.cells (K.saved m).2 where
  size_le := Memory.size_le_size_save m _ _
  read_eq _ ha hout := Memory.read_save_of_lookup_ne ha fun _ _ hcell =>
    hout (List.mem_map.mpr ⟨_, mem_of_lookup hcell, rfl⟩)

/-- Saved arrays have the cells that they had, or new ones. -/
theorem mem_cells_saved {K : KeptSolution} {m : Memory} {a : Nat} (h : a ∈ (K.saved m).1.cells) :
    a ∈ K.cells ∨ m.size ≤ a ∧ a < (K.saved m).2.size := by
  obtain ⟨place, hplace, rfl⟩ := List.mem_map.mp h
  obtain ⟨-, hold | hnew⟩ := Memory.mem_save hplace
  · exact .inl (List.mem_map.mpr ⟨_, mem_of_lookup hold, rfl⟩)
  · exact .inr hnew

theorem touches_handle (K : KeptSolution) (m : Memory) (member : String) :
    m.Touches [] (K.handle m member).1 := by
  unfold handle
  split
  · exact .refl [] m
  · split
    · exact .refl [] m
    · split
      · exact m.touches_allocate _
      · exact .refl [] m

end KeptSolution

end LinearSystems
