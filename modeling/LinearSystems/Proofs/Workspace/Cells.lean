import LinearSystems.Proofs.Tensor.Reading
import LinearSystems.Workspace.Cells

/-!
# Systems and solutions read from memory

A system whose arrays lie in its cells is read back as it was, and solving it in memory answers what
solving it answers. A system or a solution depends on its own cells only, so a change elsewhere does
not show in it.
-/

namespace LinearSystems

theorem mem_of_lookup {α β : Type} [BEq α] [LawfulBEq α] {l : List (α × β)} {k : α} {v : β}
    (h : l.lookup k = some v) : (k, v) ∈ l := by
  obtain ⟨before, after, rfl, -⟩ := List.lookup_eq_some_iff.mp h
  simp

namespace TypedArray

variable {m n : Nat}

@[simp]
theorem vectorOr_ofVector (v w : Vector Float n) : (ofVector v).vectorOr w = v := by
  have h : (ofVector v).toTensor = Tensor.ofVector v := toTensor_ofTensor _
  rw [vectorOr, dif_pos (by rw [h]; rfl)]
  simp only [h]
  rfl

@[simp]
theorem denseOr_ofDense (A B : Dense Float m n) : (ofDense A).denseOr B = A := by
  have h : (ofDense A).toTensor = Tensor.ofDense A := toTensor_ofTensor _
  rw [denseOr, dif_pos (by rw [h]; rfl)]
  simp only [h]
  exact Tensor.toDense_ofDense A

@[simp]
theorem columnsOr_ofColumns (columns others : Vector Int n) :
    (ofColumns columns).columnsOr others = columns := by
  have h : (wholeOf ∘ fun k => Element.number (.whole k)) = id := rfl
  apply Vector.toArray_inj.mp
  simp [columnsOr, ofColumns, h, Vector.toList]

end TypedArray

namespace Gauss.Equations

/-- The copy that is worked on holds what was copied. -/
theorem runIn_snd (E : Equations) (m : Memory) (mode : Pivoting) :
    (E.runIn m mode).2 = E.run mode := by
  have hcopy : ((m.allocate (.ofDense E.augmented)).1.read m.size).denseOr E.augmented =
      E.augmented := by
    rw [Memory.read_allocate, TypedArray.denseOr_ofDense]
  have hrun (M : Dense Float E.n (E.n + 1)) (hM : M = E.augmented) :
      run { E with augmented := M } mode = E.run mode := by
    rw [hM]
  exact hrun _ hcopy

theorem solveIn_snd (E : Equations) (m : Memory) (usePivot backend : Datum) :
    (E.solveIn m usePivot backend).2 = E.solveWith usePivot backend := by
  rw [solveIn, solveWith]
  cases Options.checkBackend backend with
  | error f => rfl
  | ok _ =>
    cases Pivoting.ofRequest usePivot with
    | error f => rfl
    | ok mode =>
      simp only [runIn_snd, ok_bind]
      cases E.run mode <;> rfl

theorem runIn_fst (E : Equations) (m : Memory) (mode : Pivoting) :
    ∃ v w, (E.runIn m mode).1 = (m.allocate v).1.write m.size w :=
  ⟨_, _, rfl⟩

end Gauss.Equations

namespace Prepared

variable {P : Prepared} {m m' : Memory} {origin : Nat}

theorem withArrays_arrays (P : Prepared) : P.withArrays P.arrays = P := by
  cases P with
  | gauss E => simp [arrays, withArrays]
  | jacobi S =>
    have h : S.withEntries S.matrix S.rhs = S := dif_pos ⟨S.matrix_finite, S.rhs_finite⟩
    simp [arrays, withArrays, h]
  | tridiagonal S =>
    have h : S.withBand S.band = S :=
      dif_pos ⟨S.lower_first, S.upper_last, S.lower_finite, S.diag_finite, S.upper_finite,
        S.rhs_finite⟩
    simp [arrays, withArrays, h]

/-- The arrays of the system lie in its cells. -/
def StoredIn (P : Prepared) (m : Memory) (origin : Nat) : Prop :=
  m.readAll origin P.arrays.length = P.arrays

/-- The cells of the system. -/
def cells (P : Prepared) (origin : Nat) : List Nat :=
  List.range' origin P.arrays.length

theorem mem_cells_iff {a : Nat} :
    a ∈ P.cells origin ↔ origin ≤ a ∧ a < origin + P.arrays.length :=
  List.mem_range'_1

theorem origin_mem_cells (P : Prepared) (origin : Nat) : origin ∈ P.cells origin := by
  have hpos : 0 < P.arrays.length := by cases P <;> exact Nat.succ_pos _
  exact mem_cells_iff.mpr ⟨Nat.le_refl _, by omega⟩

theorem readAll_congr (h : ∀ a ∈ P.cells origin, m'.read a = m.read a) :
    m'.readAll origin P.arrays.length = m.readAll origin P.arrays.length :=
  Memory.readAll_congr fun a ha hlt => h a (mem_cells_iff.mpr ⟨ha, hlt⟩)

theorem StoredIn.congr (hstored : P.StoredIn m origin)
    (h : ∀ a ∈ P.cells origin, m'.read a = m.read a) : P.StoredIn m' origin :=
  (readAll_congr h).trans hstored

theorem StoredIn.loaded_eq (h : P.StoredIn m origin) : P.loaded m origin = P := by
  have h : m.readAll origin P.arrays.length = P.arrays := h
  rw [loaded, h, withArrays_arrays]

theorem loaded_congr (h : ∀ a ∈ P.cells origin, m'.read a = m.read a) :
    P.loaded m' origin = P.loaded m origin := by
  rw [loaded, loaded, readAll_congr h]

theorem storedIn_allocateAll (P : Prepared) (m : Memory) :
    P.StoredIn (m.allocateAll P.arrays) m.size :=
  m.readAll_allocateAll P.arrays

/-- Solving in memory answers what solving answers. -/
theorem solveIn_snd (P : Prepared) (m : Memory) (options : SolveOptions) :
    (P.solveIn m options).2 = P.solve options := by
  cases P with
  | gauss E => exact congrArg (Except.map Solution.gauss) (E.solveIn_snd m _ _)
  | jacobi S => rfl
  | tridiagonal S => rfl

end Prepared

namespace Solution

variable {S : Solution} {m m' : Memory} {origin : Nat} {places : List (Part × Nat)}

/-- The solution as it was computed, before any write to it. -/
def original : Solution → Solution
  | .gauss S =>
    .gauss { S with x := S.result.params.x, columns := S.result.params.columns, kept := none }
  | .jacobi S => .jacobi { S with x := S.result.params.x }
  | .tridiagonal S => .tridiagonal { S with params := S.result.params }

theorem system_original (S : Solution) : S.original.system = S.system := by
  cases S <;> rfl

/-- A solution as it is returned is one of the system that was solved, as it was computed. -/
theorem of_solve {P : Prepared} {options : SolveOptions} (h : P.solve options = .ok S) :
    S.system = P ∧ S.original = S := by
  cases P with
  | gauss E =>
    obtain ⟨G, hG, rfl⟩ := map_eq_ok_iff.mp h
    obtain ⟨_, -, hG⟩ := bind_eq_ok_iff.mp hG
    obtain ⟨_, -, hG⟩ := bind_eq_ok_iff.mp hG
    obtain ⟨_, -, hG⟩ := bind_eq_ok_iff.mp hG
    cases hG
    exact ⟨rfl, rfl⟩
  | jacobi J =>
    obtain ⟨G, hG, rfl⟩ := map_eq_ok_iff.mp h
    obtain ⟨_, -, hG⟩ := bind_eq_ok_iff.mp hG
    obtain ⟨_, -, hG⟩ := bind_eq_ok_iff.mp hG
    obtain ⟨_, -, hG⟩ := bind_eq_ok_iff.mp hG
    obtain ⟨_, -, hG⟩ := bind_eq_ok_iff.mp hG
    obtain ⟨_, -, hG⟩ := bind_eq_ok_iff.mp hG
    cases hG
    exact ⟨rfl, rfl⟩
  | tridiagonal T =>
    obtain ⟨G, hG, rfl⟩ := map_eq_ok_iff.mp h
    obtain ⟨_, -, hG⟩ := bind_eq_ok_iff.mp hG
    obtain ⟨_, -, hG⟩ := bind_eq_ok_iff.mp hG
    cases hG
    exact ⟨rfl, rfl⟩

theorem withSystem_system (S : Solution) : S.withSystem S.system = S := by
  cases S <;> exact dif_pos rfl

theorem original_withPart (S : Solution) (part : Part) (a : TypedArray) :
    (S.withPart part a).original = S.original := by
  cases S <;> cases part <;> rfl

theorem original_foldl_withPart (m : Memory) (places : List (Part × Nat)) (S : Solution) :
    (places.foldl (fun S place => S.withPart place.1 (m.read place.2)) S).original =
      S.original := by
  induction places generalizing S with
  | nil => rfl
  | cons place places ih => rw [List.foldl_cons, ih, original_withPart]

theorem original_loaded (h : S.system.StoredIn m origin) :
    (S.loaded m origin places).original = S.original := by
  rw [loaded, original_foldl_withPart, h.loaded_eq, withSystem_system]

/-- A solution depends on the cells of its system and on its own. -/
theorem loaded_congr (hsystem : ∀ a ∈ S.system.cells origin, m'.read a = m.read a)
    (hplaces : ∀ place ∈ places, m'.read place.2 = m.read place.2) :
    S.loaded m' origin places = S.loaded m origin places := by
  have hfold : ∀ T : Solution,
      places.foldl (fun S place => S.withPart place.1 (m'.read place.2)) T =
        places.foldl (fun S place => S.withPart place.1 (m.read place.2)) T := by
    intro T
    apply List.foldl_ext
    intro U place hplace
    rw [hplaces place hplace]
  rw [loaded, loaded, hfold, Prepared.loaded_congr hsystem]

end Solution

end LinearSystems
