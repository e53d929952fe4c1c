import LinearSystems.TypedArray.Basic

/-!
# Memory

The arrays of a session, each in a cell of its own. Whoever knows the address of a cell sees what is
written to it, so a system, a solution and a caller can share an array. A new cell has an address
that nothing had before.
-/

namespace LinearSystems

/-- The cells of a session. The address of a cell is its number. -/
structure Memory where
  cells : Array TypedArray := #[]

namespace Memory

/-- How many cells there are; they have the addresses below. -/
def size (m : Memory) : Nat :=
  m.cells.size

/-- What lies in a cell; an array without elements where there is none. -/
def read (m : Memory) (a : Nat) : TypedArray :=
  m.cells.getD a (.ofTensor (.zeros [0]))

/-- Puts an array into a cell in place of what lay there. -/
def write (m : Memory) (a : Nat) (v : TypedArray) : Memory where
  cells := m.cells.setIfInBounds a v

/-- Puts an array into a new cell. -/
def allocate (m : Memory) (v : TypedArray) : Memory × Nat :=
  ({ cells := m.cells.push v }, m.size)

@[simp]
theorem size_write (m : Memory) (a : Nat) (v : TypedArray) : (m.write a v).size = m.size := by
  simp [size, write]

@[simp]
theorem size_allocate (m : Memory) (v : TypedArray) : (m.allocate v).1.size = m.size + 1 := by
  simp [size, allocate]

theorem read_write_self {m : Memory} {a : Nat} (h : a < m.size) (v : TypedArray) :
    (m.write a v).read a = v := by
  have h : a < m.cells.size := h
  simp [read, write, Array.getD, h]

theorem read_write_of_ne {m : Memory} {a b : Nat} (h : b ≠ a) (v : TypedArray) :
    (m.write a v).read b = m.read b := by
  simp [read, write, Array.getElem?_setIfInBounds_ne h.symm]

/-- Writing what lies in a cell already changes nothing. -/
theorem write_read (m : Memory) (a : Nat) : m.write a (m.read a) = m := by
  obtain ⟨cells⟩ := m
  by_cases h : a < cells.size
  · have hself : cells.set a cells[a] h = cells := Array.set_getElem_self h
    simp [write, read, Array.getD, Array.setIfInBounds, h, hself]
  · simp [write, Array.setIfInBounds, h]

theorem read_allocate_of_lt {m : Memory} {a : Nat} (h : a < m.size) (v : TypedArray) :
    (m.allocate v).1.read a = m.read a := by
  have h : a < m.cells.size := h
  simp [read, allocate, Array.getElem?_push, Nat.ne_of_lt h]

theorem read_allocate (m : Memory) (v : TypedArray) : (m.allocate v).1.read m.size = v := by
  simp [read, allocate, size]

/-- Puts arrays into new cells, one after the other. -/
def allocateAll (m : Memory) (vs : List TypedArray) : Memory :=
  vs.foldl (fun m v => (m.allocate v).1) m

/-- Puts arrays into cells that lie one after the other. -/
def writeAll (m : Memory) (origin : Nat) : List TypedArray → Memory
  | [] => m
  | v :: vs => (m.write origin v).writeAll (origin + 1) vs

/-- What lies in cells one after the other. -/
def readAll (m : Memory) (origin : Nat) : (count : Nat) → List TypedArray
  | 0 => []
  | count + 1 => m.read origin :: m.readAll (origin + 1) count

theorem size_allocateAll (m : Memory) (vs : List TypedArray) :
    (m.allocateAll vs).size = m.size + vs.length := by
  induction vs generalizing m with
  | nil => rfl
  | cons v vs ih =>
    rw [allocateAll, List.foldl_cons, ← allocateAll, ih, size_allocate, List.length_cons]
    omega

theorem read_allocateAll_of_lt {m : Memory} {a : Nat} (h : a < m.size) (vs : List TypedArray) :
    (m.allocateAll vs).read a = m.read a := by
  induction vs generalizing m with
  | nil => rfl
  | cons v vs ih =>
    rw [allocateAll, List.foldl_cons, ← allocateAll, ih (by rw [size_allocate]; omega),
      read_allocate_of_lt h]

/-- New cells hold what was put into them. -/
theorem readAll_allocateAll (m : Memory) (vs : List TypedArray) :
    (m.allocateAll vs).readAll m.size vs.length = vs := by
  induction vs generalizing m with
  | nil => rfl
  | cons v vs ih =>
    have hrest := ih (m.allocate v).1
    rw [size_allocate] at hrest
    have hfirst : (m.allocateAll (v :: vs)).read m.size = v := by
      rw [allocateAll, List.foldl_cons, ← allocateAll,
        read_allocateAll_of_lt (by rw [size_allocate]; omega), read_allocate]
    rw [List.length_cons, readAll, hfirst]
    exact congrArg (v :: ·) hrest

/-- Cells with the same contents are read alike. -/
theorem readAll_congr {m m' : Memory} {origin : Nat} {count : Nat}
    (h : ∀ a, origin ≤ a → a < origin + count → m'.read a = m.read a) :
    m'.readAll origin count = m.readAll origin count := by
  induction count generalizing origin with
  | zero => rfl
  | succ count ih =>
    rw [readAll, readAll, h origin (by omega) (by omega),
      ih fun a ha hlt => h a (by omega) (by omega)]

theorem writeAll_readAll (m : Memory) (origin : Nat) (count : Nat) :
    m.writeAll origin (m.readAll origin count) = m := by
  induction count generalizing origin with
  | zero => rfl
  | succ count ih => rw [readAll, writeAll, write_read, ih]

end Memory

end LinearSystems
