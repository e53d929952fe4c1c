import Mathlib.Data.List.Pairwise
import LinearSystems.Proofs.Workspace.Exposed
import LinearSystems.Workspace

/-!
# Sound workspaces

A registry lists the systems that were ever prepared in a workspace, each with the cells that its
arrays were put into. These cells still hold the arrays. Whatever stands under a name belongs to a
system of the registry, the arrays of a solution lie in cells that are neither those of a system nor
those of another solution, and an array in hand that takes writes lies in no cell of a system.

Here are the ways in which a workspace that is sound in this sense may change and stay so.
-/

namespace LinearSystems

/-- Systems with the origins of their cells. -/
abbrev Registry := List (Nat × Prepared)

namespace Registry

/-- The cells of all the systems. -/
def cells (r : Registry) : List Nat :=
  r.flatMap fun s => s.2.cells s.1

/-- Every system could be prepared and lies in its cells, and no two have the same cells. -/
structure Sound (r : Registry) (m : Memory) : Prop where
  made : ∀ s ∈ r, ∃ blueprint, Blueprint.prepare blueprint = .ok s.2
  stored : ∀ s ∈ r, s.2.StoredIn m s.1
  cells_lt : ∀ a ∈ r.cells, a < m.size
  distinct : r.Pairwise fun s t => s.1 ≠ t.1

variable {r : Registry} {m m' : Memory} {origin : Nat} {P Q : Prepared}

theorem mem_cells (h : (origin, P) ∈ r) {a : Nat} (ha : a ∈ P.cells origin) : a ∈ r.cells :=
  List.mem_flatMap.mpr ⟨_, h, ha⟩

/-- There is one system only at an origin. -/
theorem Sound.eq_of_mem (h : r.Sound m) (hP : (origin, P) ∈ r) (hQ : (origin, Q) ∈ r) : P = Q := by
  have : Std.Symm fun s t : Nat × Prepared => s.1 ≠ t.1 := ⟨fun _ _ hne => hne.symm⟩
  by_contra hne
  exact h.distinct.forall hP hQ (fun heq => hne (congrArg Prod.snd heq)) rfl

theorem Sound.congr (h : r.Sound m) (hsize : m.size ≤ m'.size)
    (hread : ∀ a ∈ r.cells, m'.read a = m.read a) : r.Sound m' where
  made := h.made
  stored s hs := (h.stored s hs).congr fun a ha => hread a (mem_cells hs ha)
  cells_lt a ha := Nat.lt_of_lt_of_le (h.cells_lt a ha) hsize
  distinct := h.distinct

theorem Sound.touched {cells : List Nat} (h : r.Sound m) (hm : m.Touches cells m')
    (hcells : ∀ a ∈ cells, a ∉ r.cells) : r.Sound m' :=
  h.congr hm.size_le (hm.kept h.cells_lt hcells)

/-- A system whose arrays were put into new cells joins the others. -/
theorem Sound.cons (h : r.Sound m) (hmade : ∃ blueprint, Blueprint.prepare blueprint = .ok P) :
    Registry.Sound ((m.size, P) :: r) (m.allocateAll P.arrays) := by
  have hsize := m.size_allocateAll P.arrays
  have hold := h.touched (m.touches_allocateAll P.arrays) nofun
  constructor
  · exact List.forall_mem_cons.mpr ⟨hmade, h.made⟩
  · exact List.forall_mem_cons.mpr ⟨P.storedIn_allocateAll m, hold.stored⟩
  · intro a ha
    rcases List.mem_append.mp ha with hnew | hmem
    · rw [hsize]
      exact (Prepared.mem_cells_iff.mp hnew).2
    · exact hold.cells_lt a hmem
  -- an origin is a cell itself, so all older ones lie below the size
  · refine .cons (fun s hs heq => ?_) h.distinct
    have hlt := h.cells_lt s.1 (mem_cells hs (s.2.origin_mem_cells s.1))
    exact Nat.lt_irrefl _ (heq ▸ hlt)

end Registry

namespace Entry

/-- The system of an entry: the prepared one, or the one that was solved. -/
def system : Entry → Prepared
  | .prepared _ P => P
  | .solved K => K.solution.system

/-- Where the arrays of the system lie. -/
def origin : Entry → Nat
  | .prepared origin _ => origin
  | .solved K => K.origin

/-- The cells of the arrays of a solution. -/
def ownCells : Entry → List Nat
  | .prepared .. => []
  | .solved K => K.cells

/-- The system of the entry is one of the registry. A solution is what solving it gives, apart from
    writes, and its arrays lie in cells of their own outside the systems. -/
structure Sound (r : Registry) (m : Memory) (e : Entry) : Prop where
  known : (e.origin, e.system) ∈ r
  computed : ∀ K, e = .solved K → ∃ options, e.system.solve options = .ok K.solution.original
  own_lt : ∀ a ∈ e.ownCells, a < m.size
  own_nodup : e.ownCells.Nodup
  own_not_mem : ∀ a ∈ e.ownCells, a ∉ r.cells

namespace Sound

variable {r r' : Registry} {m m' : Memory} {e : Entry} {K K' : KeptSolution} {origin : Nat}
  {P : Prepared}

theorem mono (h : e.Sound r m) (hsize : m.size ≤ m'.size) (hsub : r ⊆ r')
    (hnew : ∀ a ∈ r'.cells, a ∈ r.cells ∨ m.size ≤ a) : e.Sound r' m' where
  known := hsub h.known
  computed := h.computed
  own_lt a ha := Nat.lt_of_lt_of_le (h.own_lt a ha) hsize
  own_nodup := h.own_nodup
  own_not_mem a ha hmem := by
    rcases hnew a hmem with hold | hle
    · exact h.own_not_mem a ha hold
    · exact absurd (h.own_lt a ha) (Nat.not_lt.mpr hle)

theorem grow (h : e.Sound r m) (hsize : m.size ≤ m'.size) : e.Sound r m' :=
  h.mono hsize (List.Subset.refl _) fun _ ha => .inl ha

theorem follows (h : (Entry.solved K).Sound r m) (hK : K.Follows K') :
    (Entry.solved K').Sound r m := by
  have hsystem : (Entry.solved K').system = (Entry.solved K).system := hK.system
  have horigin : (Entry.solved K').origin = (Entry.solved K).origin := hK.origin
  have hcells : (Entry.solved K').ownCells = (Entry.solved K).ownCells := hK.cells
  constructor
  · rw [hsystem, horigin]
    exact h.known
  · rintro _ ⟨⟩
    -- a use changes the arrays of the solution, never what was computed
    rw [hsystem, hK.original]
    exact h.computed K rfl
  · rw [hcells]
    exact h.own_lt
  · rw [hcells]
    exact h.own_nodup
  · rw [hcells]
    exact h.own_not_mem

theorem solved_of {S : Solution} {options : SolveOptions}
    (h : (Entry.prepared origin P).Sound r m) (hS : P.solve options = .ok S) :
    (Entry.solved { solution := S, origin }).Sound r m := by
  obtain ⟨rfl, horiginal⟩ := Solution.of_solve hS
  exact {
    known := h.known
    computed := fun K hK => by cases hK; exact ⟨options, by rw [horiginal]; exact hS⟩
    own_lt := nofun
    own_nodup := .nil
    own_not_mem := nofun }

theorem stored (h : e.Sound r m) (hr : r.Sound m) : e.system.StoredIn m e.origin :=
  hr.stored _ h.known

theorem loaded (h : e.Sound r m) (hr : r.Sound m) :
    (e.loaded m).Sound r m ∧ (e.loaded m).ownCells = e.ownCells := by
  cases e with
  | prepared origin P =>
    have hP : P.loaded m origin = P := (h.stored hr).loaded_eq
    exact ⟨by rwa [Entry.loaded, hP], rfl⟩
  | solved K =>
    exact ⟨h.follows ⟨rfl, rfl, Solution.original_loaded (h.stored hr)⟩, rfl⟩

theorem places (h : (Entry.solved K).Sound r m) : m.Places K.places where
  lt place hplace := h.own_lt _ (List.mem_map.mpr ⟨place, hplace, rfl⟩)
  nodup := h.own_nodup

theorem saved (h : (Entry.solved K).Sound r m) (hr : r.Sound m) :
    (Entry.solved (K.saved m).1).Sound r (K.saved m).2 := by
  have hplaces : (K.saved m).2.Places (K.saved m).1.places :=
    h.places.save K.solution.nodup_parts
  constructor
  · exact h.known
  · rintro _ ⟨⟩
    exact h.computed K rfl
  · intro a ha
    obtain ⟨place, hplace, rfl⟩ := List.mem_map.mp ha
    exact hplaces.lt place hplace
  · exact hplaces.nodup
  · intro a ha hmem
    rcases KeptSolution.mem_cells_saved ha with hold | ⟨hnew, -⟩
    · exact h.own_not_mem a hold hmem
    · exact absurd (hr.cells_lt a hmem) (Nat.not_lt.mpr hnew)

/-- A solution is read back as it was saved. -/
theorem loaded_saved (h : (Entry.solved K).Sound r m) (hr : r.Sound m) :
    (K.saved m).1.loaded (K.saved m).2 = (K.saved m).1 := by
  have hstored : K.solution.system.StoredIn (K.saved m).2 K.origin :=
    (hr.touched (K.touches_saved m) h.own_not_mem).stored _ h.known
  have hsolution := Solution.loaded_eq hstored fun place hplace =>
    h.places.read_save K.solution.nodup_parts hplace
  exact congrArg (fun S => { (K.saved m).1 with solution := S }) hsolution

end Sound

end Entry

/-- An array in hand lies in a cell, which is not one of a system if the array takes writes. -/
structure Handle.Sound (r : Registry) (m : Memory) (handle : Handle) : Prop where
  address_lt : handle.address < m.size
  not_mem : handle.writable = true → handle.address ∉ r.cells

namespace Handle.Sound

variable {r r' : Registry} {m m' : Memory} {handle : Handle}

theorem mono (h : handle.Sound r m) (hsize : m.size ≤ m'.size)
    (hnew : ∀ a ∈ r'.cells, a ∈ r.cells ∨ m.size ≤ a) : handle.Sound r' m' where
  address_lt := Nat.lt_of_lt_of_le h.address_lt hsize
  not_mem hwritable hmem := by
    rcases hnew _ hmem with hold | hle
    · exact h.not_mem hwritable hold
    · exact absurd h.address_lt (Nat.not_lt.mpr hle)

theorem of_le (hr : r.Sound m) (hle : m.size ≤ handle.address) (hlt : handle.address < m'.size) :
    handle.Sound r m' where
  address_lt := hlt
  not_mem _ hmem := absurd (hr.cells_lt _ hmem) (Nat.not_lt.mpr hle)

end Handle.Sound

namespace Workspace

/-- The solutions under two names share no cell. -/
def Apart (entry other : Datum × Entry) : Prop :=
  entry.2.ownCells.Disjoint other.2.ownCells

instance : Std.Symm Apart where
  symm _ _ h := List.disjoint_symm h

/-- The systems that were prepared are as they were, everything under a name and in hand is sound,
    and the solutions share no cells. -/
structure Sound (r : Registry) (W : Workspace) : Prop where
  systems : r.Sound W.memory
  entries : ∀ entry ∈ W.entries, entry.2.Sound r W.memory
  apart : W.entries.Pairwise Apart
  inHand : ∀ entry ∈ W.inHand, entry.2.Sound r W.memory

/-- A system or a solution that can be put under a name: it is sound and shares no cell with what
    other names stand for. -/
structure Fits (r : Registry) (W : Workspace) (name : Datum) (e : Entry) : Prop where
  sound : e.Sound r W.memory
  apart : ∀ entry ∈ W.entries, entry.1.same name = false →
    e.ownCells.Disjoint entry.2.ownCells

theorem sound_empty : Sound [] {} where
  systems := ⟨nofun, nofun, nofun, .nil⟩
  entries := nofun
  apart := .nil
  inHand := nofun

variable {r r' : Registry} {W : Workspace} {name : Datum} {e : Entry}

theorem Fits.follows {K K' : KeptSolution} (h : W.Fits r name (.solved K)) (hK : K.Follows K') :
    W.Fits r name (.solved K') where
  sound := h.sound.follows hK
  apart entry hentry hother := by
    have hcells : (Entry.solved K').ownCells = (Entry.solved K).ownCells := hK.cells
    rw [hcells]
    exact h.apart entry hentry hother

namespace Sound

theorem withMemory {cells : List Nat} {m : Memory} (h : W.Sound r)
    (hm : W.memory.Touches cells m) (hcells : ∀ a ∈ cells, a ∉ r.cells) :
    ({ W with memory := m } : Workspace).Sound r where
  systems := h.systems.touched hm hcells
  entries entry hentry := (h.entries entry hentry).grow hm.size_le
  apart := h.apart
  inHand entry hentry := (h.inHand entry hentry).mono hm.size_le fun _ ha => .inl ha

theorem put (h : W.Sound r) (he : W.Fits r name e) : (W.put name e).Sound r where
  systems := h.systems
  entries entry hentry := by
    rcases List.mem_cons.mp hentry with rfl | hold
    · exact he.sound
    · exact h.entries entry (List.mem_of_mem_filter hold)
  apart := by
    refine .cons (fun entry hentry => ?_) (h.apart.filter _)
    -- what had the name before is filtered out, so only other names are left to compare with
    obtain ⟨hmem, hother⟩ := List.mem_filter.mp hentry
    exact he.apart entry hmem (by simpa using hother)
  inHand := h.inHand

theorem putInHand {handle : Handle} (h : W.Sound r) (hhandle : handle.Sound r W.memory) :
    (W.putInHand name handle).Sound r where
  systems := h.systems
  entries := h.entries
  apart := h.apart
  inHand entry hentry := by
    rcases List.mem_cons.mp hentry with rfl | hold
    · exact hhandle
    · exact h.inHand entry (List.mem_of_mem_filter hold)

theorem putPrepared {P : Prepared} (h : W.Sound r)
    (hmade : ∃ blueprint, Blueprint.prepare blueprint = .ok P) :
    (W.putPrepared name P).Sound ((W.memory.size, P) :: r) := by
  have hm := W.memory.touches_allocateAll P.arrays
  have hnew : ∀ a ∈ Registry.cells ((W.memory.size, P) :: r),
      a ∈ r.cells ∨ W.memory.size ≤ a := by
    intro a ha
    rcases List.mem_append.mp ha with hcell | hold
    · exact .inr (Prepared.mem_cells_iff.mp hcell).1
    · exact .inl hold
  have hgrown : ({ W with memory := W.memory.allocateAll P.arrays } : Workspace).Sound
      ((W.memory.size, P) :: r) := {
    systems := h.systems.cons hmade
    entries := fun entry hentry =>
      (h.entries entry hentry).mono hm.size_le (List.subset_cons_self _ _) hnew
    apart := h.apart
    inHand := fun entry hentry => (h.inHand entry hentry).mono hm.size_le hnew }
  exact hgrown.put {
    sound := ⟨List.mem_cons_self, nofun, nofun, .nil, nofun⟩
    apart := fun _ _ _ => List.disjoint_nil_left _ }

theorem putSolved {K : KeptSolution} (h : W.Sound r) (hK : W.Fits r name (.solved K)) :
    (W.putSolved name K).Sound r := by
  refine (h.withMemory (K.touches_saved W.memory) hK.sound.own_not_mem).put
    ⟨hK.sound.saved h.systems, fun entry hentry hother a ha hmem => ?_⟩
  -- a cell that is new to the solution lies beyond all cells that others have
  rcases KeptSolution.mem_cells_saved ha with hold | ⟨hnew, -⟩
  · exact hK.apart entry hentry hother hold hmem
  · exact absurd ((h.entries entry hentry).own_lt a hmem) (Nat.not_lt.mpr hnew)

/-- What is found under a name fits there. -/
theorem find (h : W.Sound r) (hfind : W.find name = .ok e) : W.Fits r name e := by
  obtain ⟨_, -, hfound⟩ := bind_eq_ok_iff.mp hfind
  split at hfound
  · rename_i entry hentry
    cases hfound
    have hmem := List.mem_of_find?_eq_some hentry
    have hname := List.find?_some hentry
    obtain ⟨hsound, hcells⟩ := (h.entries entry hmem).loaded h.systems
    refine ⟨hsound, fun other hother hdiffer => ?_⟩
    rw [hcells]
    refine h.apart.forall hmem hother ?_
    rintro rfl
    exact Bool.noConfusion (hname.symm.trans hdiffer)
  · cases hfound

theorem handle {handle : Handle} (h : W.Sound r) (hname : W.handle name = .ok handle) :
    handle.Sound r W.memory := by
  obtain ⟨_, -, hfound⟩ := bind_eq_ok_iff.mp hname
  split at hfound
  · rename_i entry hentry
    cases hfound
    exact h.inHand entry (List.mem_of_find?_eq_some hentry)
  · cases hfound

end Sound

end Workspace

end LinearSystems
