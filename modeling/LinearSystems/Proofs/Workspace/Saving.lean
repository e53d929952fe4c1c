import LinearSystems.Proofs.Workspace.Cells
import LinearSystems.Workspace.KeptSolution

/-!
# Solutions saved in memory

Saving the arrays of a solution changes no cells but its own, and takes new ones for arrays that
have none. If its cells differ from each other, they differ afterwards, and the solution is read
back as it was saved.
-/

namespace LinearSystems

namespace Memory

variable {m : Memory} {places : List (Part × Nat)} {parts : List (Part × TypedArray)}
  {part other : Part} {a : Nat}

theorem save_cons_of_some (h : places.lookup part = some a) (v : TypedArray) :
    m.save places ((part, v) :: parts) =
      (((m.write a v).save places parts).1, (part, a) :: ((m.write a v).save places parts).2) := by
  rw [save, h]

theorem save_cons_of_none (h : places.lookup part = none) (v : TypedArray) :
    m.save places ((part, v) :: parts) =
      (((m.allocate v).1.save places parts).1,
        (part, m.size) :: ((m.allocate v).1.save places parts).2) := by
  rw [save, h]
  rfl

theorem size_le_size_save (m : Memory) (places : List (Part × Nat))
    (parts : List (Part × TypedArray)) : m.size ≤ (m.save places parts).1.size := by
  induction parts generalizing m with
  | nil => exact Nat.le_refl _
  | cons p parts ih =>
    obtain ⟨part, v⟩ := p
    cases h : places.lookup part with
    | some a =>
      rw [save_cons_of_some h]
      exact (size_write m a v).ge.trans (ih _)
    | none =>
      rw [save_cons_of_none h]
      refine Nat.le_trans ?_ (ih _)
      rw [size_allocate]
      exact Nat.le_succ _

/-- Saving changes no cells but those that the saved arrays have. -/
theorem read_save_of_lookup_ne (ha : a < m.size)
    (hout : ∀ p ∈ parts, places.lookup p.1 ≠ some a) :
    (m.save places parts).1.read a = m.read a := by
  induction parts generalizing m with
  | nil => rfl
  | cons p parts ih =>
    obtain ⟨part, v⟩ := p
    obtain ⟨hpart, hrest⟩ := List.forall_mem_cons.mp hout
    cases h : places.lookup part with
    | some b =>
      have hne : a ≠ b := fun heq => hpart (heq ▸ h)
      rw [save_cons_of_some h, ih (by rwa [size_write]) hrest, read_write_of_ne hne]
    | none =>
      rw [save_cons_of_none h, ih (by rw [size_allocate]; omega) hrest, read_allocate_of_lt ha]

/-- A saved array has the cell that it had, or a new one. -/
theorem mem_save {place : Part × Nat} (h : place ∈ (m.save places parts).2) :
    place.1 ∈ parts.map (·.1) ∧ (places.lookup place.1 = some place.2 ∨
      m.size ≤ place.2 ∧ place.2 < (m.save places parts).1.size) := by
  induction parts generalizing m with
  | nil => cases h
  | cons p parts ih =>
    obtain ⟨part, v⟩ := p
    rw [List.map_cons]
    cases hpart : places.lookup part with
    | some b =>
      rw [save_cons_of_some hpart] at h ⊢
      rcases List.mem_cons.mp h with rfl | h
      · exact ⟨List.mem_cons_self, .inl hpart⟩
      · obtain ⟨hmem, hcell⟩ := ih h
        rw [size_write] at hcell
        exact ⟨List.mem_cons_of_mem _ hmem, hcell⟩
    | none =>
      rw [save_cons_of_none hpart] at h ⊢
      have hsize := size_le_size_save (m.allocate v).1 places parts
      rw [size_allocate] at hsize
      rcases List.mem_cons.mp h with rfl | h
      · exact ⟨List.mem_cons_self, .inr ⟨Nat.le_refl _, hsize⟩⟩
      · obtain ⟨hmem, hcell⟩ := ih h
        rw [size_allocate] at hcell
        exact ⟨List.mem_cons_of_mem _ hmem, hcell.imp_right fun hnew => ⟨by omega, hnew.2⟩⟩

/-- The cells of a solution lie in memory and differ from each other. -/
structure Places (m : Memory) (places : List (Part × Nat)) : Prop where
  lt : ∀ place ∈ places, place.2 < m.size
  nodup : (places.map (·.2)).Nodup

namespace Places

theorem mono {m' : Memory} (h : m.Places places) (hsize : m.size ≤ m'.size) : m'.Places places :=
  ⟨fun place hplace => Nat.lt_of_lt_of_le (h.lt place hplace) hsize, h.nodup⟩

theorem lookup_lt (h : m.Places places) (hpart : places.lookup part = some a) : a < m.size :=
  h.lt _ (mem_of_lookup hpart)

theorem eq_of_lookup (h : m.Places places) (hpart : places.lookup part = some a)
    (hother : places.lookup other = some a) : part = other :=
  congrArg Prod.fst
    (List.inj_on_of_nodup_map h.nodup (mem_of_lookup hpart) (mem_of_lookup hother) rfl)

theorem save (h : m.Places places) (hparts : (parts.map (·.1)).Nodup) :
    (m.save places parts).1.Places (m.save places parts).2 := by
  refine ⟨fun place hplace => ?_, ?_⟩
  · obtain ⟨-, hcell | ⟨-, hlt⟩⟩ := mem_save hplace
    · exact Nat.lt_of_lt_of_le (h.lookup_lt hcell) (size_le_size_save m places parts)
    · exact hlt
  induction parts generalizing m with
  | nil => exact .nil
  | cons p parts ih =>
    obtain ⟨part, v⟩ := p
    obtain ⟨hpart, hparts⟩ := List.nodup_cons.mp hparts
    cases hcell : places.lookup part with
    | some a =>
      rw [save_cons_of_some hcell]
      -- no array saved later has this cell: neither as its old one nor as a new one
      refine List.nodup_cons.mpr ⟨fun hmem => ?_, ih (h.mono (size_write m a v).ge) hparts⟩
      obtain ⟨place, hplace, rfl⟩ := List.mem_map.mp hmem
      obtain ⟨hother, hsame | ⟨hnew, -⟩⟩ := mem_save hplace
      · exact hpart (h.eq_of_lookup hsame hcell ▸ hother)
      · rw [size_write] at hnew
        exact absurd (h.lookup_lt hcell) (Nat.not_lt.mpr hnew)
    | none =>
      rw [save_cons_of_none hcell]
      have hgrown : m.size ≤ (m.allocate v).1.size := by simp
      refine List.nodup_cons.mpr ⟨fun hmem => ?_, ih (h.mono hgrown) hparts⟩
      obtain ⟨place, hplace, heq⟩ := List.mem_map.mp hmem
      have heq : place.2 = m.size := heq
      obtain ⟨-, hold | ⟨hnew, -⟩⟩ := mem_save hplace
      · exact Nat.lt_irrefl _ (heq ▸ h.lookup_lt hold)
      · rw [size_allocate, heq] at hnew
        exact Nat.lt_irrefl _ hnew

/-- The cells of saved arrays hold them. -/
theorem read_save (h : m.Places places) (hparts : (parts.map (·.1)).Nodup)
    {place : Part × Nat} (hplace : place ∈ (m.save places parts).2) :
    (place.1, (m.save places parts).1.read place.2) ∈ parts := by
  induction parts generalizing m with
  | nil => cases hplace
  | cons p parts ih =>
    obtain ⟨part, v⟩ := p
    obtain ⟨hpart, hparts⟩ := List.nodup_cons.mp hparts
    cases hcell : places.lookup part with
    | some a =>
      rw [save_cons_of_some hcell] at hplace ⊢
      have hsize : m.size ≤ (m.write a v).size := (size_write m a v).ge
      rcases List.mem_cons.mp hplace with rfl | hplace
      -- what is saved after it leaves its cell, which no other array has
      · have hothers : ∀ p ∈ parts, places.lookup p.1 ≠ some a := fun p hp hsame =>
          hpart (h.eq_of_lookup hsame hcell ▸ List.mem_map.mpr ⟨p, hp, rfl⟩)
        have ha := h.lookup_lt hcell
        simp only [read_save_of_lookup_ne (Nat.lt_of_lt_of_le ha hsize) hothers,
          read_write_self ha]
        exact List.mem_cons_self
      · exact List.mem_cons_of_mem _ (ih (h.mono hsize) hparts hplace)
    | none =>
      rw [save_cons_of_none hcell] at hplace ⊢
      have hsize : m.size < (m.allocate v).1.size := by simp
      rcases List.mem_cons.mp hplace with rfl | hplace
      · have hothers : ∀ p ∈ parts, places.lookup p.1 ≠ some m.size := fun p _ hsame =>
          Nat.lt_irrefl _ (h.lookup_lt hsame)
        simp only [read_save_of_lookup_ne hsize hothers, read_allocate]
        exact List.mem_cons_self
      · exact List.mem_cons_of_mem _ (ih (h.mono hsize.le) hparts hplace)

end Places

end Memory

namespace Solution

variable {S : Solution} {m : Memory} {origin : Nat} {places : List (Part × Nat)}

theorem nodup_parts (S : Solution) : (S.parts.map (·.1)).Nodup := by
  cases S with
  | gauss G =>
    obtain ⟨E, mode, result, x, columns, kept⟩ := G
    cases columns <;> cases kept <;> simp [parts]
  | jacobi J => simp [parts]
  | tridiagonal T => simp [parts]

theorem withPart_of_mem_parts {part : Part} {v : TypedArray} (h : (part, v) ∈ S.parts) :
    S.withPart part v = S := by
  cases S with
  | gauss G =>
    obtain ⟨E, mode, result, x, columns, kept⟩ := G
    simp only [parts, List.mem_cons, List.mem_append, Option.mem_toList, Option.map_eq_some_iff,
      Prod.mk.injEq] at h
    rcases h with ⟨rfl, rfl⟩ | ⟨c, rfl, rfl, rfl⟩ | ⟨r, rfl, rfl, rfl⟩ <;> simp [withPart]
  | jacobi J =>
    simp only [parts, List.mem_cons, List.not_mem_nil, or_false, Prod.mk.injEq] at h
    obtain ⟨rfl, rfl⟩ := h
    simp [withPart]
  | tridiagonal T =>
    simp only [parts, List.mem_cons, List.not_mem_nil, or_false, Prod.mk.injEq] at h
    rcases h with ⟨rfl, rfl⟩ | ⟨rfl, rfl⟩ | ⟨rfl, rfl⟩ <;> simp [withPart]

/-- A solution whose system and whose arrays lie in their cells is read back as it is. -/
theorem loaded_eq (hsystem : S.system.StoredIn m origin)
    (hplaces : ∀ place ∈ places, (place.1, m.read place.2) ∈ S.parts) :
    S.loaded m origin places = S := by
  rw [loaded, hsystem.loaded_eq, withSystem_system]
  induction places with
  | nil => rfl
  | cons place places ih =>
    obtain ⟨hplace, hplaces⟩ := List.forall_mem_cons.mp hplaces
    rw [List.foldl_cons, withPart_of_mem_parts hplace, ih hplaces]

end Solution

end LinearSystems
