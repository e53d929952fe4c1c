import LinearSystems.Proofs.Workspace.Touches

/-!
# What systems and solutions let a caller write to

Every member that a system shows under a public name refuses writes, and an array that it hands out
under such a name lies in one of its cells and takes no writes. Whatever else it hands out is a copy
in a new cell. A solution hands out arrays of its own, or a new one.
-/

namespace LinearSystems

/-- A name is private if it starts with an underscore. -/
def Datum.isPrivateName : Datum → Bool
  | .text s => s.toList.head? == some '_'
  | _ => false

theorem Datum.memberName_eq_ok_iff {d : Datum} {s : String} :
    d.memberName = .ok s ↔ d = .text s := by
  cases d <;> simp [memberName]

/-- A member that refuses writes whatever the places. -/
def Member.refuses : Member → Bool
  | .fixed => true
  | .plain _ => true
  | _ => false

theorem Member.checkWrite_of_refuses {m : Member} (h : m.refuses = true) (places : List Datum) :
    ∃ f, m.checkWrite places = .error f := by
  cases m with
  | fixed => exact ⟨_, rfl⟩
  | plain typeName => exact ⟨_, rfl⟩
  | array => cases h
  | record => cases h

namespace Prepared

variable {P : Prepared} {m : Memory} {origin : Nat} {member : String} {handle : Handle}

theorem refuses_or_isPrivate (P : Prepared) :
    (P.members.all fun shown => shown.2.refuses || (Datum.text shown.1).isPrivateName) = true := by
  cases P <;> rfl

theorem refuses_of_lookup {shown : Member} (h : P.members.lookup member = some shown)
    (hpublic : (Datum.text member).isPrivateName = false) : shown.refuses = true := by
  have hor := List.all_eq_true.mp P.refuses_or_isPrivate _ (mem_of_lookup h)
  simpa [hpublic] using hor

/-- A write to what a system shows under a public name is rejected, and the system stays as it
    is. -/
theorem write_of_public (P : Prepared) (places value : Datum)
    (hpublic : (Datum.text member).isPrivateName = false) :
    ∃ f, P.write member places value = (P, .error f) := by
  unfold write
  split
  · exact ⟨_, rfl⟩
  · exact ⟨_, rfl⟩
  · rename_i shown places hshown _
    have hrefuses := refuses_of_lookup hshown hpublic
    split
    · cases hrefuses
    · obtain ⟨f, hf⟩ := Member.checkWrite_of_refuses hrefuses places
      exact ⟨f, by rw [hf]⟩

theorem exposed_lt (P : Prepared) :
    (P.exposed.all fun shown => decide (shown.2.1 < P.arrays.length)) = true := by
  cases P <;> rfl

theorem handle_mem_cells (h : P.handle origin member = .ok handle) :
    handle.address ∈ P.cells origin := by
  rw [Prepared.handle] at h
  split at h
  · rename_i k view hk
    cases h
    have hlt := List.all_eq_true.mp P.exposed_lt _ (mem_of_lookup hk)
    exact mem_cells_iff.mpr ⟨Nat.le_add_right _ _, by simpa using hlt⟩
  · cases h

theorem handle_not_writable (h : P.handle origin member = .ok handle)
    (hpublic : (Datum.text member).isPrivateName = false) : handle.writable = false := by
  rw [Prepared.handle] at h
  split at h
  · cases h
    by_contra hwritable
    have hshown : P.members.lookup member = some .array := by simpa using hwritable
    cases refuses_of_lookup hshown hpublic
  · cases h

/-- What a system hands out is an array under a member, or a copy in a new cell. -/
theorem handOut_ok {what : Handout} (h : (P.handOut m origin what).2 = .ok handle) :
    (∃ name, what = .member (.text name) ∧ P.handle origin name = .ok handle) ∨
      m.size ≤ handle.address ∧ handle.address < (P.handOut m origin what).1.size := by
  unfold handOut at h ⊢
  split at h
  · cases h
    exact .inr ⟨Nat.le_refl _, by simp⟩
  · cases h
  · cases h
    exact .inr ⟨Nat.le_refl _, by simp⟩
  · cases h
  · obtain ⟨member, hname, hhandle⟩ := bind_eq_ok_iff.mp h
    cases Datum.memberName_eq_ok_iff.mp hname
    exact .inl ⟨member, rfl, hhandle⟩

end Prepared

/-- What a solution hands out is an array of its own, or a new one. -/
theorem KeptSolution.handle_ok {K : KeptSolution} {m : Memory} {member : String} {handle : Handle}
    (h : (K.handle m member).2 = .ok handle) :
    handle.address ∈ K.cells ∨
      m.size ≤ handle.address ∧ handle.address < (K.handle m member).1.size := by
  unfold KeptSolution.handle at h ⊢
  split at h
  · cases h
  · rename_i hresidual
    rw [if_neg hresidual]
    split at h
    · rename_i address haddress
      cases h
      obtain ⟨part, -, hplace⟩ := Option.bind_eq_some_iff.mp haddress
      exact .inl (List.mem_map.mpr ⟨_, mem_of_lookup hplace, rfl⟩)
    · split at h
      · cases h
        rename_i hmember
        exact .inr ⟨Nat.le_refl _, by simp [hmember]⟩
      · cases h

end LinearSystems
