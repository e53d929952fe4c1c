import LinearSystems.Proofs.Workspace.Cells
import LinearSystems.Workspace.Handle

/-!
# What a solution under a name stays

Whatever is asked of a solution, written to it or assigned to it, it stays the solution of the same
system, its arrays keep their cells, and what was computed stays as it was: the facts of the run
among it. Only a write to the record of these facts adds something to them.
-/

namespace LinearSystems

theorem Solution.original_keepResidual (S : Solution) : S.keepResidual.original = S.original := by
  cases S <;> rfl

theorem Solution.original_assignArray (S : Solution) (array : String) (places : List Place)
    (value : Datum) : (S.assignArray array places value).1.original = S.original := by
  fun_cases Solution.assignArray S array places value <;> rfl

namespace KeptSolution

/-- The second is the first one after some use. -/
structure Follows (K K' : KeptSolution) : Prop where
  origin : K'.origin = K.origin
  places : K'.places = K.places
  original : K'.solution.original = K.solution.original

/-- The second is the first one after a use that adds nothing to the facts. -/
structure FollowsQuietly (K K' : KeptSolution) : Prop extends K.Follows K' where
  factNotes : K'.factNotes = K.factNotes

namespace Follows

variable {K K' K'' : KeptSolution}

theorem refl (K : KeptSolution) : K.Follows K :=
  ⟨rfl, rfl, rfl⟩

theorem trans (h : K.Follows K') (h' : K'.Follows K'') : K.Follows K'' :=
  ⟨h'.origin.trans h.origin, h'.places.trans h.places, h'.original.trans h.original⟩

theorem system (h : K.Follows K') : K'.solution.system = K.solution.system := by
  rw [← Solution.system_original, h.original, Solution.system_original]

end Follows

namespace FollowsQuietly

variable {K K' K'' : KeptSolution}

theorem refl (K : KeptSolution) : K.FollowsQuietly K :=
  ⟨.refl K, rfl⟩

theorem trans (h : K.FollowsQuietly K') (h' : K'.FollowsQuietly K'') : K.FollowsQuietly K'' :=
  ⟨h.toFollows.trans h'.toFollows, h'.factNotes.trans h.factNotes⟩

end FollowsQuietly

theorem followsQuietly_keepResidual (K : KeptSolution) : K.FollowsQuietly K.keepResidual := by
  rw [keepResidual]
  split
  · exact .refl K
  · exact ⟨⟨rfl, rfl, K.solution.original_keepResidual⟩, rfl⟩

theorem followsQuietly_asking {α : Type} (K : KeptSolution)
    (next : KeptSolution → Except Fault α) : K.FollowsQuietly (K.asking next).1 := by
  rw [asking]
  split
  · exact K.followsQuietly_keepResidual
  · exact .refl K

theorem follows_askResidual (K : KeptSolution) : K.Follows K.askResidual.1 :=
  (K.followsQuietly_asking _).toFollows

theorem follows_report (K : KeptSolution) (time : String) : K.Follows (K.report time).1 := by
  rw [report]
  split
  · exact .refl K
  · exact (K.followsQuietly_asking _).toFollows

theorem followsQuietly_checkSource (K : KeptSolution) (source : MemberSource) :
    K.FollowsQuietly (K.checkSource source).1 := by
  cases source with
  | result part => exact .refl K
  | system part => exact .refl K
  | residual => exact K.followsQuietly_asking _
  | residualNorm => exact K.followsQuietly_asking _

theorem followsQuietly_writeArray (K : KeptSolution) (array : String) (places : List Datum)
    (value : Datum) : K.FollowsQuietly (K.writeArray array places value).1 := by
  rw [writeArray, Place.reading]
  split
  · exact ⟨⟨rfl, rfl, K.solution.original_assignArray _ _ _⟩, rfl⟩
  · exact .refl K

theorem follows_addNote (K : KeptSolution) (record : String) (key : List Datum) (value : Datum) :
    K.Follows (K.addNote record key value).1 := by
  rw [addNote]
  split
  · exact .refl K
  · split <;> exact ⟨rfl, rfl, rfl⟩

theorem followsQuietly_withField (K : KeptSolution) (field : String) (d : Datum) :
    K.FollowsQuietly (K.withField field d) :=
  ⟨⟨rfl, rfl, rfl⟩, rfl⟩

theorem followsQuietly_writeField (K : KeptSolution) (field : String)
    (places : Except Fault (List Datum)) (value : Datum) :
    K.FollowsQuietly (K.writeField field places value).1 := by
  unfold writeField
  split
  · exact .refl K
  · exact .refl K
  · exact K.followsQuietly_withField _ _
  · exact K.followsQuietly_writeArray _ _ _
  · exact .refl K

theorem followsQuietly_writeShown_array (K : KeptSolution) (name : String) (places : List Datum)
    (value : Datum) : K.FollowsQuietly (K.writeShown name .array places value).1 := by
  rw [writeShown]
  split
  · exact K.followsQuietly_writeField _ _ _
  · exact K.followsQuietly_writeArray _ _ _

theorem follows_writeShown (K : KeptSolution) (name : String) (m : Member) (places : List Datum)
    (value : Datum) : K.Follows (K.writeShown name m places value).1 := by
  cases m with
  | array => exact (K.followsQuietly_writeShown_array name places value).toFollows
  | record => exact K.follows_addNote _ _ _
  | fixed => exact .refl K
  | plain typeName => exact .refl K

/-- A write to a member that a solution shows: it fails where the solution or the places are looked
    at, or it reaches the member. -/
theorem write_shown {K : KeptSolution} {member : String} {m : Member} {source : MemberSource}
    (h : K.solution.members.lookup member = some (m, source)) (places value : Datum) :
    (K.write member places value).1 = (K.checkSource source).1 ∨
      ∃ items, (K.write member places value).1 =
        ((K.checkSource source).1.writeShown member m items value).1 := by
  simp only [write, h]
  rcases K.checkSource source with ⟨K', f | _⟩
  · exact .inl rfl
  · cases places.several with
    | error f => exact .inl rfl
    | ok items => exact .inr ⟨items, rfl⟩

theorem follows_write (K : KeptSolution) (member : String) (places value : Datum) :
    K.Follows (K.write member places value).1 := by
  cases h : K.solution.members.lookup member with
  | none =>
    rw [write, h]
    exact (K.followsQuietly_writeField _ _ _).toFollows
  | some shown =>
    obtain ⟨m, source⟩ := shown
    have hsource := (K.followsQuietly_checkSource source).toFollows
    rcases write_shown h places value with heq | ⟨items, heq⟩
    · rw [heq]
      exact hsource
    · rw [heq]
      exact hsource.trans (follows_writeShown _ _ _ _ _)

/-- A write to an array adds nothing to the facts. -/
theorem followsQuietly_write_array {K : KeptSolution} {member : String} {source : MemberSource}
    (h : K.solution.members.lookup member = some (.array, source)) (places value : Datum) :
    K.FollowsQuietly (K.write member places value).1 := by
  have hsource := K.followsQuietly_checkSource source
  rcases write_shown h places value with heq | ⟨items, heq⟩
  · rw [heq]
    exact hsource
  · rw [heq]
    exact hsource.trans (followsQuietly_writeShown_array _ _ _ _)

theorem follows_withoutResidual {K : KeptSolution} {S : Gauss.Solution}
    (h : K.solution = .gauss S) : K.Follows (K.withoutResidual S) := by
  refine ⟨rfl, rfl, ?_⟩
  rw [h]
  rfl

theorem follows_withFields (K : KeptSolution) (fields : List (String × Datum)) :
    K.Follows (K.withFields fields) := by
  rw [withFields]
  split
  · rename_i S hS _
    refine ⟨rfl, rfl, ?_⟩
    rw [hS]
    rfl
  · rename_i S hS _
    refine ⟨rfl, rfl, ?_⟩
    rw [hS]
    rfl
  · exact ⟨rfl, rfl, rfl⟩

theorem follows_assign (K : KeptSolution) (field : String) (d : Datum) :
    K.Follows (K.assign field d).1 := by
  unfold assign
  split
  · exact .refl K
  · split
    · exact .refl K
    · exact .refl K
    · exact K.follows_withFields _
    · exact .refl K
    · rename_i hS _
      exact follows_withoutResidual hS
    · exact (K.followsQuietly_withField _ _).toFollows

theorem follows_ask (K : KeptSolution) (what : Handout) : K.Follows (K.ask what).1 := by
  unfold ask
  split
  · exact .refl K
  · exact .refl K
  · split
    · exact .refl K
    · split
      · exact .refl K
      · exact (K.followsQuietly_checkSource _).toFollows

end KeptSolution

end LinearSystems
