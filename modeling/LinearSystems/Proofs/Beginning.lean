/-!
# How a text begins

A text that is put together from a fixed part and what follows begins as the fixed part does.
-/

namespace LinearSystems.Text

/-- Whether a text begins with another one. -/
def begins (start text : String) : Bool :=
  start.toList.isPrefixOf text.toList

/-- Whether two texts differ at a place that both have. -/
def clash (s t : String) : Bool :=
  (s.toList.zip t.toList).any fun p => p.1 != p.2

theorem begins_append {start text : String} (h : begins start text = true) (rest : String) :
    begins start (text ++ rest) = true := by
  rw [begins, String.toList_append, List.isPrefixOf_iff_prefix]
  exact (List.isPrefixOf_iff_prefix.mp h).trans (List.prefix_append _ _)

theorem begins_append_eq_false {start text : String} (h : clash start text = true)
    (rest : String) : begins start (text ++ rest) = false := by
  rw [begins, String.toList_append]
  rw [clash] at h
  generalize start.toList = s at h ⊢
  generalize text.toList = t at h ⊢
  induction s generalizing t with
  | nil => cases h
  | cons c s ih =>
    cases t with
    | nil => cases h
    | cons d t =>
      rw [List.zip_cons_cons, List.any_cons, Bool.or_eq_true] at h
      rw [List.cons_append, List.isPrefixOf_cons_cons]
      rcases h with hne | hrest
      · rw [beq_eq_false_iff_ne.mpr (bne_iff_ne.mp hne), Bool.false_and]
      · rw [ih t hrest, Bool.and_false]

/-- A text has only one beginning. -/
theorem begins_eq_false_of_begins {start other text : String} (h : begins start text = true)
    (hclash : clash other start = true) : begins other text = false := by
  obtain ⟨rest, hrest⟩ := List.isPrefixOf_iff_prefix.mp h
  have htext : text = start ++ String.ofList rest := by
    rw [← String.toList_inj, String.toList_append, String.toList_ofList, hrest]
  rw [htext]
  exact begins_append_eq_false hclash _

end LinearSystems.Text
