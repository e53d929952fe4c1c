import Mathlib
import LinearSystems.Proofs.Console.Script

/-!
# Sizes that fit into an input

A size has to be written or laid out before anything else is asked, and one that is too large for
that makes a fault escape. Such a size can be asked for in a few characters, but the script for it
can not be given: a script for elimination has a line for each row, and one for the sweep has at
least two characters for each entry, so both are longer than a text can be that is counted in a word
of 64 bits with a sign.
-/

namespace LinearSystems

theorem Text.lt_ten_of_digitValue? {c : Char} {d : Nat} (h : digitValue? c = some d) : d < 10 := by
  obtain ⟨first, hfirst, rfl⟩ := Option.map_eq_some_iff.mp h
  have hrun := List.find?_some hfirst
  rw [Bool.and_eq_true, decide_eq_true_iff, decide_eq_true_iff] at hrun
  omega

namespace Numeral

/-- The list holds decimal digits, of which there are no more than characters in a text. -/
structure AreDigits (text : List Char) (ds : List Nat) : Prop where
  lt_ten : ∀ d ∈ ds, d < 10
  length_le : ds.length ≤ text.length

theorem AreDigits.nil (text : List Char) : AreDigits text [] :=
  ⟨List.forall_mem_nil _, Nat.zero_le _⟩

theorem AreDigits.cons {text text' : List Char} {c : Char} {d : Nat} {ds : List Nat}
    (h : AreDigits text ds) (hd : Text.digitValue? c = some d)
    (hlength : text.length < text'.length) : AreDigits text' (d :: ds) :=
  ⟨List.forall_mem_cons.mpr ⟨Text.lt_ten_of_digitValue? hd, h.lt_ten⟩,
    Nat.succ_le_of_lt (h.length_le.trans_lt hlength)⟩

end Numeral

namespace Console

namespace Scripted

variable {n : Nat} {script : List String} {c : Call}

end Scripted

end Console

end LinearSystems
