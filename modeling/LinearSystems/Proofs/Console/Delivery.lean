import LinearSystems.Proofs.Console.Endings
import LinearSystems.Proofs.Console.Limits

/-!
# The program hands over what it is given

A run on a script calls the solver of its method with exactly what the lines of the script hold,
each part in its own place. What the solver returns is shown, with the unknowns in order as the last
lines; what it raises ends the program with its message.
-/

namespace LinearSystems.Console

/-- The number of a method in the menu. -/
def Method.number : Method → String
  | .gauss => "1"
  | .jacobi => "2"
  | .thomas => "3"

/-- One line for each unknown in order, numbered from one, or from zero by the sweep. -/
def numbered (m : Method) (x : List Float) : List String :=
  x.mapIdx fun i value =>
    "x[" ++ toString (if m = .thomas then i else i + 1) ++ "] = " ++ Decimal.general 10 value

section

variable {arguments opening script rest : List String} {m : Method} {size : String} {n : Nat}
  {c : Call} {input : String}

/-- The call of a script is one for the size of the script. -/
theorem Scripted.ofSize (h : Scripted m n script c) (hn : 0 < n) : c.OfSize n := by
  obtain ⟨said, hgather⟩ := Dialogue.Hears.gather h
  have hcall := ((Asks.gather m hn).conduct (script ++ [])).2.1 c
  rw [hgather] at hcall
  exact (hcall rfl).2

end

end LinearSystems.Console
