/-!
# Search by halves

A test that holds up to some number and fails from there on is searched by halves for that number.
-/

namespace LinearSystems

/-- The first number from `base` on for which a test fails, among the next `2 ^ bits` and the one
    after them. -/
def firstFailing (test : Nat → Bool) : (bits base : Nat) → Nat
  | 0, base => if test base then base + 1 else base
  | bits + 1, base =>
    if test (base + Nat.pow 2 bits - 1) then firstFailing test bits (base + Nat.pow 2 bits)
    else firstFailing test bits base

end LinearSystems
