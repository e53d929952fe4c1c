import LinearSystems.Fault

/-!
# Arguments

An action that is asked for by its name gets its arguments in order. They are as many as it takes:
all that it needs, and at most those that it needs or may have.
-/

namespace LinearSystems

/-- The arguments of an action are as many as it takes, given the names of those that it needs and
    of those that it may have. -/
def checkArguments (action : String) (needed optional : List String) (given : Nat) :
    Except Fault Unit :=
  let most := needed.length + optional.length
  if given < needed.length then
    .error (.misuse (.missingArguments action (needed.drop given)))
  else if most < given then
    .error (.misuse (.surplusArguments action needed.length most given))
  else .ok ()

end LinearSystems
