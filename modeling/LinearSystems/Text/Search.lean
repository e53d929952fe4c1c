/-!
# Search in text
-/

namespace LinearSystems.Text

/-- Whether one text occurs in another, one character after the other. -/
def occursIn (part : List Char) : List Char → Bool
  | [] => part.isEmpty
  | c :: rest => part.isPrefixOf (c :: rest) || occursIn part rest

end LinearSystems.Text
