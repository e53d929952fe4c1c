import LinearSystems.Decimal.Print

/-!
# Summaries

The plain-text summary that all solutions share: a title, facts about the run, the unknowns with
their values, the backend, the time if it is known, and warnings.
-/

namespace LinearSystems

/-- What a summary shows. The first unknown carries the number `first`. -/
structure Summary where
  title : String
  facts : List String
  first : Int
  x : List Float
  backend : String
  time : Option String
  warnings : List String

namespace Summary

/-- A line of sixty characters. -/
def rule (c : Char) : String :=
  String.ofList (List.replicate 60 c)

/-- An entry of the unknowns under a label. -/
def entry (label : String) (value : Float) : String :=
  "x[" ++ label ++ "] = " ++ Decimal.general 10 value

/-- One unknown and its value. -/
def unknown (i : Int) (value : Float) : String :=
  entry (toString i) value

/-- The lines of a list of unknowns. -/
def unknowns (first : Int) (x : List Float) : List String :=
  x.mapIdx fun i value => unknown (first + i) value

/-- The fact that names the size of a residual. -/
def residualFact (norm : Float) : String :=
  "Residual (inf-norm): " ++ Decimal.scientific 6 norm

/-- The lines of a summary. -/
def lines (s : Summary) : List String :=
  [s.title, rule '='] ++ s.facts ++ ["", "Solution:", rule '-']
    ++ (unknowns s.first s.x).map ("  " ++ ·)
    ++ [rule '-', "Backend: " ++ s.backend]
    ++ (match s.time with
      | none => []
      | some t => ["Time: " ++ t])
    ++ s.warnings.map ("Warning: " ++ ·)

/-- The summary as one text, without an end of line at its end. -/
def text (s : Summary) : String :=
  "\n".intercalate s.lines

end Summary

end LinearSystems
