import LinearSystems.Console.CommandLine
import LinearSystems.Proofs.Console.Program

/-!
# Scripts

A script is what answers the questions of a method: the lines of the rows, with any number of lines
before each of them that are refused, or the lines of the entries, and the lines of the options. The
method hears in it the call that hands over exactly what the lines hold.
-/

namespace LinearSystems.Console

/-- The lines that a row takes up: lines that hold no such row, which are refused, and one that holds
    it. -/
structure RowLines (width : Nat) where
  refused : List String
  line : String
  row : List Float
  not_isRow : ∀ l ∈ refused, ¬ ∃ row, IsRow (stripped l) row ∧ row.length = width
  isRow : IsRow (stripped line) row
  length_eq : row.length = width

/-- The lines of a row in order. -/
def RowLines.lines {width : Nat} (r : RowLines width) : List String :=
  r.refused ++ [r.line]

/-- A line that holds a number. -/
structure EntryLine where
  line : String
  value : Float
  reads : readReal (stripped line) = .ok value

/-- The lines answer what a method asks for beside the size, and the call hands over what they hold:
    for elimination the rows, with complete pivoting if the answer is two; for the iteration the rows,
    the right-hand side, the tolerance, the cap, and whether the last answer is one; for the sweep the
    entries in the order in which they are asked for, with zeros for the corners. -/
inductive Scripted : Method → (n : Nat) → List String → Call → Prop
  | gauss {n : Nat} (rows : List (RowLines (n + 1))) (hrows : rows.length = n) {choice : String}
      {complete : Bool}
      (hchoice : readCount (stripped choice) = .ok (if complete then 2 else 1)) :
      Scripted .gauss n (rows.flatMap RowLines.lines ++ [choice])
        (.gauss (rows.map RowLines.row) complete)
  | jacobi {n : Nat} (rows : List (RowLines n)) (hrows : rows.length = n) {rhs : String}
      {b : List Float} (hrhs : IsRow (stripped rhs) b) (hb : b.length = n) (epsilon : EntryLine)
      {cap : String} {maxIterations : Nat} (hcap : readCount (stripped cap) = .ok maxIterations)
      (check : String) :
      Scripted .jacobi n (rows.flatMap RowLines.lines ++ [rhs, epsilon.line, cap, check])
        (.jacobi (rows.map RowLines.row) b epsilon.value maxIterations (stripped check == "1"))
  | thomas {n : Nat} (d c e b : List EntryLine) (hd : d.length = n) (hc : c.length = n - 1)
      (he : e.length = n - 1) (hb : b.length = n) :
      Scripted .thomas n ((d ++ c ++ e ++ b).map EntryLine.line)
        (.thomas (0.0 :: c.map EntryLine.value) (d.map EntryLine.value)
          (e.map EntryLine.value ++ [0.0]) (b.map EntryLine.value))

/-- A script for the sweep has one line for each entry but the corners. -/
theorem Scripted.length_eq {n : Nat} {script : List String} {c : Call}
    (h : Scripted .thomas n script c) (hn : 0 < n) : script.length = 4 * n - 2 := by
  cases h with
  | thomas d c e b hd hc he hb =>
    simp only [List.length_map, List.length_append, hd, hc, he, hb]
    omega

/-- Refused lines are asked for again until one is accepted. -/
theorem exists_listen_eq (prompt : String) {complaint : String → Option String}
    {refused : List String} {line : String}
    (hrefused : ∀ l ∈ refused, ∃ c, complaint (stripped l) = some c)
    (haccepted : complaint (stripped line) = none) :
    ∃ said, ∀ rest, listen prompt complaint (refused ++ line :: rest) =
      (said, some (stripped line), rest) := by
  induction refused with
  | nil => exact ⟨[.prompt prompt], fun rest => by rw [List.nil_append, listen, haccepted]⟩
  | cons l refused ih =>
    obtain ⟨⟨c, hc⟩, hrest⟩ := List.forall_mem_cons.mp hrefused
    obtain ⟨said, hsaid⟩ := ih hrest
    refine ⟨.prompt prompt :: .line c :: said, fun rest => ?_⟩
    rw [List.cons_append, listen, hc, hsaid]

namespace Dialogue.Hears

variable {α : Type}

theorem ask {prompt : String} {complaint : String → Option String} {next : String → Dialogue α}
    {refused script : List String} {line : String} {a : α}
    (hrefused : ∀ l ∈ refused, ∃ c, complaint (stripped l) = some c)
    (haccepted : complaint (stripped line) = none)
    (hnext : Hears (next (stripped line)) script a) :
    Hears (.ask prompt complaint next) (refused ++ line :: script) a := by
  obtain ⟨said, hlisten⟩ := exists_listen_eq prompt hrefused haccepted
  obtain ⟨said', hnext⟩ := hnext
  refine ⟨said ++ said', fun rest => ?_⟩
  rw [List.append_assoc, List.cons_append, conduct, hlisten]
  simp only [hnext]

theorem readRowsFrom {width : Nat} (rows : List (RowLines width)) (done : List (List Float)) :
    Hears (Console.readRowsFrom (.number (.whole width)) rows.length done)
      (rows.flatMap RowLines.lines) (done.reverse ++ rows.map RowLines.row) := by
  induction rows generalizing done with
  | nil =>
    rw [List.map_nil, List.append_nil]
    exact .pure done.reverse
  | cons r rows ih =>
    have hread := readRow_eq_ok_iff.mpr ⟨r.isRow, r.length_eq⟩
    have hrest := ih (r.row :: done)
    rw [List.reverse_cons, List.append_assoc, List.singleton_append] at hrest
    rw [List.flatMap_cons, RowLines.lines, List.append_assoc, List.singleton_append, List.map_cons]
    -- The refused lines are complained of, the last one is not, and then it is read as the row.
    refine ask ?_ ?_ ?_
    · intro l hl
      cases hl' : readRow (.number (.whole width)) (stripped l) with
      | ok row => exact absurd ⟨row, readRow_eq_ok_iff.mp hl'⟩ (r.not_isRow l hl)
      | error f =>
        obtain ⟨e, rfl⟩ := exists_badInput_of_readRow hl'
        exact ⟨_, by rw [rowComplaint, hl']⟩
    · rw [rowComplaint, hread]
    · simp only [hread]
      exact hrest

theorem readEntriesFrom (name : String) (first : Nat) (entries : List EntryLine)
    (done : List Float) :
    Hears (Console.readEntriesFrom name first entries.length done)
      (entries.map EntryLine.line) (done.reverse ++ entries.map EntryLine.value) := by
  induction entries generalizing done with
  | nil =>
    rw [List.map_nil, List.map_nil, List.append_nil]
    exact .pure done.reverse
  | cons entry entries ih =>
    have hrest := ih (entry.value :: done)
    rw [List.reverse_cons, List.append_assoc, List.singleton_append] at hrest
    rw [List.map_cons, List.map_cons]
    refine ask (List.forall_mem_nil _) rfl ?_
    simp only [entry.reads]
    exact hrest

theorem readRows {width n : Nat} (rows : List (RowLines width)) (hrows : rows.length = n) :
    Hears (Console.readRows n width) (rows.flatMap RowLines.lines) (rows.map RowLines.row) := by
  subst hrows
  exact readRowsFrom rows []

theorem readEntries (name : String) (first : Nat) {n : Nat} (entries : List EntryLine)
    (hentries : entries.length = n) :
    Hears (Console.readEntries name first n) (entries.map EntryLine.line)
      (entries.map EntryLine.value) := by
  subst hentries
  exact readEntriesFrom name first entries []

theorem gatherGauss {n : Nat} (rows : List (RowLines (n + 1))) (hrows : rows.length = n)
    {choice : String} {complete : Bool}
    (hchoice : readCount (stripped choice) = .ok (if complete then 2 else 1)) :
    Hears (Console.gatherGauss n) (rows.flatMap RowLines.lines ++ [choice])
      (.gauss (rows.map RowLines.row) complete) := by
  have hmode : readPivoting (stripped choice) =
      .ok (if complete then Gauss.Pivoting.complete else .diagonal) := by
    rw [readPivoting, hchoice]
    cases complete <;> rfl
  refine bind_nil (tell _) ?_
  refine bind (readRows rows hrows) ?_
  refine bind_nil (tellAll _) ?_
  refine bind_cons (inquire _ hmode) ?_
  cases complete <;> exact pure _

theorem gatherJacobi {n : Nat} (rows : List (RowLines n)) (hrows : rows.length = n) {rhs : String}
    {b : List Float} (hrhs : IsRow (stripped rhs) b) (hb : b.length = n) (epsilon : EntryLine)
    {cap : String} {maxIterations : Nat} (hcap : readCount (stripped cap) = .ok maxIterations)
    (check : String) :
    Hears (Console.gatherJacobi n) (rows.flatMap RowLines.lines ++ [rhs, epsilon.line, cap, check])
      (.jacobi (rows.map RowLines.row) b epsilon.value maxIterations (stripped check == "1")) := by
  refine bind_nil (tell _) ?_
  refine bind (readRows rows hrows) ?_
  refine bind_nil (tell _) ?_
  refine bind_cons (question _ rhs) ?_
  refine bind_nil (ofExcept (readRow_eq_ok_iff.mpr ⟨hrhs, hb⟩)) ?_
  refine bind_cons (inquire _ epsilon.reads) ?_
  refine bind_cons (inquire _ hcap) ?_
  refine bind_cons (question _ check) ?_
  exact pure _

theorem gatherThomas {n : Nat} (d c e b : List EntryLine) (hd : d.length = n)
    (hc : c.length = n - 1) (he : e.length = n - 1) (hb : b.length = n) :
    Hears (Console.gatherThomas n) ((d ++ c ++ e ++ b).map EntryLine.line)
      (.thomas (0.0 :: c.map EntryLine.value) (d.map EntryLine.value)
        (e.map EntryLine.value ++ [0.0]) (b.map EntryLine.value)) := by
  rw [List.map_append, List.map_append, List.map_append, List.append_assoc, List.append_assoc,
    ← List.append_nil (b.map EntryLine.line)]
  refine bind_nil (tell _) ?_
  refine bind (readEntries "d" 0 d hd) ?_
  refine bind_nil (tell _) ?_
  refine bind (readEntries "c" 1 c hc) ?_
  refine bind_nil (tell _) ?_
  refine bind (readEntries "e" 0 e he) ?_
  refine bind_nil (tell _) ?_
  refine bind (readEntries "b" 0 b hb) ?_
  exact pure _

/-- A method hears in its script the call of the script. -/
theorem gather {m : Method} {n : Nat} {script : List String} {c : Call}
    (h : Scripted m n script c) : Hears (m.gather n) script c := by
  cases h with
  | gauss rows hrows hchoice => exact gatherGauss rows hrows hchoice
  | jacobi rows hrows hrhs hb epsilon hcap check =>
    exact gatherJacobi rows hrows hrhs hb epsilon hcap check
  | thomas d c e b hd hc he hb => exact gatherThomas d c e b hd hc he hb

end Dialogue.Hears

end LinearSystems.Console
