import Mathlib
import LinearSystems.Console.Program
import LinearSystems.Proofs.Console.Dialogue
import LinearSystems.Proofs.Console.Reading

/-!
# Reading rows

A line is good if it holds as many words as a row has entries and all of them are real numbers.
Asked for a number of rows, the program takes the first good lines of its input, in order, and reads
no line behind the last of them. Each line that it reads is asked for with the number of the row
that is missing, and each bad one among them is answered with one complaint. Where the good lines do
not suffice, the whole input is read and its end is the fault.
-/

namespace LinearSystems

namespace Text

/-- A blank character separates the words before it from those after it. -/
theorem words_append_cons {c : Char} (hc : isBlank c = true) (before after : List Char) :
    words (before ++ c :: after) = words before ++ words after := by
  rw [words, List.splitOnP_append_cons before after hc, List.filter_append]
  rfl

theorem words_nil : words [] = [] := rfl

/-- Blanks in front of a line are no part of its words. -/
theorem words_dropWhile (text : List Char) : words (text.dropWhile isBlank) = words text := by
  induction text with
  | nil => rfl
  | cons c rest ih =>
    by_cases hc : isBlank c = true
    · rw [List.dropWhile_cons_of_pos hc, ih]
      exact (words_append_cons hc [] rest).symm
    · rw [List.dropWhile_cons_of_neg hc]

/-- Nor are the blanks at its end. -/
theorem words_rdropWhile (text : List Char) : words (text.rdropWhile isBlank) = words text := by
  induction text using List.reverseRecOn with
  | nil => rfl
  | append_singleton before c ih =>
    by_cases hc : isBlank c = true
    · rw [List.rdropWhile_concat_pos _ _ _ hc, ih, words_append_cons hc, words_nil, List.append_nil]
    · rw [List.rdropWhile_concat_neg _ _ _ hc]

/-- A line without the blanks around it has the same words. -/
theorem words_trim (text : List Char) : words (trim isBlank text) = words text :=
  (words_rdropWhile (text.dropWhile isBlank)).trans (words_dropWhile text)

end Text

namespace Console

/-- The rows on the good lines, which are those that hold a row. -/
def goodRows (width : Nat) (lines : List String) : List (List Float) :=
  lines.filterMap fun line => (lineRow width line).toOption

/-- The question for the row after those that are accepted. -/
def rowPrompt (accepted : Nat) : Utterance :=
  .prompt ("Row " ++ toString (accepted + 1) ++ ": ")

/-- What is said about a line that is read when so many rows are accepted: the question, and after a
    bad line one complaint. -/
def exchange (width accepted : Nat) (line : String) : List Utterance :=
  match lineRow width line with
  | .ok _ => [rowPrompt accepted]
  | .error e => [rowPrompt accepted, .line ("Invalid row (" ++ e.message ++ "). Try again.")]

/-- What is said about lines that are read in order. The rows accepted before a line are those on
    the good lines before it, and those that were accepted before all of the lines. -/
def exchanges (width accepted : Nat) (lines : List String) : List Utterance :=
  (lines.mapIdx fun i line =>
    exchange width (accepted + (goodRows width (lines.take i)).length) line).flatten

variable {width : Nat} {line : String} {row : List Float} {e : BadInput}

/-- The program reads the row on a line without the blanks around it, which is the row on the line.
    -/
theorem readRow_stripped (width : Nat) (line : String) :
    readRow (.number (.whole width)) (stripped line) = reported (lineRow width line) := by
  rw [readRow_whole, lineRow, lineRow, stripped, String.toList_ofList, Text.words_trim]

section Lines

variable {rest : List String}

@[simp] theorem goodRows_nil (width : Nat) : goodRows width [] = [] := rfl

@[simp] theorem exchanges_nil (width accepted : Nat) : exchanges width accepted [] = [] := rfl

theorem goodRows_cons_of_ok (h : lineRow width line = .ok row) :
    goodRows width (line :: rest) = row :: goodRows width rest := by
  rw [goodRows, List.filterMap_cons, h]
  rfl

theorem goodRows_cons_of_error (h : lineRow width line = .error e) :
    goodRows width (line :: rest) = goodRows width rest := by
  rw [goodRows, List.filterMap_cons, h]
  rfl

theorem exchanges_cons_of_ok (accepted : Nat) (h : lineRow width line = .ok row) :
    exchanges width accepted (line :: rest) =
      rowPrompt accepted :: exchanges width (accepted + 1) rest := by
  simp [exchanges, exchange, h, goodRows_cons_of_ok h, List.mapIdx_cons, Nat.add_assoc,
    Nat.add_comm 1]

theorem exchanges_cons_of_error (accepted : Nat) (h : lineRow width line = .error e) :
    exchanges width accepted (line :: rest) =
      rowPrompt accepted :: .line ("Invalid row (" ++ e.message ++ "). Try again.") ::
        exchanges width accepted rest := by
  simp [exchanges, exchange, h, goodRows_cons_of_error h, List.mapIdx_cons]

end Lines

variable {count : Nat} {rows : List (List Float)}

namespace Dialogue

theorem conduct_readRowsFrom_zero (input : List String) :
    (readRowsFrom (.number (.whole width)) 0 rows).conduct input =
      { said := [], ending := .ok rows.reverse, unread := input } := rfl

/-- A question at the end of the input is a fault. -/
theorem conduct_readRowsFrom_nil :
    (readRowsFrom (.number (.whole width)) (count + 1) rows).conduct [] =
      { said := [rowPrompt rows.length], ending := .error .endOfInput, unread := [] } := rfl

/-- A good line gives the next row. -/
theorem conduct_readRowsFrom_of_ok (h : lineRow width line = .ok row) (rest : List String) :
    (readRowsFrom (.number (.whole width)) (count + 1) rows).conduct (line :: rest) =
      ((readRowsFrom (.number (.whole width)) count (row :: rows)).conduct rest).after
        [rowPrompt rows.length] := by
  have hread : readRow (.number (.whole width)) (stripped line) = .ok row := by
    rw [readRow_stripped, h, reported]
  have haccepted : rowComplaint (.number (.whole width)) (stripped line) = none := by
    rw [rowComplaint, hread]
  rw [readRowsFrom, conduct_ask_cons_of_accepted _ _ haccepted]
  simp only [hread]
  rfl

/-- After a bad line and the complaint about it, the same rows are missing. -/
theorem conduct_readRowsFrom_of_error (h : lineRow width line = .error e) (rest : List String) :
    (readRowsFrom (.number (.whole width)) (count + 1) rows).conduct (line :: rest) =
      ((readRowsFrom (.number (.whole width)) (count + 1) rows).conduct rest).after
        [rowPrompt rows.length, .line ("Invalid row (" ++ e.message ++ "). Try again.")] := by
  have hrefused : rowComplaint (.number (.whole width)) (stripped line) =
      some ("Invalid row (" ++ e.message ++ "). Try again.") := by
    rw [rowComplaint, readRow_stripped, h, reported]
  rw [readRowsFrom, conduct_ask_cons_of_refused _ _ hrefused]
  rfl

/-- With good lines enough, the lines up to the last good one that is needed are read, and no more.
    -/
theorem exists_conduct_readRowsFrom_eq {input : List String} (rows : List (List Float))
    (h : count ≤ (goodRows width input).length) :
    ∃ consumed unread, input = consumed ++ unread ∧
      goodRows width consumed = (goodRows width input).take count ∧
      (∀ line ∈ consumed.getLast?, ∃ row, lineRow width line = .ok row) ∧
      (readRowsFrom (.number (.whole width)) count rows).conduct input =
        { said := exchanges width rows.length consumed
          ending := .ok (rows.reverse ++ (goodRows width input).take count), unread } := by
  -- On the lines: each is read as long as rows are missing, and a good one leaves one row fewer.
  induction input generalizing count rows with
  | nil =>
    obtain rfl : count = 0 := Nat.le_zero.mp h
    exact ⟨[], [], by simp [conduct_readRowsFrom_zero]⟩
  | cons line rest ih =>
    cases count with
    | zero => exact ⟨[], line :: rest, by simp [conduct_readRowsFrom_zero]⟩
    | succ count =>
      cases hline : lineRow width line with
      | ok row =>
        rw [goodRows_cons_of_ok hline] at h ⊢
        obtain ⟨consumed, unread, rfl, hgood, hlast, hconduct⟩ :=
          ih (row :: rows) (Nat.le_of_succ_le_succ h)
        refine ⟨line :: consumed, unread, rfl, ?_, ?_, ?_⟩
        · rw [goodRows_cons_of_ok hline, hgood, List.take_succ_cons]
        · intro last hmem
          rw [List.getLast?_cons] at hmem
          cases hconsumed : consumed.getLast? with
          | none =>
            rw [hconsumed] at hmem
            cases hmem
            exact ⟨row, hline⟩
          | some last' =>
            rw [hconsumed] at hmem
            cases hmem
            exact hlast _ hconsumed
        · rw [conduct_readRowsFrom_of_ok hline, hconduct, exchanges_cons_of_ok _ hline]
          simp [Transcript.after]
      | error e =>
        rw [goodRows_cons_of_error hline] at h ⊢
        obtain ⟨consumed, unread, rfl, hgood, hlast, hconduct⟩ := ih rows h
        have hconsumed : consumed ≠ [] := by
          rintro rfl
          have := congrArg List.length hgood
          rw [goodRows_nil, List.length_take, List.length_nil] at this
          omega
        refine ⟨line :: consumed, unread, rfl, ?_, ?_, ?_⟩
        · rw [goodRows_cons_of_error hline, hgood]
        · rw [List.getLast?_cons_of_ne_nil hconsumed]
          exact hlast
        · rw [conduct_readRowsFrom_of_error hline, hconduct, exchanges_cons_of_error _ hline]
          simp [Transcript.after]

/-- With too few good lines, all lines are read, and the next question finds no more. -/
theorem conduct_readRowsFrom_of_lt {input : List String} (rows : List (List Float))
    (h : (goodRows width input).length < count) :
    (readRowsFrom (.number (.whole width)) count rows).conduct input =
      { said := exchanges width rows.length input ++
          [rowPrompt (rows.length + (goodRows width input).length)]
        ending := .error .endOfInput, unread := [] } := by
  induction input generalizing count rows with
  | nil =>
    obtain ⟨count, rfl⟩ := Nat.exists_eq_add_of_lt h
    rw [conduct_readRowsFrom_nil]
    rfl
  | cons line rest ih =>
    cases count with
    | zero => exact absurd h (Nat.not_lt_zero _)
    | succ count =>
      cases hline : lineRow width line with
      | ok row =>
        rw [goodRows_cons_of_ok hline] at h ⊢
        rw [conduct_readRowsFrom_of_ok hline, ih _ (Nat.lt_of_succ_lt_succ h),
          exchanges_cons_of_ok _ hline]
        simp [Transcript.after, Nat.add_assoc, Nat.add_comm 1]
      | error e =>
        rw [goodRows_cons_of_error hline] at h ⊢
        rw [conduct_readRowsFrom_of_error hline, ih rows h, exchanges_cons_of_error _ hline]
        simp [Transcript.after]

end Dialogue

/-- How the reading of rows ends depends on the good lines alone. -/
theorem ending_conduct_readRows (n width : Nat) (input : List String) :
    ((readRows n width).conduct input).ending =
      if n ≤ (goodRows width input).length then .ok ((goodRows width input).take n)
      else .error .endOfInput := by
  unfold readRows
  by_cases h : n ≤ (goodRows width input).length
  · obtain ⟨consumed, unread, -, -, -, hconduct⟩ :=
      Dialogue.exists_conduct_readRowsFrom_eq [] h
    rw [hconduct, if_pos h]
    rfl
  · rw [Dialogue.conduct_readRowsFrom_of_lt [] (Nat.lt_of_not_le h), if_neg h]

/-- For every count, every width and every list of lines. If the good lines suffice, the rows are
    those on the first of them, in order; the lines that are read end with the last of these, and
    what is said is one exchange for each line that is read. Otherwise there is one exchange for
    each line of the input, one question more, and the end of the input is the fault. So inputs with
    the same good lines give the same rows, whatever bad lines stand between them. -/
theorem readRows_takes_good_lines (n width : Nat) (input : List String) :
    (n ≤ (goodRows width input).length → ∃ consumed unread, input = consumed ++ unread ∧
      goodRows width consumed = (goodRows width input).take n ∧
      (∀ line ∈ consumed.getLast?, ∃ row, lineRow width line = .ok row) ∧
      (readRows n width).conduct input =
        { said := exchanges width 0 consumed
          ending := .ok ((goodRows width input).take n), unread }) ∧
    ((goodRows width input).length < n → (readRows n width).conduct input =
      { said := exchanges width 0 input ++ [rowPrompt (goodRows width input).length]
        ending := .error .endOfInput, unread := [] }) ∧
    ∀ input', goodRows width input' = goodRows width input →
      ((readRows n width).conduct input').ending = ((readRows n width).conduct input).ending := by
  refine ⟨?_, ?_, ?_⟩
  · intro h
    exact Dialogue.exists_conduct_readRowsFrom_eq [] h
  · intro h
    have hconduct := Dialogue.conduct_readRowsFrom_of_lt [] h
    rw [List.length_nil, Nat.zero_add] at hconduct
    exact hconduct
  · intro input' h
    rw [ending_conduct_readRows, ending_conduct_readRows, h]

/-- A line of one word is refused where a row has two numbers. The line after it suffices for one
    row, and for two rows the input ends too early. -/
theorem readRows_takes_good_lines_second_try :
    1 ≤ (goodRows 2 ["x", "2 4"]).length ∧
    (∃ consumed unread, ["x", "2 4"] = consumed ++ unread ∧
      goodRows 2 consumed = [[Numeral.nearest 2 0, Numeral.nearest 4 0]] ∧
      ((readRows 1 2).conduct ["x", "2 4"]).ending =
        .ok [[Numeral.nearest 2 0, Numeral.nearest 4 0]]) ∧
    (goodRows 2 ["x", "2 4"]).length < 2 ∧
    (readRows 2 2).conduct ["x", "2 4"] =
      { said := [.prompt "Row 1: ", .line "Invalid row (expected 2 numbers, got 1). Try again.",
          .prompt "Row 1: ", .prompt "Row 2: "]
        ending := .error .endOfInput, unread := [] } := by
  have hone : Text.words "x".toList = [['x']] := by decide +kernel
  have htwo : Text.words "2 4".toList = [['2'], ['4']] := by decide +kernel
  have hbad : lineRow 2 "x" = .error (.tokenCount (.number (.whole 2)) 1) := by
    rw [lineRow, hone]
    rfl
  have hgood : lineRow 2 "2 4" = .ok [Numeral.nearest 2 0, Numeral.nearest 4 0] := by
    rw [lineRow, htwo]
    rfl
  have hrows : goodRows 2 ["x", "2 4"] = [[Numeral.nearest 2 0, Numeral.nearest 4 0]] := by
    rw [goodRows_cons_of_error hbad, goodRows_cons_of_ok hgood, goodRows_nil]
  have henough : 1 ≤ (goodRows 2 ["x", "2 4"]).length := by rw [hrows]; decide
  have hshort : (goodRows 2 ["x", "2 4"]).length < 2 := by rw [hrows]; decide
  refine ⟨henough, ?_, hshort, ?_⟩
  · obtain ⟨consumed, unread, hinput, hconsumed, -, hconduct⟩ :=
      (readRows_takes_good_lines 1 2 ["x", "2 4"]).1 henough
    rw [hrows] at hconsumed hconduct
    exact ⟨consumed, unread, hinput, hconsumed, by rw [hconduct]; rfl⟩
  · rw [(readRows_takes_good_lines 2 2 ["x", "2 4"]).2.1 hshort, hrows,
      exchanges_cons_of_error _ hbad, exchanges_cons_of_ok _ hgood, exchanges_nil]
    rfl

end Console

end LinearSystems
