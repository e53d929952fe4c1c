import LinearSystems.Proofs.Console.Program

/-!
# How the program ends

The program ends with a code on every input but those that ask for a system of a size that the
program cannot use. The code tells what the last thing said is: the unknowns of a solution, or a line
that says why there is none.
-/

namespace LinearSystems.Console

/-- The line says why there is no solution. -/
def TellsWhy (text : String) : Prop :=
  text = "Invalid choice." ∨ Text.begins "Error: " text = true

/-- The program ends with the unknowns that answer a call. -/
structure Conduct.Solves (p : Conduct) (c : Call) (n : Nat) (a : Answer) : Prop where
  ending : p.ending = .ok 0
  pos : 0 < n
  ofSize : c.OfSize n
  length : a.x.length = n
  last : ∃ before, p.said = before ++ (Summary.unknowns c.method.first a.x).map .line

/-- The program ends with a line that says why there is no solution, and shows no unknown. -/
structure Conduct.Refuses (p : Conduct) : Prop where
  ending : p.ending = .ok 1
  last : ∃ text, p.said.getLast? = some (.line text) ∧ TellsWhy text
  none_shown : ∀ u ∈ p.said, ¬ u.ShowsUnknown

/-- A fault escapes the program after a question. -/
structure Conduct.Escapes (p : Conduct) (f : Fault) : Prop where
  ending : p.ending = .error f
  last : ∃ prompt, p.said.getLast? = some (.prompt prompt)

theorem isReported_of_isSolverFault {f : Fault} (h : f.isSolverFault = true) :
    isReported f = true := by
  rw [isReported, h]
  rfl

theorem tellsWhy_error (f : Fault) : TellsWhy ("Error: " ++ f.message) :=
  .inr (Text.begins_append (by decide) _)

theorem not_showsUnknown_errorLine (f : Fault) : ¬ (errorLine f).ShowsUnknown :=
  not_showsUnknown_append (by decide) _

theorem not_tellsWhy_of_showsUnknown {text : String} (h : (Utterance.line text).ShowsUnknown) :
    ¬ TellsWhy text := by
  rintro (rfl | herror)
  · exact absurd h (by decide)
  · rw [Text.begins_eq_false_of_begins h (by decide)] at herror
    cases herror

theorem showsUnknown_of_mem_unknowns {first : Int} {x : List Float} {line : String}
    (h : line ∈ Summary.unknowns first x) : (Utterance.line line).ShowsUnknown := by
  obtain ⟨i, hi, rfl⟩ := List.mem_mapIdx.mp h
  show Text.begins "x[" ("x[" ++ toString (first + i) ++ "] = " ++ Decimal.general 10 x[i]) = true
  exact Text.begins_append (Text.begins_append (Text.begins_append (by decide) _) _) _

theorem Conduct.refuses_of_isReported {said : List Utterance} {f : Fault} {unread : List String}
    (hsaid : ∀ u ∈ said, ¬ u.ShowsUnknown) (h : isReported f = true) :
    (Transcript.close { said, ending := .error f, unread }).Refuses := by
  rw [close_of_isReported h]
  refine ⟨rfl, ⟨_, List.getLast?_concat, tellsWhy_error f⟩, ?_⟩
  intro u hu
  rcases List.mem_append.mp hu with hu | hu
  · exact hsaid u hu
  · rw [List.mem_singleton.mp hu]
    exact not_showsUnknown_errorLine f

theorem AsksTooMuch.escapes {method : Option Method} {input : List String} {f : Fault}
    (h : AsksTooMuch method input f) : (((program method).conduct input).close).Escapes f := by
  obtain ⟨opening, m, size, n, rest, hchooses, rfl, hsize, hprepare⟩ := h
  obtain ⟨said, -, hclose⟩ := exists_close_program_eq hchooses
  rw [hclose, m.conduct_questions_of_prepare_eq_error rest hsize hprepare, finish_of_error rfl,
    close_of_not_isReported (isReported_of_prepare_eq_error hprepare)]
  exact ⟨rfl, m.sizePrompt, by simp [Transcript.after]⟩

/-- A call that is answered with a solution makes the program solve a system. -/
theorem Reaches.solves {method : Option Method} {input : List String} {c : Call} {a : Answer}
    (h : Reaches method input c) (hanswer : c.answer = .ok a) :
    ∃ n, (((program method).conduct input).close).Solves c n a := by
  obtain ⟨opening, m, rest, hchooses, rfl, hcall⟩ := h
  obtain ⟨said, -, hclose⟩ := exists_close_program_eq hchooses
  rw [hclose]
  rcases m.questions_cases rest with ⟨size, n, rest', f, rfl, hsize, hprepare⟩ |
    ⟨-, ⟨c', n, hcall', hn, -, hsize⟩ | ⟨f, hfault, -⟩⟩
  · rw [m.conduct_questions_of_prepare_eq_error rest' hsize hprepare] at hcall
    cases hcall
  · obtain rfl : c = c' := Except.ok.inj (hcall.symm.trans hcall')
    have hlength : a.x.length = n := (c.settles_answer hn hsize).of_eq_ok hanswer
    rw [← Transcript.ending_after _ said] at hcall
    rw [finish_of_answer_eq_ok hcall hanswer]
    refine ⟨n, rfl, hn, hsize, hlength, ?_⟩
    exact ⟨((m.questions.conduct rest).after said).said ++
      (a.remarks ++ [c.method.heading]).map .line, by simp [Answer.lines]⟩
  · rw [hcall] at hfault
    cases hfault

/-- What the program comes to once a method is chosen. -/
theorem conduct_cases_of_chooses {method : Option Method} {opening : List String} {m : Method}
    (hchooses : Chooses method opening m) (rest : List String) :
    (∃ f, AsksTooMuch method (opening ++ rest) f) ∨
    (((program method).conduct (opening ++ rest)).close).Refuses ∨
    ∃ c a, Reaches method (opening ++ rest) c ∧ c.answer = .ok a := by
  obtain ⟨said, hsaid, hclose⟩ := exists_close_program_eq hchooses
  rw [hclose]
  rcases m.questions_cases rest with ⟨size, n, rest', f, rfl, hsize, hprepare⟩ |
    ⟨hquestions, hending⟩
  · exact .inl ⟨f, opening, m, size, n, rest', hchooses, rfl, hsize, hprepare⟩
  · have hnone : ∀ u ∈ ((m.questions.conduct rest).after said).said, ¬ u.ShowsUnknown := by
      intro u hu
      exact (List.mem_append.mp hu).elim (hsaid u) (hquestions u)
    right
    rw [← Transcript.ending_after _ said] at hending
    rcases hending with ⟨c, n, hcall, hn, hmethod, hsize⟩ | ⟨f, hfault, hreported⟩
    · cases hanswer : c.answer with
      | ok a => exact .inr ⟨c, a, ⟨opening, m, rest, hchooses, rfl, hcall⟩, hanswer⟩
      | error f =>
        have hfault := (c.settles_answer hn hsize).of_eq_error hanswer
        rw [finish_of_answer_eq_error hcall hanswer]
        exact .inl (Conduct.refuses_of_isReported hnone (isReported_of_isSolverFault hfault))
    · rw [finish_of_error hfault]
      exact .inl (Conduct.refuses_of_isReported hnone hreported)

/-- The program is asked for too much, refuses to solve a system, or has it solved. -/
theorem conduct_cases (method : Option Method) (input : List String) :
    (∃ f, AsksTooMuch method input f) ∨
    (((program method).conduct input).close).Refuses ∨
    ∃ c a, Reaches method input c ∧ c.answer = .ok a := by
  cases method with
  | some m => exact conduct_cases_of_chooses (.beforehand m) input
  | none =>
    have hmenu : ∀ u ∈ menu.map Utterance.line ++ [.prompt "Your choice (1/2/3): "],
        ¬ u.ShowsUnknown := by
      decide
    cases input with
    | nil =>
      have hend : (program none).conduct [] =
          { said := menu.map .line ++ [.prompt "Your choice (1/2/3): "],
            ending := .error .endOfInput, unread := [] } := by
        rw [program, Dialogue.conduct_bind, Dialogue.conduct_tellAll]
        rfl
      rw [hend]
      exact .inr (.inl (Conduct.refuses_of_isReported hmenu rfl))
    | cons line rest =>
      cases hchoice : Method.ofChoice? (stripped line) with
      | some m => exact conduct_cases_of_chooses (.menu hchoice) rest
      | none =>
        have hend : (program none).conduct (line :: rest) =
            { said := menu.map .line ++ [.prompt "Your choice (1/2/3): "] ++
                [.line "Invalid choice."],
              ending := .ok 1, unread := rest } := by
          rw [program, Dialogue.conduct_bind, Dialogue.conduct_tellAll, Transcript.andThen_ok,
            Dialogue.conduct_bind, Dialogue.conduct_question_cons, Transcript.andThen_ok, hchoice]
          rfl
        rw [hend]
        refine .inr (.inl ⟨rfl, ⟨_, List.getLast?_concat, .inl rfl⟩, ?_⟩)
        intro u hu
        rcases List.mem_append.mp hu with hu | hu
        · exact hmenu u hu
        · rw [List.mem_singleton.mp hu]
          decide

theorem exists_getLast?_eq_of_unknowns {said : List Utterance} {first : Int} {x : List Float}
    (hx : 0 < x.length)
    (h : ∃ before, said = before ++ (Summary.unknowns first x).map .line) :
    ∃ text, said.getLast? = some (.line text) ∧ (Utterance.line text).ShowsUnknown := by
  obtain ⟨before, rfl⟩ := h
  have hne : Summary.unknowns first x ≠ [] := by
    rw [← List.length_pos_iff, Summary.unknowns, List.length_mapIdx]
    exact hx
  refine ⟨(Summary.unknowns first x).getLast hne, ?_,
    showsUnknown_of_mem_unknowns (List.getLast_mem hne)⟩
  rw [List.getLast?_append, List.getLast?_map, List.getLast?_eq_some_getLast hne]
  rfl

theorem Conduct.Solves.exists_getLast?_eq {p : Conduct} {c : Call} {n : Nat} {a : Answer}
    (h : p.Solves c n a) :
    ∃ text, p.said.getLast? = some (.line text) ∧ (Utterance.line text).ShowsUnknown := by
  refine exists_getLast?_eq_of_unknowns ?_ h.last
  rw [h.length]
  exact h.pos

section

variable {method : Option Method} {input : List String}

/-- A code tells which way the program ended. -/
theorem cases_of_ending_eq_ok {code : Nat}
    (hending : (((program method).conduct input).close).ending = .ok code) :
    code = 0 ∧ (∃ (c : Call) (a : Answer), Reaches method input c ∧ c.answer = .ok a) ∨
      code = 1 ∧ (((program method).conduct input).close).Refuses := by
  rcases conduct_cases method input with ⟨f, htoo⟩ | hrefuses | ⟨c, a, hreaches, hanswer⟩
  · rw [htoo.escapes.ending] at hending
    cases hending
  · rw [hrefuses.ending] at hending
    exact .inr ⟨(Except.ok.inj hending).symm, hrefuses⟩
  · obtain ⟨n, hsolves⟩ := hreaches.solves hanswer
    rw [hsolves.ending] at hending
    exact .inl ⟨(Except.ok.inj hending).symm, c, a, hreaches, hanswer⟩

theorem code_eq_zero_or_one {code : Nat}
    (hending : (((program method).conduct input).close).ending = .ok code) :
    code = 0 ∨ code = 1 :=
  (cases_of_ending_eq_ok hending).imp And.left And.left

theorem code_eq_zero_iff :
    (((program method).conduct input).close).ending = .ok 0 ↔
      ∃ (c : Call) (a : Answer), Reaches method input c ∧ c.answer = .ok a := by
  constructor
  · intro hending
    rcases cases_of_ending_eq_ok hending with ⟨-, hsolved⟩ | ⟨hcode, -⟩
    · exact hsolved
    · cases hcode
  · rintro ⟨c, a, hreaches, hanswer⟩
    obtain ⟨n, hsolves⟩ := hreaches.solves hanswer
    exact hsolves.ending

theorem refuses_iff :
    (((program method).conduct input).close).Refuses ↔
      (((program method).conduct input).close).ending = .ok 1 := by
  refine ⟨fun h => h.ending, fun hending => ?_⟩
  rcases cases_of_ending_eq_ok hending with ⟨hcode, -⟩ | ⟨-, hrefuses⟩
  · cases hcode
  · exact hrefuses

theorem exists_code_iff :
    (∃ code, (((program method).conduct input).close).ending = .ok code) ↔
      ¬ ∃ f, AsksTooMuch method input f := by
  constructor
  · rintro ⟨code, hending⟩ ⟨f, htoo⟩
    rw [htoo.escapes.ending] at hending
    cases hending
  · intro hwithin
    rcases conduct_cases method input with htoo | hrefuses | hsolved
    · exact absurd htoo hwithin
    · exact ⟨1, hrefuses.ending⟩
    · exact ⟨0, code_eq_zero_iff.mpr hsolved⟩

theorem code_eq_one_iff :
    (((program method).conduct input).close).ending = .ok 1 ↔
      ∃ text, (((program method).conduct input).close).said.getLast? = some (.line text) ∧
        TellsWhy text := by
  refine ⟨fun hending => (refuses_iff.mpr hending).last, ?_⟩
  rintro ⟨text, hlast, htells⟩
  rcases conduct_cases method input with ⟨f, htoo⟩ | hrefuses | ⟨c, a, hreaches, hanswer⟩
  · obtain ⟨prompt, hprompt⟩ := htoo.escapes.last
    rw [hprompt] at hlast
    cases hlast
  · exact hrefuses.ending
  · obtain ⟨n, hsolves⟩ := hreaches.solves hanswer
    obtain ⟨text', htext', hshows⟩ := hsolves.exists_getLast?_eq
    rw [htext'] at hlast
    cases hlast
    exact absurd htells (not_tellsWhy_of_showsUnknown hshows)

end

/-- What the exit codes of the program tell, for every chosen method or none and for every input. The
    program ends with a code exactly if the input does not ask for a system of a size that cannot be
    used, and the code is zero or one. It is zero exactly if the questions were answered and the call
    that they make was answered with a solution; then the lines of all its unknowns are the last ones.
    It is one exactly if the last line says why there is no solution; then no line shows an
    unknown. -/
theorem program_ends_iff (method : Option Method) (input : String) :
    ((∃ code, (runDialogue (program method) input).ending = .ok code) ↔
      ¬ ∃ f, AsksTooMuch method (lines input) f) ∧
    (∀ code, (runDialogue (program method) input).ending = .ok code → code = 0 ∨ code = 1) ∧
    ((runDialogue (program method) input).ending = .ok 0 ↔
      ∃ (c : Call) (a : Answer), Reaches method (lines input) c ∧ c.answer = .ok a) ∧
    (∀ (c : Call) (a : Answer), Reaches method (lines input) c → c.answer = .ok a →
      ∃ n, 0 < n ∧ c.OfSize n ∧ a.x.length = n ∧
        ∃ before, (runDialogue (program method) input).said =
          before ++ (Summary.unknowns c.method.first a.x).map .line) ∧
    ((runDialogue (program method) input).ending = .ok 1 ↔
      ∃ text, (runDialogue (program method) input).said.getLast? = some (.line text) ∧
        TellsWhy text) ∧
    ((runDialogue (program method) input).ending = .ok 1 →
      ∀ u ∈ (runDialogue (program method) input).said, ¬ u.ShowsUnknown) := by
  refine ⟨exists_code_iff, fun _ => code_eq_zero_or_one, code_eq_zero_iff, ?_, code_eq_one_iff,
    fun hending => (refuses_iff.mpr hending).none_shown⟩
  intro c a hreaches hanswer
  obtain ⟨n, hsolves⟩ := hreaches.solves hanswer
  exact ⟨n, hsolves.pos, hsolves.ofSize, hsolves.length, hsolves.last⟩

/-- The sweep lays out its vectors as soon as it knows their length, and a length of `2 ^ 63` is more
    than can be counted: no code is returned. -/
theorem program_escapes_of_large_size :
    (runDialogue (program (some .thomas)) "9223372036854775808\n1\n").ending =
        .error (.misuse .beyondCounting) ∧
      (Fault.misuse .beyondCounting).faultClass = .overflow ∧
      isReported (.misuse .beyondCounting) = false := by
  have hinput : lines "9223372036854775808\n1\n" = ["9223372036854775808", "1"] := by
    decide +kernel
  have hsize : readSize (stripped "9223372036854775808") = .ok (2 ^ 63) :=
    readSize_of_whole? (by decide +kernel) (by decide)
  have htoo : AsksTooMuch (some .thomas) (lines "9223372036854775808\n1\n")
      (.misuse .beyondCounting) := by
    rw [hinput]
    exact ⟨[], .thomas, _, 2 ^ 63, ["1"], .beforehand _, rfl, hsize, rfl⟩
  exact ⟨htoo.escapes.ending, rfl, rfl⟩

end LinearSystems.Console
