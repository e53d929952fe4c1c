import LinearSystems.Proofs.Console.Answers

/-!
# How the program goes

The program comes to a method, then to a call, then to an answer. What is said on the way and how the
way ends is computed here, one stage after the other, up to a program that a fault escapes because a
size is too large.
-/

namespace LinearSystems.Console

/-- The lines with which a method is chosen: none if it was chosen beforehand, and otherwise the
    answer to the menu. -/
inductive Chooses : Option Method → List String → Method → Prop
  | beforehand (m : Method) : Chooses (some m) [] m
  | menu {line : String} {m : Method} (h : Method.ofChoice? (stripped line) = some m) :
      Chooses none [line] m

/-- The input chooses a method and asks it for a system of a size that it cannot use. -/
def AsksTooMuch (method : Option Method) (input : List String) (f : Fault) : Prop :=
  ∃ opening m size n rest, Chooses method opening m ∧ input = opening ++ size :: rest ∧
    readSize (stripped size) = .ok n ∧ m.prepare n = .error f

/-- The input chooses a method and answers all its questions, which makes a call. -/
def Reaches (method : Option Method) (input : List String) (c : Call) : Prop :=
  ∃ opening m rest, Chooses method opening m ∧ input = opening ++ rest ∧
    (m.questions.conduct rest).ending = .ok c

/-- A size that cannot be used is a fault that escapes. -/
theorem isReported_of_prepare_eq_error {m : Method} {n : Nat} {f : Fault}
    (h : m.prepare n = .error f) : isReported f = false := by
  cases m with
  | gauss =>
    rw [Method.prepare, Numeral.written] at h
    split at h
    · cases h
      rfl
    · cases h
  | jacobi => cases h
  | thomas =>
    rw [Method.prepare, layOut] at h
    split at h
    · cases h
      rfl
    · split at h
      · cases h
        rfl
      · cases h

theorem readSize_pos {text : String} {n : Nat} (h : readSize text = .ok n) : 0 < n := by
  obtain ⟨i, -, h⟩ := bind_eq_ok_iff.mp h
  rw [checkSize] at h
  split at h
  · cases h
  · cases h
    omega

namespace Method

/-- What is said before the size is read shows no unknown. -/
theorem not_showsUnknown_beginning (m : Method) :
    ∀ u ∈ [Utterance.line m.title, .prompt m.sizePrompt], ¬ u.ShowsUnknown := by
  cases m <;> decide

theorem conduct_questions_nil (m : Method) :
    m.questions.conduct [] =
      { said := [.line m.title, .prompt m.sizePrompt], ending := .error .endOfInput,
        unread := [] } := rfl

theorem conduct_questions_of_error (m : Method) {size : String} {e : BadInput} (rest : List String)
    (h : readSize (stripped size) = .error e) :
    m.questions.conduct (size :: rest) =
      { said := [.line m.title, .prompt m.sizePrompt], ending := .error (.badInput e),
        unread := rest } := by
  rw [questions, Dialogue.conduct_bind, Dialogue.conduct_tell, Transcript.andThen_ok,
    Dialogue.conduct_bind, Dialogue.conduct_inquire_cons, h]
  rfl

theorem conduct_questions_of_ok (m : Method) {size : String} {n : Nat} (rest : List String)
    (h : readSize (stripped size) = .ok n) :
    m.questions.conduct (size :: rest) =
      ((Dialogue.ofExcept (m.prepare n) >>= fun _ => m.gather n).conduct rest).after
        [.line m.title, .prompt m.sizePrompt] := by
  rw [questions, Dialogue.conduct_bind, Dialogue.conduct_tell, Transcript.andThen_ok,
    Dialogue.conduct_bind, Dialogue.conduct_inquire_cons, h]
  rfl

theorem conduct_questions_of_prepare_eq_error (m : Method) {size : String} {n : Nat} {f : Fault}
    (rest : List String) (h : readSize (stripped size) = .ok n) (hprepare : m.prepare n = .error f) :
    m.questions.conduct (size :: rest) =
      { said := [.line m.title, .prompt m.sizePrompt], ending := .error f, unread := rest } := by
  rw [m.conduct_questions_of_ok rest h, hprepare]
  rfl

theorem conduct_questions_of_prepare_eq_ok (m : Method) {size : String} {n : Nat}
    (rest : List String) (h : readSize (stripped size) = .ok n) (hprepare : m.prepare n = .ok ()) :
    m.questions.conduct (size :: rest) =
      ((m.gather n).conduct rest).after [.line m.title, .prompt m.sizePrompt] := by
  rw [m.conduct_questions_of_ok rest h, hprepare]
  rfl

/-- The questions of a method ask for too much, or they show no unknown and come to a call of the
    method or to a fault that is reported. -/
theorem questions_cases (m : Method) (input : List String) :
    (∃ size n rest f, input = size :: rest ∧ readSize (stripped size) = .ok n ∧
      m.prepare n = .error f) ∨
    (∀ u ∈ (m.questions.conduct input).said, ¬ u.ShowsUnknown) ∧
      ((∃ c n, (m.questions.conduct input).ending = .ok c ∧ 0 < n ∧ c.method = m ∧ c.OfSize n) ∨
        ∃ f, (m.questions.conduct input).ending = .error f ∧ isReported f = true) := by
  have hbegin := m.not_showsUnknown_beginning
  cases input with
  | nil =>
    rw [conduct_questions_nil]
    exact .inr ⟨hbegin, .inr ⟨_, rfl, rfl⟩⟩
  | cons size rest =>
    cases hsize : readSize (stripped size) with
    | error e =>
      rw [m.conduct_questions_of_error rest hsize]
      exact .inr ⟨hbegin, .inr ⟨_, rfl, rfl⟩⟩
    | ok n =>
      cases hprepare : m.prepare n with
      | error f => exact .inl ⟨size, n, rest, f, rfl, hsize, hprepare⟩
      | ok u =>
        -- Only from here on the size is known to be good for what the questions keep to.
        obtain ⟨hsaid, hcall, hfault⟩ := (Asks.gather m (readSize_pos hsize)).conduct rest
        rw [m.conduct_questions_of_prepare_eq_ok rest hsize hprepare]
        refine .inr ⟨fun u hu => ?_, ?_⟩
        · exact (List.mem_append.mp hu).elim (hbegin u) (hsaid u)
        · rw [Transcript.ending_after]
          cases hending : ((m.gather n).conduct rest).ending with
          | ok c => exact .inl ⟨c, n, rfl, readSize_pos hsize, hcall c hending⟩
          | error f => exact .inr ⟨f, rfl, hfault f hending⟩

end Method

/-- How the program goes on from the questions: a call is answered, and all that goes wrong and is
    reported becomes an error line. -/
def finish (t : Transcript Call) : Conduct :=
  match t.ending with
  | .error f => Transcript.close { said := t.said, ending := .error f, unread := t.unread }
  | .ok c =>
    match c.answer with
    | .error f => Transcript.close { said := t.said, ending := .error f, unread := t.unread }
    | .ok a => { said := t.said ++ (a.lines c.method).map .line, ending := .ok 0 }

theorem finish_of_error {t : Transcript Call} {f : Fault} (h : t.ending = .error f) :
    finish t = Transcript.close { said := t.said, ending := .error f, unread := t.unread } := by
  rw [finish, h]

theorem finish_of_answer_eq_error {t : Transcript Call} {c : Call} {f : Fault}
    (h : t.ending = .ok c) (hanswer : c.answer = .error f) :
    finish t = Transcript.close { said := t.said, ending := .error f, unread := t.unread } := by
  rw [finish, h]
  simp only [hanswer]

theorem finish_of_answer_eq_ok {t : Transcript Call} {c : Call} {a : Answer}
    (h : t.ending = .ok c) (hanswer : c.answer = .ok a) :
    finish t = { said := t.said ++ (a.lines c.method).map .line, ending := .ok 0 } := by
  rw [finish, h]
  simp only [hanswer]

theorem close_of_isReported {said : List Utterance} {f : Fault} {unread : List String}
    (h : isReported f = true) :
    Transcript.close { said, ending := .error f, unread } =
      { said := said ++ [errorLine f], ending := .ok 1 } :=
  if_pos h

theorem close_of_not_isReported {said : List Utterance} {f : Fault} {unread : List String}
    (h : isReported f = false) :
    Transcript.close { said, ending := .error f, unread } = { said, ending := .error f } :=
  if_neg (Bool.eq_false_iff.mp h)

theorem close_dialogue (m : Method) (said : List Utterance) (input : List String) :
    (((m.dialogue >>= fun _ => pure 0).conduct input).after said).close =
      finish ((m.questions.conduct input).after said) := by
  rw [Method.dialogue, Dialogue.conduct_bind, Dialogue.conduct_bind]
  obtain ⟨said', ending, unread⟩ := m.questions.conduct input
  cases ending with
  | error f => rfl
  | ok c =>
    rw [Transcript.andThen_ok, Call.perform, Dialogue.conduct_bind, Dialogue.conduct_ofExcept,
      finish]
    simp only [Transcript.after]
    cases c.answer with
    | error f => simp [Transcript.andThen_error]
    | ok a =>
      simp [Transcript.andThen_ok, Dialogue.conduct_tellAll, Transcript.after,
        Dialogue.conduct_pure, Transcript.close]

/-- Once a method is chosen, the program goes as its questions do. -/
theorem exists_close_program_eq {method : Option Method} {opening : List String} {m : Method}
    (h : Chooses method opening m) :
    ∃ said, (∀ u ∈ said, ¬ u.ShowsUnknown) ∧ ∀ input,
      ((program method).conduct (opening ++ input)).close =
        finish ((m.questions.conduct input).after said) := by
  cases h with
  | beforehand m => exact ⟨[], by simp, fun input => close_dialogue m [] input⟩
  | @menu line m h =>
    refine ⟨Console.menu.map .line ++ [.prompt "Your choice (1/2/3): "], ?_, fun input => ?_⟩
    · decide
    · rw [← close_dialogue, program, Dialogue.conduct_bind, Dialogue.conduct_tellAll,
        Transcript.andThen_ok, Dialogue.conduct_bind, List.singleton_append,
        Dialogue.conduct_question_cons, Transcript.andThen_ok, h, Transcript.after_after]

end LinearSystems.Console
