import LinearSystems.Console.Dialogue

/-!
# How dialogues go

A dialogue that goes on with the answer of another one is conducted as the two are, one after the
other. So what is known of dialogues can be put together as they are. There are two kinds of such
knowledge: what a dialogue keeps to, whatever it is told, and what it hears, which is the answer that
it makes of given lines, with the lines after them left unread.
-/

namespace LinearSystems.Console

variable {α β : Type}

namespace Transcript

/-- The transcript after something was said already. -/
def after (t : Transcript α) (said : List Utterance) : Transcript α :=
  { t with said := said ++ t.said }

theorem ending_after (t : Transcript α) (said : List Utterance) :
    (t.after said).ending = t.ending := rfl

theorem after_after (t : Transcript α) (said said' : List Utterance) :
    (t.after said).after said' = t.after (said' ++ said) := by
  simp only [after, List.append_assoc]

/-- Goes on with the answer of a transcript, on the lines that were not read. -/
def andThen (t : Transcript α) (f : α → List String → Transcript β) : Transcript β :=
  match t.ending with
  | .ok a => (f a t.unread).after t.said
  | .error e => { said := t.said, ending := .error e, unread := t.unread }

theorem andThen_ok (said : List Utterance) (a : α) (unread : List String)
    (f : α → List String → Transcript β) :
    Transcript.andThen { said, ending := .ok a, unread } f = (f a unread).after said := rfl

theorem andThen_error (said : List Utterance) (e : Fault) (unread : List String)
    (f : α → List String → Transcript β) :
    Transcript.andThen { said, ending := .error e, unread } f =
      { said, ending := .error e, unread } := rfl

theorem after_andThen (t : Transcript α) (said : List Utterance)
    (f : α → List String → Transcript β) : (t.after said).andThen f = (t.andThen f).after said := by
  obtain ⟨said', ending, unread⟩ := t
  cases ending with
  | error e => rfl
  | ok a => simp only [after, andThen, List.append_assoc]

end Transcript

namespace Dialogue

theorem conduct_bind (d : Dialogue α) (f : α → Dialogue β) (input : List String) :
    (d >>= f).conduct input = (d.conduct input).andThen fun a rest => (f a).conduct rest := by
  show (d.andThen f).conduct input = _
  -- Whatever the first dialogue begins with is said before the rest on both sides.
  induction d generalizing input with
  | done a => rfl
  | fail e => rfl
  | say line next ih =>
    rw [andThen, conduct, ih]
    exact (Transcript.after_andThen _ [.line line] _).symm
  | ask prompt complaint next ih =>
    rw [andThen, conduct, conduct]
    split
    · rfl
    · rw [ih]
      exact (Transcript.after_andThen _ _ _).symm

theorem conduct_pure (a : α) (input : List String) :
    (pure a : Dialogue α).conduct input = { said := [], ending := .ok a, unread := input } := rfl

theorem conduct_tell (line : String) (input : List String) :
    (tell line).conduct input = { said := [.line line], ending := .ok (), unread := input } := rfl

theorem conduct_tellAll (lines input : List String) :
    (tellAll lines).conduct input =
      { said := lines.map .line, ending := .ok (), unread := input } := by
  induction lines with
  | nil => rfl
  | cons line rest ih => rw [tellAll, conduct, ih, List.map_cons]

theorem conduct_ofExcept (x : Except Fault α) (input : List String) :
    (ofExcept x).conduct input = { said := [], ending := x, unread := input } := by
  cases x <;> rfl

theorem conduct_inquire_cons (prompt : String) (read : String → Except BadInput α)
    (line : String) (rest : List String) :
    (inquire prompt read).conduct (line :: rest) =
      { said := [.prompt prompt],
        ending := (read (stripped line)).mapError .badInput,
        unread := rest } := by
  rw [inquire, conduct]
  simp only [listen]
  cases read (stripped line) <;> rfl

theorem conduct_question_cons (prompt line : String) (rest : List String) :
    (question prompt).conduct (line :: rest) =
      { said := [.prompt prompt], ending := .ok (stripped line), unread := rest } := rfl

section Ask

variable (prompt : String) {complaint : String → Option String} (next : String → Dialogue α)
  {line : String}

/-- An answer without cause to complain is accepted. -/
theorem conduct_ask_cons_of_accepted (h : complaint (stripped line) = none) (rest : List String) :
    (ask prompt complaint next).conduct (line :: rest) =
      ((next (stripped line)).conduct rest).after [.prompt prompt] := by
  rw [conduct, listen, h]
  rfl

/-- After a complaint about the answer the same is asked again. -/
theorem conduct_ask_cons_of_refused {c : String} (h : complaint (stripped line) = some c)
    (rest : List String) :
    (ask prompt complaint next).conduct (line :: rest) =
      ((ask prompt complaint next).conduct rest).after [.prompt prompt, .line c] := by
  rw [conduct, conduct, listen, h]
  rcases listen prompt complaint rest with ⟨said, _ | answer, unread⟩ <;> rfl

end Ask

/-- While it is listened, the question and complaints are said, and the answer that is accepted gives
    no cause to complain. -/
theorem listen_spec (prompt : String) (complaint : String → Option String) (input : List String) :
    (∀ u ∈ (listen prompt complaint input).1,
      u = .prompt prompt ∨ ∃ line c, complaint line = some c ∧ u = .line c) ∧
    ∀ answer, (listen prompt complaint input).2.1 = some answer → complaint answer = none := by
  induction input with
  | nil => simp [listen]
  | cons line rest ih =>
    rw [listen]
    cases hline : complaint (stripped line) with
    | none =>
      refine ⟨fun u hu => .inl (List.mem_singleton.mp hu), ?_⟩
      rintro answer ⟨⟩
      exact hline
    | some c =>
      refine ⟨?_, ih.2⟩
      intro u hu
      rcases List.mem_cons.mp hu with rfl | hu
      · exact .inl rfl
      · rcases List.mem_cons.mp hu with rfl | hu
        · exact .inr ⟨_, c, hline, rfl⟩
        · exact ih.1 u hu

section Keeps

variable {utters : Utterance → Prop} {fails : Fault → Prop} {answers : α → Prop}

/-- What a dialogue keeps to: of which kinds all that it says is, and the answer or the fault that it
    ends with, whatever it is told. -/
inductive Keeps (utters : Utterance → Prop) (fails : Fault → Prop) (answers : α → Prop) :
    Dialogue α → Prop
  | done {a : α} (h : answers a) : Keeps utters fails answers (.done a)
  | fail {f : Fault} (h : fails f) : Keeps utters fails answers (.fail f)
  | say {line : String} {next : Dialogue α} (hline : utters (.line line))
      (hnext : Keeps utters fails answers next) : Keeps utters fails answers (.say line next)
  | ask {prompt : String} {complaint : String → Option String} {next : String → Dialogue α}
      (hprompt : utters (.prompt prompt))
      (hcomplaint : ∀ line c, complaint line = some c → utters (.line c))
      (hend : fails .endOfInput)
      (hnext : ∀ line, complaint line = none → Keeps utters fails answers (next line)) :
      Keeps utters fails answers (.ask prompt complaint next)

namespace Keeps

/-- What a dialogue keeps to holds of all its transcripts. -/
theorem conduct {d : Dialogue α} (h : Keeps utters fails answers d) (input : List String) :
    (∀ u ∈ (d.conduct input).said, utters u) ∧
      (∀ a, (d.conduct input).ending = .ok a → answers a) ∧
      ∀ f, (d.conduct input).ending = .error f → fails f := by
  induction h generalizing input with
  | done h => exact ⟨by simp [Dialogue.conduct], by rintro a ⟨⟩; exact h, by rintro f ⟨⟩⟩
  | fail h => exact ⟨by simp [Dialogue.conduct], by rintro a ⟨⟩, by rintro f ⟨⟩; exact h⟩
  | say hline _ ih => exact ⟨List.forall_mem_cons.mpr ⟨hline, (ih input).1⟩, (ih input).2⟩
  | @ask prompt complaint next hprompt hcomplaint hend _ ih =>
    obtain ⟨hsaid, haccepted⟩ := listen_spec prompt complaint input
    have hutters : ∀ u ∈ (listen prompt complaint input).1, utters u := by
      intro u hu
      rcases hsaid u hu with rfl | ⟨line, c, hc, rfl⟩
      · exact hprompt
      · exact hcomplaint line c hc
    rw [Dialogue.conduct]
    split
    · rename_i heq
      rw [heq] at hutters
      exact ⟨hutters, by rintro a ⟨⟩, by rintro f ⟨⟩; exact hend⟩
    · rename_i answer unread heq
      -- Only an accepted answer goes on, and of these alone the rest is known.
      rw [heq] at hutters haccepted
      obtain ⟨hsaid', hending⟩ := ih answer (haccepted answer rfl) unread
      refine ⟨fun u hu => ?_, hending⟩
      exact (List.mem_append.mp hu).elim (hutters u) (hsaid' u)

theorem bind {d : Dialogue α} {f : α → Dialogue β} {results : β → Prop}
    (hd : Keeps utters fails answers d) (hf : ∀ a, answers a → Keeps utters fails results (f a)) :
    Keeps utters fails results (d >>= f) := by
  show Keeps utters fails results (d.andThen f)
  induction hd with
  | done h => exact hf _ h
  | fail h => exact .fail h
  | say hline _ ih => exact .say hline ih
  | ask hprompt hcomplaint hend _ ih => exact .ask hprompt hcomplaint hend ih

theorem tell {line : String} (h : utters (.line line)) :
    Keeps utters fails (fun _ => True) (Dialogue.tell line) :=
  .say h (.done trivial)

theorem tellAll {lines : List String} (h : ∀ line ∈ lines, utters (.line line)) :
    Keeps utters fails (fun _ => True) (Dialogue.tellAll lines) := by
  induction lines with
  | nil => exact .done trivial
  | cons line rest ih =>
    obtain ⟨hline, hrest⟩ := List.forall_mem_cons.mp h
    exact .say hline (ih hrest)

theorem question {prompt : String} (h : utters (.prompt prompt)) (hend : fails .endOfInput) :
    Keeps utters fails (fun _ => True) (Dialogue.question prompt) :=
  .ask h (by simp) hend fun _ _ => .done trivial

theorem ofExcept {x : Except Fault α} (hok : ∀ a, x = .ok a → answers a)
    (herror : ∀ f, x = .error f → fails f) : Keeps utters fails answers (Dialogue.ofExcept x) := by
  cases x with
  | ok a => exact .done (hok a rfl)
  | error f => exact .fail (herror f rfl)

theorem inquire {prompt : String} {read : String → Except BadInput α} (h : utters (.prompt prompt))
    (hend : fails .endOfInput) (hbad : ∀ e, fails (.badInput e))
    (hok : ∀ line a, read line = .ok a → answers a) :
    Keeps utters fails answers (Dialogue.inquire prompt read) := by
  refine .ask h (by simp) hend fun line _ => ?_
  cases hread : read line with
  | ok a => exact .done (hok line a hread)
  | error e => exact .fail (hbad e)

end Keeps

end Keeps

/-- What a dialogue hears in some lines: the answer that it ends with, whatever comes after them. It
    reads them all and no further one. -/
def Hears (d : Dialogue α) (script : List String) (a : α) : Prop :=
  ∃ said, ∀ rest, d.conduct (script ++ rest) = { said, ending := .ok a, unread := rest }

namespace Hears

theorem pure (a : α) : Hears (pure a) [] a :=
  ⟨[], fun _ => rfl⟩

theorem bind {d : Dialogue α} {f : α → Dialogue β} {script script' : List String} {a : α} {b : β}
    (hd : Hears d script a) (hf : Hears (f a) script' b) :
    Hears (d >>= f) (script ++ script') b := by
  obtain ⟨said, hd⟩ := hd
  obtain ⟨said', hf⟩ := hf
  refine ⟨said ++ said', fun rest => ?_⟩
  rw [conduct_bind, List.append_assoc, hd, Transcript.andThen_ok, hf]
  rfl

/-- A part in which nothing is read comes before the lines. -/
theorem bind_nil {d : Dialogue α} {f : α → Dialogue β} {script : List String} {a : α} {b : β}
    (hd : Hears d [] a) (hf : Hears (f a) script b) : Hears (d >>= f) script b :=
  bind hd hf

/-- A part in which one line is read takes the first one. -/
theorem bind_cons {d : Dialogue α} {f : α → Dialogue β} {line : String} {script : List String}
    {a : α} {b : β} (hd : Hears d [line] a) (hf : Hears (f a) script b) :
    Hears (d >>= f) (line :: script) b :=
  bind hd hf

theorem tell (line : String) : Hears (Dialogue.tell line) [] () :=
  ⟨_, fun _ => conduct_tell line _⟩

theorem tellAll (lines : List String) : Hears (Dialogue.tellAll lines) [] () :=
  ⟨_, fun _ => conduct_tellAll lines _⟩

theorem question (prompt line : String) :
    Hears (Dialogue.question prompt) [line] (stripped line) :=
  ⟨_, fun rest => conduct_question_cons prompt line rest⟩

theorem ofExcept {x : Except Fault α} {a : α} (h : x = .ok a) :
    Hears (Dialogue.ofExcept x) [] a := by
  subst h
  exact ⟨[], fun _ => rfl⟩

theorem inquire (prompt : String) {read : String → Except BadInput α} {line : String} {a : α}
    (h : read (stripped line) = .ok a) : Hears (Dialogue.inquire prompt read) [line] a := by
  refine ⟨[.prompt prompt], fun rest => ?_⟩
  rw [List.singleton_append, conduct_inquire_cons, h]
  rfl

end Hears

end Dialogue

end LinearSystems.Console
