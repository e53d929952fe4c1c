import Mathlib
import LinearSystems.Stopwatch

/-!
# What a stopwatch shows

A tree of steps is a history of events: the watch is started, it is asked to stop, and sections are
completed, each after all that happens inside it. At every step of the tree, however deep it lies,
the state of the watch is a record of the events before that step, and the answer of the step is
read off the record.
-/

namespace LinearSystems

namespace Datum

variable {d e f : Datum} {x y z : Number}

theorem sameNumber_iff : sameNumber x y = true ↔ ∃ p, x.place? = some p ∧ y.place? = some p := by
  rw [sameNumber]
  cases x.place? with
  | none => simp
  | some p =>
    cases y.place? with
    | none => simp
    | some q =>
      simp only [beq_iff_eq, Option.some.injEq, exists_eq_left']
      exact eq_comm

theorem sameNumber_trans (hxy : sameNumber x y = true) (hyz : sameNumber y z = true) :
    sameNumber x z = true := by
  obtain ⟨p, hx, hy⟩ := sameNumber_iff.mp hxy
  obtain ⟨q, hy', hz⟩ := sameNumber_iff.mp hyz
  rw [hy] at hy'
  exact sameNumber_iff.mpr ⟨p, hx, hy'.symm ▸ hz⟩

theorem sameNumber_truth (a b : Bool) :
    sameNumber (.whole (if a then 1 else 0)) (.whole (if b then 1 else 0)) = (a == b) := by
  cases a <;> cases b <;> rfl

/-- The number that a number or a truth value stands for. -/
def number? : Datum → Option Number
  | .bool b => some (.whole (if b then 1 else 0))
  | .number x => some x
  | _ => none

/-- What something can be stored under equals nothing but its own kind, where a truth value is a
    number. -/
theorem same_iff (hd : d.checkKey.isOk = true) :
    d.same e = true ↔ (d = .null ∧ e = .null) ∨ (∃ s, d = .text s ∧ e = .text s) ∨
      ∃ x y, d.number? = some x ∧ e.number? = some y ∧ sameNumber x y = true := by
  cases d with
  | null => cases e <;> simp [same, number?]
  | text s => cases e <;> simp [same, number?, eq_comm (a := s)]
  | bool a =>
    cases e with
    | bool b => simp [same, number?, sameNumber_truth]
    | _ => simp [same, number?]
  | number x => cases e <;> simp [same, number?]
  | list _ => cases hd
  | record _ => cases hd
  | array _ => cases hd
  | objects _ _ => cases hd

/-- Data that something can be stored under are equal if they are equal to the same. -/
theorem same_trans (hd : d.checkKey.isOk = true) (he : e.checkKey.isOk = true)
    (hde : d.same e = true) (hef : e.same f = true) : d.same f = true := by
  rw [same_iff hd] at hde ⊢
  rw [same_iff he] at hef
  rcases hde with ⟨rfl, rfl⟩ | ⟨s, rfl, rfl⟩ | ⟨x, y, hx, hy, hxy⟩
  · simpa [number?] using hef
  · simpa [number?] using hef
  · rcases hef with ⟨rfl, -⟩ | ⟨s, rfl, -⟩ | ⟨y', z, hy', hz, hyz⟩
    · cases hy
    · cases hy
    · rw [hy] at hy'
      cases hy'
      exact .inr (.inr ⟨x, z, hx, hz, sameNumber_trans hxy hyz⟩)

end Datum

namespace Stopwatch

/-- What happens to a watch. -/
inductive Event where
  | started
  /-- The watch is asked to stop, whether it can or not. -/
  | stopped
  | completed (name : Datum)

mutual

/-- The events of a step. A section is completed after all that happens inside it, in whatever way
    it ends, unless nothing can be stored under its name. -/
def Step.events : Step → List Event
  | .start => [.started]
  | .stop => [.stopped]
  | .section name inner _ =>
    eventsAll inner ++ if name.checkKey.isOk then [.completed name] else []
  | .result => []
  | .call _ => []
  | .refused _ => []

/-- The events of steps one after the other. -/
def eventsAll : List Step → List Event
  | [] => []
  | step :: rest => step.events ++ eventsAll rest

end

/-- The step stands among the steps, at some depth, after the events of the past. A section that it
    stands in is still open then. -/
inductive Stands : List Step → List Event → Step → Prop
  | here {steps : List Step} {i : Nat} {step : Step} (hstep : steps[i]? = some step) :
      Stands steps (eventsAll (steps.take i)) step
  | within {steps inner : List Step} {i : Nat} {name : Datum} {raised : Option Fault}
      {past : List Event} {step : Step} (hsection : steps[i]? = some (.section name inner raised))
      (hinner : Stands inner past step) :
      Stands steps (eventsAll (steps.take i) ++ past) step

/-- In a run of the steps such a step answers with the outcome. -/
inductive Answers : Stopwatch → List Step → List Event → Step → Outcome → Prop
  | here {w : Stopwatch} {steps : List Step} {i : Nat} {step : Step} {outcome : Outcome}
      (hstep : steps[i]? = some step) (houtcome : (takeAll w steps).2[i]? = some outcome) :
      Answers w steps (eventsAll (steps.take i)) step outcome
  | within {w : Stopwatch} {steps inner : List Step} {i : Nat} {name : Datum}
      {raised : Option Fault} {past : List Event} {step : Step} {outcome : Outcome}
      (hsection : steps[i]? = some (.section name inner raised))
      (hinner : Answers (takeAll w (steps.take i)).1 inner past step outcome) :
      Answers w steps (eventsAll (steps.take i) ++ past) step outcome

/-- The watch was asked to stop at some time after it was started. -/
def Stopped (past : List Event) : Prop :=
  [Event.started, .stopped].Sublist past

/-- The name of a section that is completed. -/
def Event.name? : Event → Option Datum
  | .completed name => some name
  | _ => none

/-- The names of the sections that were completed, one after the other. -/
def completedNames (past : List Event) : List Datum :=
  past.filterMap Event.name?

/-- The names, each only where no name before it is the same. -/
def firsts (names : List Datum) : List Datum :=
  names.zipIdx.filterMap fun (name, i) =>
    if (names.take i).any (·.same name) then none else some name

/-- Steps are taken one after the other, each by the watch that those before it leave. -/
theorem getElem?_outcomes (w : Stopwatch) (steps : List Step) (i : Nat) :
    (takeAll w steps).2[i]? =
      steps[i]?.map fun step => (take (takeAll w (steps.take i)).1 step).2 := by
  induction steps generalizing w i with
  | nil => simp [takeAll]
  | cons step rest ih =>
    cases i with
    | zero => simp [takeAll]
    | succ i => simpa [takeAll] using ih (take w step).1 i

/-- Every step of a tree answers. -/
theorem Stands.exists_answers {steps : List Step} {past : List Event} {step : Step}
    (h : Stands steps past step) (w : Stopwatch) :
    ∃ outcome, Answers w steps past step outcome := by
  induction h generalizing w with
  | @here steps i step hstep =>
    have houtcome := getElem?_outcomes w steps i
    rw [hstep, Option.map_some] at houtcome
    exact ⟨_, .here hstep houtcome⟩
  | within hsection hinner ih =>
    obtain ⟨outcome, houtcome⟩ := ih _
    exact ⟨outcome, .within hsection houtcome⟩

theorem stopped_append_singleton {past : List Event} {event : Event} :
    Stopped (past ++ [event]) ↔ Stopped past ∨ event = .stopped ∧ .started ∈ past := by
  have hreverse (events : List Event) :
      Stopped events ↔ [Event.stopped, .started].Sublist events.reverse := by
    rw [Stopped, ← List.reverse_sublist]
    rfl
  rw [hreverse, hreverse, List.reverse_append, List.reverse_singleton, List.singleton_append,
    List.cons_sublist_cons', List.singleton_sublist, List.mem_reverse]
  exact or_congr_right (and_congr_left' eq_comm)

theorem completedNames_append_singleton (past : List Event) (event : Event) :
    completedNames (past ++ [event]) = completedNames past ++ event.name?.toList := by
  rw [completedNames, List.filterMap_append]
  cases event <;> rfl

/-- One more name comes last, unless it is the same as a name before it. -/
theorem firsts_append_singleton (names : List Datum) (name : Datum) :
    firsts (names ++ [name]) =
      firsts names ++ if names.any (·.same name) then [] else [name] := by
  rw [firsts, List.zipIdx_append, List.filterMap_append]
  congr 1
  · apply List.filterMap_congr
    rintro ⟨d, i⟩ hd
    have hi : i < names.length := by simpa using (List.mem_zipIdx hd).2.1
    simp only [List.take_append_of_le_length hi.le]
  · simp only [List.zipIdx_cons, List.zipIdx_nil, Nat.zero_add, List.filterMap_cons,
      List.filterMap_nil, List.take_left]
    cases names.any (·.same name) <;> rfl

/-- A name is the same as one of some names exactly if it is the same as one of their firsts. -/
theorem any_firsts {names : List Datum} (hkeys : ∀ d ∈ names, d.checkKey.isOk = true)
    (name : Datum) : (firsts names).any (·.same name) = names.any (·.same name) := by
  induction names using List.reverseRecOn with
  | nil => rfl
  | append_singleton names d ih =>
    have hbefore := ih fun e he => hkeys e (List.mem_append_left _ he)
    rw [firsts_append_singleton, List.any_append, List.any_append, hbefore]
    cases hany : names.any (·.same d) with
    | false => rfl
    | true =>
      -- Whatever is the same as `d` is the same as a name before `d`.
      have hold : d.same name = true → names.any (·.same name) = true := by
        intro hname
        obtain ⟨e, he, hed⟩ := List.any_eq_true.mp hany
        exact List.any_eq_true.mpr ⟨e, he, Datum.same_trans (hkeys e (by simp [he]))
          (hkeys d (by simp)) hed hname⟩
      cases hname : d.same name with
      | false => simp [hname]
      | true => simp [hold hname]

theorem mem_of_mem_firsts {names : List Datum} {d : Datum} (h : d ∈ firsts names) : d ∈ names := by
  obtain ⟨⟨e, i⟩, he, hd⟩ := List.mem_filterMap.mp h
  dsimp only at hd
  split at hd
  · cases hd
  · cases hd
    exact List.fst_mem_of_mem_zipIdx he

theorem pairwise_firsts (names : List Datum) :
    (firsts names).Pairwise fun d e => d.same e = false := by
  induction names using List.reverseRecOn with
  | nil => exact .nil
  | append_singleton names name ih =>
    rw [firsts_append_singleton]
    cases hany : names.any (·.same name) with
    | true => simpa using ih
    | false =>
      refine List.pairwise_append.mpr ⟨ih, List.pairwise_singleton _ _, fun d hd e he => ?_⟩
      obtain rfl : e = name := by simpa using he
      exact Bool.eq_false_iff.mpr (List.any_eq_false.mp hany d (mem_of_mem_firsts hd))

/-- The names that are shown are different, that of the whole time included. -/
theorem pairwise_shown {w : Stopwatch} {names : List Datum} (h : w.completed = firsts names) :
    w.shown.Pairwise fun d e => d.same e = false := by
  rw [shown, h, List.pairwise_cons]
  constructor
  · intro name hname
    have hother : (!name.same (.text totalName)) = true := (List.mem_filter.mp hname).2
    cases name with
    | text s =>
      show (totalName == s) = false
      rw [beq_eq_false_iff_ne]
      rintro rfl
      simp [Datum.same] at hother
    | _ => rfl
  · exact (pairwise_firsts names).filter _

/-- The state of a watch after the events of the past. -/
structure Records (w : Stopwatch) (past : List Event) : Prop where
  started : w.started = true ↔ .started ∈ past
  stopped : w.stopped = true ↔ Stopped past
  completed : w.completed = firsts (completedNames past)
  storable : ∀ name ∈ completedNames past, name.checkKey.isOk = true

theorem take_stop (w : Stopwatch) :
    take w .stop = ({ w with stopped := w.stopped || w.started },
      if w.started then .done else .fault (.misuse .stopBeforeStart)) := by
  obtain ⟨started, stopped, completed⟩ := w
  cases started <;> cases stopped <;> rfl

theorem take_result (w : Stopwatch) :
    take w .result =
      (w, if w.stopped then .shown w.shown else .fault (.misuse .resultBeforeStop)) := by
  rw [take, result]
  cases w.stopped <;> rfl

namespace Records

variable {w : Stopwatch} {past : List Event}

theorem nil : Records {} [] where
  started := by simp
  stopped := by simp [Stopped]
  completed := rfl
  storable := by simp [completedNames]

theorem start (h : Records w past) : Records w.start (past ++ [.started]) where
  started := by simp [Stopwatch.start]
  stopped := by simp [Stopwatch.start, stopped_append_singleton, h.stopped]
  completed := by
    simpa [Stopwatch.start, completedNames_append_singleton, Event.name?] using h.completed
  storable := by simpa [completedNames_append_singleton, Event.name?] using h.storable

theorem stop (h : Records w past) : Records (Stopwatch.take w .stop).1 (past ++ [.stopped]) where
  started := by simp [take_stop, h.started]
  stopped := by simp [take_stop, stopped_append_singleton, h.started, h.stopped]
  completed := by simpa [take_stop, completedNames_append_singleton, Event.name?] using h.completed
  storable := by simpa [completedNames_append_singleton, Event.name?] using h.storable

/-- A section that is completed once more keeps the place that it has. -/
theorem complete (h : Records w past) {name : Datum} (hname : name.checkKey.isOk = true) :
    Records (w.complete name) (past ++ [.completed name]) := by
  have hnames : completedNames (past ++ [.completed name]) = completedNames past ++ [name] :=
    completedNames_append_singleton past (.completed name)
  have hcompleted : (w.complete name).completed =
      firsts (completedNames (past ++ [.completed name])) := by
    rw [hnames, firsts_append_singleton, ← any_firsts h.storable, ← h.completed,
      Stopwatch.complete]
    cases w.completed.any fun old => old.same name <;> simp
  have hkept : (w.complete name).started = w.started ∧ (w.complete name).stopped = w.stopped := by
    rw [Stopwatch.complete]
    split <;> exact ⟨rfl, rfl⟩
  exact {
    started := by simp [hkept.1, h.started]
    stopped := by simp [hkept.2, stopped_append_singleton, h.stopped]
    completed := hcompleted
    storable := by
      rw [hnames, List.forall_mem_append]
      exact ⟨h.storable, by simpa using hname⟩ }

mutual

/-- Every step keeps the record. The induction is on the tree of steps: the steps inside a section
    come before the event that completes it. -/
theorem take {w : Stopwatch} {past : List Event} (h : Records w past) :
    (step : Step) → Records (Stopwatch.take w step).1 (past ++ step.events)
  | .start => h.start
  | .stop => h.stop
  | .result => by
    rw [take_result, Step.events, List.append_nil]
    exact h
  | .section name inner raised => by
    have hinner := h.takeAll inner
    rw [Stopwatch.take, Step.events, ← List.append_assoc]
    cases hname : name.checkKey.isOk with
    | false => simpa using hinner
    | true => exact hinner.complete hname
  | .call name => by
    rw [Stopwatch.take, Step.events, List.append_nil]
    exact h
  | .refused f => by
    rw [Stopwatch.take, Step.events, List.append_nil]
    exact h

theorem takeAll {w : Stopwatch} {past : List Event} (h : Records w past) :
    (steps : List Step) → Records (Stopwatch.takeAll w steps).1 (past ++ eventsAll steps)
  | [] => by
    rw [eventsAll, List.append_nil]
    exact h
  | step :: rest => by
    rw [eventsAll, ← List.append_assoc]
    exact (h.take step).takeAll rest

end

end Records

/-- A step is taken by a watch that records all events before it. -/
theorem Answers.exists_records {w : Stopwatch} {steps : List Step} {past : List Event} {step : Step}
    {outcome : Outcome} (h : Answers w steps past step outcome) {before : List Event}
    (hw : Records w before) :
    ∃ w', Records w' (before ++ past) ∧ outcome = (take w' step).2 := by
  induction h generalizing before with
  | here hstep houtcome =>
    rw [getElem?_outcomes, hstep] at houtcome
    exact ⟨_, hw.takeAll _, (Option.some.inj houtcome).symm⟩
  | within hsection hinner ih =>
    rw [← List.append_assoc]
    exact ih (hw.takeAll _)

/-- Wherever it stands in a tree of steps, a step answers. A stop fails exactly if the watch was
    never started before, and a result fails exactly if the watch was never stopped after a start. A
    result that does not fail shows the whole time and then, each once, the names of the sections
    completed so far, in order of first completion. A section that ended in a failure is completed,
    and one that is still open is not. -/
theorem sections_are_shown_once {steps : List Step} {past : List Event} {step : Step}
    (h : Stands steps past step) :
    (∃ outcome, Answers {} steps past step outcome) ∧
    ∀ outcome, Answers {} steps past step outcome →
      (step = .stop →
        (outcome = .fault (.misuse .stopBeforeStart) ↔ .started ∉ past) ∧
        (outcome = .done ↔ .started ∈ past)) ∧
      (step = .result →
        (outcome = .fault (.misuse .resultBeforeStop) ↔ ¬ Stopped past) ∧
        (∀ names, outcome = .shown names ↔ Stopped past ∧ names = .text totalName ::
          (firsts (completedNames past)).filter fun name => !name.same (.text totalName)) ∧
        ∀ names, outcome = .shown names → names.Pairwise fun d e => d.same e = false) := by
  refine ⟨h.exists_answers {}, fun outcome houtcome => ?_⟩
  obtain ⟨w, hw, rfl⟩ := houtcome.exists_records Records.nil
  rw [List.nil_append] at hw
  constructor
  · rintro rfl
    rw [← hw.started, take_stop]
    cases w.started <;> simp
  · rintro rfl
    have hpairwise := pairwise_shown hw.completed
    rw [← hw.stopped, take_result, ← hw.completed]
    cases w.stopped with
    | false => simp
    | true =>
      refine ⟨by simp, fun names => ?_, fun names hnames => ?_⟩
      · simp only [if_true, Outcome.shown.injEq, true_and]
        exact eq_comm
      · cases hnames
        exact hpairwise

/-- A section that fails is shown after the one inside it, and the one that asks is not. -/
theorem sections_are_shown_once_nested :
    ∃ past outcome, Answers {}
      [.section (.text "outer") [.section (.text "inner") [.stop] none]
          (some (.misuse .stopBeforeStart)),
        .start, .stop, .section (.text "asking") [.result] none] past .result outcome ∧
      outcome = .shown [.text totalName, .text "inner", .text "outer"] := by
  have hstands : Stands
      [.section (.text "outer") [.section (.text "inner") [.stop] none]
          (some (.misuse .stopBeforeStart)),
        .start, .stop, .section (.text "asking") [.result] none]
      [.stopped, .completed (.text "inner"), .completed (.text "outer"), .started, .stopped]
      .result :=
    .within (i := 3) rfl (.here (i := 0) rfl)
  obtain ⟨⟨outcome, houtcome⟩, hanswers⟩ := sections_are_shown_once hstands
  refine ⟨_, outcome, houtcome, (((hanswers outcome houtcome).2 rfl).2.1 _).mpr ⟨?_, rfl⟩⟩
  exact .cons _ (.cons _ (.cons _ (.refl _)))

end Stopwatch

end LinearSystems
