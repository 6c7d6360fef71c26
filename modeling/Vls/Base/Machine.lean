import Mathlib.Data.List.Induction

/-!
# Deterministic machines and their runs

A machine reads one event at a time, changes its state and answers.  A run is recorded as the list
of its steps, each with the states around it, so that a safety property is a statement about every
run and every entry of its record.
-/

namespace ValidatingSigner.Base

/-- A machine with state `σ`, events `ι` and answers `ο`. -/
structure Machine (σ : Type*) (ι : Type*) (ο : Type*) where
  /-- The state after an event, and the answer given to it. -/
  step : σ → ι → σ × ο

/-- One step of a run: the state it started from, its event, its answer and the state reached. -/
structure Entry (σ : Type*) (ι : Type*) (ο : Type*) where
  before : σ
  event : ι
  answer : ο
  after : σ

namespace Machine

variable {σ ι ο : Type*} (M : Machine σ ι ο) {start : σ} {C : Entry σ ι ο → Prop} {events : List ι}
  {x : Entry σ ι ο}

/-- The record of the step that `event` makes from `state`. -/
def entry (state : σ) (event : ι) : Entry σ ι ο where
  before := state
  event := event
  answer := (M.step state event).2
  after := (M.step state event).1

/-- The state reached by a list of events. -/
def final (state : σ) : List ι → σ
  | [] => state
  | event :: events => final (M.step state event).1 events

/-- The record of the run over a list of events, oldest step first. -/
def trace (state : σ) : List ι → List (Entry σ ι ο)
  | [] => []
  | event :: events => M.entry state event :: trace (M.step state event).1 events

@[simp] theorem entry_before (state : σ) (event : ι) : (M.entry state event).before = state := rfl

@[simp] theorem entry_event (state : σ) (event : ι) : (M.entry state event).event = event := rfl

@[simp] theorem entry_answer (state : σ) (event : ι) :
    (M.entry state event).answer = (M.step state event).2 := rfl

@[simp] theorem entry_after (state : σ) (event : ι) :
    (M.entry state event).after = (M.step state event).1 := rfl

@[simp] theorem final_nil (state : σ) : M.final state [] = state := rfl

@[simp] theorem trace_nil (state : σ) : M.trace state [] = [] := rfl

theorem trace_cons (state : σ) (event : ι) (events : List ι) :
    M.trace state (event :: events) =
      M.entry state event :: M.trace (M.step state event).1 events := rfl

theorem final_append (state : σ) (first second : List ι) :
    M.final state (first ++ second) = M.final (M.final state first) second := by
  induction first generalizing state with
  | nil => rfl
  | cons event events ih => exact ih (M.step state event).1

theorem trace_append (state : σ) (first second : List ι) :
    M.trace state (first ++ second) =
      M.trace state first ++ M.trace (M.final state first) second := by
  induction first generalizing state with
  | nil => rfl
  | cons event events ih =>
    exact congrArg (M.entry state event :: ·) (ih (M.step state event).1)

/-- A property of records and states that every step meeting `C` preserves holds of every run
whose steps all meet `C`. -/
theorem run_induction {P : List (Entry σ ι ο) → σ → Prop} (hstart : P [] start)
    (hstep : ∀ log state event, P log state → C (M.entry state event) →
      P (log ++ [M.entry state event]) (M.step state event).1) (events : List ι)
    (hC : ∀ x ∈ M.trace start events, C x) : P (M.trace start events) (M.final start events) := by
  induction events using List.reverseRecOn with
  | nil => exact hstart
  | append_singleton events event ih =>
    rw [trace_append] at hC ⊢
    rw [final_append]
    refine hstep _ _ event (ih fun x hx => hC x (List.mem_append_left _ hx)) ?_
    exact hC _ List.mem_concat_self

/-- A state property that every step meeting `C` preserves holds at the end of every run whose
steps all meet `C`. -/
theorem final_induction {P : σ → Prop} (hstart : P start)
    (hstep : ∀ state event, P state → C (M.entry state event) → P (M.step state event).1)
    (events : List ι) (hC : ∀ x ∈ M.trace start events, C x) : P (M.final start events) :=
  M.run_induction (P := fun _ state => P state) hstart
    (fun _ state event => hstep state event) events hC

/-- Where every step meeting `C` preserves a state property and then meets `Q`, all entries of a run
whose steps meet `C` meet `Q`. -/
theorem trace_induction {C Q : Entry σ ι ο → Prop} {P : σ → Prop} (hstart : P start)
    (hstep : ∀ state event, P state → C (M.entry state event) →
      P (M.step state event).1 ∧ Q (M.entry state event))
    (events : List ι) (hC : ∀ x ∈ M.trace start events, C x) :
    ∀ x ∈ M.trace start events, Q x := by
  induction events generalizing start with
  | nil => exact nofun
  | cons event events ih =>
    rw [trace_cons, List.forall_mem_cons] at hC ⊢
    obtain ⟨hafter, hentry⟩ := hstep start event hstart hC.1
    exact ⟨hentry, ih hafter hC.2⟩

/-- Every entry of a run's record is the step of some event from a state the run reaches. -/
theorem exists_of_mem_trace (h : x ∈ M.trace start events) :
    ∃ first event second, events = first ++ event :: second ∧
      x = M.entry (M.final start first) event := by
  induction events generalizing start with
  | nil => simp at h
  | cons event events ih =>
    rcases List.mem_cons.mp h with rfl | h
    · exact ⟨[], event, events, rfl, rfl⟩
    · obtain ⟨first, e, second, rfl, hx⟩ := ih h
      exact ⟨event :: first, e, second, rfl, hx⟩

theorem event_mem_of_mem_trace (h : x ∈ M.trace start events) : x.event ∈ events := by
  obtain ⟨first, event, second, rfl, rfl⟩ := M.exists_of_mem_trace h
  exact List.mem_append_right _ List.mem_cons_self

/-- A place in a run's record splits the run there. -/
theorem trace_eq_append_cons {first second : List (Entry σ ι ο)}
    (h : M.trace start events = first ++ x :: second) :
    ∃ before event after, events = before ++ event :: after ∧ first = M.trace start before ∧
      x = M.entry (M.final start before) event := by
  induction first generalizing start events with
  | nil =>
    cases events with
    | nil => cases h
    | cons event after => exact ⟨[], event, after, rfl, rfl, (List.cons.inj h).1.symm⟩
  | cons y first ih =>
    cases events with
    | nil => cases h
    | cons event events =>
      obtain ⟨rfl, htail⟩ := List.cons.inj h
      obtain ⟨before, event', after, rfl, rfl, hx⟩ := ih htail
      exact ⟨event :: before, event', after, rfl, rfl, hx⟩

/-- Where each step that is left out keeps two states related, and any other step answers alike from
related states and keeps them so, leaving steps out does not change the answers to the others. -/
theorem answers_filter {p : ι → Bool} {R : σ → σ → Prop}
    (hkept : ∀ s t event, R s t → p event = true →
      (M.step s event).2 = (M.step t event).2 ∧ R (M.step s event).1 (M.step t event).1)
    (hleft : ∀ s t event, R s t → p event = false → R (M.step s event).1 t) {s t : σ} (h : R s t)
    (events : List ι) :
    ((M.trace s events).filter fun x => p x.event).map (·.answer) =
      (M.trace t (events.filter p)).map (·.answer) := by
  induction events generalizing s t with
  | nil => rfl
  | cons event events ih =>
    cases hp : p event with
    | true =>
      obtain ⟨hanswer, hnext⟩ := hkept s t event h hp
      simp [trace_cons, hp, hanswer, ih hnext]
    | false => simp [trace_cons, hp, ih (hleft s t event h hp)]

end Machine

end ValidatingSigner.Base
