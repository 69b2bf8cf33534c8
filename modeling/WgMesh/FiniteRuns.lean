import Mathlib.Data.List.Basic

namespace WgMesh.FiniteRuns

/-!
# Finite runs of deterministic machines

A machine consumes one input at a time, answers with one output, and moves to
its next state.  Everything nondeterministic (clock readings, random draws,
injected faults) is part of the input, so a run is determined by its initial
state and its list of inputs.

This module keeps the run vocabulary and the induction rules that later
modules use: invariants of single states, invariants under a condition on the
executed steps, and invariants that relate a state to its whole past.
-/

/-- One deterministic transition function with an observable output. -/
structure Machine (State Input Output : Type) where
  step : State → Input → Output × State

/-- One executed step together with the states around it. -/
structure Visit (State Input Output : Type) where
  before : State
  input : Input
  output : Output
  after : State

namespace Machine

variable {State Input Output : Type}

/-- The step a machine executes from a state on an input. -/
def visit
    (machine : Machine State Input Output)
    (state : State)
    (input : Input) :
    Visit State Input Output where
  before := state
  input := input
  output := (machine.step state input).1
  after := (machine.step state input).2

@[simp] theorem visit_before
    (machine : Machine State Input Output)
    (state : State)
    (input : Input) :
    (machine.visit state input).before = state :=
  rfl

@[simp] theorem visit_input
    (machine : Machine State Input Output)
    (state : State)
    (input : Input) :
    (machine.visit state input).input = input :=
  rfl

/-- The state reached after a list of inputs. -/
def run
    (machine : Machine State Input Output) :
    State → List Input → State
  | state, [] => state
  | state, input :: rest =>
      machine.run (machine.step state input).2 rest

/-- Every executed step of a run, in execution order. -/
def visits
    (machine : Machine State Input Output) :
    State → List Input → List (Visit State Input Output)
  | _, [] => []
  | state, input :: rest =>
      machine.visit state input ::
        machine.visits (machine.step state input).2 rest

/-- Running a concatenation continues from the intermediate state. -/
theorem run_append
    (machine : Machine State Input Output)
    (state : State)
    (first second : List Input) :
    machine.run state (first ++ second) =
      machine.run (machine.run state first) second := by
  induction first generalizing state with
  | nil =>
      rfl
  | cons input rest inductionHypothesis =>
      exact inductionHypothesis (machine.step state input).2

/-- The visits of a concatenation are the visits of its two parts. -/
theorem visits_append
    (machine : Machine State Input Output)
    (state : State)
    (first second : List Input) :
    machine.visits state (first ++ second) =
      machine.visits state first ++
        machine.visits (machine.run state first) second := by
  induction first generalizing state with
  | nil =>
      rfl
  | cons input rest inductionHypothesis =>
      simp only [List.cons_append, visits, run,
        inductionHypothesis]

/-- The visits of a run take its inputs in order. -/
theorem map_input_visits
    (machine : Machine State Input Output)
    (state : State)
    (inputs : List Input) :
    (machine.visits state inputs).map (·.input) = inputs := by
  induction inputs generalizing state with
  | nil =>
      rfl
  | cons input rest inductionHypothesis =>
      simp only [visits, List.map_cons, visit_input, inductionHypothesis]

/-- A visit is the machine's own step at a state its run has reached. -/
theorem exists_prefix_of_mem_visits
    (machine : Machine State Input Output)
    {state : State}
    {inputs : List Input}
    {visit : Visit State Input Output}
    (member : visit ∈ machine.visits state inputs) :
    ∃ earlier later,
      inputs = earlier ++ visit.input :: later ∧
        visit =
          machine.visit (machine.run state earlier) visit.input := by
  induction inputs generalizing state with
  | nil =>
      simp [visits] at member
  | cons input rest inductionHypothesis =>
      rcases List.mem_cons.mp member with isFirst | inRest
      · subst visit
        exact ⟨[], rest, rfl, rfl⟩
      · obtain ⟨earlier, later, shape, same⟩ :=
          inductionHypothesis inRest
        refine ⟨input :: earlier, later, ?_, same⟩
        exact congrArg (List.cons input) shape

/-- A place in the visits of a run is a place in its inputs. -/
theorem visits_eq_append_cons
    (machine : Machine State Input Output)
    {state : State}
    {inputs : List Input}
    {earlier later : List (Visit State Input Output)}
    {visit : Visit State Input Output}
    (place : machine.visits state inputs = earlier ++ visit :: later) :
    ∃ before after,
      inputs = before ++ visit.input :: after ∧
        visit = machine.visit (machine.run state before) visit.input ∧
        later = machine.visits visit.after after := by
  induction earlier generalizing state inputs with
  | nil =>
      cases inputs with
      | nil => cases place
      | cons input rest =>
          obtain ⟨isFirst, isRest⟩ := List.cons.inj place
          subst isFirst
          exact ⟨[], rest, rfl, rfl, isRest.symm⟩
  | cons first others inductionHypothesis =>
      cases inputs with
      | nil => cases place
      | cons input rest =>
          obtain ⟨-, isRest⟩ := List.cons.inj place
          obtain ⟨before, after, shape, same, laterShape⟩ :=
            inductionHypothesis isRest
          exact ⟨input :: before, after, congrArg (List.cons input) shape,
            same, laterShape⟩

/-- An invariant kept by every step holds after every run. -/
theorem run_invariant
    (machine : Machine State Input Output)
    {invariant : State → Prop}
    (kept :
      ∀ state input,
        invariant state →
        invariant (machine.step state input).2)
    {state : State}
    (holds : invariant state)
    (inputs : List Input) :
    invariant (machine.run state inputs) := by
  induction inputs generalizing state with
  | nil =>
      exact holds
  | cons input rest inductionHypothesis =>
      exact inductionHypothesis (kept state input holds)

/-- An invariant kept by the inputs of a run holds after it. -/
theorem run_invariant_on
    (machine : Machine State Input Output)
    {invariant : State → Prop}
    {allowed : Input → Prop}
    (kept :
      ∀ state input,
        invariant state →
        allowed input →
        invariant (machine.step state input).2)
    {state : State}
    (holds : invariant state)
    {inputs : List Input}
    (conforms : ∀ input ∈ inputs, allowed input) :
    invariant (machine.run state inputs) := by
  induction inputs generalizing state with
  | nil =>
      exact holds
  | cons input rest inductionHypothesis =>
      refine inductionHypothesis ?_
        (fun other member => conforms other (List.mem_cons_of_mem _ member))
      exact kept state input holds (conforms input List.mem_cons_self)

/--
An invariant kept by every step that meets a condition holds before and after
each visit of a run whose steps all meet it.
-/
theorem visits_invariant
    (machine : Machine State Input Output)
    {invariant : State → Prop}
    {allowed : State → Input → Prop}
    (kept :
      ∀ state input,
        invariant state →
        allowed state input →
        invariant (machine.step state input).2)
    {state : State}
    (holds : invariant state)
    {inputs : List Input}
    (conforms :
      ∀ visit,
        visit ∈ machine.visits state inputs →
        allowed visit.before visit.input) :
    invariant (machine.run state inputs) ∧
      ∀ visit,
        visit ∈ machine.visits state inputs →
        invariant visit.before := by
  induction inputs generalizing state with
  | nil =>
      exact ⟨holds, by simp [visits]⟩
  | cons input rest inductionHypothesis =>
      have firstAllowed : allowed state input :=
        conforms (machine.visit state input) (by simp [visits])
      have tail :=
        inductionHypothesis
          (kept state input holds firstAllowed)
          (fun visit member =>
            conforms visit (by simp [visits, member]))
      refine ⟨tail.1, ?_⟩
      intro visit member
      rcases List.mem_cons.mp member with isFirst | inRest
      · subst visit
        exact holds
      · exact tail.2 visit inRest

/--
An invariant relating a state to its past is established step by step: each
step extends the past by exactly the visit it executes.
-/
theorem history_invariant
    (machine : Machine State Input Output)
    {invariant : List (Visit State Input Output) → State → Prop}
    {state : State}
    (start : invariant [] state)
    (kept :
      ∀ past current input,
        invariant past current →
        invariant
          (past ++ [machine.visit current input])
          (machine.step current input).2)
    (inputs : List Input) :
    invariant
      (machine.visits state inputs)
      (machine.run state inputs) := by
  have general :
      ∀ (inputs : List Input) past current,
        invariant past current →
        invariant
          (past ++ machine.visits current inputs)
          (machine.run current inputs) := by
    intro inputs
    induction inputs with
    | nil =>
        intro past current holds
        simpa [visits, run] using holds
    | cons input rest inductionHypothesis =>
        intro past current holds
        have extended :=
          inductionHypothesis
            (past ++ [machine.visit current input])
            (machine.step current input).2
            (kept past current input holds)
        simpa [visits, run, List.append_assoc] using extended
  simpa using general inputs [] state start

/--
The past has a step that meets a condition, which may speak of what came before
it, and every later step meets another.
-/
def Since
    (begun :
      List (Visit State Input Output) → Visit State Input Output → Prop)
    (kept : Visit State Input Output → Prop)
    (past : List (Visit State Input Output)) : Prop :=
  ∃ earlier visit later, past = earlier ++ visit :: later ∧
    begun earlier visit ∧ ∀ other ∈ later, kept other

section Since

variable
  {begun : List (Visit State Input Output) → Visit State Input Output → Prop}
  {kept : Visit State Input Output → Prop}
  {past : List (Visit State Input Output)} {visit : Visit State Input Output}

/-- A step may begin what a past has since. -/
theorem Since.last (begins : begun past visit) :
    Since begun kept (past ++ [visit]) :=
  ⟨past, visit, [], rfl, begins, nofun⟩

/-- What has begun goes on with a step that keeps it. -/
theorem Since.append (since : Since begun kept past) (keeps : kept visit) :
    Since begun kept (past ++ [visit]) := by
  obtain ⟨earlier, first, later, rfl, begins, keptSince⟩ := since
  refine ⟨earlier, first, later ++ [visit], by simp, begins, ?_⟩
  intro other member
  rcases List.mem_append.mp member with old | new
  · exact keptSince other old
  · rw [List.mem_singleton.mp new]
    exact keeps

end Since

/-- The inputs of a run that are not insertions. -/
def genuine (inputs : List (Input × Bool)) : List Input :=
  (inputs.filter (·.2)).map (·.1)

/-- The visits of the genuine inputs in a run with insertions. -/
def genuineVisits
    (machine : Machine State Input Output) :
    State → List (Input × Bool) → List (Visit State Input Output)
  | _, [] => []
  | state, (input, isGenuine) :: rest =>
      if isGenuine then
        machine.visit state input ::
          machine.genuineVisits (machine.step state input).2 rest
      else
        machine.genuineVisits (machine.step state input).2 rest

/-- Every insertion of a run meets a condition at its moment. -/
def InsertsOnly
    (machine : Machine State Input Output)
    (allowed : State → Input → Prop) :
    State → List (Input × Bool) → Prop
  | _, [] => True
  | state, (input, isGenuine) :: rest =>
      (isGenuine = false → allowed state input) ∧
        machine.InsertsOnly allowed (machine.step state input).2 rest

/--
Insertions that do nothing at their moment are invisible: the genuine inputs
meet the states and get the outputs of the run without insertions, and what is
observed of the outputs is the same.
-/
theorem genuineVisits_of_silent
    (machine : Machine State Input Output)
    {Observation : Type}
    {allowed : State → Input → Prop}
    {observe : Output → Option Observation}
    (silent :
      ∀ state input,
        allowed state input →
        (machine.step state input).2 = state ∧
          observe (machine.step state input).1 = none)
    {state : State}
    {inputs : List (Input × Bool)}
    (inserts : machine.InsertsOnly allowed state inputs) :
    machine.genuineVisits state inputs =
        machine.visits state (genuine inputs) ∧
      (machine.visits state (inputs.map (·.1))).filterMap
          (fun visit => observe visit.output) =
        (machine.visits state (genuine inputs)).filterMap
          (fun visit => observe visit.output) := by
  induction inputs generalizing state with
  | nil =>
      exact ⟨rfl, rfl⟩
  | cons head rest inductionHypothesis =>
      obtain ⟨input, isGenuine⟩ := head
      obtain ⟨inserted, later⟩ := inserts
      obtain ⟨sameVisits, sameObserved⟩ := inductionHypothesis later
      cases isGenuine with
      | true =>
          refine ⟨congrArg (List.cons _) sameVisits, ?_⟩
          change List.filterMap _ (machine.visit state input :: _) =
            List.filterMap _ (machine.visit state input :: _)
          rw [List.filterMap_cons, List.filterMap_cons, sameObserved]
          rfl
      | false =>
          obtain ⟨sameState, unobserved⟩ := silent state input (inserted rfl)
          rw [sameState] at sameVisits sameObserved
          constructor
          · change
              machine.genuineVisits (machine.step state input).2 rest = _
            rw [sameState]
            exact sameVisits
          · change List.filterMap _ (machine.visit state input ::
              machine.visits (machine.step state input).2 _) = _
            rw [List.filterMap_cons, sameState]
            change (match observe (machine.step state input).1 with
              | none => _
              | some seen => seen :: _) = _
            rw [unobserved]
            exact sameObserved

end Machine

end WgMesh.FiniteRuns
