import Mathlib.Data.List.Basic

/-! # Runs of deterministic step functions

A system is a state together with a total step function; actions that are not
enabled are expected to leave the state alone. Conditions on the steps of a run
are evaluated in the state before each step, so the same notion serves as an
assumption on a run and as a property of it.
-/

namespace Machine

universe uState uAction uHistory

variable {State : Type uState} {Action : Type uAction} {History : Type uHistory}

/-- The state after executing a list of actions. -/
def run (step : State → Action → State) (state : State) (actions : List Action) : State :=
  actions.foldl step state

/-- Every step of the run satisfies a condition on its pre-state and action. -/
def Along (step : State → Action → State) (condition : State → Action → Prop) :
    State → List Action → Prop
  | _, [] => True
  | state, action :: rest =>
      condition state action ∧ Along step condition (step state action) rest

/-- Every state visited by the run, the first and the last included, has the property. -/
def Throughout (step : State → Action → State) (property : State → Prop) :
    State → List Action → Prop
  | state, [] => property state
  | state, action :: rest =>
      property state ∧ Throughout step property (step state action) rest

variable {step : State → Action → State}

@[simp] theorem run_nil (state : State) : run step state [] = state := rfl

@[simp] theorem run_cons (state : State) (action : Action) (rest : List Action) :
    run step state (action :: rest) = run step (step state action) rest := rfl

theorem run_append (state : State) (first second : List Action) :
    run step state (first ++ second) = run step (run step state first) second :=
  List.foldl_append

theorem along_append {condition : State → Action → Prop} {state : State}
    {first second : List Action} :
    Along step condition state (first ++ second) ↔
      Along step condition state first ∧
        Along step condition (run step state first) second := by
  induction first generalizing state with
  | nil => simp [Along]
  | cons action rest ih =>
      rw [List.cons_append, run_cons, Along, Along, ih, and_assoc]

instance decidableAlong (condition : State → Action → Prop)
    [∀ state action, Decidable (condition state action)] :
    ∀ state actions, Decidable (Along step condition state actions)
  | _, [] => inferInstanceAs (Decidable True)
  | state, action :: rest =>
      haveI := decidableAlong condition (step state action) rest
      inferInstanceAs (Decidable (condition state action ∧ _))

theorem along_of_forall_mem {condition : Action → Prop} {state : State} {actions : List Action}
    (hall : ∀ action ∈ actions, condition action) :
    Along step (fun _ action => condition action) state actions := by
  induction actions generalizing state with
  | nil => trivial
  | cons action rest ih =>
      exact ⟨hall action (by simp), ih fun other hother => hall other (by simp [hother])⟩

theorem Along.imp {first second : State → Action → Prop}
    (himp : ∀ state action, first state action → second state action) {state : State}
    {actions : List Action} (hrun : Along step first state actions) :
    Along step second state actions := by
  induction actions generalizing state with
  | nil => trivial
  | cons action rest ih => exact ⟨himp state action hrun.1, ih hrun.2⟩

theorem along_and {first second : State → Action → Prop} {state : State}
    {actions : List Action} :
    Along step (fun current action => first current action ∧ second current action)
        state actions ↔
      Along step first state actions ∧ Along step second state actions := by
  induction actions generalizing state with
  | nil => simp [Along]
  | cons action rest ih =>
      simp only [Along, ih]
      tauto

theorem throughout_iff_along {property : State → Prop} {state : State}
    {actions : List Action} :
    Throughout step property state actions ↔
      property state ∧
        Along step (fun current action => property (step current action)) state actions := by
  induction actions generalizing state with
  | nil => simp [Throughout, Along]
  | cons action rest ih => simp only [Throughout, Along, ih]

theorem Throughout.last {property : State → Prop} {state : State} {actions : List Action}
    (hall : Throughout step property state actions) : property (run step state actions) := by
  induction actions generalizing state with
  | nil => exact hall
  | cons action rest ih => exact ih hall.2

theorem Throughout.append {property : State → Prop} {state : State} {first second : List Action}
    (hfirst : Throughout step property state first)
    (hsecond : Throughout step property (run step state first) second) :
    Throughout step property state (first ++ second) := by
  induction first generalizing state with
  | nil => exact hsecond
  | cons action rest ih => exact ⟨hfirst.1, ih hfirst.2 hsecond⟩

theorem Throughout.of_append {property : State → Prop} {state : State}
    {first second : List Action} (hall : Throughout step property state (first ++ second)) :
    property (run step state first) := by
  induction first generalizing state with
  | nil => cases second with
    | nil => exact hall
    | cons action rest => exact hall.1
  | cons action rest ih => exact ih hall.2

theorem Throughout.along {property : State → Prop} {state : State} {actions : List Action}
    (hall : Throughout step property state actions) :
    Along step (fun current _ => property current) state actions := by
  induction actions generalizing state with
  | nil => trivial
  | cons action rest ih => exact ⟨hall.1, ih hall.2⟩

/-- A run that ends in a state with the property gets to a first one. -/
theorem exists_first {property : State → Prop} {state : State} {actions : List Action}
    (hlast : property (run step state actions)) :
    ∃ first rest, actions = first ++ rest ∧
      Along step (fun current _ => ¬property current) state first ∧
        property (run step state first) := by
  induction actions generalizing state with
  | nil => exact ⟨[], [], rfl, trivial, hlast⟩
  | cons action rest ih =>
      by_cases hnow : property state
      · exact ⟨[], action :: rest, rfl, trivial, hnow⟩
      · obtain ⟨first, remaining, rfl, hbefore, hfirst⟩ := ih hlast
        exact ⟨action :: first, remaining, rfl, ⟨hnow, hbefore⟩, hfirst⟩

/-- Invariant rule: what holds initially and is kept by every step that meets
the condition holds in every state of a run that meets it. -/
theorem throughout_of_invariant {condition : State → Action → Prop} (invariant : State → Prop)
    (hstep : ∀ state action, invariant state → condition state action →
      invariant (step state action))
    {state : State} {actions : List Action} (hinit : invariant state)
    (hrun : Along step condition state actions) :
    Throughout step invariant state actions := by
  induction actions generalizing state with
  | nil => exact hinit
  | cons action rest ih => exact ⟨hinit, ih (hstep state action hinit hrun.1) hrun.2⟩

theorem throughout_of_step (invariant : State → Prop)
    (hstep : ∀ state action, invariant state → invariant (step state action))
    {state : State} (hinit : invariant state) (actions : List Action) :
    Throughout step invariant state actions := by
  induction actions generalizing state with
  | nil => exact hinit
  | cons action rest ih => exact ⟨hinit, ih (hstep state action hinit)⟩

theorem Throughout.imp {first second : State → Prop} (himp : ∀ state, first state → second state)
    {state : State} {actions : List Action} (hall : Throughout step first state actions) :
    Throughout step second state actions := by
  induction actions generalizing state with
  | nil => exact himp state hall
  | cons action rest ih => exact ⟨himp state hall.1, ih hall.2⟩

/-- Two step conditions that agree in every state of an invariant kept by one
of them pick out the same runs. -/
theorem along_congr_of_invariant {first second : State → Action → Prop}
    (invariant : State → Prop)
    (hagree : ∀ state action, invariant state → (first state action ↔ second state action))
    (hstep : ∀ state action, invariant state → second state action →
      invariant (step state action))
    {state : State} {actions : List Action} (hinit : invariant state) :
    Along step first state actions ↔ Along step second state actions := by
  induction actions generalizing state with
  | nil => exact Iff.rfl
  | cons action rest ih =>
      simp only [Along]
      rw [hagree state action hinit]
      constructor
      · rintro ⟨hhead, htail⟩
        exact ⟨hhead, (ih (hstep state action hinit hhead)).mp htail⟩
      · rintro ⟨hhead, htail⟩
        exact ⟨hhead, (ih (hstep state action hinit hhead)).mpr htail⟩

/-- If every step both keeps the property and reflects it, given its condition,
then the last state has it exactly if the first one does and every step meets the
condition. -/
theorem run_iff_along {condition : State → Action → Prop} {property : State → Prop}
    (invariant : State → Prop)
    (hinv : ∀ state action, invariant state → invariant (step state action))
    (hstep : ∀ state action, invariant state →
      (property (step state action) ↔ property state ∧ condition state action))
    {state : State} {actions : List Action} (hinit : invariant state) :
    property (run step state actions) ↔
      property state ∧ Along step condition state actions := by
  induction actions generalizing state with
  | nil => simp [Along]
  | cons action rest ih =>
      rw [run_cons, ih (hinv state action hinit), hstep state action hinit, and_assoc]
      rfl

/-- A state with a history variable that the step function never reads. -/
structure Tracked (State : Type uState) (History : Type uHistory) where
  state : State
  history : History

/-- Record what an observer of the state and the action notes at each step. -/
def trackedStep (step : State → Action → State)
    (observe : State → Action → History → History) (current : Tracked State History)
    (action : Action) : Tracked State History where
  state := step current.state action
  history := observe current.state action current.history

theorem run_trackedStep_state (observe : State → Action → History → History)
    (current : Tracked State History) (actions : List Action) :
    (run (trackedStep step observe) current actions).state = run step current.state actions := by
  induction actions generalizing current with
  | nil => rfl
  | cons action rest ih => exact ih (trackedStep step observe current action)

theorem throughout_trackedStep {observe : State → Action → History → History}
    {property : State → Prop} {current : Tracked State History} {actions : List Action} :
    Throughout (trackedStep step observe) (fun tracked => property tracked.state) current actions ↔
      Throughout step property current.state actions := by
  induction actions generalizing current with
  | nil => exact Iff.rfl
  | cons action rest ih => exact and_congr_right' ih

theorem along_trackedStep {observe : State → Action → History → History}
    {condition : State → Action → Prop} {current : Tracked State History}
    {actions : List Action} :
    Along (trackedStep step observe) (fun tracked => condition tracked.state) current actions ↔
      Along step condition current.state actions := by
  induction actions generalizing current with
  | nil => exact Iff.rfl
  | cons action rest ih => exact and_congr_right' ih

end Machine
