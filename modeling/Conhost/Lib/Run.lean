import Mathlib.Tactic.Common

/-!
# Runs of a state machine

A machine is given by a partial step function: all choices of its surroundings
are part of the action. A run is restricted by a condition on each of its
steps, that is, on the state before the step and the action taken there.
-/

namespace Conhost

universe u v

/-- The runs of a machine whose steps all meet a condition. -/
inductive Run {σ : Type u} {α : Type v} (step : σ → α → Option σ) (allowed : σ → α → Prop)
    (start : σ) : σ → Prop where
  | refl : Run step allowed start start
  | tail {state next : σ} {action : α} (run : Run step allowed start state)
      (meets : allowed state action) (steps : step state action = some next) :
      Run step allowed start next

namespace Run

variable {σ : Type u} {α : Type v} {step : σ → α → Option σ} {allowed : σ → α → Prop}
  {start state : σ}

/-- What holds at the start and is kept by every step holds throughout. -/
theorem invariant {Holds : σ → Prop} (run : Run step allowed start state) (base : Holds start)
    (keeps : ∀ {state action next}, Holds state → allowed state action →
      step state action = some next → Holds next) : Holds state := by
  induction run with
  | refl => exact base
  | tail _ meets steps hypothesis => exact keeps hypothesis meets steps

/-- The state after a list of actions. -/
def after (step : σ → α → Option σ) : σ → List α → Option σ
  | state, [] => some state
  | state, action :: later => (step state action).bind fun next => after step next later

/-- A machine that stops at an action that fails a test. -/
def tested (step : σ → α → Option σ) (test : σ → α → Bool) (state : σ) (action : α) : Option σ :=
  if test state action then step state action else none

/-- A list of actions that can be taken and pass a test is a run. -/
theorem of_after {test : σ → α → Bool} {actions : List α} {last : σ}
    (run : Run step allowed start state)
    (meets : ∀ {state action}, action ∈ actions → test state action = true → allowed state action)
    (ends : after (tested step test) state actions = some last) : Run step allowed start last := by
  induction actions generalizing state with
  | nil =>
      cases ends
      exact run
  | cons action later hypothesis =>
      obtain ⟨next, steps, rest⟩ := Option.bind_eq_some_iff.mp ends
      simp only [tested, Option.ite_none_right_eq_some] at steps
      refine hypothesis (run.tail (meets (by simp) steps.1) steps.2) ?_ rest
      intro state action member passes
      exact meets (by simp [member]) passes

/-- A run goes on with a list of actions that can be taken if nothing is asked of its steps. -/
theorem extend {actions : List α} {last : σ} (run : Run step (fun _ _ => True) start state)
    (ends : after step state actions = some last) : Run step (fun _ _ => True) start last := by
  induction actions generalizing state with
  | nil =>
      cases ends
      exact run
  | cons action later hypothesis =>
      rcases Option.bind_eq_some_iff.mp ends with ⟨next, steps, rest⟩
      exact hypothesis (run.tail trivial steps) rest

theorem of_after_true {actions : List α} {last : σ}
    (ends : after step start actions = some last) : Run step (fun _ _ => True) start last :=
  Run.refl.extend ends

end Run

end Conhost
