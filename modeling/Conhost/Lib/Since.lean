import Mathlib.Data.List.Basic
import Mathlib.Tactic.Common

/-!
# Since

A run of a machine is a start and a list of events. `Since` is the past operator
of temporal logic on it: a step of some kind was taken, and ever since then every
state has a property. The induction over the run is done once, in `since_of_step`.
-/

namespace Conhost

universe u v

namespace History

variable {State : Type u} {Event : Type v} (step : State → Event → State) (start : State)

/-- The state after the first `count` events. -/
def after (events : List Event) (count : Nat) : State := (events.take count).foldl step start

/-- A step of the given kind was taken before the moment `now`, and every state from then
until now has the property. -/
def Since (property : State → Prop) (kind : State → Event → Prop) (events : List Event)
    (now : Nat) : Prop :=
  ∃ count, ∃ event ∈ events[count]?, count < now ∧
    kind (after step start events count) event ∧
      ∀ moment, count < moment → moment ≤ now → property (after step start events moment)

variable {step start} {property : State → Prop} {kind : State → Event → Prop}
  {events : List Event} {now : Nat} {event : Event}

@[simp]
theorem after_zero : after step start events 0 = start := by
  simp [after]

theorem after_succ (next : events[now]? = some event) :
    after step start events (now + 1) = step (after step start events now) event := by
  rw [after, List.take_add_one, next, List.foldl_append]
  rfl

theorem Since.of_kind (next : events[now]? = some event)
    (taken : kind (after step start events now) event)
    (holds : property (after step start events (now + 1))) :
    Since step start property kind events (now + 1) := by
  refine ⟨now, event, next, Nat.lt_succ_self now, taken, ?_⟩
  intro moment later early
  have same : moment = now + 1 := by omega
  rw [same]
  exact holds

theorem Since.of_since (since : Since step start property kind events now)
    (holds : property (after step start events (now + 1))) :
    Since step start property kind events (now + 1) := by
  rcases since with ⟨count, event, member, before, taken, throughout⟩
  refine ⟨count, event, member, Nat.lt_succ_of_lt before, taken, ?_⟩
  intro moment later early
  by_cases last : moment = now + 1
  · rw [last]
    exact holds
  · exact throughout moment later (by omega)

/-- What holds at the start and is kept by every step holds at every moment. -/
theorem invariant {Holds : State → Prop} (base : Holds start)
    (keeps : ∀ {count event}, events[count]? = some event →
      Holds (after step start events count) → Holds (step (after step start events count) event))
    (count : Nat) (within : count ≤ events.length) : Holds (after step start events count) := by
  induction count with
  | zero => simpa using base
  | succ count hypothesis =>
      have next : events[count]? = some events[count] := List.getElem?_eq_getElem within
      rw [after_succ next]
      exact keeps next (hypothesis (Nat.le_of_succ_le within))

/-- A property that does not hold at the start, and that only a step of one kind brings about,
holds since such a step. -/
theorem since_of_step (base : ¬ property start)
    (brought : ∀ {count event}, events[count]? = some event →
      property (step (after step start events count) event) →
        kind (after step start events count) event ∨ property (after step start events count))
    (count : Nat) (within : count ≤ events.length)
    (holds : property (after step start events count)) :
    Since step start property kind events count := by
  induction count with
  | zero => exact absurd (by simpa using holds) base
  | succ count hypothesis =>
      have next : events[count]? = some events[count] := List.getElem?_eq_getElem within
      have stepped := holds
      rw [after_succ next] at stepped
      rcases brought next stepped with taken | before
      · exact .of_kind next taken holds
      · exact .of_since (hypothesis (Nat.le_of_succ_le within) before) holds

end History

end Conhost
