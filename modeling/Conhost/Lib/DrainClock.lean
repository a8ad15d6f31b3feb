import Conhost.Lib.IdleTimer

/-!
# Drain clocks

A loop that serves a client may go on after the client has exited, as long as there is something
left to hand over. It gives up at a poll that finds nothing, when it has found nothing for long
enough. The polls before the exit and the ones that find something keep it going, so this is an
idle timer; its moments are counted by a clock of 64 bits that starts again from zero.
-/

namespace Conhost

universe u v w

/-- What a loop remembers of its polls. -/
structure DrainClock where
  exited : Bool := false
  draining : Bool := false
  start : UInt64 := 0

/-- The moment of the first poll that found nothing, if the loop waits for more. -/
def DrainClock.silentSince (clock : DrainClock) : Option UInt64 :=
  if clock.draining then some clock.start else none

/-- What a loop sees at a poll, and how long it waits. -/
structure DrainView (π : Type u) where
  /-- The client is seen to exit. -/
  exits : π → Bool
  /-- Nothing is found. -/
  silent : π → Bool
  tick : π → UInt64
  timeout : UInt64

namespace DrainView

variable {π : Type u} (view : DrainView π)

/-- The client has been seen to exit at one of the polls. -/
def exitSeen (polls : List π) : Bool := polls.any view.exits

/-- A span of time is counted modulo `2 ^ 64`, as the moments are. -/
def expired (start now : UInt64) : Bool := view.timeout ≤ now - start

/-- A poll after earlier ones, as an idle timer sees it. -/
def timed (earlier : List π) (poll : π) : TimedPoll UInt64 where
  busy := !view.exitSeen (earlier ++ [poll]) || !view.silent poll
  now := view.tick poll

/-- What a poll makes of the clock, `none` if the loop gives up. -/
def next (clock : DrainClock) (poll : π) : Option DrainClock :=
  let exited := clock.exited || view.exits poll
  if !view.silent poll then some ⟨exited, false, clock.start⟩
  else if !exited then some ⟨exited, clock.draining, clock.start⟩
  else if !clock.draining then some ⟨exited, true, view.tick poll⟩
  else if view.expired clock.start (view.tick poll) then none
  else some ⟨exited, clock.draining, clock.start⟩

/-- What the clock says after some polls. -/
structure Waits (polls : List π) (clock : DrainClock) : Prop where
  exited : clock.exited = view.exitSeen polls
  sound : clock.draining = true → clock.exited = true
  timer : IdleTimer.run view.expired none (IdleTimer.timeline view.timed polls) =
    some clock.silentSince

variable {view} {polls : List π} {clock after : DrainClock} {poll : π}

theorem expired_iff {start now : UInt64} :
    view.expired start now = true ↔ view.timeout ≤ now - start :=
  decide_eq_true_iff

theorem Waits.start (view : DrainView π) : view.Waits [] {} where
  exited := rfl
  sound := by simp
  timer := rfl

theorem Waits.undraining (waits : view.Waits polls clock) (runs : clock.exited = false) :
    clock.draining = false := by
  rw [← Bool.not_eq_true]
  intro draining
  rw [waits.sound draining] at runs
  cases runs

theorem Waits.exitSeen_append (waits : view.Waits polls clock) (poll : π) :
    view.exitSeen (polls ++ [poll]) = (clock.exited || view.exits poll) := by
  simp [exitSeen, waits.exited]

/-- The clock is an idle timer. -/
theorem Waits.timer_next (waits : view.Waits polls clock) (poll : π) :
    IdleTimer.poll view.expired clock.silentSince (view.timed polls poll) =
      (view.next clock poll).map DrainClock.silentSince := by
  simp only [timed, waits.exitSeen_append, next]
  cases silent : view.silent poll with
  | false => simp [IdleTimer.poll, DrainClock.silentSince]
  | true =>
      cases exited : clock.exited || view.exits poll with
      | false =>
          have runs : clock.exited = false := (Bool.or_eq_false_iff.mp exited).1
          simp [IdleTimer.poll, DrainClock.silentSince, waits.undraining runs]
      | true =>
          cases draining : clock.draining with
          | false => simp [IdleTimer.poll, DrainClock.silentSince, draining]
          | true =>
              cases late : view.expired clock.start (view.tick poll) with
              | true => simp [IdleTimer.poll, DrainClock.silentSince, draining, late]
              | false => simp [IdleTimer.poll, DrainClock.silentSince, draining, late]

/-- A clock that goes on knows of the exit, and drains only after it. -/
theorem next_exited (sound : clock.draining = true → clock.exited = true)
    (goes : view.next clock poll = some after) :
    after.exited = (clock.exited || view.exits poll) ∧
      (after.draining = true → after.exited = true) := by
  simp only [next] at goes
  split at goes
  · cases goes
    simp
  · split at goes
    · cases goes
      refine ⟨rfl, ?_⟩
      intro draining
      simp [sound draining]
    · rename_i exited
      simp only [Bool.not_eq_true', Bool.not_eq_false] at exited
      split at goes
      · cases goes
        exact ⟨rfl, fun _ => exited⟩
      · split at goes
        · cases goes
        · cases goes
          exact ⟨rfl, fun _ => exited⟩

theorem Waits.next (waits : view.Waits polls clock) (goes : view.next clock poll = some after) :
    view.Waits (polls ++ [poll]) after := by
  rcases next_exited waits.sound goes with ⟨exited, sound⟩
  refine ⟨?_, sound, ?_⟩
  · rw [exited, waits.exitSeen_append]
  · apply IdleTimer.run_timeline waits.timer
    rw [waits.timer_next, goes, Option.map_some]

/-- The loop gives up at a poll that finds nothing after the exit, when the time is over for the
first of the polls before it that also found nothing. -/
theorem Waits.next_eq_none_iff (waits : view.Waits polls clock) (poll : π) :
    view.next clock poll = none ↔
      view.exitSeen (polls ++ [poll]) = true ∧ view.silent poll = true ∧
        ∃ start, IdleTimer.IdleSince view.expired (IdleTimer.timeline view.timed polls) start ∧
          view.timeout ≤ view.tick poll - start := by
  have gives := IdleTimer.poll_eq_none_iff waits.timer (view.timed polls poll)
  rw [waits.timer_next, Option.map_eq_none_iff] at gives
  rw [gives]
  simp only [timed, expired_iff, Bool.or_eq_false_iff, Bool.not_eq_false', and_assoc]

/-- A loop whose passes move its clock on. -/
theorem waits_of_goesOn {σ : Type v} {ρ : Type w} {body : σ → π → Pass σ ρ}
    {clock : σ → DrainClock}
    (moves : ∀ {polls state poll next}, view.Waits polls (clock state) →
      body state poll = .next next → view.next (clock state) poll = some (clock next))
    {first state : σ} (begins : clock first = {})
    (goes : IdleTimer.goesOn body first polls = some state) : view.Waits polls (clock state) := by
  induction polls using List.reverseRecOn generalizing state with
  | nil =>
      cases goes
      rw [begins]
      exact .start view
  | append_singleton earlier poll hypothesis =>
      rcases (IdleTimer.goesOn_append_singleton _ _).mp goes with ⟨before, went, passed⟩
      have waits := hypothesis went
      exact waits.next (moves waits passed)

end DrainView

end Conhost
