import Conhost.Lib.Loop
import Mathlib.Data.List.Induction
import Mathlib.Tactic.Common

/-!
# Idle timers

A poller that may stop once nothing has happened for long enough keeps the moment of the first
idle poll, and asks at every later one whether the time is over. A busy poll starts it anew.
-/

namespace Conhost

universe u v w

/-- What an idle timer sees of a poll. -/
structure TimedPoll (τ : Type u) where
  busy : Bool
  now : τ

namespace IdleTimer

variable {τ : Type u} (expired : τ → τ → Bool)

/-- The moment of the first idle poll after this one, `none` inside if the poller is busy. Nothing
comes of a poll at which the time is over. -/
def poll (since : Option τ) (seen : TimedPoll τ) : Option (Option τ) :=
  if seen.busy then some none
  else
    match since with
    | none => some (some seen.now)
    | some start => if expired start seen.now then none else some (some start)

def run (since : Option τ) (polls : List (TimedPoll τ)) : Option (Option τ) :=
  polls.foldlM (poll expired) since

/-- The polls end with idle ones: the first of them was at `start`, and at none of the others the
time was over. -/
def IdleSince (polls : List (TimedPoll τ)) (start : τ) : Prop :=
  ∃ before first quiet, polls = before ++ first :: quiet ∧
    (∀ last ∈ before.getLast?, last.busy = true) ∧ first.busy = false ∧ first.now = start ∧
      ∀ seen ∈ quiet, seen.busy = false ∧ expired start seen.now = false

variable {expired} {polls : List (TimedPoll τ)} {since : Option τ} {start : τ}

theorem poll_busy {seen : TimedPoll τ} (busy : seen.busy = true) :
    poll expired since seen = some none := by
  simp [poll, busy]

theorem poll_first {seen : TimedPoll τ} (idle : seen.busy = false) :
    poll expired none seen = some (some seen.now) := by
  simp [poll, idle]

theorem poll_idle {seen : TimedPoll τ} (idle : seen.busy = false) :
    poll expired (some start) seen =
      if expired start seen.now then none else some (some start) := by
  simp [poll, idle]

theorem run_append (since : Option τ) (polls later : List (TimedPoll τ)) :
    run expired since (polls ++ later) =
      (run expired since polls).bind fun next => run expired next later := by
  simp [run, List.foldlM_append]

theorem run_singleton (since : Option τ) (seen : TimedPoll τ) :
    run expired since [seen] = poll expired since seen := by
  simp [run]

/-- A timer does not run while nothing has been polled, or after a busy poll. -/
theorem run_eq_none_of_busy (busy : ∀ last ∈ polls.getLast?, last.busy = true)
    (survives : run expired none polls = some since) : since = none := by
  induction polls using List.reverseRecOn with
  | nil => simpa [run] using survives.symm
  | append_singleton earlier last _ =>
      have atEnd : last.busy = true := busy last (by simp)
      rw [run_append] at survives
      obtain ⟨next, -, steps⟩ := Option.bind_eq_some_iff.mp survives
      rw [run_singleton, poll_busy atEnd, Option.some.injEq] at steps
      exact steps.symm

/-- A timer that does not run was stopped by the last poll. -/
theorem busy_of_run_eq_none (survives : run expired none polls = some none) :
    ∀ last ∈ polls.getLast?, last.busy = true := by
  intro last member
  obtain ⟨earlier, rfl⟩ := List.getLast?_eq_some_iff.mp member
  rw [run_append] at survives
  obtain ⟨next, -, steps⟩ := Option.bind_eq_some_iff.mp survives
  rw [run_singleton] at steps
  by_contra idle
  rw [Bool.not_eq_true] at idle
  cases next with
  | none =>
      rw [poll_first idle] at steps
      cases steps
  | some start =>
      rw [poll_idle idle] at steps
      split at steps <;> cases steps

/-- Idle polls that are not too late leave the timer as it is. -/
theorem run_quiet {quiet : List (TimedPoll τ)}
    (idle : ∀ seen ∈ quiet, seen.busy = false ∧ expired start seen.now = false) :
    run expired (some start) quiet = some (some start) := by
  induction quiet with
  | nil => rfl
  | cons seen later hypothesis =>
      obtain ⟨quiet, early⟩ := idle seen (by simp)
      have rest := hypothesis fun other member => idle other (by simp [member])
      rw [run, List.foldlM_cons, poll_idle quiet, early]
      exact rest

/-- A timer that runs has run since the first of the idle polls at the end. -/
theorem run_eq_some_iff (survives : run expired none polls = some since) :
    since = some start ↔ IdleSince expired polls start := by
  constructor
  · rintro rfl
    induction polls using List.reverseRecOn with
    | nil => simp [run] at survives
    | append_singleton earlier last hypothesis =>
        rw [run_append] at survives
        obtain ⟨next, before, steps⟩ := Option.bind_eq_some_iff.mp survives
        rw [run_singleton] at steps
        cases busy : last.busy with
        | true =>
            rw [poll_busy busy] at steps
            cases steps
        | false =>
            cases next with
            | none =>
                rw [poll_first busy, Option.some.injEq, Option.some.injEq] at steps
                exact ⟨earlier, last, [], by simp, busy_of_run_eq_none before, busy, steps, by simp⟩
            | some moment =>
                rw [poll_idle busy] at steps
                split at steps
                · cases steps
                · rename_i early
                  cases steps
                  obtain ⟨front, first, quiet, rfl, ends, idle, began, late⟩ := hypothesis before
                  refine ⟨front, first, quiet ++ [last], by simp, ends, idle, began, ?_⟩
                  intro seen member
                  rcases List.mem_append.mp member with old | new
                  · exact late seen old
                  · rw [List.mem_singleton.mp new]
                    exact ⟨busy, by simpa using early⟩
  · rintro ⟨before, first, quiet, rfl, ends, idle, rfl, late⟩
    rw [run_append] at survives
    obtain ⟨next, earlier, rest⟩ := Option.bind_eq_some_iff.mp survives
    have stopped := run_eq_none_of_busy ends earlier
    subst stopped
    rw [run, List.foldlM_cons, poll_first idle] at rest
    change run expired (some first.now) quiet = some since at rest
    rw [run_quiet late] at rest
    exact (Option.some.inj rest).symm

/-- The time is over at an idle poll if it is over for the first of the idle polls before it. -/
theorem poll_eq_none_iff (survives : run expired none polls = some since) (last : TimedPoll τ) :
    poll expired since last = none ↔
      last.busy = false ∧ ∃ start, IdleSince expired polls start ∧
        expired start last.now = true := by
  constructor
  · intro gone
    cases busy : last.busy with
    | true =>
        rw [poll_busy busy] at gone
        cases gone
    | false =>
        cases since with
        | none =>
            rw [poll_first busy] at gone
            cases gone
        | some start =>
            rw [poll_idle busy] at gone
            refine ⟨rfl, start, (run_eq_some_iff survives).mp rfl, ?_⟩
            by_contra early
            rw [if_neg early] at gone
            cases gone
  · rintro ⟨idle, start, since', late⟩
    rw [(run_eq_some_iff survives).mpr since', poll_idle idle, if_pos late]

variable {σ : Type v} {ρ : Type w} {π : Type*}

/-- A loop that goes on after each of its polls. -/
def goesOn (body : σ → π → Pass σ ρ) (state : σ) (polls : List π) : Option σ :=
  polls.foldlM (fun state poll =>
    match body state poll with
    | .next after => some after
    | .leave _ => none) state

theorem goesOn_append_singleton {body : σ → π → Pass σ ρ} {state last : σ} (polls : List π)
    (poll : π) :
    goesOn body state (polls ++ [poll]) = some last ↔
      ∃ before, goesOn body state polls = some before ∧ body before poll = .next last := by
  rw [goesOn, List.foldlM_append, Option.bind_eq_bind, Option.bind_eq_some_iff]
  apply exists_congr
  intro before
  apply and_congr_right
  intro _
  simp only [List.foldlM_cons, List.foldlM_nil]
  cases body before poll <;> simp

/-- The polls as an idle timer sees them, each of them after the earlier ones. -/
def timeline (seen : List π → π → TimedPoll τ) (polls : List π) : List (TimedPoll τ) :=
  polls.mapIdx fun index poll => seen (polls.take index) poll

theorem timeline_append_singleton (seen : List π → π → TimedPoll τ) (polls : List π) (poll : π) :
    timeline seen (polls ++ [poll]) = timeline seen polls ++ [seen polls poll] := by
  simp only [timeline, List.mapIdx_append, List.mapIdx_cons, List.mapIdx_nil, Nat.zero_add,
    List.take_left]
  congr 1
  apply List.mapIdx_eq_mapIdx_iff.mpr
  intro index within
  rw [List.take_append_of_le_length (Nat.le_of_lt within)]

/-- The timer at the end of a timeline. -/
theorem run_timeline {seen : List π → π → TimedPoll τ} {before after : Option τ} {earlier : List π}
    {poll : π} (ran : run expired none (timeline seen earlier) = some before)
    (polled : IdleTimer.poll expired before (seen earlier poll) = some after) :
    run expired none (timeline seen (earlier ++ [poll])) = some after := by
  rw [timeline_append_singleton, run_append, ran, Option.bind_some, run_singleton, polled]

end IdleTimer

end Conhost
