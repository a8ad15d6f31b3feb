import Conhost.Lib.DrainClock
import Conhost.Runtime.TerminalScreen

/-!
# When a terminal gives up its pipe

A client that has exited may leave children that still write to its terminal, so the output thread
goes on reading. It gives up after a poll that finds nothing, two seconds after the first of the
polls that found nothing: this is an idle timer, and the polls that keep it busy are the ones with
output and the ones before the client was seen to exit.
-/

namespace Conhost

namespace TerminalThread

variable {platform : Platform} {host : TerminalHost} {thread next : TerminalThread}
  {poll : TerminalPoll} {polls : List TerminalPoll}

/-- A poll as the drain clock sees it. -/
def view (host : TerminalHost) : DrainView TerminalPoll where
  exits poll := host.hasClient && poll.client == .signaled
  silent poll := poll.output host == .ok []
  tick := TerminalPoll.tick
  timeout := drainTimeoutMs

/-- The wait of a pass notes the exit of the client. -/
theorem noteExit_clock (noted : thread.noteExit host poll.client = .ok next) :
    next.clock = ⟨thread.clientExited || (view host).exits poll, thread.drainingAfterExit,
      thread.drainStartTick⟩ := by
  simp only [noteExit] at noted
  split at noted
  · rename_i waits
    simp only [Bool.and_eq_true] at waits
    cases client : poll.client with
    | signaled =>
        rw [client] at noted
        cases noted
        simp [clock, view, client, waits.1]
    | timeout =>
        rw [client] at noted
        cases noted
        simp [clock, view, client]
    | failed error =>
        rw [client] at noted
        cases noted
  · rename_i waits
    cases noted
    cases present : host.hasClient with
    | false => simp [clock, view, present]
    | true =>
        simp only [present, Bool.true_and, Bool.not_eq_true, Bool.or_eq_false_iff,
          Bool.not_eq_false'] at waits
        simp [clock, waits.2]

/-- The end of a pass moves the clock on, or gives up the pipe. -/
theorem drain_next {before : DrainClock} (same : thread.clock =
      ⟨before.exited || (view host).exits poll, before.draining, before.start⟩) :
    match (view host).next before poll with
    | none => ∃ last, thread.drain (!(view host).silent poll) poll.tick = .leave (last, .drained)
    | some clock => ∃ after, thread.drain (!(view host).silent poll) poll.tick = .next after ∧
        after.clock = clock := by
  simp only [clock, DrainClock.mk.injEq] at same
  rcases same with ⟨exited, draining, start⟩
  have late : (view host).expired thread.drainStartTick ((view host).tick poll) =
      decide (drainTimeoutMs ≤ poll.tick - thread.drainStartTick) := rfl
  simp only [DrainView.next, ← exited, ← draining, ← start, late]
  cases (view host).silent poll with
  | false => exact ⟨{ thread with drainingAfterExit := false }, by simp [drain], rfl⟩
  | true =>
      cases gone : thread.clientExited with
      | false => exact ⟨thread, by simp [drain, gone], by simp [clock, gone]⟩
      | true =>
          cases waits : thread.drainingAfterExit with
          | false =>
              exact ⟨{ thread with drainingAfterExit := true, drainStartTick := poll.tick },
                by simp [drain, gone, waits], by simp [clock, gone, view]⟩
          | true =>
              by_cases gaveUp : drainTimeoutMs ≤ poll.tick - thread.drainStartTick
              · simp [drain, gone, waits, gaveUp]
              · simp [drain, gone, waits, gaveUp, clock]

/-- A pass whose calls succeed moves the clock on, or gives up the pipe. -/
theorem pass_next (platform : Platform) {bytes : List Byte} (goes : poll.stop = .timeout)
    (noted : ∃ next, thread.noteExit host poll.client = .ok next)
    (output : poll.output host = .ok bytes) (memory : bytes = [] ∨ poll.allocates = true) :
    match (view host).next thread.clock poll with
    | none => ∃ last, thread.pass platform host poll = .leave (last, .drained)
    | some clock => ∃ after, thread.pass platform host poll = .next after ∧
        after.clock = clock := by
  rcases noted with ⟨noted, wait⟩
  have same : (noted.receive platform bytes).clock = _ :=
    (receive_clock noted bytes).trans (noteExit_clock wait)
  have silent : (!bytes.isEmpty) = !(view host).silent poll := by
    simp only [view, output]
    cases bytes <;> rfl
  have kept : (!bytes.isEmpty && !poll.allocates) = false := by
    rcases memory with rfl | memory
    · rfl
    · rw [memory, Bool.not_true, Bool.and_false]
  have passed : thread.pass platform host poll =
      (noted.receive platform bytes).drain (!(view host).silent poll) poll.tick := by
    simp only [pass, goes, wait, output, kept, ← silent, Bool.false_eq_true, if_false]
  rw [passed]
  exact drain_next same

/-- A pass that goes on, or that gives up the pipe, has made all its calls. -/
theorem calls_of_pass {last : TerminalThread}
    (passed : thread.pass platform host poll = .next last ∨
      thread.pass platform host poll = .leave (last, .drained)) :
    poll.stop = .timeout ∧ (∃ next, thread.noteExit host poll.client = .ok next) ∧
      ∃ bytes, poll.output host = .ok bytes ∧ (bytes = [] ∨ poll.allocates = true) := by
  simp only [pass] at passed
  cases stop : poll.stop with
  | signaled => simp [stop] at passed
  | failed error => simp [stop, (fail_ne_left poll _).1] at passed
  | timeout =>
      cases noted : thread.noteExit host poll.client with
      | error error => simp [stop, noted, (fail_ne_left poll _).1] at passed
      | ok next =>
          cases output : poll.output host with
          | ok bytes =>
              refine ⟨rfl, ⟨next, rfl⟩, bytes, rfl, ?_⟩
              by_contra neither
              rcases not_or.mp neither with ⟨some, memory⟩
              simp [stop, noted, output, some, memory] at passed
          | error ending =>
              simp only [stop, noted, output, reduceCtorEq, Pass.leave.injEq, Prod.mk.injEq,
                false_or] at passed
              exact absurd passed.2 (output_ne_drained output)

theorem initial_clock (size : Coord) (hasWindow : Bool) : (initial size hasWindow).clock = {} :=
  publish_clock { screen := .create (settings size) } hasWindow

theorem waits_of_goesOn {size : Coord} {hasWindow : Bool}
    (goes : IdleTimer.goesOn (fun thread => thread.pass platform host) (initial size hasWindow)
      polls = some thread) :
    (view host).Waits polls thread.clock := by
  refine DrainView.waits_of_goesOn ?_ (initial_clock size hasWindow) goes
  intro polls state poll next waits passed
  rcases calls_of_pass (.inl passed) with ⟨goes, noted, bytes, output, memory⟩
  have moves := pass_next platform goes noted output memory
  split at moves
  · rcases moves with ⟨last, left⟩
    rw [left] at passed
    cases passed
  · rename_i clock moved
    rcases moves with ⟨after, went, same⟩
    rw [went] at passed
    cases passed
    rw [moved, same]

/-- The thread gives up its pipe exactly at a poll that finds nothing after the client was seen to
exit, two seconds after the first of the polls before it that also found nothing. -/
theorem drained_iff (platform : Platform) (host : TerminalHost) {size : Coord} {hasWindow : Bool}
    {polls : List TerminalPoll} {thread : TerminalThread}
    (goes : IdleTimer.goesOn (fun thread => thread.pass platform host) (initial size hasWindow)
      polls = some thread)
    (poll : TerminalPoll) :
    (∃ last, thread.pass platform host poll = .leave (last, .drained)) ↔
      poll.stop = .timeout ∧ (∃ next, thread.noteExit host poll.client = .ok next) ∧
        poll.output host = .ok [] ∧ (view host).exitSeen (polls ++ [poll]) = true ∧
        ∃ start, IdleTimer.IdleSince (view host).expired
          (IdleTimer.timeline (view host).timed polls) start ∧
          drainTimeoutMs ≤ poll.tick - start := by
  have waits := waits_of_goesOn goes
  have gives := waits.next_eq_none_iff poll
  have idle : (view host).silent poll = true ↔ poll.output host = .ok [] := beq_iff_eq
  rw [idle] at gives
  constructor
  · rintro ⟨last, left⟩
    rcases calls_of_pass (.inr left) with ⟨went, noted, bytes, output, memory⟩
    have moves := pass_next platform went noted output memory
    split at moves
    · rename_i gaveUp
      rcases gives.mp gaveUp with ⟨exited, silent, late⟩
      exact ⟨went, noted, silent, exited, late⟩
    · rcases moves with ⟨after, passed, -⟩
      rw [passed] at left
      cases left
  · rintro ⟨went, noted, silent, exited, late⟩
    have moves := pass_next platform went noted silent (.inl rfl)
    rw [gives.mpr ⟨exited, silent, late⟩] at moves
    exact moves

/-- The client exits, and the thread finds nothing for two seconds. -/
theorem drained_iff_silence :
    ∃ thread last, IdleTimer.goesOn (fun thread => thread.pass .utf8 .windowedPty)
        (initial ⟨2, 1⟩ false) [{ client := .signaled, peek := .ok 0, tick := 5 }] = some thread ∧
      thread.pass .utf8 .windowedPty { client := .signaled, peek := .ok 0, tick := 2005 } =
        .leave (last, .drained) := by
  have draining : (initial ⟨2, 1⟩ false).drainingAfterExit = false :=
    congrArg DrainClock.draining (initial_clock ⟨2, 1⟩ false)
  have goes : IdleTimer.goesOn (fun thread => thread.pass .utf8 .windowedPty)
      (initial ⟨2, 1⟩ false) [{ client := .signaled, peek := .ok 0, tick := 5 }] =
        some { initial ⟨2, 1⟩ false with
          clientExited := true, drainingAfterExit := true, drainStartTick := 5 } := by
    simp [IdleTimer.goesOn, pass, noteExit, TerminalPoll.output, receive, drain, draining,
      TerminalHost.windowedPty]
  have since : IdleTimer.IdleSince (view .windowedPty).expired
      (IdleTimer.timeline (view .windowedPty).timed
        [{ client := .signaled, peek := .ok 0, tick := 5 }]) 5 :=
    ⟨[], ⟨false, 5⟩, [], rfl, by simp, rfl, rfl, by simp⟩
  rcases (drained_iff .utf8 .windowedPty goes
    { client := .signaled, peek := .ok 0, tick := 2005 }).mpr
      ⟨rfl, ⟨_, rfl⟩, rfl, rfl, 5, since, by decide⟩ with ⟨last, left⟩
  exact ⟨_, last, goes, left⟩

end TerminalThread

end Conhost
