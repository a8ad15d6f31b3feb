import Conhost.Runtime.RelayRuns

/-!
# When a relay ends

The relay outlives its client as long as the client's children may still write. It ends at the first
poll after the exit that finds the pipe broken, or two seconds after the first of the polls that
found nothing.
-/

namespace Conhost

namespace PtyRelay

variable {platform : Platform} {relay next : PtyRelay} {poll : RelayPoll} {polls : List RelayPoll}

/-- A poll as the drain clock sees it. -/
def view : DrainView RelayPoll where
  exits poll := poll.process == .signaled
  silent poll := poll.outputTaken == []
  tick := RelayPoll.tick
  timeout := TerminalThread.drainTimeoutMs

/-- How a pass ends once both sides have been pumped, and what the poll makes of the clock. -/
inductive Ends (moved : Option DrainClock) (gone : Prop) : Pass PtyRelay (PtyRelay × RelayEnding) →
    Prop where
  | broken {last : PtyRelay} (ends : gone) : Ends moved gone (.leave (last, .broken))
  | drained {last : PtyRelay} (stays : ¬gone) (gaveUp : moved = none) :
      Ends moved gone (.leave (last, .drained))
  | goes {after : PtyRelay} (stays : ¬gone) (went : moved = some after.clock) :
      Ends moved gone (.next after)

theorem drain_ends {before : DrainClock} {hadOutput brokenPipe : Bool}
    (sound : before.draining = true → before.exited = true)
    (same : relay.clock = ⟨before.exited || view.exits poll, before.draining, before.start⟩)
    (silent : hadOutput = !view.silent poll) :
    Ends (view.next before poll) ((before.exited || view.exits poll) = true ∧ brokenPipe = true)
      (relay.drain hadOutput brokenPipe poll.tick) := by
  simp only [clock, DrainClock.mk.injEq] at same
  rcases same with ⟨exited, draining, start⟩
  have late : view.expired relay.drainStartTick (view.tick poll) =
      decide (TerminalThread.drainTimeoutMs ≤ poll.tick - relay.drainStartTick) := rfl
  simp only [DrainView.next, ← exited, ← draining, ← start, late, ← silent]
  cases gone : relay.processExited with
  | false =>
      have idle : relay.drainingAfterExit = false := by
        rw [draining, ← Bool.not_eq_true]
        intro drains
        rw [exited, sound drains, Bool.true_or] at gone
        cases gone
      simp only [drain, gone, Bool.not_false, if_true]
      apply Ends.goes
      · simp
      · cases hadOutput with
        | false => simp [clock, gone]
        | true => simp [clock, gone, idle]
  | true =>
      cases brokenPipe with
      | true =>
          simp only [drain, gone, Bool.not_true, Bool.false_eq_true, if_false, if_true]
          exact .broken (by simp)
      | false =>
          cases hadOutput with
          | true =>
              simp only [drain, gone, Bool.not_true, Bool.false_eq_true, if_false, if_true]
              exact .goes (by simp) (by simp [clock])
          | false =>
              cases drains : relay.drainingAfterExit with
              | false =>
                  simp only [drain, gone, drains, Bool.not_true, Bool.not_false,
                    Bool.false_eq_true, if_false, if_true]
                  exact .goes (by simp) (by simp [clock, view])
              | true =>
                  by_cases gaveUp :
                      TerminalThread.drainTimeoutMs ≤ poll.tick - relay.drainStartTick
                  · simp only [drain, gone, drains, gaveUp, Bool.not_true, Bool.false_eq_true,
                      if_false, if_true]
                    exact .drained (by simp) (by simp)
                  · simp only [drain, gone, drains, gaveUp, Bool.not_true, Bool.false_eq_true,
                      if_false]
                    exact .goes (by simp) (by simp [clock, gone, drains])

/-- A pass in which no call fails. -/
theorem pass_ends (waits : view.Waits polls relay.clock)
    (succeeds : ∀ last error, relay.pass platform poll ≠ .leave (last, .failed error)) :
    Ends (view.next relay.clock poll)
      (view.exitSeen (polls ++ [poll]) = true ∧ ReportsBroken poll)
      (relay.pass platform poll) := by
  rcases pass_cases platform relay poll with
    ⟨last, error, left, -⟩ | ⟨after, hadOutput, brokenPipe, came, pumped⟩
  · exact absurd left (succeeds last error)
  · have clock := pumped.clock
    have silent : hadOutput = !view.silent poll := by
      have nothing : view.silent poll = true ↔ hadOutput = false := by
        rw [pumped.silent]
        exact beq_iff_eq
      cases hadOutput with
      | false => rw [nothing.mpr rfl, Bool.not_true]
      | true =>
          rw [eq_comm, Bool.not_eq_true', ← Bool.not_eq_true, nothing]
          simp
    rw [came, waits.exitSeen_append, ← pumped.broken]
    cases process : poll.process with
    | failed error =>
        rw [process] at came
        exact absurd came (succeeds _ _)
    | timeout =>
        have unseen : view.exits poll = false := by
          simp [view, process]
        have same : after.clock = ⟨relay.clock.exited || view.exits poll, relay.clock.draining,
            relay.clock.start⟩ := by
          rw [unseen, Bool.or_false, clock]
        exact drain_ends waits.sound same silent
    | signaled =>
        have seen : view.exits poll = true := by
          simp [view, process]
        have same : PtyRelay.clock { after with processExited := true } =
            ⟨relay.clock.exited || view.exits poll, relay.clock.draining, relay.clock.start⟩ := by
          rw [seen, Bool.or_true, ← clock]
          rfl
        exact drain_ends waits.sound same silent

theorem waits_of_goesOn {bytes : List Byte}
    (goes : IdleTimer.goesOn (fun relay => relay.pass platform) { hostOutput := bytes } polls =
      some relay) : view.Waits polls relay.clock := by
  refine DrainView.waits_of_goesOn ?_ rfl goes
  intro polls state poll next waits passed
  have succeeds : ∀ last error, state.pass platform poll ≠ .leave (last, .failed error) := by
    simp [passed]
  have ends := pass_ends waits succeeds
  rw [passed] at ends
  cases ends with
  | goes stays went => exact went

/-- As long as no call fails, the relay ends exactly at a poll after the exit of its client that
finds the pipe broken, or that finds nothing two seconds after the first of the polls before it that
also found nothing. -/
theorem ends_iff (platform : Platform) {bytes : List Byte} {polls : List RelayPoll}
    {relay : PtyRelay}
    (goes : IdleTimer.goesOn (fun relay => relay.pass platform) { hostOutput := bytes } polls =
      some relay) (poll : RelayPoll)
    (succeeds : ∀ last error, relay.pass platform poll ≠ .leave (last, .failed error)) :
    ((∃ last, relay.pass platform poll = .leave (last, .broken)) ↔
      view.exitSeen (polls ++ [poll]) = true ∧ ReportsBroken poll) ∧
    ((∃ last, relay.pass platform poll = .leave (last, .drained)) ↔
      view.exitSeen (polls ++ [poll]) = true ∧ ¬ReportsBroken poll ∧ poll.outputTaken = [] ∧
        ∃ start, IdleTimer.IdleSince view.expired (IdleTimer.timeline view.timed polls) start ∧
          TerminalThread.drainTimeoutMs ≤ poll.tick - start) := by
  have waits := waits_of_goesOn goes
  have gives := waits.next_eq_none_iff poll
  have silent : view.silent poll = true ↔ poll.outputTaken = [] := beq_iff_eq
  rw [silent] at gives
  have ends := pass_ends waits succeeds
  generalize relay.pass platform poll = result at ends ⊢
  cases ends with
  | broken gone => simp [gone]
  | drained stays gaveUp =>
      rcases gives.mp gaveUp with ⟨exited, nothing, late⟩
      rw [not_and] at stays
      constructor
      · simpa using stays
      · exact iff_of_true ⟨_, rfl⟩ ⟨exited, stays exited, nothing, late⟩
  | goes stays went =>
      have early : ¬_ := fun ended => by
        have none := gives.mpr ended
        rw [went] at none
        cases none
      constructor
      · simpa using stays
      · simp only [reduceCtorEq, exists_false, false_iff]
        rintro ⟨exited, -, nothing, late⟩
        exact early ⟨exited, nothing, late⟩

/-- The client exits and two seconds pass in silence. -/
theorem ends_iff_silence :
    ∃ relay last : PtyRelay, IdleTimer.goesOn (fun relay => relay.pass .utf8) { hostOutput := [] }
        [{ peek := .ok 0, process := .signaled, tick := 5 }] = some relay ∧
      relay.pass .utf8 { peek := .ok 0, process := .signaled, tick := 2005 } =
        .leave (last, .drained) := by
  let relay : PtyRelay := { processExited := true, drainingAfterExit := true, drainStartTick := 5 }
  have goes : IdleTimer.goesOn (fun relay => relay.pass .utf8) { hostOutput := [] }
      [{ peek := .ok 0, process := .signaled, tick := 5 }] = some relay := rfl
  have since : IdleTimer.IdleSince view.expired (IdleTimer.timeline view.timed
      [{ peek := .ok 0, process := .signaled, tick := 5 }]) 5 :=
    ⟨[], ⟨false, 5⟩, [], rfl, by simp, rfl, rfl, by simp⟩
  have succeeds : ∀ last error,
      relay.pass .utf8 { peek := .ok 0, process := .signaled, tick := 2005 } ≠
        .leave (last, .failed error) := by
    intro last error
    have came : relay.pass .utf8 { peek := .ok 0, process := .signaled, tick := 2005 } =
        relay.drain false false 2005 := rfl
    rcases drain_cases relay false false 2005 with
      ⟨draining, start, ends⟩ | ⟨-, -, ends⟩ | ⟨-, -, ends⟩
    all_goals simp [came, ends]
  rcases (ends_iff .utf8 goes { peek := .ok 0, process := .signaled, tick := 2005 }
    succeeds).2.mpr ⟨rfl, by simp [ReportsBroken], rfl, 5, since, by decide⟩ with ⟨last, left⟩
  exact ⟨relay, last, goes, left⟩

end PtyRelay

end Conhost
