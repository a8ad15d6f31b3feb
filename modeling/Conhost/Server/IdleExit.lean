import Conhost.Server.Completion
import Conhost.Server.Frame

/-!
# The exit of an idle server

The request to leave the loop is latched when the last client disconnects, and
it is acted on at the next check that finds nothing staged. The latch is never
taken back, so it goes stale if a client connects before that check.
-/

namespace Conhost

open IoPacket

namespace LoopState

variable {state : LoopState} {message : Message} {circumstances : Circumstances}
  {result : LoopState × Settled}

/-- No client is accepted once the exit has been requested. -/
def NoLateClient (state : LoopState) (action : Action) : Prop :=
  ∀ packet circumstances, state.receives action = some (packet, circumstances) →
    state.exitRequested = true → packet.function = .connect →
      (connectedState circumstances.environment state.console packet).2 = none

/-- The latch is set only while there are no clients, and only reads are pending. -/
structure Idle (state : LoopState) : Prop where
  reads : ∀ message ∈ state.pending, IsRead message.packet.function
  empty : state.exitRequested = true → state.console.server.processCount = 0
  latched : state.phase = .left .noClients → state.exitRequested = true

theorem Idle.enter {phase : Phase} (idle : state.Idle) (stays : phase ≠ .left .noClients) :
    (state.enter phase).Idle :=
  ⟨idle.reads, idle.empty, fun left => absurd left stays⟩

/-- The states that can follow the dispatch of a message. -/
theorem Settles.idle (settles : state.Settles message circumstances result)
    (idle : state.Idle) (early : state.phase ≠ .left .noClients)
    (admitted : state.exitRequested = true → message.packet.function = .connect →
      (connectedState circumstances.environment state.console message.packet).2 = none) :
    result.1.Idle ∧ result.1.phase ≠ .left .noClients ∧
      (result.2 = .staged true → result.1.console.server.processCount = 0) := by
  have empties : ∀ {console outcome},
      dispatchMessage circumstances.environment state.console message.packet circumstances.fuel =
        some (.ok (console, outcome)) →
      state.exitRequested = true → console.server.processCount = 0 := by
    intro console outcome dispatched requested
    rcases (dispatchMessage_processCount dispatched).1 with fewer | ⟨connects, accepted⟩
    · exact Nat.le_zero.mp (idle.empty requested ▸ fewer)
    · simp [admitted requested connects] at accepted
  cases settles with
  | failed =>
      exact ⟨idle.enter (by simp), by simp [LoopState.enter], by simp⟩
  | queued dispatched =>
      refine ⟨⟨?_, empties dispatched, fun left => absurd left early⟩, early, by simp⟩
      intro other waiting
      rcases List.mem_append.mp waiting with waiting | last
      · exact idle.reads other waiting
      · rw [List.mem_singleton.mp last]
        exact (dispatchMessage_pending dispatched).1
  | released dispatched =>
      exact ⟨⟨idle.reads, empties dispatched, by simp [LoopState.enter]⟩,
        by simp [LoopState.enter], by simp⟩
  | staged dispatched =>
      refine ⟨⟨idle.reads, empties dispatched, fun left => absurd left early⟩, early, ?_⟩
      intro exits
      cases exits
      exact (dispatchMessage_processCount dispatched).2 rfl

theorem afterPacket_idle (settles : state.Settles message circumstances result)
    (idle : state.Idle) (early : state.phase ≠ .left .noClients)
    (admitted : state.exitRequested = true → message.packet.function = .connect →
      (connectedState circumstances.environment state.console message.packet).2 = none) :
    (afterPacket result).Idle := by
  obtain ⟨kept, outside, exits⟩ := settles.idle idle early admitted
  rcases result with ⟨next, _ | requestExit | _⟩
  · exact kept.enter (by simp)
  · refine ⟨kept.reads, ?_, by simp [afterPacket, LoopState.enter]⟩
    intro requested
    rcases Bool.or_eq_true_iff.mp requested with before | now
    · exact kept.empty before
    · exact exits (by rw [now])
  · exact kept

theorem afterRetry_idle {left : Nat} (settles : state.Settles message circumstances result)
    (idle : state.Idle) (early : state.phase ≠ .left .noClients)
    (reads : IsRead message.packet.function) : (afterRetry left result).Idle := by
  obtain ⟨kept, -⟩ := settles.idle idle early (by rintro - connects; cases connects ▸ reads)
  rcases result with ⟨next, _ | requestExit | _⟩
  · exact kept.enter (by simp)
  · exact kept.enter (by simp)
  · exact kept

theorem checkStep_idle (idle : state.Idle) : state.checkStep.Idle := by
  simp only [checkStep]
  split
  · exact idle.enter (by simp)
  · split
    · rename_i requested
      simp only [Bool.and_eq_true] at requested
      exact ⟨idle.reads, idle.empty, fun _ => requested.1⟩
    · split
      · exact idle.enter (by simp)
      · exact idle.enter (by simp)

theorem step_idle {action : Action} {next : LoopState} (conserved : state.Conserved)
    (idle : state.Idle) (admits : state.NoLateClient action)
    (steps : state.step action = some next) : next.Idle := by
  obtain ⟨reads, empty, latched⟩ := idle
  have fits := conserved.fits
  cases step_cases steps with
  | arrive | hostCloses | requestStop => exact ⟨reads, empty, latched⟩
  | «begin» | stalled | read | pipeNotConnected | readFailed =>
      exact Idle.enter ⟨reads, empty, latched⟩ (by simp)
  | initialPacket phase settles =>
      rw [phase] at fits
      refine afterPacket_idle (settle_cases settles fits) ⟨reads, empty, latched⟩
        (by simp [receive, phase]) ?_
      exact admits _ _ (by simp [receives, phase, newMessage])
  | check => exact checkStep_idle ⟨reads, empty, latched⟩
  | retry phase waiting settles =>
      rw [phase] at fits
      simp only [waiting, List.mem_cons, forall_eq_or_imp] at reads
      exact afterRetry_idle (settle_cases settles fits) ⟨reads.2, empty, latched⟩ (by simp [phase])
        reads.1
  | shutdown => exact ⟨by simp [LoopState.shutdown], empty, by simp [LoopState.shutdown]⟩
  | packet phase settles =>
      refine afterPacket_idle (settle_cases settles rfl) ⟨reads, empty, latched⟩
        (by simp [receive, consumeCompletion, phase]) ?_
      exact admits _ _ rfl
  | cancelled phase =>
      have idle : state.consumeCompletion.Idle := ⟨reads, empty, latched⟩
      apply idle.enter
      split <;> simp

variable {system : System} {host : HostIo} {packet : Option IoPacket}

/-- If no client is accepted once the exit has been requested, then the loop is left for want of
clients only when there are none. -/
theorem run_idleExit_sound (run : Run step NoLateClient (initial system host packet) state)
    (left : state.phase = .left .noClients) : state.console.server.processCount = 0 := by
  have start : (initial system host packet).Idle :=
    ⟨by simp [initial], by simp [initial], by simp [initial]⟩
  have invariant : state.Conserved ∧ state.Idle := by
    apply run.invariant ⟨initial_conserved, start⟩
    rintro before action after ⟨conserved, idle⟩ admits steps
    exact ⟨step_conserved conserved steps, step_idle conserved idle admits steps⟩
  exact invariant.2.empty (invariant.2.latched left)

/-- No packet of a client that connects is received once the exit has been requested. -/
def noLateConnect (state : LoopState) (action : Action) : Bool :=
  match state.receives action with
  | some (⟨_, _, .connect, _, _⟩, _) => !state.exitRequested
  | _ => true

theorem NoLateClient.of_noLateConnect {action : Action}
    (passes : state.noLateConnect action = true) : state.NoLateClient action := by
  rintro ⟨process, object, function, input, outputSize⟩ circumstances received requested rfl
  simp [noLateConnect, received, requested] at passes

/-- A client connects and disconnects, and the loop is left. -/
theorem run_idleExit_sound_oneClient :
    ∃ state, Run step NoLateClient (initial .utf8 {} none) state ∧
      state.phase = .left .noClients ∧ state.console.server.processCount = 0 := by
  have ends : (Run.after (Run.tested step noLateConnect) (initial .utf8 {} none)
      [.proceed .plain, .proceed .plain, .proceed .plain,
        .readIo (.packet (connectPacket 100)) .plain, .proceed .plain, .proceed .plain,
        .readIo (.packet ⟨0, 0, .disconnect, [], 0⟩) .plain, .proceed .plain, .proceed .plain,
        .readIo .cancelled .plain, .proceed .plain]).map
      (fun state => state.phase.exit) = some (some .noClients) := by decide +kernel
  obtain ⟨state, reached, left⟩ := Option.map_eq_some_iff.mp ends
  have run := Run.of_after .refl (fun _ => NoLateClient.of_noLateConnect) reached
  have left := Phase.exit_eq_some_iff.mp left
  exact ⟨state, run, left, run_idleExit_sound run left⟩

/-- The actions of a run in which a client connects after the last one has gone. -/
def lateClient : List Action :=
  [.proceed .plain, .proceed .plain, .proceed .plain, .readIo (.packet (connectPacket 100)) .plain,
    .proceed .plain, .proceed .plain, .readIo (.packet ⟨0, 0, .disconnect, [], 0⟩) .plain,
    .proceed .plain, .proceed .plain, .readIo (.packet (connectPacket 101)) .plain,
    .proceed .plain, .proceed .plain, .readIo (.packet (rawReadPacket 0 1)) .plain,
    .proceed .plain]

/-- The new client waits for input, and the loop is left although it is connected. -/
theorem run_idleExit_lateClient :
    ∃ state, Run step (fun _ _ => True) (initial .utf8 {} none) state ∧
      state.phase = .left .noClients ∧ state.console.server.processCount = 1 := by
  have ends : (Run.after step (initial .utf8 {} none) lateClient).map
      (fun state => (state.phase.exit, state.console.server.processCount)) =
        some (some .noClients, 1) := by decide +kernel
  obtain ⟨state, reached, facts⟩ := Option.map_eq_some_iff.mp ends
  obtain ⟨left, count⟩ := Prod.mk.inj facts
  exact ⟨state, .of_after_true reached, Phase.exit_eq_some_iff.mp left, count⟩


end LoopState

end Conhost
