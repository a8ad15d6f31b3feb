import Mathlib.Data.List.Range
import Conhost.Server.Loop

/-!
# Every message is completed once

A message that has been received is in one place: among the pending ones, in
the completion slot, or in the record of completions. The steps of the loop
move messages between these places and never copy or drop one, unless the loop
fails.
-/

namespace Conhost

namespace LoopState

/-- What can be staged and pending at a point of the loop. -/
def Fits (state : LoopState) : Phase → Prop
  | .start _ | .service _ => state.completion = none
  | .returned => state.completion = none ∧ state.pending = []
  | .asserted => False
  | _ => True

/-- The messages in all places, by number. -/
def accounted (state : LoopState) : List Nat :=
  state.completed.map Prod.fst ++
    ((state.completion.map (·.message.number)).toList ++ state.pending.map (·.number))

/-- Every message received is in exactly one place, or the loop has failed. -/
structure Conserved (state : LoopState) : Prop where
  fits : state.Fits state.phase
  once : state.accounted.Subperm (List.range state.received)
  all : state.phase ≠ .failed → state.accounted.Perm (List.range state.received)

/-- A message is about to be dispatched, and all others are in their places. -/
structure InHand (state : LoopState) (message : Message) : Prop where
  vacant : state.completion = none
  all : (message.number :: state.accounted).Perm (List.range state.received)

variable {state : LoopState} {message : Message} {circumstances : Circumstances}
  {result : LoopState × Settled}

theorem enter_conserved {phase : Phase} (fits : state.Fits phase)
    (all : state.accounted.Perm (List.range state.received)) : (state.enter phase).Conserved where
  fits := by cases phase <;> exact fits
  once := all.subperm
  all _ := all

theorem enter_failed_conserved (once : state.accounted.Subperm (List.range state.received)) :
    (state.enter .failed).Conserved where
  fits := trivial
  once := once
  all := by simp [enter]

theorem InHand.subperm (inHand : state.InHand message) :
    state.accounted.Subperm (List.range state.received) :=
  (List.sublist_cons_self _ _).subperm.trans inHand.all.subperm

theorem queue_accounted {console : Console} (inHand : state.InHand message) :
    { state.setConsole console message.number with
      pending := state.pending ++ [message] }.accounted.Perm (List.range state.received) := by
  have last : (state.accounted ++ [message.number]).Perm (List.range state.received) :=
    (List.perm_append_singleton _ _).trans inHand.all
  simpa [accounted, setConsole] using last

theorem stage_accounted (console : Console) (reply : Reply) (inHand : state.InHand message) :
    { state.setConsole console message.number with
      completion := some ⟨message, reply⟩ }.accounted.Perm (List.range state.received) := by
  refine List.Perm.trans ?_ inHand.all
  simp only [accounted, setConsole, inHand.vacant, Option.map_some, Option.map_none,
    Option.toList_some, Option.toList_none, List.nil_append, List.singleton_append]
  exact List.perm_middle

theorem afterPacket_conserved (settles : state.Settles message circumstances result)
    (inHand : state.InHand message) : (afterPacket result).Conserved := by
  cases settles with
  | failed => exact enter_failed_conserved inHand.subperm
  | released => exact enter_failed_conserved inHand.subperm
  | queued => exact enter_conserved trivial (queue_accounted inHand)
  | @staged console reply _ _ =>
      have all := stage_accounted console reply inHand
      exact ⟨trivial, all.subperm, fun _ => all⟩

theorem afterRetry_conserved {left : Nat} (settles : state.Settles message circumstances result)
    (inHand : state.InHand message) : (afterRetry left result).Conserved := by
  cases settles with
  | failed => exact enter_failed_conserved inHand.subperm
  | released => exact enter_failed_conserved inHand.subperm
  | queued => exact enter_conserved inHand.vacant (queue_accounted inHand)
  | staged => exact enter_conserved trivial (stage_accounted _ _ inHand)

theorem consumeCompletion_accounted (state : LoopState) :
    state.consumeCompletion.accounted = state.accounted := by
  cases staged : state.completion <;> simp [consumeCompletion, accounted, staged]

theorem shutdown_accounted (state : LoopState) : state.shutdown.accounted = state.accounted := by
  cases staged : state.completion <;>
    simp [LoopState.shutdown, accounted, staged, Function.comp_def]

theorem checkStep_conserved (all : state.accounted.Perm (List.range state.received)) :
    state.checkStep.Conserved := by
  simp only [checkStep]
  split
  · exact enter_conserved trivial all
  · split
    · exact enter_conserved trivial all
    · split
      · exact enter_conserved trivial all
      · rename_i tries
        simp only [Bool.or_eq_true, not_or, Bool.not_eq_true, Option.isSome_eq_false_iff,
          Option.isNone_iff_eq_none] at tries
        exact enter_conserved tries.2 all

/-- A message that has just been received is in hand. -/
theorem receive_inHand {packet : IoPacket} (vacant : state.completion = none)
    (all : state.accounted.Perm (List.range state.received)) :
    state.receive.InHand (state.newMessage packet) where
  vacant := vacant
  all := by
    simp only [receive, newMessage, List.range_succ]
    exact (List.perm_append_singleton _ _).symm.trans (all.append_right _)

theorem step_conserved {action : Action} {next : LoopState} (conserved : state.Conserved)
    (steps : state.step action = some next) : next.Conserved := by
  obtain ⟨fits, once, all⟩ := conserved
  cases step_cases steps with
  | arrive | hostCloses | requestStop => exact ⟨fits, once, all⟩
  | «begin» phase => exact enter_conserved trivial (all (by simp [phase]))
  | initialPacket phase settles =>
      rw [phase] at fits
      exact afterPacket_conserved (settle_cases settles fits)
        (receive_inHand fits (all (by simp [phase])))
  | check phase => exact checkStep_conserved (all (by simp [phase]))
  | stalled phase => exact enter_conserved trivial (all (by simp [phase]))
  | retry phase waiting settles =>
      rw [phase] at fits
      apply afterRetry_conserved (settle_cases settles fits)
      have places := all (by simp [phase])
      simp only [accounted, waiting, List.map_cons, ← List.append_assoc] at places
      refine ⟨fits, List.Perm.trans ?_ places⟩
      simp only [accounted, ← List.append_assoc]
      exact List.perm_middle.symm
  | read phase => exact enter_conserved trivial (all (by simp [phase]))
  | shutdown phase =>
      have places := all (by simp [phase])
      rw [← shutdown_accounted] at places
      exact ⟨⟨rfl, rfl⟩, places.subperm, fun _ => places⟩
  | packet phase settles =>
      have places := all (by simp [phase])
      rw [← consumeCompletion_accounted] at places
      exact afterPacket_conserved (settle_cases settles rfl) (receive_inHand rfl places)
  | pipeNotConnected phase => exact enter_conserved trivial (all (by simp [phase]))
  | cancelled phase =>
      apply enter_conserved
      · split <;> trivial
      · rw [consumeCompletion_accounted]
        exact all (by simp [phase])
  | readFailed phase => exact enter_failed_conserved once

variable {system : System} {host : HostIo} {packet : Option IoPacket}
  {allowed : LoopState → Action → Prop}

theorem initial_conserved : (initial system host packet).Conserved :=
  ⟨rfl, .refl _, fun _ => .refl _⟩

theorem run_conserved (run : Run step allowed (initial system host packet) state) :
    state.Conserved := by
  apply run.invariant initial_conserved
  intro before action after conserved _ steps
  exact step_conserved conserved steps

/-- In every run the assertion holds and nothing is both staged and queued, and when the loop
returns every message received has been completed once. -/
theorem run_completes_once
    (run : Run step (fun _ _ => True) (initial system host packet) state) :
    state.phase ≠ .asserted ∧
      (∀ staged ∈ state.completion, ∀ message ∈ state.pending,
        staged.message.number ≠ message.number) ∧
      (state.phase = .returned → ∀ number,
        (state.completed.map Prod.fst).count number =
          if number < state.received then 1 else 0) := by
  obtain ⟨fits, once, all⟩ := run_conserved run
  refine ⟨?_, ?_, ?_⟩
  · intro asserted
    rw [asserted] at fits
    exact fits
  · intro staged taken message waiting same
    obtain ⟨places, same', part⟩ := once
    have distinct := same'.nodup_iff.mp (List.nodup_range.sublist part)
    have apart := (List.nodup_append.mp (List.nodup_append.mp distinct).2.1).2.2
    apply apart staged.message.number _ message.number _ same
    · simp [Option.mem_def.mp taken]
    · exact List.mem_map_of_mem waiting
  · intro returned number
    have places := all (by simp [returned])
    rw [returned] at fits
    simp only [accounted, fits.1, fits.2, Option.map_none, Option.toList_none, List.map_nil,
      List.append_nil] at places
    rw [places.count_eq, List.count_range]

/-- A client connects and starts a read that has to wait, and the driver goes away. -/
theorem run_completes_once_pendingRead :
    ∃ state, Run.after step (initial .utf8 {} (some (connectPacket 100)))
        [.proceed .plain, .proceed .plain, .proceed .plain,
          .readIo (.packet (rawReadPacket 0 1)) .plain, .proceed .plain, .proceed .plain,
          .proceed .plain, .proceed .plain, .readIo .pipeNotConnected .plain, .proceed .plain] =
        some state ∧
      state.completed.map Prod.fst = [0, 1] ∧ state.phase ≠ .asserted ∧
      ∀ staged ∈ state.completion, ∀ message ∈ state.pending,
        staged.message.number ≠ message.number := by
  have ends : (Run.after step (initial .utf8 {} (some (connectPacket 100)))
      [.proceed .plain, .proceed .plain, .proceed .plain,
        .readIo (.packet (rawReadPacket 0 1)) .plain, .proceed .plain, .proceed .plain,
        .proceed .plain, .proceed .plain, .readIo .pipeNotConnected .plain, .proceed .plain]).map
        (fun state => state.completed.map Prod.fst) = some [0, 1] := by decide +kernel
  obtain ⟨state, reached, completed⟩ := Option.map_eq_some_iff.mp ends
  have once := run_completes_once (.of_after_true reached)
  exact ⟨state, reached, completed, once.1, once.2.1⟩

end LoopState

end Conhost
