import Conhost.Server.Completion
import Conhost.Server.Frame

/-!
# Pending requests and their objects

A pending request names its object by address, and the address is looked up
again at every retry. The request stays with the object it was received for as
long as no other object is placed at that address while it waits.
-/

namespace Conhost

open IoPacket

namespace LoopState

variable {state : LoopState} {message : Message} {circumstances : Circumstances}
  {result : LoopState × Settled}

/-- No object is placed at an address that a pending request names. -/
def NoReuse (state : LoopState) (action : Action) : Prop :=
  ∀ packet circumstances, state.receives action = some (packet, circumstances) →
    Creates packet.function → ∀ message ∈ state.pending, ∀ server,
      circumstances.environment.allocate server ≠ some message.packet.object

/-- The object a message names was created by a message received earlier. -/
def Precedes (state : LoopState) (message : Message) : Prop :=
  (state.console.server.objects message.packet.object).isSome →
    state.created message.packet.object < message.number

structure Bound (state : LoopState) : Prop where
  reads : ∀ message ∈ state.pending, IsRead message.packet.function
  older : ∀ id, (state.console.server.objects id).isSome → state.created id < state.received
  precedes : ∀ message ∈ state.pending, state.Precedes message

theorem not_creates_of_isRead {function : IoFunction} (reads : IsRead function) :
    ¬Creates function := by
  cases reads <;> simp [Creates]

section Dispatch

variable {console : Console} {outcome : Outcome}
  (dispatched : dispatchMessage circumstances.environment state.console message.packet
    circumstances.fuel = some (.ok (console, outcome)))
include dispatched

/-- An object that is there after a dispatch has been there before, or was created by it. -/
theorem setConsole_created {number : Nat} {id : Handle}
    (present : (console.server.objects id).isSome) :
    ((state.console.server.objects id).isSome ∧
        (state.setConsole console number).created id = state.created id) ∨
      ((state.setConsole console number).created id = number ∧ Creates message.packet.function ∧
        ∃ server, circumstances.environment.allocate server = some id) := by
  rcases dispatchMessage_objects dispatched id with same | gone | ⟨free, creates, address⟩
  · have before : (state.console.server.objects id).isSome := same ▸ present
    refine .inl ⟨before, ?_⟩
    simp [setConsole, Option.isSome_iff_ne_none.mp before]
  · cases (congrArg Option.isSome gone).symm.trans present
  · refine .inr ⟨?_, creates, address⟩
    simp [setConsole, free, present]

theorem setConsole_precedes {other : Message} (precedes : state.Precedes other)
    (apart : Creates message.packet.function → ∀ server,
      circumstances.environment.allocate server ≠ some other.packet.object) :
    (state.setConsole console message.number).Precedes other := by
  intro present
  rcases setConsole_created dispatched present with ⟨before, same⟩ | ⟨-, creates, server, address⟩
  · rw [same]
    exact precedes before
  · exact absurd address (apart creates server)

theorem setConsole_bound (bound : state.Bound) (received : message.number < state.received)
    (apart : Creates message.packet.function → ∀ other ∈ state.pending, ∀ server,
      circumstances.environment.allocate server ≠ some other.packet.object) :
    (state.setConsole console message.number).Bound where
  reads := bound.reads
  older := by
    intro id present
    rcases setConsole_created dispatched present with ⟨before, same⟩ | ⟨number, -⟩
    · rw [same]
      exact bound.older id before
    · rw [number]
      exact received
  precedes other waiting :=
    setConsole_precedes dispatched (bound.precedes other waiting)
      fun creates => apart creates other waiting

end Dispatch

theorem Settles.bound (settles : state.Settles message circumstances result) (bound : state.Bound)
    (received : message.number < state.received) (precedes : state.Precedes message)
    (apart : Creates message.packet.function → ∀ other ∈ state.pending, ∀ server,
      circumstances.environment.allocate server ≠ some other.packet.object) :
    result.1.Bound := by
  cases settles with
  | failed => exact ⟨bound.reads, bound.older, bound.precedes⟩
  | released dispatched =>
      obtain ⟨reads, older, others⟩ := setConsole_bound dispatched bound received apart
      exact ⟨reads, older, others⟩
  | staged dispatched =>
      obtain ⟨reads, older, others⟩ := setConsole_bound dispatched bound received apart
      exact ⟨reads, older, others⟩
  | queued dispatched =>
      obtain ⟨reads, older, others⟩ := setConsole_bound dispatched bound received apart
      have read := (dispatchMessage_pending dispatched).1
      refine ⟨?_, older, ?_⟩
      · intro other waiting
        rcases List.mem_append.mp waiting with waiting | last
        · exact reads other waiting
        · rw [List.mem_singleton.mp last]
          exact read
      · intro other waiting
        rcases List.mem_append.mp waiting with waiting | last
        · exact others other waiting
        · rw [List.mem_singleton.mp last]
          exact setConsole_precedes dispatched precedes
            fun creates => absurd creates (not_creates_of_isRead read)

theorem afterPacket_bound (bound : result.1.Bound) : (afterPacket result).Bound := by
  obtain ⟨reads, older, precedes⟩ := bound
  rcases result with ⟨next, _ | requestExit | _⟩ <;> exact ⟨reads, older, precedes⟩

theorem afterRetry_bound {left : Nat} (bound : result.1.Bound) :
    (afterRetry left result).Bound := by
  obtain ⟨reads, older, precedes⟩ := bound
  rcases result with ⟨next, _ | requestExit | _⟩ <;> exact ⟨reads, older, precedes⟩

theorem checkStep_bound (bound : state.Bound) : state.checkStep.Bound := by
  obtain ⟨reads, older, precedes⟩ := bound
  simp only [checkStep]
  repeat' split
  all_goals exact ⟨reads, older, precedes⟩

/-- A message that has just been received comes after every object there is. -/
theorem receive_bound (packet : IoPacket) (bound : state.Bound) :
    state.receive.Bound ∧ (state.newMessage packet).number < state.receive.received ∧
      state.receive.Precedes (state.newMessage packet) := by
  refine ⟨⟨bound.reads, ?_, bound.precedes⟩, Nat.lt_succ_self _, bound.older _⟩
  intro id present
  exact Nat.lt_succ_of_lt (bound.older id present)

theorem step_bound {action : Action} {next : LoopState} (conserved : state.Conserved)
    (bound : state.Bound) (apart : state.NoReuse action)
    (steps : state.step action = some next) : next.Bound := by
  obtain ⟨reads, older, precedes⟩ := bound
  have fits := conserved.fits
  cases step_cases steps with
  | arrive | hostCloses | requestStop | «begin» | stalled | read | pipeNotConnected | readFailed
  | cancelled => exact ⟨reads, older, precedes⟩
  | shutdown => exact ⟨by simp [LoopState.shutdown], older, by simp [LoopState.shutdown]⟩
  | check => exact checkStep_bound ⟨reads, older, precedes⟩
  | @initialPacket circumstances packet _ phase settles =>
      rw [phase] at fits
      obtain ⟨bound, number, first⟩ := receive_bound packet ⟨reads, older, precedes⟩
      apply afterPacket_bound
      exact (settle_cases settles fits).bound bound number first
        (apart _ _ (by simp [receives, phase, newMessage]))
  | @packet circumstances packet _ phase settles =>
      have bound : state.consumeCompletion.Bound := ⟨reads, older, precedes⟩
      obtain ⟨bound, number, first⟩ := receive_bound packet bound
      apply afterPacket_bound
      exact (settle_cases settles rfl).bound bound number first (apart _ _ rfl)
  | @retry _ _ message later _ phase waiting settles =>
      rw [phase] at fits
      have received : message.number < state.received := by
        apply List.mem_range.mp
        apply conserved.once.subset
        simp [accounted, waiting]
      simp only [waiting, List.mem_cons, forall_eq_or_imp] at reads precedes
      apply afterRetry_bound
      exact (settle_cases settles fits).bound ⟨reads.2, older, precedes.2⟩ received precedes.1
        fun creates => absurd creates (not_creates_of_isRead reads.1)

/-- A read whose object is gone is answered. -/
theorem dispatchMessage_gone {console : Console} {packet : IoPacket}
    (reads : IsRead packet.function) (gone : console.server.objects packet.object = none)
    (environment : Environment) (fuel : Nat) :
    ∃ reply, dispatchMessage environment console packet fuel =
        some (.ok (console, .complete reply false)) ∧ reply.status = .invalidHandle := by
  have lost : console.findHandle packet.object .input = none := by
    simp [Console.findHandle, ServerState.findObject, gone]
  rcases packet with ⟨process, object, function, input, outputSize⟩
  cases reads with
  | rawRead =>
      simp only [dispatchMessage, rawReadRequest, lost]
      exact ⟨_, rfl, rfl⟩
  | getConsoleInput fits =>
      simp only [dispatchMessage, Nat.not_lt.mpr fits, if_false, dispatchApi, lost]
      exact ⟨_, rfl, rfl⟩
  | readConsole fits =>
      simp only [dispatchMessage, Nat.not_lt.mpr fits, if_false, dispatchApi, lost]
      exact ⟨_, rfl, rfl⟩

variable {system : System} {host : HostIo} {packet : Option IoPacket}

/-- If no object is placed at an address that a pending request names, then a pending request is
tried against an object that was there when it was received, and is answered with
`STATUS_INVALID_HANDLE` if there is none. -/
theorem run_pending_bound (run : Run step NoReuse (initial system host packet) state)
    (waiting : message ∈ state.pending) :
    (∀ handle, state.console.server.findObject message.packet.object = some handle →
        state.created message.packet.object < message.number) ∧
      (state.console.server.findObject message.packet.object = none → ∀ environment fuel,
        ∃ reply, dispatchMessage environment state.console message.packet fuel =
          some (.ok (state.console, .complete reply false)) ∧ reply.status = .invalidHandle) := by
  have start : (initial system host packet).Bound :=
    ⟨by simp [initial], by simp [initial, ServerState.initial], by simp [initial]⟩
  have invariant : state.Conserved ∧ state.Bound := by
    apply run.invariant ⟨initial_conserved, start⟩
    rintro before action after ⟨conserved, bound⟩ apart steps
    exact ⟨step_conserved conserved steps, step_bound conserved bound apart steps⟩
  obtain ⟨-, reads, -, precedes⟩ := invariant
  constructor
  · intro handle found
    exact precedes message waiting (by rw [← ServerState.findObject, found]; rfl)
  · intro gone environment fuel
    exact dispatchMessage_gone (reads message waiting) gone environment fuel

/-- No client connects and no object is created while a request is pending. -/
def createsNone (state : LoopState) (action : Action) : Bool :=
  match state.receives action with
  | some (⟨_, _, .connect, _, _⟩, _) | some (⟨_, _, .createObject .., _, _⟩, _) =>
      state.pending.isEmpty
  | _ => true

theorem NoReuse.of_createsNone {action : Action} (passes : state.createsNone action = true) :
    state.NoReuse action := by
  rintro ⟨process, object, function, input, outputSize⟩ circumstances received creates message
    waiting
  cases function with
  | connect =>
      simp only [createsNone, received, List.isEmpty_iff] at passes
      simp [passes] at waiting
  | createObject =>
      simp only [createsNone, received, List.isEmpty_iff] at passes
      simp [passes] at waiting
  | _ => exact creates.elim

/-- A client's read waits on the object that came with its connection. -/
theorem run_pending_bound_rawRead :
    ∃ state message, Run step NoReuse (initial .utf8 {} (some (connectPacket 100))) state ∧
      message ∈ state.pending ∧
      (state.console.server.findObject message.packet.object).isSome ∧
      state.created message.packet.object < message.number := by
  have ends : (Run.after (Run.tested step createsNone)
      (initial .utf8 {} (some (connectPacket 100)))
      [.proceed .plain, .proceed .plain, .proceed .plain,
        .readIo (.packet (rawReadPacket 0 1)) .plain]).map
      (fun state => (state.pending.map (·.packet.object),
        (state.console.server.findObject 1).isSome)) = some ([1], true) := by decide +kernel
  obtain ⟨state, reached, facts⟩ := Option.map_eq_some_iff.mp ends
  obtain ⟨pending, present⟩ := Prod.mk.inj facts
  obtain ⟨message, waiting, object⟩ := List.map_eq_singleton_iff.mp pending
  have run := Run.of_after .refl (fun _ => NoReuse.of_createsNone) reached
  have member : message ∈ state.pending := by simp [waiting]
  rw [← object] at present
  obtain ⟨handle, found⟩ := Option.isSome_iff_exists.mp present
  exact ⟨state, message, run, member, present, (run_pending_bound run member).1 handle found⟩

/-- The actions of a run in which the object of a pending read is closed and another one is created
in its place. -/
def objectReplaced : List Action :=
  [.proceed .plain, .proceed .plain, .proceed .plain, .readIo (.packet (rawReadPacket 0 1)) .plain,
    .proceed .plain, .proceed .plain, .proceed .plain, .proceed .plain,
    .readIo (.packet ⟨0, 1, .closeObject, [], 0⟩) .plain, .proceed .plain, .proceed .plain,
    .readIo (.packet ⟨0, 0, .createObject .currentInput 3 0xc0000000, [], 0⟩) .plain,
    .proceed .plain, .proceed .plain, .arrive [bc 'a'], .readIo .cancelled .plain,
    .proceed .plain]

/-- The read is completed against the object that was created after it. -/
theorem run_pending_bound_objectReplaced :
    ∃ state next staged,
      Run step (fun _ _ => True) (initial .utf8 {} (some (connectPacket 100))) state ∧
      state.step (.proceed .plain) = some next ∧
      state.pending.map (·.number) = [1] ∧ state.pending.map (·.packet.object) = [1] ∧
      state.created 1 = 3 ∧ next.completion = some staged ∧ staged.message.number = 1 ∧
      staged.reply.status = .success ∧ staged.reply.output = [bc 'a'] := by
  have ends : (Run.after step (initial .utf8 {} (some (connectPacket 100))) objectReplaced).bind
      (fun state => (state.step (.proceed .plain)).bind fun next =>
        next.completion.map fun staged =>
          decide (state.pending.map (·.number) = [1] ∧ state.pending.map (·.packet.object) = [1] ∧
            state.created 1 = 3 ∧ staged.message.number = 1 ∧ staged.reply.status = .success ∧
            staged.reply.output = [bc 'a'])) = some true := by decide +kernel
  obtain ⟨state, reached, ends⟩ := Option.bind_eq_some_iff.mp ends
  obtain ⟨next, steps, ends⟩ := Option.bind_eq_some_iff.mp ends
  obtain ⟨staged, taken, facts⟩ := Option.map_eq_some_iff.mp ends
  obtain ⟨numbers, objects, created, number, status, output⟩ := of_decide_eq_true facts
  exact ⟨state, next, staged, .of_after_true reached, steps, numbers, objects, created, taken,
    number, status, output⟩

end LoopState

end Conhost
