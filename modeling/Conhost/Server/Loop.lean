import Conhost.Lib.Run
import Conhost.Server.Dispatch

/-!
# The server loop

`run_loop` receives one packet at a time. A message that has to wait is queued
and tried again, in turn, before the next packet is asked for; a message that
is answered is staged, and its completion rides on the next `read_io`. There is
one place for a staged message, and while it is taken the queue is not tried.

The loop is a machine whose phases are the points at which another thread can
get in between: the input monitor appends bytes or sees the host close its end,
the signal monitor asks for a stop. A single dispatch is one step. Messages are
numbered in the order they are received, and the machine keeps a record of
completions and of the message that created each object.
-/

namespace Conhost

/-- A `ConDrvApiMessage` with its number. -/
structure Message where
  number : Nat
  packet : IoPacket

/-- A staged message and its completion. -/
structure Staged where
  message : Message
  reply : Reply

/-- How a message was completed. -/
inductive Completion where
  /-- By the reply buffer of a `read_io`. -/
  | onReadIo (reply : Reply)
  /-- By `complete_io_direct` after the loop. -/
  | direct (reply : Reply)
  /-- By `fail_all_pending`, with `STATUS_UNSUCCESSFUL`. -/
  | unsuccessful

/-- Why the loop was left. -/
inductive Exit where
  | noClients
  | signal
  | pipe
  | stopped
deriving DecidableEq

inductive Phase where
  /-- Before the packet that was handed over, if there is one. -/
  | start (initial : Option IoPacket)
  /-- The head of the loop. -/
  | check
  /-- Inside `service_pending_once`, with this many messages still to try. -/
  | service (left : Nat)
  /-- About to call `read_io`. -/
  | ready
  /-- In `read_io`. -/
  | reading
  /-- After the loop. -/
  | left (exit : Exit)
  | returned
  /-- `run_loop` has returned an error. -/
  | failed
  /-- `OC_ASSERT(!pending_completion)` does not hold. -/
  | asserted

/-- The way the loop was left. -/
def Phase.exit : Phase → Option Exit
  | .left exit => some exit
  | _ => none

/-- The loop is about to call `read_io`. -/
def Phase.isReady : Phase → Bool
  | .ready => true
  | _ => false

theorem Phase.isReady_iff {phase : Phase} : phase.isReady = true ↔ phase = .ready := by
  cases phase <;> simp [Phase.isReady]

theorem Phase.exit_eq_some_iff {phase : Phase} {exit : Exit} :
    phase.exit = some exit ↔ phase = .left exit := by
  cases phase <;> simp [Phase.exit]

structure LoopState where
  console : Console
  pending : List Message := []
  completion : Option Staged := none
  exitRequested : Bool := false
  stopRequested : Bool := false
  phase : Phase
  /-- The number of messages received so far. -/
  received : Nat := 0
  /-- What has been completed, by number. -/
  completed : List (Nat × Completion) := []
  /-- The number of the message that created the object at an address. -/
  created : Handle → Nat := fun _ => 0

/-- What surrounds a step of the loop that dispatches a message. -/
structure Circumstances where
  environment : Environment
  /-- A bound on the passes of a line-input read. -/
  fuel : Nat := 1
  /-- `release_message_buffers` fails. -/
  releaseFails : Bool := false

/-- The lowest address at which there is nothing. -/
def Allocator.lowest : Allocator := fun server =>
  (List.range 64).find? fun address =>
    (server.findObject address).isNone && !server.hasProcess address

/-- Nothing fails, and objects are placed as low as possible. -/
def Circumstances.plain : Circumstances where
  environment := { system := .utf8, device := ⟨fun _ _ => false⟩, allocate := .lowest }

/-- What `read_io` returns. -/
inductive ReadIo where
  | packet (packet : IoPacket)
  | pipeNotConnected
  /-- `ERROR_OPERATION_ABORTED` or `ERROR_CANCELLED` -/
  | cancelled
  | otherError

inductive Action where
  | arrive (bytes : List Byte)
  | hostCloses
  | requestStop
  /-- The next step of the loop itself. -/
  | proceed (circumstances : Circumstances)
  /-- The return of `read_io`. -/
  | readIo (result : ReadIo) (circumstances : Circumstances)

/-- What became of a message that was dispatched. -/
inductive Settled where
  | queued
  | staged (requestExit : Bool)
  | ended
deriving DecidableEq

/-- The packet of a client that connects. -/
def connectPacket (process : Handle) : IoPacket := ⟨process, 0, .connect, [], 0⟩

/-- A `RAW_READ` of one byte. -/
def rawReadPacket (process object : Handle) : IoPacket := ⟨process, object, .rawRead, [], 1⟩

namespace LoopState

variable (state : LoopState)

/-- The state of a server that is about to enter `run_loop`. -/
def initial (system : System) (host : HostIo) (packet : Option IoPacket) : LoopState where
  console := ⟨.initial system, host⟩
  phase := .start packet

def enter (phase : Phase) : LoopState := { state with phase := phase }

/-- A message that has just been received. -/
def newMessage (packet : IoPacket) : Message := ⟨state.received, packet⟩

def receive : LoopState := { state with received := state.received + 1 }

/-- The console after the dispatch of a message, with a record of the objects it created. -/
def setConsole (console : Console) (number : Nat) : LoopState :=
  { state with
    console := console
    created := fun object =>
      if (state.console.server.objects object).isNone && (console.server.objects object).isSome then
        number
      else state.created object }

/-- `release_and_stage_completion` -/
def stage (message : Message) (reply : Reply) (requestExit releaseFails : Bool) :
    LoopState × Settled :=
  if state.completion.isSome then (state.enter .asserted, .ended)
  else if releaseFails then (state.enter .failed, .ended)
  else ({ state with completion := some ⟨message, reply⟩ }, .staged requestExit)

/-- A message is dispatched, and queued or staged. -/
def settle (message : Message) (circumstances : Circumstances) : Option (LoopState × Settled) :=
  match dispatchMessage circumstances.environment state.console message.packet
    circumstances.fuel with
  | none => none
  | some (.error _) => some (state.enter .failed, .ended)
  | some (.ok (console, .replyPending)) =>
      some ({ state.setConsole console message.number with pending := state.pending ++ [message] },
        .queued)
  | some (.ok (console, .complete reply requestExit)) =>
      some ((state.setConsole console message.number).stage message reply requestExit
        circumstances.releaseFails)

/-- What follows the dispatch of a packet. -/
def afterPacket : LoopState × Settled → LoopState
  | (state, .queued) => state.enter .check
  | (state, .staged requestExit) =>
      { state.enter .check with exitRequested := state.exitRequested || requestExit }
  | (state, .ended) => state

/-- What follows another try of a queued message, with `left` of them to go. -/
def afterRetry (left : Nat) : LoopState × Settled → LoopState
  | (state, .queued) => state.enter (.service left)
  | (state, .staged _) => state.enter .ready
  | (state, .ended) => state

/-- The completion that was passed to `read_io` is consumed. -/
def consumeCompletion : LoopState :=
  { state with
    completion := none
    completed := state.completed ++
      (state.completion.map fun staged => (staged.message.number, .onReadIo staged.reply)).toList }

/-- The head of the loop, up to the first message that is tried again. -/
def checkStep : LoopState :=
  if state.stopRequested && state.completion.isNone then state.enter (.left .stopped)
  else if state.exitRequested && state.completion.isNone then state.enter (.left .noClients)
  else if state.pending.isEmpty || state.completion.isSome then state.enter .ready
  else state.enter (.service state.pending.length)

/-- The end of `run_loop`. -/
def shutdown : LoopState :=
  { state with
    phase := .returned
    completion := none
    pending := []
    completed := state.completed ++
      (state.completion.map fun staged => (staged.message.number, .direct staged.reply)).toList ++
      state.pending.map fun message => (message.number, .unsuccessful) }

/-- A step of the thread that runs the loop. -/
def proceed (circumstances : Circumstances) : Option LoopState :=
  match state.phase with
  | .start none => some (state.enter .check)
  | .start (some packet) =>
      (state.receive.settle (state.newMessage packet) circumstances).map afterPacket
  | .check => some state.checkStep
  | .service 0 => some (state.enter .ready)
  | .service (left + 1) =>
      match state.pending with
      | [] => none
      | message :: later =>
          ({ state with pending := later }.settle message circumstances).map (afterRetry left)
  | .ready => some (state.enter .reading)
  | .left _ => some state.shutdown
  | _ => none

/-- The return of `read_io`. -/
def returnFromRead (result : ReadIo) (circumstances : Circumstances) : Option LoopState :=
  match state.phase, result with
  | .reading, .packet packet =>
      (state.consumeCompletion.receive.settle (state.newMessage packet) circumstances).map
        afterPacket
  | .reading, .pipeNotConnected => some (state.enter (.left .pipe))
  | .reading, .cancelled =>
      some (state.consumeCompletion.enter (if state.stopRequested then .left .signal else .check))
  | .reading, .otherError => some (state.enter .failed)
  | _, _ => none

def step : Action → Option LoopState
  | .arrive bytes =>
      some { state with console.host.inputQueue := state.console.host.inputQueue ++ bytes }
  | .hostCloses => some { state with console.host.inputDisconnected := true }
  | .requestStop => some { state with stopRequested := true }
  | .proceed circumstances => state.proceed circumstances
  | .readIo result circumstances => state.returnFromRead result circumstances

/-- The packet that is received with an action, and what surrounds its dispatch. -/
def receives : Action → Option (IoPacket × Circumstances)
  | .proceed circumstances =>
      match state.phase with
      | .start (some packet) => some (packet, circumstances)
      | _ => none
  | .readIo (.packet packet) circumstances => some (packet, circumstances)
  | _ => none

/-- What the dispatch of a message can come to while no completion is staged. -/
inductive Settles (message : Message) (circumstances : Circumstances) :
    LoopState × Settled → Prop where
  | failed {fault : Fault}
      (dispatched : dispatchMessage circumstances.environment state.console message.packet
        circumstances.fuel = some (.error fault)) :
      Settles message circumstances (state.enter .failed, .ended)
  | queued {console : Console}
      (dispatched : dispatchMessage circumstances.environment state.console message.packet
        circumstances.fuel = some (.ok (console, .replyPending))) :
      Settles message circumstances
        ({ state.setConsole console message.number with pending := state.pending ++ [message] },
          .queued)
  | released {console : Console} {reply : Reply} {requestExit : Bool}
      (dispatched : dispatchMessage circumstances.environment state.console message.packet
        circumstances.fuel = some (.ok (console, .complete reply requestExit))) :
      Settles message circumstances
        ((state.setConsole console message.number).enter .failed, .ended)
  | staged {console : Console} {reply : Reply} {requestExit : Bool}
      (dispatched : dispatchMessage circumstances.environment state.console message.packet
        circumstances.fuel = some (.ok (console, .complete reply requestExit))) :
      Settles message circumstances
        ({ state.setConsole console message.number with completion := some ⟨message, reply⟩ },
          .staged requestExit)

variable {state}

theorem settle_cases {message : Message} {circumstances : Circumstances}
    {result : LoopState × Settled} (settles : state.settle message circumstances = some result)
    (vacant : state.completion = none) :
    state.Settles message circumstances result := by
  rw [settle] at settles
  split at settles
  · cases settles
  · rename_i fault dispatched
    cases settles
    exact .failed dispatched
  · rename_i console dispatched
    cases settles
    exact .queued dispatched
  · rename_i console reply requestExit dispatched
    have free : (state.setConsole console message.number).completion = none := vacant
    simp only [stage, free, Option.isSome_none, Bool.false_eq_true, if_false,
      Option.some.injEq] at settles
    split at settles
    · cases settles
      exact .released dispatched
    · cases settles
      exact .staged dispatched

variable (state)

/-- The steps of the machine, by the point of the loop they are taken at. -/
inductive Transition : Action → LoopState → Prop where
  | arrive (bytes : List Byte) :
      Transition (.arrive bytes)
        { state with console.host.inputQueue := state.console.host.inputQueue ++ bytes }
  | hostCloses : Transition .hostCloses { state with console.host.inputDisconnected := true }
  | requestStop : Transition .requestStop { state with stopRequested := true }
  | begin {circumstances : Circumstances} (phase : state.phase = .start none) :
      Transition (.proceed circumstances) (state.enter .check)
  | initialPacket {circumstances : Circumstances} {packet : IoPacket}
      {result : LoopState × Settled} (phase : state.phase = .start (some packet))
      (settles : state.receive.settle (state.newMessage packet) circumstances = some result) :
      Transition (.proceed circumstances) (afterPacket result)
  | check {circumstances : Circumstances} (phase : state.phase = .check) :
      Transition (.proceed circumstances) state.checkStep
  | stalled {circumstances : Circumstances} (phase : state.phase = .service 0) :
      Transition (.proceed circumstances) (state.enter .ready)
  | retry {circumstances : Circumstances} {left : Nat} {message : Message} {later : List Message}
      {result : LoopState × Settled} (phase : state.phase = .service (left + 1))
      (waiting : state.pending = message :: later)
      (settles : { state with pending := later }.settle message circumstances = some result) :
      Transition (.proceed circumstances) (afterRetry left result)
  | read {circumstances : Circumstances} (phase : state.phase = .ready) :
      Transition (.proceed circumstances) (state.enter .reading)
  | shutdown {circumstances : Circumstances} {exit : Exit} (phase : state.phase = .left exit) :
      Transition (.proceed circumstances) state.shutdown
  | packet {circumstances : Circumstances} {packet : IoPacket} {result : LoopState × Settled}
      (phase : state.phase = .reading)
      (settles : state.consumeCompletion.receive.settle (state.newMessage packet) circumstances =
        some result) :
      Transition (.readIo (.packet packet) circumstances) (afterPacket result)
  | pipeNotConnected {circumstances : Circumstances} (phase : state.phase = .reading) :
      Transition (.readIo .pipeNotConnected circumstances) (state.enter (.left .pipe))
  | cancelled {circumstances : Circumstances} (phase : state.phase = .reading) :
      Transition (.readIo .cancelled circumstances)
        (state.consumeCompletion.enter (if state.stopRequested then .left .signal else .check))
  | readFailed {circumstances : Circumstances} (phase : state.phase = .reading) :
      Transition (.readIo .otherError circumstances) (state.enter .failed)

variable {state}

theorem step_cases {action : Action} {next : LoopState} (steps : state.step action = some next) :
    state.Transition action next := by
  cases action with
  | arrive bytes =>
      cases steps
      exact .arrive bytes
  | hostCloses =>
      cases steps
      exact .hostCloses
  | requestStop =>
      cases steps
      exact .requestStop
  | proceed circumstances =>
      simp only [step, proceed] at steps
      split at steps
      · rename_i phase
        cases steps
        exact .begin phase
      · rename_i packet phase
        obtain ⟨result, settles, rfl⟩ := Option.map_eq_some_iff.mp steps
        exact .initialPacket phase settles
      · rename_i phase
        cases steps
        exact .check phase
      · rename_i phase
        cases steps
        exact .stalled phase
      · rename_i left phase
        split at steps
        · cases steps
        · rename_i message later waiting
          obtain ⟨result, settles, rfl⟩ := Option.map_eq_some_iff.mp steps
          exact .retry phase waiting settles
      · rename_i phase
        cases steps
        exact .read phase
      · rename_i exit phase
        cases steps
        exact .shutdown phase
      · cases steps
  | readIo result circumstances =>
      simp only [step, returnFromRead] at steps
      split at steps
      · rename_i packet phase
        obtain ⟨result, settles, rfl⟩ := Option.map_eq_some_iff.mp steps
        exact .packet phase settles
      · rename_i phase
        cases steps
        exact .pipeNotConnected phase
      · rename_i phase
        cases steps
        exact .cancelled phase
      · rename_i phase
        cases steps
        exact .readFailed phase
      · cases steps

end LoopState

end Conhost
