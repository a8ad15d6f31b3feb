import Conhost.Input.Interrupt
import Conhost.Server.Stranded

/-!
# Requests that flush the input

A flush should leave a handle as it was created. The requests that only flush
do, and so does a line-input read that meets Ctrl+Break. The other reads leave
the cursor and the insert mode of the line editor where they were.
-/

namespace Conhost

namespace ObjectHandle

/-- The fields a handle decodes input and edits lines with. -/
def inputFields (handle : ObjectHandle) :
    Option WChar × PendingInputBytes × List WChar × List WChar × Nat × Bool :=
  (handle.decodedInputPending, handle.pendingInputBytes, handle.cookedReadPending,
    handle.cookedLineInProgress, handle.cookedLineCursor, handle.cookedInsertMode)

/-- The fields are those of an input handle that was just created. -/
def Fresh (handle : ObjectHandle) : Prop :=
  handle.inputFields = (ServerState.standardHandle .input handle.owningProcess).inputFields

theorem fresh_flush (handle : ObjectHandle) : handle.flush.Fresh := rfl

end ObjectHandle

theorem ReadState.Emptied.fresh_iff {state : ReadState} (emptied : state.Emptied) :
    state.handle.Fresh ↔
      state.handle.cookedLineCursor = 0 ∧ state.handle.cookedInsertMode = true := by
  simp [ObjectHandle.Fresh, ObjectHandle.inputFields, ServerState.standardHandle, emptied.held,
    emptied.drained, emptied.pending, emptied.line]

/-- A read that has emptied the handle and left its editor alone. -/
theorem ReadState.Emptied.fresh_iff_of_steady {state : ReadState} (emptied : state.Emptied)
    {handle : ObjectHandle} (steady : state.handle.steady = handle.steady) :
    state.handle.Fresh ↔ handle.cookedLineCursor = 0 ∧ handle.cookedInsertMode = true := by
  simp only [ObjectHandle.steady, Prod.mk.injEq] at steady
  rcases steady with ⟨-, cursor, insertMode⟩
  rw [emptied.fresh_iff, cursor, insertMode]

section Requests

variable (environment : Environment) (console : Console) (handle : ObjectHandle)
  (packet : IoPacket)

/-- The parameters of a `ConsolepGetConsoleInput`. -/
def recordCall (server : ServerState) (capacity : Nat) (flags : UInt16) (unicode : Bool) :
    RecordCall where
  codePage := server.inputCodePage
  mode := server.inputMode
  processes := server.pids
  unicode := unicode
  capacity := capacity / 20
  isPeek := flags &&& 1 != 0
  waitAllowed := flags &&& 2 == 0

/-- A request that flushes the queue: it does nothing else, or replaces what is in it, or reads and
comes upon a Ctrl+Break key-down. -/
def InputApi.Flushes : InputApi → Prop
  | .flushInputBuffer => True
  | .writeConsoleInput _ append _ =>
      append = false ∧ ∃ input, packet.getInputBuffer environment = .ok input ∧
        input.length % 20 = 0
  | .getConsoleInput flags unicode _ =>
      flags &&& 0xfffc = 0 ∧ ∃ capacity, packet.getOutputBuffer = .ok capacity ∧
        Records.SeesBreak environment.system.toPlatform
          (recordCall console.server capacity flags unicode) ⟨handle, console.host⟩
  | .readConsole unicode processControlZ _ =>
      ∃ capacity, packet.getOutputBuffer = .ok capacity ∧
        if console.server.inputMode.lineInput then
          Cooked.SeesBreak environment.system.toPlatform environment.device
            (InputApi.lineCall console.server capacity unicode processControlZ)
            (InputApi.lineState console handle)
        else if unicode then
          UnicodeRead.SeesBreak environment.system.toPlatform
            (InputApi.readCall console.server capacity processControlZ) ⟨handle, console.host⟩
        else
          ByteRead.RawSeesBreak environment.system.toPlatform
            (InputApi.readCall console.server capacity processControlZ) ⟨handle, console.host⟩
  | .getNumberOfInputEvents _ => False

def IoPacket.Flushes : Prop :=
  match packet.function with
  | .rawFlush => True
  | .rawRead =>
      ∃ capacity, packet.getOutputBuffer = .ok capacity ∧
        ByteRead.SeesBreak environment.system.toPlatform
          (InputApi.readCall console.server capacity false) true ⟨handle, console.host⟩
  | .userDefined apiSize (.input request) =>
      apiSize.toNat ≤ descriptorLimit ∧ request.Flushes environment console handle packet
  | _ => False

/-- What a request puts into the queue. -/
def IoPacket.injected : List Byte :=
  match packet.function, packet.getInputBuffer environment with
  | .userDefined _ (.input (.writeConsoleInput unicode _ _)), .ok input =>
      InputApi.injectedBytes environment.system
        (if console.server.inputCodePage = 0 then environment.system.getOemCp
          else console.server.inputCodePage)
        unicode (ScreenBuffer.words input)
  | _, _ => []

/-- A request has left nothing in the queue but what it put there itself, and its handle as it was
created. -/
def IoPacket.Resets (next : Console) : Prop :=
  next.host.inputQueue = packet.injected environment console ∧
    ∃ after, next.server.objects packet.object = some after ∧ after.Fresh

/-- The requests that reset the line editor when they flush. -/
def IoPacket.ResetsEditor (server : ServerState) : Prop :=
  match packet.function with
  | .rawFlush => True
  | .userDefined _ (.input .flushInputBuffer) => True
  | .userDefined _ (.input (.writeConsoleInput ..)) => True
  | .userDefined _ (.input (.readConsole ..)) => server.inputMode.lineInput = true
  | _ => False

end Requests

section Dispatch

variable {environment : Environment} {console next : Console} {packet : IoPacket}
  {handle : ObjectHandle} {outcome : Outcome}

/-- A message that takes an input buffer only has been given it. -/
theorem withBuffers_input {work : List Byte → Nat → Dispatched} {ended : Console × Outcome}
    (dispatched : packet.withBuffers environment true false work = some (.ok ended)) :
    ∃ input, packet.getInputBuffer environment = .ok input ∧ work input 0 = some (.ok ended) := by
  simp only [IoPacket.withBuffers, Bool.false_eq_true, if_false, if_true] at dispatched
  split at dispatched
  · cases dispatched
  · rename_i input got
    exact ⟨input, got, dispatched⟩

/-- What a flushing request that resets the editor leaves. -/
theorem resets_of_fresh {after : ObjectHandle}
    (object : next.server.objects packet.object = some after) (fresh : after.Fresh)
    (queue : next.host.inputQueue = packet.injected environment console) :
    packet.Resets environment console next :=
  ⟨queue, after, object, fresh⟩

theorem resets_iff_of_emptied {state : ReadState} (emptied : state.Emptied)
    (steady : state.handle.steady = handle.steady)
    (nothing : packet.injected environment console = [])
    (object : next.server.objects packet.object = some state.handle)
    (host : next.host = state.host) :
    packet.Resets environment console next ↔
      handle.cookedLineCursor = 0 ∧ handle.cookedInsertMode = true := by
  rw [← emptied.fresh_iff_of_steady steady, IoPacket.Resets, nothing, host, object]
  simp [emptied.queue]

section ReadConsole

variable {apiSize : UInt32} {unicode processControlZ : Bool} {numBytes fuel capacity : Nat}
  (function : packet.function =
    .userDefined apiSize (.input (.readConsole unicode processControlZ numBytes)))
  (read : InputApi.readConsoleRequest environment console packet.object handle fuel capacity unicode
    processControlZ = some (.ok (next, outcome)))
include function read

theorem readConsoleRequest_resets_line (line : console.server.inputMode.lineInput = true)
    (sees : Cooked.SeesBreak environment.system.toPlatform environment.device
      (InputApi.lineCall console.server capacity unicode processControlZ)
      (InputApi.lineState console handle)) :
    packet.Resets environment console next := by
  simp only [InputApi.readConsoleRequest, if_pos line] at read
  split at read
  · cases read
  · cases read
  · rename_i state reply found
    simp only [Option.some.injEq, Except.ok.injEq, Prod.mk.injEq] at read
    rcases read with ⟨rfl, -⟩
    rcases sees.emptied found with ⟨emptied, editor⟩
    refine resets_of_fresh afterLine_objects (emptied.fresh_iff.mpr editor) ?_
    simp only [IoPacket.injected, function]
    exact emptied.queue

theorem readConsoleRequest_resets_raw (raw : ¬console.server.inputMode.lineInput = true)
    (sees : if unicode then
        UnicodeRead.SeesBreak environment.system.toPlatform
          (InputApi.readCall console.server capacity processControlZ) ⟨handle, console.host⟩
      else ByteRead.RawSeesBreak environment.system.toPlatform
          (InputApi.readCall console.server capacity processControlZ) ⟨handle, console.host⟩) :
    packet.Resets environment console next ↔
      handle.cookedLineCursor = 0 ∧ handle.cookedInsertMode = true := by
  have nothing : packet.injected environment console = [] := by
    simp [IoPacket.injected, function]
  simp only [InputApi.readConsoleRequest, if_neg raw] at read
  split at read
  · rename_i wide
    rw [if_pos wide] at sees
    simp only [Option.some.injEq, Except.ok.injEq, Prod.mk.injEq] at read
    rcases read with ⟨rfl, -⟩
    exact resets_iff_of_emptied sees.emptied (UnicodeRead.rawUnicodeRead_steady ..) nothing
      (Function.update_self ..) rfl
  · rename_i narrow
    rw [if_neg narrow] at sees
    simp only [Option.some.injEq, Except.ok.injEq, Prod.mk.injEq] at read
    rcases read with ⟨rfl, -⟩
    exact resets_iff_of_emptied sees.emptied (ByteRead.rawAnsiRead_steady ..) nothing
      (Function.update_self ..) rfl

end ReadConsole

theorem rawReadRequest_resets_iff {fuel capacity : Nat} (function : packet.function = .rawRead)
    (found : console.findHandle packet.object .input = some handle)
    (buffer : packet.getOutputBuffer = .ok capacity)
    (sees : ByteRead.SeesBreak environment.system.toPlatform
      (InputApi.readCall console.server capacity false) true ⟨handle, console.host⟩)
    (dispatched : dispatchMessage environment console packet fuel = some (.ok (next, outcome))) :
    packet.Resets environment console next ↔
      handle.cookedLineCursor = 0 ∧ handle.cookedInsertMode = true := by
  have nothing : packet.injected environment console = [] := by
    simp [IoPacket.injected, function]
  simp only [dispatchMessage, function, rawReadRequest, found] at dispatched
  rcases withBuffers_output dispatched with ⟨capacity', buffer', read⟩
  cases buffer.symm.trans buffer'
  simp only [Option.some.injEq, Except.ok.injEq, Prod.mk.injEq] at read
  rcases read with ⟨rfl, -⟩
  exact resets_iff_of_emptied sees.readLoop_emptied (ByteRead.readLoop_steady ..) nothing
    (Function.update_self ..) rfl

/-- A flush leaves the queue empty and the handle as it was created if the request resets the
line editor, or if there was nothing to reset in it. -/
theorem dispatchMessage_resets_iff (environment : Environment) (console : Console)
    (packet : IoPacket) (handle : ObjectHandle) (fuel : Nat) (next : Console) (outcome : Outcome)
    (found : console.findHandle packet.object .input = some handle)
    (flushes : packet.Flushes environment console handle)
    (dispatched : dispatchMessage environment console packet fuel = some (.ok (next, outcome))) :
    packet.Resets environment console next ↔
      packet.ResetsEditor console.server ∨
        (handle.cookedLineCursor = 0 ∧ handle.cookedInsertMode = true) := by
  rcases packet with ⟨process, object, function, input, outputSize⟩
  simp only [IoPacket.Flushes] at flushes
  split at flushes
  · simp only [dispatchMessage, rawFlushRequest, found, Console.answer, Option.some.injEq,
      Except.ok.injEq, Prod.mk.injEq] at dispatched
    rcases dispatched with ⟨rfl, -⟩
    simp only [IoPacket.ResetsEditor, true_or, iff_true]
    exact resets_of_fresh (Function.update_self ..) handle.fresh_flush rfl
  · simp only [IoPacket.ResetsEditor, false_or]
    rcases flushes with ⟨capacity, buffer, sees⟩
    exact rawReadRequest_resets_iff rfl found buffer sees dispatched
  · rename_i apiSize request
    rcases flushes with ⟨fits, flushes⟩
    simp only [dispatchMessage, Nat.not_lt.mpr fits, if_false, dispatchApi, found] at dispatched
    cases request with
    | flushInputBuffer =>
        simp only [IoPacket.ResetsEditor, true_or, iff_true]
        cases dispatched
        exact resets_of_fresh (Function.update_self ..) handle.fresh_flush rfl
    | writeConsoleInput unicode append numRecords =>
        rcases flushes with ⟨rfl, input', buffer, whole⟩
        simp only [IoPacket.ResetsEditor, true_or, iff_true]
        rcases withBuffers_input dispatched with ⟨input, buffer', written⟩
        cases buffer.symm.trans buffer'
        simp only [InputApi.handleRequest, InputApi.writeConsoleInputRequest, whole, ne_eq,
          not_true_eq_false, if_false, Bool.false_eq_true, Option.some.injEq, Except.ok.injEq,
          Prod.mk.injEq] at written
        rcases written with ⟨rfl, -⟩
        refine resets_of_fresh (Function.update_self ..) handle.fresh_flush ?_
        simp only [IoPacket.injected, buffer]
        rfl
    | getNumberOfInputEvents => exact flushes.elim
    | getConsoleInput flags unicode numRecords =>
        rcases flushes with ⟨known, capacity, buffer, sees⟩
        rcases withBuffers_output dispatched with ⟨capacity', buffer', read⟩
        cases buffer.symm.trans buffer'
        simp only [InputApi.handleRequest, InputApi.getConsoleInputRequest, known, ne_eq,
          not_true_eq_false, if_false, Option.some.injEq, Except.ok.injEq, Prod.mk.injEq] at read
        rcases read with ⟨rfl, -⟩
        simp only [IoPacket.ResetsEditor, false_or]
        exact resets_iff_of_emptied sees.emptied (Records.getConsoleInput_steady ..) rfl
          (Function.update_self ..) rfl
    | readConsole unicode processControlZ numBytes =>
        rcases flushes with ⟨capacity, buffer, sees⟩
        rcases withBuffers_output dispatched with ⟨capacity', buffer', read⟩
        cases buffer.symm.trans buffer'
        simp only [IoPacket.ResetsEditor]
        by_cases line : console.server.inputMode.lineInput = true
        · rw [if_pos line] at sees
          simp only [line, true_or, iff_true]
          exact readConsoleRequest_resets_line rfl read line sees
        · rw [if_neg line] at sees
          simp only [line, Bool.false_eq_true, false_or]
          exact readConsoleRequest_resets_raw rfl read line sees
  · exact flushes.elim

/-- A Ctrl+Break key-down as a terminal sends it in win32 input mode. -/
def ctrlBreakBytes : List Byte :=
  [0x1b, bc '[', bc '3', bc ';', bc '7', bc '0', bc ';', bc '3', bc ';', bc '1', bc ';', bc '8',
    bc ';', bc '1', bc '_']

/-- A `RAW_READ` in processed mode that finds nothing but a Ctrl+Break key-down. -/
theorem rawRead_flushes {environment : Environment} {process object : Handle}
    (mode : console.server.inputMode = ⟨3⟩) (empty : handle.pendingInputBytes = .clear)
    (queue : console.host.inputQueue = ctrlBreakBytes) :
    (rawReadPacket process object).Flushes environment console handle := by
  refine ⟨1, rfl, _, .refl, Nat.one_pos, ⟨true, 1, 3, 70, 3, 8⟩, 15, ?_, ?_⟩
  · simp only [ReadState.peekHead, ReadState.window, ReadState.pendingPrefix, empty, queue]
    decide +kernel
  · simp only [InputApi.readCall, mode]
    rfl

theorem dispatchMessage_rawRead (environment : Environment) (process : Handle) {object : Handle}
    (found : console.findHandle object .input = some handle) (fuel : Nat) : ∃ next outcome,
      dispatchMessage environment console (rawReadPacket process object) fuel =
        some (.ok (next, outcome)) := by
  simp only [dispatchMessage, rawReadPacket, rawReadRequest, found]
  exact ⟨_, _, rfl⟩

/-- A new handle is reset by a `RAW_READ` that meets Ctrl+Break. -/
theorem dispatchMessage_resets_iff_newHandle :
    let environment : Environment := .utf8 0
    let server : ServerState :=
      { ServerState.initial .utf8 with
        objects := fun id => if id = 1 then some {} else none
        inputMode := ⟨3⟩ }
    let console : Console := ⟨server, { inputQueue := ctrlBreakBytes }⟩
    ∃ next outcome, console.findHandle 1 .input = some {} ∧
      (rawReadPacket 0 1).Flushes environment console {} ∧
      dispatchMessage environment console (rawReadPacket 0 1) 1 = some (.ok (next, outcome)) ∧
      (rawReadPacket 0 1).Resets environment console next := by
  intro environment server console
  have found : console.findHandle 1 .input = some {} := rfl
  have flushes : (rawReadPacket 0 1).Flushes environment console {} := rawRead_flushes rfl rfl rfl
  rcases dispatchMessage_rawRead environment 0 found 1 with ⟨next, outcome, dispatched⟩
  exact ⟨next, outcome, found, flushes, dispatched,
    (dispatchMessage_resets_iff environment console (rawReadPacket 0 1) {} 1 next outcome found
      flushes dispatched).mpr (.inr ⟨rfl, rfl⟩)⟩

namespace LoopState

/-- The actions of a run in which a line-input read has taken one character when a Ctrl+Break
key-down arrives. -/
def lineThenBreak : List Action :=
  let roomy : Circumstances := { Circumstances.plain with fuel := 4 }
  [.proceed .plain, .proceed .plain, .proceed .plain,
    .readIo (.packet ⟨0, 1, .userDefined 4 (.setMode 3), [], 4⟩) .plain,
    .proceed .plain, .proceed .plain, .arrive [bc 'a'],
    .readIo (.packet ⟨0, 1, .userDefined 8 (.input (.readConsole true false 0)), [], 16⟩) roomy,
    .proceed .plain, .proceed roomy, .proceed .plain, .proceed .plain, .arrive ctrlBreakBytes]

/-- A `RAW_READ` of another thread meets the Ctrl+Break and leaves the line cursor behind the
line it has dropped. -/
theorem dispatchMessage_keeps_cursor :
    ∃ state handle next outcome,
      Run step (fun _ _ => True) (initial .utf8 {} (some (connectPacket 100))) state ∧
      state.console.findHandle 1 .input = some handle ∧
      (rawReadPacket 0 1).Flushes Circumstances.plain.environment state.console handle ∧
      dispatchMessage Circumstances.plain.environment state.console (rawReadPacket 0 1) 1 =
        some (.ok (next, outcome)) ∧
      ¬(rawReadPacket 0 1).Resets Circumstances.plain.environment state.console next := by
  have ends : (Run.after step (initial .utf8 {} (some (connectPacket 100))) lineThenBreak).map
      (fun state => decide (state.console.host.inputQueue = ctrlBreakBytes ∧
        state.console.server.inputMode = ⟨3⟩ ∧
        (state.console.findHandle 1 .input).map (fun handle =>
          (handle.pendingInputBytes.1, handle.cookedLineCursor)) = some ([], 1))) = some true := by
    decide +kernel
  rcases Option.map_eq_some_iff.mp ends with ⟨state, reached, facts⟩
  rcases of_decide_eq_true facts with ⟨queue, mode, object⟩
  rcases Option.map_eq_some_iff.mp object with ⟨handle, found, fields⟩
  rcases Prod.mk.inj fields with ⟨empty, cursor⟩
  rcases dispatchMessage_rawRead Circumstances.plain.environment 0 found 1 with
    ⟨next, outcome, dispatched⟩
  have flushes : (rawReadPacket 0 1).Flushes Circumstances.plain.environment state.console handle :=
    rawRead_flushes mode (Subtype.ext empty) queue
  refine ⟨state, handle, next, outcome, .of_after_true reached, found, flushes, dispatched, ?_⟩
  rcases flushes with ⟨capacity, buffer, sees⟩
  rw [rawReadRequest_resets_iff rfl found buffer sees dispatched]
  rintro ⟨atStart, -⟩
  rw [cursor] at atStart
  cases atStart

end LoopState

end Dispatch

end Conhost
