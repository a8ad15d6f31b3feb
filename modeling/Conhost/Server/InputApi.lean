import Conhost.Input.Cooked
import Conhost.Input.Records
import Conhost.Input.UnicodeRead
import Conhost.Server.Message

/-!
# The requests for an input handle

The reads are defined in `Conhost.Input`; here they take their parameters from
the server and the message, and what they leave behind is put back. The other
requests count, flush or replace what is waiting to be read.
-/

namespace Conhost

/-- The result of a dispatch. `none` stands for a read that has not ended in the given number of
passes. -/
abbrev Dispatched := Option (Except Fault (Console × Outcome))

/-- `host_io.flush_input_buffer()` -/
def HostIo.flushInputBuffer (host : HostIo) : HostIo := { host with inputQueue := [] }

/-- `host_io.inject_input_bytes()` -/
def HostIo.injectInputBytes (host : HostIo) (bytes : List Byte) : HostIo :=
  { host with inputQueue := host.inputQueue ++ bytes }

/-- What a flush resets in the handle it is sent to. -/
def ObjectHandle.flush (handle : ObjectHandle) : ObjectHandle :=
  { handle with
    decodedInputPending := none
    pendingInputBytes := .clear
    cookedReadPending := []
    cookedLineInProgress := []
    cookedLineCursor := 0
    cookedInsertMode := true }

/-- The bytes of an `INPUT_RECORD` with a key event. -/
def inputRecordBytes (key : KeyEvent) : List Byte :=
  unitBytes [1, 0] ++ dwordBytes (if key.keyDown then 1 else 0) ++
    unitBytes [key.repeatCount, key.virtualKeyCode, key.virtualScanCode, key.unicodeChar] ++
    dwordBytes key.controlKeyState

/-- The outcome of a read. -/
def Outcome.ofRead {α : Type} (encode : List α → List Byte) (data : List α → ReplyData) :
    ReadReply α → Outcome
  | .pending => .replyPending
  | .complete status items =>
      .complete
        { status := status
          information := (encode items).length
          output := encode items
          data := data items } false

/-- The server after a read of the handle `id`. -/
def Console.afterRead (console : Console) (id : Handle) (state : ReadState) : Console where
  server := console.server.setObject id (some state.handle)
  host := state.host

namespace InputApi

/-- The requests that call `get_input_buffer`. -/
def takesInput : InputApi → Bool
  | .writeConsoleInput .. => true
  | _ => false

/-- The requests that call `get_output_buffer`. -/
def takesOutput : InputApi → Bool
  | .getConsoleInput .. => true
  | .readConsole .. => true
  | _ => false

abbrev reply (body : InputApi) (status : Status) : Reply := Reply.ofApi (.input body) status

variable (system : System)

/-- The bytes of a character of an injected key event, in a buffer of eight bytes. -/
def encodeInjected (codePage : CodePage) (unicode : Bool) (character : WChar) : List Byte :=
  if unicode then
    let encoded := system.wideCharToMultiByte codePage [character]
    if character = 0 then []
    else if encoded = [] ∨ 8 < encoded.length then [bc '?']
    else encoded
  else if character.toUInt8 = 0 then []
  else [character.toUInt8]

/-- The bytes of the `INPUT_RECORD`s whose words are given; only key-downs count. -/
def injectedBytes (codePage : CodePage) (unicode : Bool) : List UInt16 → List Byte
  | eventType :: _ :: down :: down' :: count :: _ :: _ :: character :: _ :: _ :: rest =>
      (if eventType ≠ 1 ∨ (down = 0 ∧ down' = 0) then []
        else
          (List.replicate (if count = 0 then 1 else count.toNat)
            (encodeInjected system codePage unicode character)).flatten) ++
        injectedBytes codePage unicode rest
  | _ => []

/-- The number of input records a token stands for. -/
def eventCount (processedInput : Bool) : Token → Nat
  | .ignoredSequence => 0
  | .keyEvent key =>
      if processedInput && key.keyDown && (key.matchesCtrlC || key.matchesCtrlBreak) then 0 else 1
  | .textUnits chars => if processedInput && chars == [3] then 0 else chars.length

/-- The loop of `ConsolepGetNumberOfInputEvents` over the peeked bytes. -/
def countLoop (codePage : CodePage) (processedInput : Bool) : Loop (List Byte × Nat) Nat where
  body state :=
    match system.decodeOneInputToken codePage state.1 with
    | .needMore => .leave state.2
    | .token token length =>
        .next (state.1.drop length, state.2 + eventCount processedInput token)
  measure state := state.1.length
  decreases := by
    intro state next pass
    split at pass
    · cases pass
    · rename_i token length decoded
      cases pass
      have positive := Platform.decodeOneInputToken_positive decoded
      have bounded := Platform.decodeOneInputToken_bounded decoded
      simp only [List.length_drop]
      omega

/-- `ConsolepGetNumberOfInputEvents` -/
def readyEvents (server : ServerState) (state : ReadState) : Nat :=
  (countLoop system server.inputCodePage server.inputMode.processedInput).run
      (state.window (65536 - state.pendingPrefix.length), 0) +
    (if state.handle.decodedInputPending.isSome then 1 else 0)

variable (environment : Environment) (console : Console) (object : Handle) (handle : ObjectHandle)

/-- What a read takes from the server. -/
def readCall (server : ServerState) (capacity : Nat) (processControlZ : Bool) : ReadCall where
  codePage := server.inputCodePage
  mode := server.inputMode
  processes := server.pids
  capacity := capacity
  processControlZ := processControlZ

/-- The parameters of a line-input read. -/
def lineCall (server : ServerState) (capacity : Nat) (unicode processControlZ : Bool) :
    CookedCall :=
  { readCall server capacity processControlZ with
    unicode := unicode
    outputMode := server.outputMode }

/-- The state a line-input read starts in. -/
def lineState : CookedState :=
  { read := ⟨handle, console.host⟩
    screen := console.server.activeBuffer
    title := console.server.title }

/-- The server after a line-input read: the handle, the active screen buffer, the title and, if
the line was echoed, the command history of the handle's owner. -/
def afterLine (state : CookedState) : Console :=
  let server := console.server.setObject object (some state.read.handle)
  let server :=
    match server.activeScreenBuffer, state.screen with
    | some index, some buffer => server.setScreenBuffer index buffer
    | _, _ => server
  let histories :=
    match state.completed with
    | some line =>
        if server.inputMode.echoInput then
          server.commandHistories.addForProcess handle.owningProcess line
            (server.historyFlags &&& 1 != 0)
        else server.commandHistories
    | none => server.commandHistories
  ⟨{ server with title := state.title, commandHistories := histories }, state.read.host⟩

/-- The reply data of `ReadConsole`. -/
def readConsoleData (unicode processControlZ : Bool) (bytes : List Byte) : ReplyData :=
  .api (.input (.readConsole unicode processControlZ bytes.length))

/-- `ConsolepReadConsole` -/
def readConsoleRequest (fuel capacity : Nat) (unicode processControlZ : Bool) : Dispatched :=
  let server := console.server
  let call := readCall server capacity processControlZ
  let data := readConsoleData unicode processControlZ
  if server.inputMode.lineInput then
    match Cooked.readConsole environment.system.toPlatform environment.device
      (lineCall server capacity unicode processControlZ) fuel (lineState console handle) with
    | none => none
    | some (_, .error fault) => some (.error fault)
    | some (state, .ok reply) =>
        some (.ok (afterLine console object handle state, .ofRead id data reply))
  else if unicode then
    let read := UnicodeRead.rawUnicodeRead environment.system.toPlatform call ⟨handle, console.host⟩
    some (.ok (console.afterRead object read.1, .ofRead unitBytes (data ∘ unitBytes) read.2))
  else
    let read := ByteRead.rawAnsiRead environment.system.toPlatform call ⟨handle, console.host⟩
    some (.ok (console.afterRead object read.1, .ofRead id data read.2))

/-- `ConsolepGetConsoleInput`; an output buffer holds whole records only. -/
def getConsoleInputRequest (capacity : Nat) (flags : UInt16) (unicode : Bool) :
    Console × Outcome :=
  let body (count : Nat) : InputApi := .getConsoleInput flags unicode count
  if flags &&& 0xfffc ≠ 0 then (console, .complete (reply (body 0) .invalidParameter) false)
  else
    let call : RecordCall :=
      { codePage := console.server.inputCodePage
        mode := console.server.inputMode
        processes := console.server.pids
        unicode := unicode
        capacity := capacity / 20
        isPeek := flags &&& 1 != 0
        waitAllowed := flags &&& 2 == 0 }
    let read := Records.getConsoleInput environment.system.toPlatform call ⟨handle, console.host⟩
    (console.afterRead object read.1,
      .ofRead (·.flatMap inputRecordBytes) (fun records => .api (.input (body records.length)))
        read.2)

/-- `ConsolepWriteConsoleInput` -/
def writeConsoleInputRequest (input : List Byte) (unicode append : Bool) : Console × Reply :=
  let server := console.server
  if input.length % 20 ≠ 0 then
    (console, reply (.writeConsoleInput unicode append 0) .invalidParameter)
  else
    let codePage :=
      if server.inputCodePage = 0 then environment.system.getOemCp else server.inputCodePage
    let bytes := injectedBytes environment.system codePage unicode (ScreenBuffer.words input)
    let flushed : Console :=
      if append then console
      else ⟨server.setObject object (some handle.flush), console.host.flushInputBuffer⟩
    (⟨flushed.server, flushed.host.injectInputBytes bytes⟩,
      reply (.writeConsoleInput unicode append (clampUlong (input.length / 20))) .success)

/-- `ConsolepFlushInputBuffer`, and `console_io_raw_flush`. -/
def flushRequest : Console :=
  ⟨console.server.setObject object (some handle.flush), console.host.flushInputBuffer⟩

/-- The branches of `dispatch_message` for the input handle `object`. -/
def handleRequest (fuel : Nat) (input : List Byte) (capacity : Nat) (request : InputApi) :
    Dispatched :=
  match request with
  | .flushInputBuffer =>
      some (.ok (flushRequest console object handle, .complete (reply request .success) false))
  | .writeConsoleInput unicode append _ =>
      let written := writeConsoleInputRequest environment console object handle input unicode append
      some (.ok (written.1, .complete written.2 false))
  | .getNumberOfInputEvents _ =>
      let count := readyEvents environment.system console.server ⟨handle, console.host⟩
      some (.ok (console,
        .complete (reply (.getNumberOfInputEvents (clampUlong count)) .success) false))
  | .getConsoleInput flags unicode _ =>
      some (.ok (getConsoleInputRequest environment console object handle capacity flags unicode))
  | .readConsole unicode processControlZ _ =>
      readConsoleRequest environment console object handle fuel capacity unicode processControlZ

end InputApi

end Conhost
