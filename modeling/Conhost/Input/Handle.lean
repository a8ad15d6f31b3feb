import Conhost.Input.Decode
import Conhost.Lib.Loop

/-!
# Input handles and the host's input queue

All input handles of a server read from one byte queue. A handle keeps, across
reads, the bytes of a token it has started to take off the queue, a UTF-16 unit
that did not fit the last reply and the line being edited.
-/

namespace Conhost

/-- `PendingInputBytes`: the drained front of the stream, in an array of 64 bytes. -/
abbrev PendingInputBytes := { bytes : List Byte // bytes.length ≤ 64 }

namespace PendingInputBytes

def clear : PendingInputBytes := ⟨[], by simp⟩

/-- `PendingInputBytes::append` fails if the bytes do not fit. -/
def append (pending : PendingInputBytes) (data : List Byte) : Option PendingInputBytes :=
  if fits : (pending.1 ++ data).length ≤ 64 then some ⟨pending.1 ++ data, fits⟩ else none

def consumePrefix (pending : PendingInputBytes) (count : Nat) : PendingInputBytes :=
  ⟨pending.1.drop count, by have bound := pending.2; rw [List.length_drop]; omega⟩

end PendingInputBytes

inductive ObjectKind where
  | input
  | output
deriving DecidableEq, Repr

/-- `ObjectHandle`; the shared screen buffer is named by its place in the server's store. -/
structure ObjectHandle where
  kind : ObjectKind := .input
  desiredAccess : UInt32 := 0
  shareMode : UInt32 := 0
  owningProcess : Handle := 0
  screenBuffer : Option Nat := none
  decodedInputPending : Option WChar := none
  pendingInputBytes : PendingInputBytes := .clear
  cookedReadPending : List WChar := []
  cookedLineInProgress : List WChar := []
  cookedLineCursor : Nat := 0
  cookedInsertMode : Bool := true
deriving DecidableEq

/-- The console control events forwarded to the host. -/
inductive ControlEvent where
  | ctrlC
  | ctrlBreak
deriving DecidableEq, Repr

/-- What `HostIo` holds: the input queue and whether the host has closed its end, whether there is
an output target, and what has been sent to the target and over the signal pipe. -/
structure HostIo where
  inputQueue : List Byte := []
  inputDisconnected : Bool := false
  hasOutput : Bool := true
  output : List Byte := []
  endTasks : List (UInt32 × ControlEvent) := []
deriving DecidableEq

/-- Where an error that ends the server comes from: from a call of the device or the host that
failed, or from the server itself. -/
inductive Fault where
  | primitive
  | internal
deriving DecidableEq, Repr

/-- The environment's part in writing to the host: whether `WriteFile` fails, by what was written
before and what is to be written. -/
structure Device where
  writeFails : List Byte → List Byte → Bool

/-- `HostIo::write_output_bytes`; without an output target the bytes are discarded. -/
def HostIo.writeOutputBytes (host : HostIo) (device : Device) (bytes : List Byte) :
    Except Fault HostIo :=
  if bytes = [] ∨ !host.hasOutput then .ok host
  else if device.writeFails host.output bytes then .error .primitive
  else .ok { host with output := host.output ++ bytes }

/-- `state.for_each_process(... host_io.send_end_task(...))` -/
def HostIo.forward (host : HostIo) (processes : List UInt32) (event : ControlEvent) : HostIo :=
  { host with endTasks := host.endTasks ++ processes.map fun pid => (pid, event) }

/-- The console input mode flags. -/
structure InputMode where
  flags : UInt32
deriving DecidableEq, Repr

namespace InputMode

def processedInput (mode : InputMode) : Bool := mode.flags &&& 1 != 0
def lineInput (mode : InputMode) : Bool := mode.flags &&& 2 != 0
def echoInput (mode : InputMode) : Bool := mode.flags &&& 4 != 0

end InputMode

namespace KeyEvent

/-- `LEFT_CTRL_PRESSED | RIGHT_CTRL_PRESSED` held and no Alt key. -/
def controlOnly (key : KeyEvent) : Bool :=
  key.controlKeyState &&& 0x000c != 0 && key.controlKeyState &&& 0x0003 == 0

/-- `key_event_matches_ctrl_c` -/
def matchesCtrlC (key : KeyEvent) : Bool := key.controlOnly && key.virtualKeyCode == 0x43

/-- `key_event_matches_ctrl_break`; the key is `VK_CANCEL`. -/
def matchesCtrlBreak (key : KeyEvent) : Bool := key.controlOnly && key.virtualKeyCode == 0x03

end KeyEvent

/-- What a read of an input handle works on. -/
structure ReadState where
  handle : ObjectHandle := {}
  host : HostIo := {}
deriving DecidableEq

/-- What a read request is answered with; only successful replies carry data. -/
inductive ReadReply (α : Type) where
  | pending
  | complete (status : Status) (data : List α)
deriving DecidableEq

def ReadReply.data {α : Type} : ReadReply α → List α
  | .pending => []
  | .complete _ data => data

namespace ReadState

def pendingPrefix (state : ReadState) : List Byte := state.handle.pendingInputBytes.1

def setPrefix (state : ReadState) (bytes : PendingInputBytes) : ReadState :=
  { state with handle := { state.handle with pendingInputBytes := bytes } }

def setQueue (state : ReadState) (bytes : List Byte) : ReadState :=
  { state with host := { state.host with inputQueue := bytes } }

def forward (state : ReadState) (processes : List UInt32) (event : ControlEvent) : ReadState :=
  { state with host := state.host.forward processes event }

/-- The bytes the handle has still to read. -/
def stream (state : ReadState) : List Byte := state.pendingPrefix ++ state.host.inputQueue

/-- `host_io.input_bytes_available() == 0 && pending_prefix.empty()` -/
def exhausted (state : ReadState) : Bool :=
  state.host.inputQueue.isEmpty && state.pendingPrefix.isEmpty

/-- The drained prefix followed by at most `limit` bytes peeked from the queue. -/
def window (state : ReadState) (limit : Nat) : List Byte :=
  state.pendingPrefix ++ state.host.inputQueue.take limit

/-- The 64-byte array the read loops decode from. -/
def peekHead (state : ReadState) : List Byte := state.window (64 - state.pendingPrefix.length)

/-- `consume_from_stream` -/
def consume (state : ReadState) (count : Nat) : ReadState :=
  (state.setPrefix (state.handle.pendingInputBytes.consumePrefix count)).setQueue
    (state.host.inputQueue.drop (count - min count state.pendingPrefix.length))

/-- Moves the peeked queue bytes into the prefix if they fit. -/
def drain (state : ReadState) (peeked : Nat) : ReadState :=
  match state.handle.pendingInputBytes.append (state.host.inputQueue.take peeked) with
  | some bytes => (state.setPrefix bytes).setQueue (state.host.inputQueue.drop peeked)
  | none => state

/-- Bytes read from the host by the input monitor. -/
def arrive (state : ReadState) (bytes : List Byte) : ReadState :=
  state.setQueue (state.host.inputQueue ++ bytes)

/-- `host_io.flush_input_buffer()` and the handle's buffers cleared with it on Ctrl+Break. -/
def flushInput (state : ReadState) : ReadState :=
  { state with
    host.inputQueue := []
    handle.decodedInputPending := none
    handle.pendingInputBytes := .clear
    handle.cookedReadPending := []
    handle.cookedLineInProgress := [] }

/-- The reply of a read that has nothing to return: the request is kept unless no byte can
follow. -/
def wait {α : Type} (state : ReadState) : ReadState × ReadReply α :=
  (state, if state.host.inputDisconnected then .complete .unsuccessful [] else .pending)

/-- In processed mode Ctrl+C bytes at the front of the queue are taken out, and forwarded, before
anything else. -/
def stripCtrlC (state : ReadState) (processes : List UInt32) : ReadState :=
  { state with
    host.inputQueue := state.host.inputQueue.dropWhile (· == 3)
    host.endTasks := state.host.endTasks ++ (state.host.inputQueue.takeWhile (· == 3)).flatMap
      fun _ => processes.map fun pid => (pid, .ctrlC) }

/-- The same event forwarded `count` times. -/
def forwardTimes (state : ReadState) (processes : List UInt32) (event : ControlEvent)
    (count : Nat) : ReadState :=
  { state with host.endTasks := state.host.endTasks ++
      (List.replicate count (processes.map fun pid => (pid, event))).flatten }

/-- `decoded_input_pending` -/
def setHeld (state : ReadState) (unit : Option WChar) : ReadState :=
  { state with handle := { state.handle with decodedInputPending := unit } }

variable (state : ReadState)

@[simp]
theorem stream_forwardTimes (processes : List UInt32) (event : ControlEvent) (count : Nat) :
    (state.forwardTimes processes event count).stream = state.stream := rfl

@[simp]
theorem stream_setHeld (unit : Option WChar) : (state.setHeld unit).stream = state.stream := rfl

@[simp]
theorem stream_forward (processes : List UInt32) (event : ControlEvent) :
    (state.forward processes event).stream = state.stream := rfl

@[simp]
theorem stream_flushInput : state.flushInput.stream = [] := rfl

@[simp]
theorem stream_arrive (bytes : List Byte) :
    (state.arrive bytes).stream = state.stream ++ bytes := by
  simp [stream, arrive, setQueue, pendingPrefix]

theorem exhausted_iff : state.exhausted = true ↔ state.stream = [] := by
  simp [exhausted, stream, and_comm]

theorem exhausted_eq_false_iff : state.exhausted = false ↔ state.stream ≠ [] := by
  rw [← Bool.not_eq_true, exhausted_iff]

theorem window_eq (limit : Nat) :
    state.window limit = state.stream.take (state.pendingPrefix.length + limit) := by
  simp [window, stream, List.take_append]

theorem peekHead_eq : state.peekHead = state.stream.take 64 := by
  have bound : state.pendingPrefix.length ≤ 64 := state.handle.pendingInputBytes.2
  rw [peekHead, window_eq]
  congr 1
  omega

@[simp]
theorem stream_consume (count : Nat) : (state.consume count).stream = state.stream.drop count := by
  simp only [stream, consume, setQueue, setPrefix, pendingPrefix,
    PendingInputBytes.consumePrefix, List.drop_append]
  congr 2
  omega

@[simp]
theorem stream_drain (peeked : Nat) : (state.drain peeked).stream = state.stream := by
  unfold drain
  split
  · rename_i bytes appended
    simp only [PendingInputBytes.append] at appended
    split at appended
    · cases appended
      simp [stream, setQueue, setPrefix, pendingPrefix]
    · cases appended
  · rfl

@[simp]
theorem inputDisconnected_drain (peeked : Nat) :
    (state.drain peeked).host.inputDisconnected = state.host.inputDisconnected := by
  unfold drain
  split <;> rfl

@[simp]
theorem decodedInputPending_drain (peeked : Nat) :
    (state.drain peeked).handle.decodedInputPending = state.handle.decodedInputPending := by
  unfold drain
  split <;> rfl

theorem stripCtrlC_of_head (processes : List UInt32)
    (other : state.host.inputQueue.head? ≠ some 3) : state.stripCtrlC processes = state := by
  have none : state.host.inputQueue.takeWhile (· == 3) = [] := by
    cases queue : state.host.inputQueue with
    | nil => rfl
    | cons first rest =>
        rw [List.takeWhile_cons_of_neg]
        rw [queue] at other
        simpa using other
  have all : state.host.inputQueue.dropWhile (· == 3) = state.host.inputQueue := by
    have whole := List.takeWhile_append_dropWhile (p := (· == 3)) (l := state.host.inputQueue)
    rwa [none, List.nil_append] at whole
  simp [stripCtrlC, none, all]

theorem stripCtrlC_eq_self (processes : List UInt32)
    (absent : ∀ byte ∈ state.host.inputQueue, byte ≠ 3) :
    state.stripCtrlC processes = state := by
  apply stripCtrlC_of_head
  intro head
  exact absent 3 (List.mem_of_head? head) rfl

theorem length_stripCtrlC_lt (processes : List UInt32)
    (head : state.host.inputQueue.head? = some 3) :
    (state.stripCtrlC processes).stream.length < state.stream.length := by
  obtain ⟨rest, queue⟩ := List.head?_eq_some_iff.mp head
  have shorter := (List.dropWhile_suffix (l := rest) (· == 3)).length_le
  simp [stream, stripCtrlC, pendingPrefix, queue]
  omega

theorem length_consume_lt {count : Nat} (positive : 0 < count) (unread : state.stream ≠ []) :
    (state.consume count).stream.length < state.stream.length := by
  have size := List.length_pos_of_ne_nil unread
  rw [stream_consume, List.length_drop]
  omega

end ReadState

end Conhost
