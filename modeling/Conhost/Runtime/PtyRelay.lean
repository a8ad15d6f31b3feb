import Conhost.Input.KeyEncoder
import Conhost.Runtime.TerminalOutput

/-!
# The relay between a host and a pseudo console

A headless session runs its client under a pseudo console and relays in both directions: what the
pseudo console writes goes to the output of the host, and what the host is given as input, bytes of
a pipe or key events of a console, goes to the pseudo console. The loop polls both sides and the
client process, and it outlives the client until the output is over.
-/

namespace Conhost

/-- `write_bytes`, with the results of its calls of `WriteFile`: what gets written, and the error
that ends it. The call after the listed ones writes what is left. -/
def writeBytes : List (Except UInt32 Nat) → List Byte → List Byte × Option UInt32
  | _, [] => ([], none)
  | [], data => (data, none)
  | .error error :: _, _ :: _ => ([], some error)
  | .ok written :: later, byte :: data =>
      let rest := writeBytes later ((byte :: data).drop written)
      ((byte :: data).take written ++ rest.1, rest.2)

theorem writeBytes_front (calls : List (Except UInt32 Nat)) (data : List Byte) :
    (writeBytes calls data).1 <+: data := by
  fun_induction writeBytes calls data with
  | case1 | case3 => exact List.nil_prefix
  | case2 => exact List.prefix_refl _
  | case4 written later byte data rest hypothesis =>
      have whole := (List.prefix_append_right_inj ((byte :: data).take written)).mpr hypothesis
      rwa [List.take_append_drop] at whole

theorem writeBytes_of_none {calls : List (Except UInt32 Nat)} {data : List Byte}
    (succeeds : (writeBytes calls data).2 = none) : (writeBytes calls data).1 = data := by
  fun_induction writeBytes calls data with
  | case1 | case2 => rfl
  | case3 => cases succeeds
  | case4 written later byte data rest hypothesis =>
      rw [hypothesis succeeds, List.take_append_drop]

/-- The records `ReadConsoleInputW` returns, by `EventType`. -/
inductive ConsoleEvent where
  | key (key : KeyEvent)
  | windowBufferSize (size : Coord)
  | other
deriving DecidableEq

/-- `ReadConsoleInputW`, and the calls of `WriteFile` for the bytes of its record. -/
structure ConsoleRead where
  event : Except UInt32 ConsoleEvent
  writes : List (Except UInt32 Nat) := []

/-- The calls for the input of the host, which is a console, a pipe or neither. -/
inductive HostRead where
  /-- `GetNumberOfConsoleInputEvents` fails, or there is one read for every event it counts. -/
  | console (reads : Except UInt32 (List ConsoleRead))
  | pipe (peek : Except UInt32 Nat) (read : Except UInt32 (List Byte))
      (writes : List (Except UInt32 Nat))
  | other

structure RelayPoll where
  /-- `none` without a signal handle. -/
  signal : Option WaitState := none
  peek : Except UInt32 Nat
  read : Except UInt32 (List Byte) := .ok []
  writes : List (Except UInt32 Nat) := []
  input : HostRead := .other
  process : WaitState := .timeout
  /-- `GetTickCount64` -/
  tick : UInt64 := 0

structure PtyRelay where
  /-- What has been written to the output of the host. -/
  hostOutput : List Byte := []
  /-- What has been written to the input of the pseudo console. -/
  ptyInput : List Byte := []
  /-- The calls of `ResizePseudoConsole`. -/
  sizes : List Coord := []
  signaledTermination : Bool := false
  hostInputPipeEof : Bool := false
  processExited : Bool := false
  drainingAfterExit : Bool := false
  drainStartTick : UInt64 := 0

inductive RelayEnding where
  | broken
  | drained
  | failed (error : TerminalError)
deriving DecidableEq

namespace PtyRelay

variable (relay : PtyRelay) (platform : Platform)

/-- A `write_bytes` to the output of the host. -/
def writeOutput (calls : List (Except UInt32 Nat)) (data : List Byte) :
    Except (PtyRelay × TerminalError) PtyRelay :=
  let relay' := { relay with hostOutput := relay.hostOutput ++ (writeBytes calls data).1 }
  match (writeBytes calls data).2 with
  | some error => .error (relay', ⟨"WriteFile failed", error⟩)
  | none => .ok relay'

/-- A `write_bytes` to the input of the pseudo console. -/
def writeInput (calls : List (Except UInt32 Nat)) (data : List Byte) :
    Except (PtyRelay × TerminalError) PtyRelay :=
  let relay' := { relay with ptyInput := relay.ptyInput ++ (writeBytes calls data).1 }
  match (writeBytes calls data).2 with
  | some error => .error (relay', ⟨"WriteFile failed", error⟩)
  | none => .ok relay'

/-- `DSR CPR` -/
def requestCursor : List Byte := [0x1b, bc '[', bc '6', bc 'n']

/-- `DA1`, the focus events and the win32-input-mode -/
def handshake : List Byte :=
  [0x1b, bc '[', bc 'c', 0x1b, bc '[', bc '?', bc '1', bc '0', bc '0', bc '4', bc 'h', 0x1b, bc '[',
    bc '?', bc '9', bc '0', bc '0', bc '1', bc 'h']

/-- `send_initial_terminal_handshake`, with the calls of its two writes -/
def sendInitialTerminalHandshake (hasOutput inheritCursor : Bool)
    (cursorCalls calls : List (Except UInt32 Nat)) : Except (PtyRelay × TerminalError) PtyRelay :=
  if !hasOutput then .ok relay
  else do
    let relay ← if inheritCursor then relay.writeOutput cursorCalls requestCursor else .ok relay
    relay.writeOutput calls handshake

/-- `pump_output_from_pseudoconsole`; also whether there was output and whether the pipe is
broken. -/
def pumpOutput (poll : RelayPoll) : Except (PtyRelay × TerminalError) (PtyRelay × Bool × Bool) :=
  match poll.peek with
  | .error error =>
      if error = Win32.errorBrokenPipe then .ok (relay, false, true)
      else .error (relay, ⟨"PeekNamedPipe on pseudo console output failed", error⟩)
  | .ok 0 => .ok (relay, false, false)
  | .ok available =>
      match poll.read with
      | .error error =>
          if error = Win32.errorBrokenPipe then .ok (relay, false, true)
          else .error (relay, ⟨"ReadFile on pseudo console output failed", error⟩)
      | .ok bytes =>
          let bytes := bytes.take (min available 8192)
          (relay.writeOutput poll.writes bytes).map fun relay => (relay, !bytes.isEmpty, false)

/-- The loop over the pending events of a console. -/
def pumpEvents (relay : PtyRelay) : List ConsoleRead → Except (PtyRelay × TerminalError) PtyRelay
  | [] => .ok relay
  | ⟨.error error, _⟩ :: _ => .error (relay, ⟨"ReadConsoleInputW failed", error⟩)
  | ⟨.ok (.key key), writes⟩ :: later => do
      let relay ← relay.writeInput writes (KeyInputEncoder.encode platform key)
      pumpEvents relay later
  | ⟨.ok (.windowBufferSize size), _⟩ :: later =>
      pumpEvents { relay with sizes := relay.sizes ++ [size] } later
  | ⟨.ok .other, _⟩ :: later => pumpEvents relay later

/-- `pump_console_input_to_pseudoconsole` -/
def pumpInput : HostRead → Except (PtyRelay × TerminalError) PtyRelay
  | .console (.error error) => .error (relay, ⟨"GetNumberOfConsoleInputEvents failed", error⟩)
  | .console (.ok reads) => relay.pumpEvents platform reads
  | .pipe (.error error) _ _ =>
      if error = Win32.errorBrokenPipe then .ok { relay with hostInputPipeEof := true }
      else .error (relay, ⟨"PeekNamedPipe on host input pipe failed", error⟩)
  | .pipe (.ok 0) _ _ => .ok relay
  | .pipe (.ok _) (.error error) _ =>
      if error = Win32.errorBrokenPipe then .ok { relay with hostInputPipeEof := true }
      else .error (relay, ⟨"ReadFile from host input pipe failed", error⟩)
  | .pipe (.ok available) (.ok bytes) writes =>
      relay.writeInput writes (bytes.take (min available 4096))
  | .other => .ok relay

/-- The end of a pass, once the client process has been waited for. -/
def drain (hadOutput brokenPipe : Bool) (tick : UInt64) : Pass PtyRelay (PtyRelay × RelayEnding) :=
  if !relay.processExited then .next relay
  else if brokenPipe then .leave (relay, .broken)
  else if hadOutput then .next { relay with drainingAfterExit := false }
  else if !relay.drainingAfterExit then
    .next { relay with drainingAfterExit := true, drainStartTick := tick }
  else if TerminalThread.drainTimeoutMs ≤ tick - relay.drainStartTick then .leave (relay, .drained)
  else .next relay

/-- The wait for the client process, and what comes after it in a pass. -/
def waitClient (process : WaitState) (hadOutput brokenPipe : Bool) (tick : UInt64) :
    Pass PtyRelay (PtyRelay × RelayEnding) :=
  match process with
  | .failed error =>
      .leave (relay, .failed ⟨"WaitForSingleObject on ConPTY client failed", error⟩)
  | .timeout => relay.drain hadOutput brokenPipe tick
  | .signaled => { relay with processExited := true }.drain hadOutput brokenPipe tick

/-- The relay takes no more input. -/
def inputClosed : Bool :=
  relay.processExited || relay.signaledTermination || relay.hostInputPipeEof

/-- The wait for the signal handle; a signal also terminates the client process. -/
def noteSignal (signal : Option WaitState) : PtyRelay :=
  if signal = some .signaled then { relay with signaledTermination := true } else relay

/-- One pass of the loop of `run_with_pseudoconsole`. -/
def pass (poll : RelayPoll) : Pass PtyRelay (PtyRelay × RelayEnding) :=
  match (relay.noteSignal poll.signal).pumpOutput poll with
  | .error (relay, error) => .leave (relay, .failed error)
  | .ok (relay, hadOutput, brokenPipe) =>
      match if relay.inputClosed then .ok relay else relay.pumpInput platform poll.input with
      | .error (relay, error) => .leave (relay, .failed error)
      | .ok relay => relay.waitClient poll.process hadOutput brokenPipe poll.tick

/-- What `run_with_pseudoconsole` returns after the loop. -/
def conclude (ending : RelayEnding) (exitCode : Except UInt32 UInt32) :
    Except TerminalError UInt32 :=
  match ending, exitCode with
  | .failed error, _ => .error error
  | _, .error error => .error ⟨"GetExitCodeProcess failed", error⟩
  | _, .ok code => .ok code

end PtyRelay

end Conhost
