import Conhost.Core.Utf8Pending
import Conhost.Screen.Pieces
import Conhost.Screen.Snapshot

/-!
# The output thread of a windowed terminal

A window that hosts a terminal has a thread that polls a pipe, decodes what it reads as UTF-8,
writes it to a screen buffer of its own and publishes a snapshot for the window to paint. Two
hosts run such a thread: `windowed_pty_output_thread_proc` over a pseudo console, and
`terminal_output_thread_proc` over the pipe of a terminal handoff. After the client has exited the
thread goes on until nothing has come for two seconds.
-/

namespace Conhost

/-- `WaitForSingleObject` without a timeout. -/
inductive WaitState where
  | signaled
  | timeout
  | failed (error : UInt32)
deriving DecidableEq

namespace Win32

def errorGenFailure : UInt32 := 31
def errorBrokenPipe : UInt32 := 109
def errorNoData : UInt32 := 232
def errorPipeNotConnected : UInt32 := 233
def errorOperationAborted : UInt32 := 995

/-- The errors that are taken for the end of the output. -/
def endsOutput (error : UInt32) : Bool :=
  error == errorBrokenPipe || error == errorNoData || error == errorPipeNotConnected ||
    error == errorOperationAborted

end Win32

/-- What the calls of one pass return. -/
structure TerminalPoll where
  stop : WaitState := .timeout
  client : WaitState := .timeout
  /-- The number of bytes `PeekNamedPipe` reports. -/
  peek : Except UInt32 Nat
  read : Except UInt32 (List Byte) := .ok []
  /-- `GetTickCount64` -/
  tick : UInt64 := 0
  /-- There is memory for the text that is decoded, and for the text of an error. -/
  allocates : Bool := true
deriving DecidableEq

/-- `SessionError`, or `ComEmbeddingError` with the `HRESULT` of the same error. -/
structure TerminalError where
  context : String
  win32Error : UInt32
deriving DecidableEq

/-- What differs between the two hosts. -/
structure TerminalHost where
  /-- There is a client process to wait for. -/
  hasClient : Bool
  /-- The client is waited for again after it has been seen to exit. -/
  waitsAgain : Bool
  stopFailed : String
  clientFailed : String
  peekFailed : String
  readFailed : String
  exitCodeFailed : String
  unhandledException : String

namespace TerminalHost

/-- `windowed_pty_output_thread_proc` -/
def windowedPty : TerminalHost where
  hasClient := true
  waitsAgain := true
  stopFailed := "WaitForSingleObject failed for windowed terminal stop event"
  clientFailed := "WaitForSingleObject failed for windowed terminal client process"
  peekFailed := "PeekNamedPipe failed for windowed terminal output"
  readFailed := "ReadFile failed for windowed terminal output"
  exitCodeFailed := "GetExitCodeProcess failed for windowed terminal client"
  unhandledException := "Unhandled exception in windowed terminal output thread"

/-- `terminal_output_thread_proc`, with or without a client process -/
def terminalHandoff (hasClient : Bool) : TerminalHost where
  hasClient := hasClient
  waitsAgain := false
  stopFailed := "WaitForSingleObject failed for terminal-handoff stop event"
  clientFailed := "WaitForSingleObject failed for delegated client process"
  peekFailed := "PeekNamedPipe failed for terminal-handoff output"
  readFailed := "ReadFile failed for terminal-handoff output"
  exitCodeFailed := "GetExitCodeProcess failed for terminal-handoff client"
  unhandledException := "Unhandled exception in terminal-handoff output thread"

end TerminalHost

/-- The messages the thread posts to the window. -/
inductive WindowMessage where
  /-- `WM_APP + 1` -/
  | invalidate
  /-- `WM_CLOSE` -/
  | close
deriving DecidableEq

structure TerminalThread where
  screen : ScreenBuffer
  /-- The bytes that are pending in the decoder. -/
  pending : List Byte := []
  clientExited : Bool := false
  drainingAfterExit : Bool := false
  drainStartTick : UInt64 := 0
  published : Option ScreenBufferSnapshot := none
  posted : List WindowMessage := []

/-- Why the loop was left. -/
inductive TerminalEnding where
  | canceled
  | closed (error : UInt32)
  | drained
  | failed (error : TerminalError)
  /-- An exception was thrown. -/
  | unhandled
deriving DecidableEq

/-- What the thread leaves to the one that waits for it. -/
inductive TerminalResult where
  | succeeded (exitCode : UInt32)
  | failed (error : TerminalError)
  /-- The `catch (...)` -/
  | unhandled
deriving DecidableEq

/-- The exit code or the error that is kept of a result. -/
def TerminalResult.kept (host : TerminalHost) : TerminalResult → Except TerminalError UInt32
  | .succeeded exitCode => .ok exitCode
  | .failed error => .error error
  | .unhandled => .error ⟨host.unhandledException, Win32.errorGenFailure⟩

/-- `k_terminal_output_mode` -/
def terminalOutputMode : OutputMode := ⟨0xf⟩

namespace TerminalThread

/-- The settings of the screen buffer of a terminal of the given size. -/
def settings (size : Coord) : ScreenBuffer.Settings :=
  { ScreenBuffer.defaultSettings with
    bufferSize := size
    windowSize := size
    maximumWindowSize := size }

variable (thread : TerminalThread)

def post (message : WindowMessage) : TerminalThread :=
  { thread with posted := thread.posted ++ [message] }

/-- `publish_snapshot_best_effort` -/
def publish (hasWindow : Bool) : TerminalThread :=
  match thread.screen.makeViewportSnapshot with
  | none => thread
  | some snapshot =>
      let published := { thread with published := some snapshot }
      if hasWindow then published.post .invalidate else published

/-- A thread that is about to be started. Only the handoff host has its window by then. -/
def initial (size : Coord) (hasWindow : Bool) : TerminalThread :=
  publish { screen := .create (settings size) } hasWindow

/-- A text is written to the screen, and a snapshot of it is published. -/
def showText (text : List WChar) : TerminalThread :=
  publish { thread with
    screen := (applyTextToScreenBuffer thread.screen text terminalOutputMode none false).buffer }
    true

variable (platform : Platform)

/-- The bytes of one `ReadFile`. -/
def receive (bytes : List Byte) : TerminalThread :=
  if bytes = [] then thread
  else
    let decoded := Utf8Stream.decodeAppend platform thread.pending bytes
    let thread := { thread with pending := decoded.2 }
    if decoded.1 = [] then thread else thread.showText decoded.1

/-- `kDrainTimeoutMs` -/
def drainTimeoutMs : UInt64 := 2000

/-- The end of a pass: without a client the thread waits for nothing but more output. -/
def drain (hadOutput : Bool) (tick : UInt64) :
    Pass TerminalThread (TerminalThread × TerminalEnding) :=
  let thread := if hadOutput then { thread with drainingAfterExit := false } else thread
  if thread.clientExited && !hadOutput then
    if !thread.drainingAfterExit then
      .next { thread with drainingAfterExit := true, drainStartTick := tick }
    else if drainTimeoutMs ≤ tick - thread.drainStartTick then .leave (thread, .drained)
    else .next thread
  else .next thread

/-- The wait for the client process. -/
def noteExit (host : TerminalHost) (client : WaitState) : Except TerminalError TerminalThread :=
  if host.hasClient && (host.waitsAgain || !thread.clientExited) then
    match client with
    | .signaled => .ok { thread with clientExited := true }
    | .failed error => .error ⟨host.clientFailed, error⟩
    | .timeout => .ok thread
  else .ok thread

end TerminalThread

/-- A call has failed. Without memory for the text of the error an exception is thrown. -/
def TerminalPoll.fail (poll : TerminalPoll) (error : TerminalError) : TerminalEnding :=
  if poll.allocates then .failed error else .unhandled

/-- `PeekNamedPipe` and `ReadFile`, through a buffer of 8192 bytes: what is read, or how the loop
is left. -/
def TerminalPoll.output (poll : TerminalPoll) (host : TerminalHost) :
    Except TerminalEnding (List Byte) :=
  match poll.peek with
  | .error error =>
      .error (if Win32.endsOutput error then .closed error
        else poll.fail ⟨host.peekFailed, error⟩)
  | .ok 0 => .ok []
  | .ok available =>
      match poll.read with
      | .error error =>
          .error (if Win32.endsOutput error then .closed error
            else poll.fail ⟨host.readFailed, error⟩)
      | .ok bytes => .ok (bytes.take (min available 8192))

namespace TerminalThread

variable (thread : TerminalThread) (platform : Platform) (host : TerminalHost)

/-- One pass of the loop. -/
def pass (poll : TerminalPoll) : Pass TerminalThread (TerminalThread × TerminalEnding) :=
  match poll.stop with
  | .signaled => .leave (thread, .canceled)
  | .failed error => .leave (thread, poll.fail ⟨host.stopFailed, error⟩)
  | .timeout =>
      match thread.noteExit host poll.client with
      | .error error => .leave (thread, poll.fail error)
      | .ok thread =>
          match poll.output host with
          | .error ending => .leave (thread, ending)
          | .ok bytes =>
              -- `decode_append` throws if it gets no memory.
              if !bytes.isEmpty && !poll.allocates then .leave (thread, .unhandled)
              else (thread.receive platform bytes).drain (!bytes.isEmpty) poll.tick

/-- What a pass reads: nothing if the loop is left before. -/
def reads (poll : TerminalPoll) : List Byte :=
  match poll.stop, thread.noteExit host poll.client, poll.output host with
  | .timeout, .ok _, .ok bytes => bytes
  | _, _, _ => []

/-- The text that stays on a window that is held open. -/
def exitMessage (exitCode : UInt32) : List WChar :=
  ("\r\n[process exited with code " ++ toString exitCode.toNat ++ "]\r\n").toList.map wc

/-- The `catch (...)` of the thread, which closes a window that is held open, too. -/
def catchAll (canceled : Bool) : TerminalThread × TerminalResult :=
  (if canceled then thread else thread.post .close, .unhandled)

/-- What follows the loop, the text of an error of `GetExitCodeProcess` included: the state of the
thread, and its result. -/
def conclude (holdWindowOnExit : Bool) (exitCode : Except UInt32 UInt32) (allocates : Bool)
    (ending : TerminalEnding) : TerminalThread × TerminalResult :=
  match ending with
  | .failed error => (thread, .failed error)
  | .unhandled => thread.catchAll false
  | ending =>
      match if host.hasClient then exitCode else .ok 0 with
      | .error error =>
          if allocates then (thread, .failed ⟨host.exitCodeFailed, error⟩)
          else thread.catchAll (ending = .canceled)
      | .ok code =>
          (if ending = .canceled then thread
            else if holdWindowOnExit then thread.showText (exitMessage code)
            else thread.post .close, .succeeded code)

end TerminalThread

end Conhost
