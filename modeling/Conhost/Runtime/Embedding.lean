import Conhost.Basic
import Conhost.Lib.Threads

/-!
# The embedding server

A console host that is started with `-Embedding` registers a COM object and waits for a handoff. Its
methods are called on threads of the COM runtime, any number of them at the same time, and each of
them works on the same `HandoffState`; the thread that waits is woken by an event and looks at the
state step by step. The steps of the methods are listed in the order of the source.
-/

namespace Conhost

abbrev HResult := UInt32

namespace HResult

def ok : HResult := 0
def invalidArg : HResult := 0x80070057
def noInterface : HResult := 0x80004002
def unexpected : HResult := 0x8000ffff

/-- `FAILED` -/
def failed (result : HResult) : Bool := 0x80000000 ≤ result

/-- `HRESULT_FROM_WIN32` -/
def ofWin32 (error : UInt32) : HResult :=
  if error = 0 ∨ 0x80000000 ≤ error then error else (error &&& 0xffff) ||| 0x80070000

/-- `to_win32_error_from_hresult` -/
def toWin32 (result : HResult) : UInt32 :=
  if result &&& 0xffff = 0 then 31 else result &&& 0xffff

end HResult

namespace Win32

def errorAlreadyInitialized : UInt32 := 1247

end Win32

/-- A handle of the caller, null or with the result of duplicating it. -/
abbrev IncomingHandle := Option (Except UInt32 UInt64)

/-- The duplicate, if there is one. -/
def IncomingHandle.duplicate : IncomingHandle → Option UInt64
  | some (.ok handle) => some handle
  | _ => none

/-- The `HRESULT` of the duplication. -/
def IncomingHandle.result : IncomingHandle → HResult
  | some (.error error) => .ofWin32 error
  | _ => .ok

structure PortableAttachMessage where
  idLowPart : UInt32 := 0
  idHighPart : Int32 := 0
  process : UInt64 := 0
  object : UInt64 := 0
  function : UInt32 := 0
  inputSize : UInt32 := 0
  outputSize : UInt32 := 0
deriving DecidableEq

structure ComHandoffPayload where
  serverHandle : Option UInt64 := none
  inputEvent : Option UInt64 := none
  signalPipe : Option UInt64 := none
  inboxProcess : Option UInt64 := none
  attach : PortableAttachMessage := {}
deriving DecidableEq

/-- The parts of the payload that are copied one by one. -/
inductive HandoffPart where
  | serverHandle
  | inputEvent
  | signalPipe
  | inboxProcess
  | attach
deriving DecidableEq

/-- A part is copied from another payload. -/
def ComHandoffPayload.copy (payload source : ComHandoffPayload) : HandoffPart → ComHandoffPayload
  | .serverHandle => { payload with serverHandle := source.serverHandle }
  | .inputEvent => { payload with inputEvent := source.inputEvent }
  | .signalPipe => { payload with signalPipe := source.signalPipe }
  | .inboxProcess => { payload with inboxProcess := source.inboxProcess }
  | .attach => { payload with attach := source.attach }

structure TerminalHandoffPayload where
  terminalInput : Option UInt64 := none
  terminalOutput : Option UInt64 := none
  signalPipe : Option UInt64 := none
  reference : Option UInt64 := none
  serverProcess : Option UInt64 := none
  clientProcess : Option UInt64 := none
  title : List WChar := []
  initialSize : Coord := ⟨80, 25⟩
  /-- `SW_SHOWNORMAL` -/
  showCommand : Nat := 1
deriving DecidableEq

structure TerminalStartupInfo where
  title : Option (List WChar) := none
  xCountChars : UInt32 := 0
  yCountChars : UInt32 := 0
  showWindow : UInt16 := 0
deriving DecidableEq

inductive EmbeddingCompletionState where
  | pending
  | consoleSucceeded
  | terminalSucceeded
  | failed
deriving DecidableEq

/-- The writes of the methods. -/
inductive HandoffAction where
  | setFailureHr (result : HResult)
  | setFailureContext (context : String)
  | store (state : EmbeddingCompletionState)
  | signal
  | copy (source : ComHandoffPayload) (part : HandoffPart)
  | emplace (payload : TerminalHandoffPayload)
deriving DecidableEq

/-- What is left of a method: its writes, and what it returns. -/
structure HandoffWork where
  actions : List HandoffAction
  result : HResult

/-- `set_failed_with_context` -/
def HandoffWork.fail (context : String) (result : HResult) : HandoffWork where
  actions := [.setFailureHr result, .setFailureContext context, .store .failed, .signal]
  result := result

def HandoffWork.succeed (state : EmbeddingCompletionState) : HandoffWork where
  actions := [.store state, .signal]
  result := .ok

def HandoffWork.after (work : HandoffWork) (actions : List HandoffAction) : HandoffWork :=
  { work with actions := actions ++ work.actions }

/-- A call of `IConsoleHandoff::EstablishHandoff` -/
structure ConsoleCall where
  hasProcess : Bool := true
  message : Option PortableAttachMessage := some {}
  server : IncomingHandle := none
  inputEvent : IncomingHandle := none
  signalPipe : IncomingHandle := none
  inboxProcess : IncomingHandle := none
  /-- `duplicate_current_process` -/
  selfProcess : Except UInt32 UInt64 := .ok 0

namespace ConsoleCall

variable (call : ConsoleCall)

/-- The payload of a call that succeeds. -/
def payload : ComHandoffPayload where
  serverHandle := call.server.duplicate
  inputEvent := call.inputEvent.duplicate
  signalPipe := call.signalPipe.duplicate
  inboxProcess := call.inboxProcess.duplicate
  attach := call.message.getD {}

/-- `duplicate_incoming_handles`: a null handle leaves the part as it is, and so does an error
without a code. -/
def duplicateIncomingHandles :
    List (IncomingHandle × HandoffPart) → List HandoffAction × Option HResult
  | [] => ([], none)
  | (handle, part) :: later =>
      if handle.result.failed then ([], some handle.result)
      else
        let rest := duplicateIncomingHandles later
        ((if handle.duplicate.isSome then [.copy call.payload part] else []) ++ rest.1, rest.2)

def incomingHandles : List (IncomingHandle × HandoffPart) :=
  [(call.server, .serverHandle), (call.inputEvent, .inputEvent), (call.signalPipe, .signalPipe),
    (call.inboxProcess, .inboxProcess)]

/-- Why the call fails before it tries to begin. -/
def rejected : Option HandoffWork :=
  if !call.hasProcess || call.message.isNone then
    some (.fail "IConsoleHandoff::EstablishHandoff failed" .invalidArg)
  else none

def late : HandoffWork :=
  .fail "IConsoleHandoff::EstablishHandoff already called"
    (.ofWin32 Win32.errorAlreadyInitialized)

/-- What follows `try_begin_establish`. -/
def establish : HandoffWork :=
  let duplicated := call.duplicateIncomingHandles call.incomingHandles
  let work : HandoffWork :=
    match duplicated.2 with
    | some result =>
        .fail "IConsoleHandoff::EstablishHandoff handle duplication failed" result
    | none =>
        match call.selfProcess with
        | .error error =>
            .fail "IConsoleHandoff::EstablishHandoff failed to duplicate process handle"
              (.ofWin32 error)
        | .ok _ => .succeed .consoleSucceeded
  work.after (.copy call.payload .attach :: duplicated.1)

end ConsoleCall

/-- The arguments of `EstablishPtyHandoff` that its versions share. -/
structure TerminalArguments where
  signalPipe : IncomingHandle := none
  reference : IncomingHandle := none
  serverProcess : IncomingHandle := none
  clientProcess : IncomingHandle := none
  startupInfo : Option TerminalStartupInfo := none

namespace TerminalArguments

variable (arguments : TerminalArguments)

/-- The payload of the arguments and the two ends of the terminal. -/
def payload (input output : IncomingHandle) : TerminalHandoffPayload :=
  let handles : TerminalHandoffPayload :=
    { terminalInput := input.duplicate
      terminalOutput := output.duplicate
      signalPipe := arguments.signalPipe.duplicate
      reference := arguments.reference.duplicate
      serverProcess := arguments.serverProcess.duplicate
      clientProcess := arguments.clientProcess.duplicate }
  match arguments.startupInfo with
  | none => handles
  | some info =>
      { handles with
        title := (info.title.getD []).takeWhile (· != 0)
        initialSize :=
          if info.xCountChars ≠ 0 ∧ info.yCountChars ≠ 0 then
            ⟨min info.xCountChars.toNat 32767, min info.yCountChars.toNat 32767⟩
          else handles.initialSize
        showCommand := if info.showWindow = 0 then 1 else info.showWindow.toNat }

/-- `duplicate_terminal_payload`: the payload is put in place when all handles are duplicated. -/
def duplicate (input output : IncomingHandle) : Except HResult TerminalHandoffPayload :=
  match [input, output, arguments.signalPipe, arguments.reference, arguments.serverProcess,
      arguments.clientProcess].find? fun handle => handle.result.failed with
  | some handle => .error handle.result
  | none => .ok (arguments.payload input output)

/-- The end of a call, after the duplication. -/
def finish (input output : IncomingHandle) (context : String) : HandoffWork :=
  match arguments.duplicate input output with
  | .error result => .fail context result
  | .ok payload => (HandoffWork.succeed .terminalSucceeded).after [.emplace payload]

end TerminalArguments

/-- A call of `ITerminalHandoff::EstablishPtyHandoff` or of the one of `ITerminalHandoff2` -/
structure TerminalCall extends TerminalArguments where
  inPipe : IncomingHandle := none
  outPipe : IncomingHandle := none

namespace TerminalCall

variable (supportsTerminalHandoff : Bool) (call : TerminalCall)

def rejected : Option HandoffWork :=
  if !supportsTerminalHandoff then
    some (.fail "ITerminalHandoff not supported in this mode" .noInterface)
  else if call.inPipe.isNone || call.outPipe.isNone then
    some (.fail "ITerminalHandoff::EstablishPtyHandoff invalid in/out pipes" .invalidArg)
  else none

def late : HandoffWork :=
  .fail "ITerminalHandoff::EstablishPtyHandoff already called"
    (.ofWin32 Win32.errorAlreadyInitialized)

/-- `establish_terminal_handoff_v1`, after `try_begin_establish` -/
def establish : HandoffWork :=
  call.finish call.inPipe call.outPipe
    "ITerminalHandoff::EstablishPtyHandoff handle duplication failed"

end TerminalCall

/-- A call of `ITerminalHandoff3::EstablishPtyHandoff`, which makes the pipes itself -/
structure TerminalCall3 extends TerminalArguments where
  hasInPipe : Bool := true
  hasOutPipe : Bool := true
  /-- `create_pipe_pair`, and the duplicate of the end that is kept. -/
  inputPipe : Except UInt32 (Except UInt32 UInt64)
  outputPipe : Except UInt32 (Except UInt32 UInt64)

namespace TerminalCall3

variable (supportsTerminalHandoff : Bool) (call : TerminalCall3)

def rejected : Option HandoffWork :=
  if !call.hasInPipe || !call.hasOutPipe then
    some (.fail "ITerminalHandoff3::EstablishPtyHandoff invalid args" .invalidArg)
  else if !supportsTerminalHandoff then
    some (.fail "ITerminalHandoff3 not supported in this mode" .noInterface)
  else none

def late : HandoffWork :=
  .fail "ITerminalHandoff3::EstablishPtyHandoff already called"
    (.ofWin32 Win32.errorAlreadyInitialized)

/-- The end of a pipe that is kept; there is none if the pipe failed without an error code. -/
def kept : Except UInt32 (Except UInt32 UInt64) → IncomingHandle
  | .ok handle => some handle
  | .error _ => none

/-- The `HRESULT` of `create_pipe_pair`. -/
def pipeResult : Except UInt32 (Except UInt32 UInt64) → HResult
  | .ok _ => .ok
  | .error error => .ofWin32 error

def establish : HandoffWork :=
  if (pipeResult call.inputPipe).failed then
    .fail "ITerminalHandoff3::EstablishPtyHandoff CreatePipe(input) failed"
      (pipeResult call.inputPipe)
  else if (pipeResult call.outputPipe).failed then
    .fail "ITerminalHandoff3::EstablishPtyHandoff CreatePipe(output) failed"
      (pipeResult call.outputPipe)
  else
    call.finish (kept call.inputPipe) (kept call.outputPipe)
      "ITerminalHandoff3::EstablishPtyHandoff handle duplication failed"

end TerminalCall3

inductive HandoffCall where
  | console (call : ConsoleCall)
  | terminal (call : TerminalCall)
  | terminal3 (call : TerminalCall3)

namespace HandoffCall

variable (supportsTerminalHandoff : Bool)

def rejected : HandoffCall → Option HandoffWork
  | .console call => call.rejected
  | .terminal call => call.rejected supportsTerminalHandoff
  | .terminal3 call => call.rejected supportsTerminalHandoff

def late : HandoffCall → HandoffWork
  | .console _ => ConsoleCall.late
  | .terminal _ => TerminalCall.late
  | .terminal3 _ => TerminalCall3.late

def establish : HandoffCall → HandoffWork
  | .console call => call.establish
  | .terminal call => call.establish
  | .terminal3 call => call.establish

end HandoffCall

/-- `HandoffState` -/
structure HandoffState where
  /-- `_establish_called`, with the call that set it and the index of its thread. -/
  establishCalled : Option (Nat × HandoffCall) := none
  /-- What has been stored in `_state`, the last value first. -/
  stores : List EmbeddingCompletionState := []
  failureHr : HResult := .ok
  failureContext : String := "COM embedding handoff failed"
  /-- The completion event is set. -/
  signaled : Bool := false
  console : ComHandoffPayload := {}
  terminal : Option TerminalHandoffPayload := none

/-- `state` -/
def HandoffState.state (shared : HandoffState) : EmbeddingCompletionState :=
  shared.stores.headD .pending

def HandoffAction.apply (shared : HandoffState) : HandoffAction → HandoffState
  | .setFailureHr result => { shared with failureHr := result }
  | .setFailureContext context => { shared with failureContext := context }
  | .store state => { shared with stores := state :: shared.stores }
  | .signal => { shared with signaled := true }
  | .copy source part => { shared with console := shared.console.copy source part }
  | .emplace payload => { shared with terminal := some payload }

inductive EmbeddingResult where
  /-- The runner is called, with this payload. -/
  | console (payload : ComHandoffPayload)
  | terminal (payload : TerminalHandoffPayload)
  | timedOut
  | waitFailed (error : UInt32)
  | failure (result : HResult) (context : String)
  | noRunner
  | notSet
deriving DecidableEq

/-- The `context` and the `win32_error` of a `ComEmbeddingError`. -/
def EmbeddingResult.error : EmbeddingResult → Option (String × HResult × UInt32)
  | .console _ | .terminal _ => none
  | .timedOut => some ("WaitForSingleObject timeout for COM completion event", .ofWin32 258, 258)
  | .waitFailed error =>
      some ("WaitForSingleObject failed for COM completion event", .ofWin32 error, error)
  | .failure result context => some (context, result, HResult.toWin32 result)
  | .noRunner =>
      some ("Terminal handoff completed, but no ITerminalHandoff runner was configured",
        .noInterface, 50)
  | .notSet => some ("COM handoff completion state was not set", .unexpected, 31)

/-- Where `run_with_runners` stands after the registration: it waits, it is about to look at the
state for the first, second or third time, or it copies what it has found. -/
inductive ServerStage where
  | waiting
  | first
  | second
  | third
  | failureHr
  | failureContext (result : HResult)
  | reading (parts : List HandoffPart) (payload : ComHandoffPayload)
  | moving
  | returned (result : EmbeddingResult)

inductive CallStage where
  | entered
  /-- The call has come through `try_begin_establish`, or not, and has some work left. -/
  | working (won : Bool) (actions : List HandoffAction)

inductive EmbeddingThread where
  | server (stage : ServerStage)
  | call (method : HandoffCall) (stage : CallStage)

/-- What the wait of the server returns; no other step has a choice. -/
inductive WaitResult where
  | signaled
  | timeout
  | failed (error : UInt32)
deriving DecidableEq

namespace ServerStage

variable (supportsTerminalHandoff : Bool)

/-- One step of `run_with_runners`. -/
def act (wait : WaitResult) (shared : HandoffState) :
    ServerStage → Option (HandoffState × ServerStage)
  | .waiting =>
      match wait with
      | .signaled => if shared.signaled then some (shared, .first) else none
      | .timeout => some (shared, .returned .timedOut)
      | .failed error => some (shared, .returned (.waitFailed error))
  | .first => some (shared, if shared.state = .failed then .failureHr else .second)
  | .failureHr => some (shared, .failureContext shared.failureHr)
  | .failureContext result => some (shared, .returned (.failure result shared.failureContext))
  | .second =>
      some (shared,
        if shared.state = .consoleSucceeded then
          .reading [.serverHandle, .inputEvent, .signalPipe, .inboxProcess, .attach] {}
        else .third)
  | .reading [] payload => some (shared, .returned (.console payload))
  | .reading (part :: parts) payload =>
      some (shared, .reading parts (payload.copy shared.console part))
  | .third =>
      some (shared,
        if shared.state = .terminalSucceeded then
          if supportsTerminalHandoff then .moving else .returned .noRunner
        else .returned .notSet)
  | .moving =>
      some ({ shared with terminal := none }, .returned (.terminal (shared.terminal.getD {})))
  | .returned _ => none

end ServerStage

/-- One step of a call. -/
def CallStage.act (supportsTerminalHandoff : Bool) (index : Nat) (call : HandoffCall)
    (shared : HandoffState) : CallStage → Option (HandoffState × CallStage)
  | .entered =>
      match call.rejected supportsTerminalHandoff with
      | some work => some (shared, .working false work.actions)
      | none =>
          match shared.establishCalled with
          | some _ => some (shared, .working false call.late.actions)
          | none =>
              some ({ shared with establishCalled := some (index, call) },
                .working true call.establish.actions)
  | .working won (action :: actions) => some (action.apply shared, .working won actions)
  | .working _ [] => none

namespace EmbeddingThread

def act (supportsTerminalHandoff : Bool) (wait : WaitResult) (index : Nat) (shared : HandoffState) :
    EmbeddingThread → Option (HandoffState × EmbeddingThread)
  | .server stage => (stage.act supportsTerminalHandoff wait shared).map fun after =>
      (after.1, .server after.2)
  | .call method stage => (stage.act supportsTerminalHandoff index method shared).map fun after =>
      (after.1, .call method after.2)

/-- Only calls join. -/
def joins : EmbeddingThread → Bool
  | .call _ .entered => true
  | _ => false

/-- The server is about to wait, and no call has come. -/
def initial : Threads HandoffState EmbeddingThread where
  shared := {}
  threads := [.server .waiting]

end EmbeddingThread

end Conhost
