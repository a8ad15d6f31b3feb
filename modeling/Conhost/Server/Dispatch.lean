import Conhost.Server.GlobalApi
import Conhost.Server.InputApi
import Conhost.Server.ScreenApi

/-!
# The dispatch of a message

`dispatch_message` answers a packet, or leaves it pending, or fails. A failure
ends the server for all of its clients. Each branch first resolves the handle
it needs, then gets the client's buffers, and then does its work; a handle of
the wrong kind is answered before a buffer is looked at.
-/

namespace Conhost

namespace Console

variable (console : Console)

/-- A reply that ends the message. -/
def answer (reply : Reply) : Dispatched := some (.ok (console, .complete reply false))

/-- The object of a packet if it is of the given kind. -/
def findHandle (object : Handle) (kind : ObjectKind) : Option ObjectHandle :=
  (console.server.findObject object).filter (·.kind == kind)

/-- The screen buffer of an output handle, with its place in the store. -/
def findScreen (object : Handle) : Option (Nat × ScreenBuffer) :=
  (console.findHandle object .output).bind fun handle =>
    handle.screenBuffer.bind fun index =>
      (console.server.screenBuffer index).map fun buffer => (index, buffer)

/-- `apply_text_to_screen_buffer` on the buffer of a handle. -/
def showText (index : Nat) (buffer : ScreenBuffer) (text : List WChar) : Console :=
  let server := console.server
  let shown := applyTextToScreenBuffer buffer text server.outputMode (some server.title)
    (!console.host.hasOutput)
  { server :=
      { server.setScreenBuffer index shown.buffer with title := shown.title.getD server.title }
    host := console.host.injectInputBytes shown.replies.flatten }

/-- The text of a write: it goes to the host, in bytes, and to the screen buffer. -/
def writeText (device : Device) (index : Nat) (buffer : ScreenBuffer) (bytes : List Byte)
    (text : List WChar) (reply : Reply) : Dispatched :=
  match console.host.writeOutputBytes device bytes with
  | .error fault => some (.error fault)
  | .ok host =>
      answer ({ console with host := host }.showText index buffer text) reply

end Console

/-- The buffers a branch asks for, before its work. -/
def IoPacket.withBuffers (packet : IoPacket) (environment : Environment) (input output : Bool)
    (work : List Byte → Nat → Dispatched) : Dispatched :=
  match if input then packet.getInputBuffer environment else .ok [] with
  | .error fault => some (.error fault)
  | .ok bytes =>
      match if output then packet.getOutputBuffer else .ok 0 with
      | .error fault => some (.error fault)
      | .ok capacity => work bytes capacity

section Api

variable (environment : Environment) (console : Console)

/-- `ConsolepSetMode` on an input handle: the mode is set even if it is refused. -/
def setInputMode (mode : UInt32) : Console × Status :=
  ({ console with server := { console.server with inputMode := ⟨mode⟩ } },
    if mode &&& ~~~(0x3ff : UInt32) ≠ 0 ∨ (mode &&& 4 ≠ 0 ∧ mode &&& 2 = 0) then .invalidParameter
    else .success)

/-- `ConsolepSetMode` on an output handle. -/
def setOutputMode (mode : UInt32) : Console × Status :=
  if mode &&& ~~~(0x1f : UInt32) ≠ 0 then (console, .invalidParameter)
  else ({ console with server := { console.server with outputMode := ⟨mode⟩ } }, .success)

/-- The code page of titles. -/
def titleCodePage : CodePage :=
  if console.server.outputCodePage = 0 then environment.system.getOemCp
  else console.server.outputCodePage

/-- `ConsolepGetTitle`. A UTF-16 title is cut to the buffer; an ANSI title is returned whole or not
at all. -/
def getTitleReply (unicode original : Bool) (capacity : Nat) : Reply :=
  let title :=
    if original then console.server.title.originalTitle else console.server.title.title
  let body (length : Nat) : Api := .getTitle unicode original length
  let success := Reply.ofApi (body (clampUlong title.length)) .success
  if unicode then
    let units := capacity / 2
    if units = 0 then success
    else
      { success with
        information := 2 * min units title.length
        output := unitBytes (title.take (min (units - 1) title.length) ++ [0]) }
  else
    match wideToMultiByte environment.system.toPlatform
      (titleCodePage environment console) title with
    | none => success
    | some bytes =>
        if capacity < bytes.length then
          { Reply.ofApi (body 0) .success with information := min 1 capacity }
        else
          { success with
            information := if bytes.length < capacity then bytes.length + 1 else bytes.length
            output := bytes }

/-- `ConsolepSetTitle` -/
def setTitleRequest (unicode : Bool) (input : List Byte) : Console × Status :=
  let server := console.server
  let store (title : List WChar) : Console × Status :=
    ({ console with server := { server with title := server.title.setTitle title } }, .success)
  if unicode then
    if input.length % 2 ≠ 0 then (console, .invalidParameter)
    else store (trimNuls (ScreenBuffer.words input))
  else if intMax < input.length then store []
  else
    store (if input = [] then []
      else environment.system.multiByteToWideChar (titleCodePage environment console) false input)

/-- `ConsolepWriteConsole` -/
def writeConsoleRequest (index : Nat) (buffer : ScreenBuffer) (unicode : Bool)
    (input : List Byte) : Dispatched :=
  let body (numBytes : Nat) : Api := .writeConsole unicode numBytes
  let success : Reply :=
    { Reply.ofApi (body input.length) .success with information := input.length }
  if unicode then
    if input.length % 2 ≠ 0 then console.answer (.ofApi (body 0) .invalidParameter)
    else
      let text := ScreenBuffer.words input
      let encoded := environment.system.wideCharToMultiByte cpUtf8 text
      if encoded = [] then some (.error .internal)
      else console.writeText environment.device index buffer encoded text success
  else
    match decodeConsoleString environment.system.toPlatform false input
      console.server.outputCodePage with
    | none => console.answer (.ofApi (body 0) .invalidParameter)
    | some text => console.writeText environment.device index buffer input text success

variable (packet : IoPacket)

/-- The reply to a request whose handle is missing or of the wrong kind. -/
def invalidHandle (api : Api) : Dispatched := console.answer (.ofApi api .invalidHandle)

/-- The branches of `dispatch_message` for a `console_io_user_defined` packet. -/
def dispatchApi (fuel : Nat) (api : Api) : Dispatched :=
  match api with
  | .getMode _ =>
      match console.server.findObject packet.object with
      | none => invalidHandle console api
      | some handle =>
          console.answer (.ofApi (.getMode
            (if handle.kind = .input then console.server.inputMode.flags
              else console.server.outputMode.value)) .success)
  | .setMode mode =>
      match console.server.findObject packet.object with
      | none => invalidHandle console api
      | some handle =>
          let changed :=
            if handle.kind = .input then setInputMode console mode else setOutputMode console mode
          changed.1.answer (.ofApi api changed.2)
  | .getTitle unicode original _ =>
      match console.findHandle packet.object .output with
      | none => invalidHandle console api
      | some _ =>
          packet.withBuffers environment false true fun _ capacity =>
            console.answer (getTitleReply environment console unicode original capacity)
  | .setTitle unicode =>
      match console.findHandle packet.object .output with
      | none => invalidHandle console api
      | some _ =>
          packet.withBuffers environment true false fun input _ =>
            let changed := setTitleRequest environment console unicode input
            changed.1.answer (.ofApi api changed.2)
  | .writeConsole unicode _ =>
      match console.findScreen packet.object with
      | none => invalidHandle console api
      | some (index, buffer) =>
          packet.withBuffers environment true false fun input _ =>
            writeConsoleRequest environment console index buffer unicode input
  | .screen request =>
      match console.findScreen packet.object with
      | none => invalidHandle console api
      | some (index, buffer) =>
          packet.withBuffers environment request.takesInput request.takesOutput
            fun input capacity =>
              let handled := request.handle console.server index buffer input capacity
              { console with server := handled.1 }.answer handled.2
  | .global request =>
      packet.withBuffers environment request.takesInput request.takesOutput fun input capacity =>
        let handled := request.handle environment.system console.server input capacity
        Console.answer ⟨handled.1, request.sendEvents console.server console.host⟩ handled.2
  | .input request =>
      match console.findHandle packet.object .input with
      | none => invalidHandle console api
      | some handle =>
          packet.withBuffers environment request.takesInput request.takesOutput
            fun input capacity =>
              request.handleRequest environment console packet.object handle fuel input capacity
  | .unsupported => console.answer (.ofApi .unsupported .notImplemented)

end Api

section Objects

variable (environment : Environment) (console : Console) (packet : IoPacket)

/-- A process or thread identifier; the driver's is as wide as a pointer. -/
def clientId (value : Handle) : UInt32 := if 0xffffffff < value then 0 else UInt32.ofNat value

/-- The application name in the `CONSOLE_SERVER_MSG` of a connecting client. -/
def applicationName (input : List Byte) : List WChar :=
  if input.length < 1340 then []
  else
    let bytes := ((ScreenBuffer.words ((input.drop 558).take 2)).headD 0).toNat
    let name := ScreenBuffer.words ((input.drop 560).take 256)
    if bytes % 2 = 0 ∧ bytes ≤ 254 ∧ name[bytes / 2]? = some 0 then name.take (bytes / 2) else []

/-- `console_io_connect` -/
def connectRequest : Dispatched :=
  packet.withBuffers environment true false fun input _ =>
    let connected := console.server.connectClient environment.allocate environment.system
      (clientId packet.process) (clientId packet.object) (applicationName input)
    Console.answer { console with server := connected.1 }
      (match connected.2 with
        | none => { status := .noMemory }
        | some info => { information := 24, data := .connection info })

/-- `console_io_disconnect` -/
def disconnectRequest : Dispatched :=
  let removed := console.server.disconnectClient packet.process
  let server := removed.getD console.server
  some (.ok ({ console with server := server },
    .complete { status := if removed.isSome then .success else .invalidHandle }
      (server.processCount == 0)))

/-- The object type a generic request stands for. -/
def ObjectType.resolve (desiredAccess : UInt32) : ObjectType → ObjectType
  | .generic =>
      if desiredAccess &&& 0xc0000000 = 0x80000000 then .currentInput
      else if desiredAccess &&& 0xc0000000 = 0x40000000 then .currentOutput
      else .generic
  | type => type

/-- The object `console_io_create_object` asks for; a new screen buffer is made for it first. -/
def newObject (type : ObjectType) (shareMode desiredAccess : UInt32) :
    Except Status (ServerState × ObjectHandle) :=
  let object (kind : ObjectKind) (screenBuffer : Option Nat) : ObjectHandle :=
    { kind := kind
      desiredAccess := desiredAccess
      shareMode := shareMode
      owningProcess := packet.process
      screenBuffer := screenBuffer }
  match type.resolve desiredAccess with
  | .currentInput => .ok (console.server, object .input none)
  | .currentOutput => .ok (console.server, object .output console.server.activeScreenBuffer)
  | .newOutput =>
      match console.server.createScreenBufferLikeActive with
      | none => .error .noMemory
      | some (server, index) => .ok (server, object .output (some index))
  | _ => .error .invalidParameter

/-- `console_io_create_object` -/
def createObjectRequest (type : ObjectType) (shareMode desiredAccess : UInt32) : Dispatched :=
  match newObject console packet type shareMode desiredAccess with
  | .error status => console.answer { status := status }
  | .ok (server, object) =>
      if !server.hasProcess packet.process then console.answer { status := .invalidHandle }
      else
        match server.createObject environment.allocate object with
        | none => console.answer { status := .noMemory }
        | some (server, id) =>
            Console.answer { console with server := server } { information := id }

/-- `console_io_close_object` -/
def closeObjectRequest : Dispatched :=
  match console.server.closeObject packet.object with
  | none => console.answer { status := .invalidHandle }
  | some server => Console.answer { console with server := server } {}

/-- `console_io_raw_write` -/
def rawWriteRequest : Dispatched :=
  match console.findScreen packet.object with
  | none => console.answer { status := .invalidHandle }
  | some (index, buffer) =>
      packet.withBuffers environment true false fun input _ =>
        match decodeConsoleString environment.system.toPlatform false input
          console.server.outputCodePage with
        | none => console.answer { status := .invalidParameter }
        | some text =>
            console.writeText environment.device index buffer input text
              { information := input.length }

/-- `console_io_raw_read` -/
def rawReadRequest : Dispatched :=
  match console.findHandle packet.object .input with
  | none => console.answer { status := .invalidHandle }
  | some handle =>
      packet.withBuffers environment false true fun _ capacity =>
        let read := ByteRead.rawRead environment.system.toPlatform
          (InputApi.readCall console.server capacity false) ⟨handle, console.host⟩
        some (.ok (console.afterRead packet.object read.1, .ofRead id (fun _ => .none) read.2))

/-- `console_io_raw_flush` -/
def rawFlushRequest : Dispatched :=
  match console.findHandle packet.object .input with
  | none => console.answer { status := .invalidHandle }
  | some handle => (InputApi.flushRequest console packet.object handle).answer {}

/-- `dispatch_message`; `fuel` bounds the passes of a line-input read. -/
def dispatchMessage (fuel : Nat) : Dispatched :=
  match packet.function with
  | .userDefined apiSize api =>
      if descriptorLimit < apiSize.toNat then
        console.answer { status := .invalidParameter }
      else dispatchApi environment console packet fuel api
  | .connect => connectRequest environment console packet
  | .disconnect => disconnectRequest console packet
  | .createObject type shareMode desiredAccess =>
      createObjectRequest environment console packet type shareMode desiredAccess
  | .closeObject => closeObjectRequest console packet
  | .rawFlush => rawFlushRequest console packet
  | .rawWrite => rawWriteRequest environment console packet
  | .rawRead => rawReadRequest environment console packet
  | .other => console.answer { status := .notImplemented }

end Objects

end Conhost
