import Conhost.Screen.Requests
import Conhost.Server.State

/-!
# Packets and replies

A packet of the driver is answered with a status, an information word, the
bytes written to the client's output buffer and, for an API request, its
descriptor with the fields the server has filled in. The server reads the
client's input behind the descriptor and its header, and writes its output
behind the descriptor. Descriptors are typed here: what the source reads from
the union of a message are the arguments of the constructor of its API number.
-/

namespace Conhost

/-- `CONSOLE_SCREENBUFFERINFO_MSG` as `ConsolepGetScreenBufferInfo` fills it in. -/
structure ScreenBufferInfo where
  size : Coord
  cursorPosition : Coord
  scrollPosition : Coord
  attributes : Attributes
  currentWindowSize : Coord
  maximumWindowSize : Coord
  popupAttributes : Attributes
  fullscreenSupported : Bool
  colorTable : Vector ColorRef 16

/-- The APIs that work on the screen buffer of an output handle. -/
inductive ScreenApi where
  | getCursorInfo (size : UInt32) (visible : Bool)
  | setCursorInfo (size : UInt32) (visible : Bool)
  | getScreenBufferInfo (info : Option ScreenBufferInfo)
  | setScreenBufferInfo (body : ScreenBuffer.InfoBody)
  | setScreenBufferSize (size : ShortCoord)
  | setCursorPosition (position : Coord)
  | getLargestWindowSize (size : Coord)
  | scrollScreenBuffer (body : ScreenBuffer.ScrollBody)
  | setTextAttribute (attributes : Attributes)
  | setWindowInfo (absolute : Bool) (window : SmallRect)
  | setActiveScreenBuffer
  | fillConsoleOutput (origin : Coord) (elementType : ScreenBuffer.ElementType) (element : UInt16)
      (length : Nat)
  | readConsoleOutputString (origin : Coord) (stringType : ScreenBuffer.ElementType)
      (numRecords : Nat)
  | writeConsoleOutput (region : SmallRect) (unicode : Bool)
  | writeConsoleOutputString (origin : Coord) (stringType : ScreenBuffer.ElementType)
      (numRecords : Nat)
  | readConsoleOutput (region : SmallRect) (unicode : Bool)
  | getFontInfo (numFonts : Nat)
  | getFontSize (index : UInt32) (size : Coord)
  | getCurrentFont (font : Font)
  | setCurrentFont (font : Font)
  | setDisplayMode (screenBufferDimensions : Coord)
  | charType (coord : Coord) (type : Nat)

/-- The APIs that need no handle. -/
inductive GlobalApi where
  | getCp (output : Bool) (codePage : CodePage)
  | setCp (output : Bool) (codePage : CodePage)
  | generateCtrlEvent (ctrlEvent : UInt32) (processGroupId : UInt32)
  | getLangId (langId : UInt16)
  | notifyLastClose
  | getNumberOfFonts (numberOfFonts : Nat)
  | setFont
  | setKeyShortcuts (enabled : Bool) (reservedKeys : UInt8)
  | setMenuClose (enable : Bool)
  | setLocalEudc
  | setCursorMode (blink dbEnable : Bool)
  | getCursorMode (blink dbEnable : Bool)
  | registerOs2 (register : Bool)
  | setOs2OemFormat (enabled : Bool)
  | getNlsMode (ready : Bool) (mode : UInt32)
  | setNlsMode (ready : Bool) (mode : UInt32)
  | getConsoleWindow (window : Handle)
  | getDisplayMode (flags : UInt32)
  | getKeyboardLayoutName (ansi : Bool) (layout : List Byte)
  | getMouseInfo (buttons : Nat)
  | getSelectionInfo
  | getConsoleProcessList (count : Nat)
  | addAlias (unicode : Bool) (exeLength sourceLength targetLength : UInt16)
  | getAlias (unicode : Bool) (exeLength sourceLength : UInt16) (targetLength : Nat)
  | getAliasesLength (unicode : Bool) (length : Nat)
  | getAliases (unicode : Bool) (length : Nat)
  | getAliasExesLength (unicode : Bool) (length : Nat)
  | getAliasExes (unicode : Bool) (length : Nat)
  | getHistory (bufferSize bufferCount flags : UInt32)
  | setHistory (bufferSize bufferCount flags : UInt32)
  | expungeCommandHistory (unicode : Bool)
  | setNumberOfCommands (unicode : Bool) (numCommands : UInt32)
  | getCommandHistoryLength (unicode : Bool) (length : Nat)
  | getCommandHistory (unicode : Bool) (length : Nat)

/-- The APIs that work on an input handle. -/
inductive InputApi where
  | flushInputBuffer
  | writeConsoleInput (unicode append : Bool) (numRecords : Nat)
  | getNumberOfInputEvents (readyEvents : Nat)
  | getConsoleInput (flags : UInt16) (unicode : Bool) (numRecords : Nat)
  | readConsole (unicode processControlZ : Bool) (numBytes : Nat)

/-- The descriptor of a `console_io_user_defined` packet. -/
inductive Api where
  | getMode (mode : UInt32)
  | setMode (mode : UInt32)
  | getTitle (unicode original : Bool) (length : Nat)
  | setTitle (unicode : Bool)
  | writeConsole (unicode : Bool) (numBytes : Nat)
  | screen (request : ScreenApi)
  | global (request : GlobalApi)
  | input (request : InputApi)
  /-- An API number that is deprecated or unknown. -/
  | unsupported

/-- `CREATE_OBJECT_INFORMATION::ObjectType` -/
inductive ObjectType where
  | currentInput
  | currentOutput
  | newOutput
  | generic
  | other
deriving DecidableEq

/-- `IoDescriptor::function`, with what the payload holds for it. -/
inductive IoFunction where
  | connect
  | disconnect
  | createObject (type : ObjectType) (shareMode desiredAccess : UInt32)
  | closeObject
  | rawWrite
  | rawRead
  | rawFlush
  | userDefined (apiSize : UInt32) (api : Api)
  | other

/-- `IoPacket`. `input` is the client's input buffer, so its length is the declared input size. -/
structure IoPacket where
  process : Handle
  object : Handle
  function : IoFunction
  input : List Byte := []
  outputSize : Nat := 0

/-- What a reply returns besides its status and its output. -/
inductive ReplyData where
  | none
  | api (body : Api)
  | connection (info : ConnectionInformation)

/-- The completion of a message. `output` is what stands at the front of the output buffer. -/
structure Reply where
  status : Status := .success
  information : Nat := 0
  output : List Byte := []
  data : ReplyData := .none

/-- The reply to an API request. -/
abbrev Reply.ofApi (body : Api) (status : Status) : Reply :=
  { status := status, data := .api body }

/-- `DispatchOutcome` with the reply of a message that is not to be retried. -/
inductive Outcome where
  | replyPending
  | complete (reply : Reply) (requestExit : Bool)

/-- What a message works on: `ServerState` and the host. -/
structure Console where
  server : ServerState
  host : HostIo := {}

/-- What surrounds the dispatch of a message. -/
structure Environment where
  system : System
  device : Device
  allocate : Allocator
  /-- `IOCTL_CONDRV_READ_INPUT` fails. -/
  readInputFails : Bool := false

/-- An environment in which nothing fails; objects are placed at the given address. -/
def Environment.utf8 (address : Handle) : Environment where
  system := .utf8
  device := ⟨fun _ _ => false⟩
  allocate _ := some address

/-- `sizeof(packet.payload.user_defined.u)` -/
def descriptorLimit : Nat := 96

namespace IoPacket

variable (packet : IoPacket)

/-- `_write_offset` -/
def writeOffset : Nat :=
  match packet.function with
  | .userDefined apiSize _ => apiSize.toNat
  | _ => 0

/-- `_read_offset`; a message header has two words. -/
def readOffset : Nat :=
  match packet.function with
  | .userDefined apiSize _ => apiSize.toNat + 8
  | _ => 0

/-- `get_input_buffer` -/
def getInputBuffer (environment : Environment) : Except Fault (List Byte) :=
  if packet.input.length < packet.readOffset then .error .internal
  else if packet.input.length = packet.readOffset then .ok []
  else if environment.readInputFails then .error .primitive
  else .ok (packet.input.drop packet.readOffset)

/-- `get_output_buffer`: the size of the buffer, which is filled with zeros. -/
def getOutputBuffer : Except Fault Nat :=
  if packet.outputSize < packet.writeOffset then .error .internal
  else .ok (packet.outputSize - packet.writeOffset)

end IoPacket

/-- The largest `ULONG` that is not above a size. -/
def clampUlong (size : Nat) : Nat := min size 0xffffffff

/-- The bytes of a `DWORD` in memory. -/
def dwordBytes (value : UInt32) : List Byte :=
  [value.toUInt8, (value >>> 8).toUInt8, (value >>> 16).toUInt8, (value >>> 24).toUInt8]

/-- A `SHORT` in memory. -/
def shortUnit (value : Int) : WChar := UInt16.ofInt value

def coordBytes (coord : Coord) : List Byte := unitBytes [shortUnit coord.x, shortUnit coord.y]

/-- `decode_console_string` -/
def decodeConsoleString (platform : Platform) (unicode : Bool) (bytes : List Byte)
    (codePage : CodePage) : Option (List WChar) :=
  if unicode then
    if bytes.length % 2 ≠ 0 then none else some (ScreenBuffer.words bytes)
  else if bytes = [] then some []
  else if intMax < bytes.length then none
  else
    match platform.multiByteToWideChar codePage false bytes with
    | [] => none
    | units => some units

/-- `fold_to_lower_invariant` -/
def foldToLowerInvariant (system : System) (value : List WChar) : Option (List WChar) :=
  if value = [] then some []
  else if intMax < value.length then none
  else
    match system.lcMapLowercase value with
    | [] => none
    | folded => some (if folded.getLast? = some 0 then folded.dropLast else folded)

/-- The two calls of `WideCharToMultiByte` with an `int` length; `none` if they fail. -/
def wideToMultiByte (platform : Platform) (codePage : CodePage) (units : List WChar) :
    Option (List Byte) :=
  if intMax < units.length then none
  else
    match platform.wideCharToMultiByte codePage units with
    | [] => none
    | bytes => some bytes

/-- The text without the NULs at its end. -/
def trimNuls (text : List WChar) : List WChar := (text.reverse.dropWhile (· == 0)).reverse

end Conhost
