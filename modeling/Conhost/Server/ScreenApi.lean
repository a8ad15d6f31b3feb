import Conhost.Server.Message

/-!
# The requests for a screen buffer

Every request of `ScreenApi` names an output handle with a screen buffer. What
the requests do to the buffer is defined in `Conhost.Screen.Requests`; here they
get their input, and their replies.
-/

namespace Conhost

namespace ScreenApi

/-- The requests that call `get_input_buffer`. -/
def takesInput : ScreenApi → Bool
  | .writeConsoleOutput _ _ => true
  | .writeConsoleOutputString _ _ _ => true
  | _ => false

/-- The requests that call `get_output_buffer`. -/
def takesOutput : ScreenApi → Bool
  | .readConsoleOutputString _ _ _ => true
  | .readConsoleOutput _ _ => true
  | .getFontInfo _ => true
  | _ => false

/-- The answer to `ConsolepGetScreenBufferInfo`. The window size is an inclusive difference. -/
def screenBufferInfo (buffer : ScreenBuffer) : ScreenBufferInfo where
  size := buffer.bufferSize
  cursorPosition := buffer.regs.cursor
  scrollPosition := buffer.scrollPosition
  attributes := buffer.regs.attributes
  currentWindowSize :=
    ⟨toShort (buffer.windowRect.right - buffer.windowRect.left),
      toShort (buffer.windowRect.bottom - buffer.windowRect.top)⟩
  maximumWindowSize := buffer.maximumWindowSize
  popupAttributes := buffer.regs.attributes
  fullscreenSupported := false
  colorTable := buffer.colorTable

/-- `ConsolepReadConsoleOutputString`: the status, the number of records and the output. -/
def readConsoleOutputStringReply (buffer : ScreenBuffer) (origin : Coord)
    (stringType : ScreenBuffer.ElementType) (capacity : Nat) : Status × Nat × List Byte :=
  match buffer.originStatus origin with
  | .success =>
      match stringType with
      | .attributes =>
          let words := buffer.readOutputAttributes origin (capacity / 2)
          (.success, words.length, unitBytes words)
      | .realUnicode =>
          let chars := buffer.readOutputCharacters origin (capacity / 2)
          (.success, chars.length, unitBytes chars)
      | .falseUnicode =>
          let chars := buffer.readOutputCharacters origin (capacity / 2)
          (.success, chars.length, unitBytes chars)
      | .ascii =>
          let bytes := buffer.readOutputAscii origin capacity
          (.success, bytes.length, bytes)
      | .other => (.invalidParameter, 0, [])
  | status => (status, 0, [])

/-- `ConsolepReadConsoleOutput`: the status and the records. -/
def readConsoleOutputReply (buffer : ScreenBuffer) (region : SmallRect) (unicode : Bool)
    (capacity : Nat) : Status × List ScreenCore.CharInfo :=
  match buffer.regionStatus region capacity with
  | .success =>
      let count :=
        (region.right - region.left + 1).toNat * (region.bottom - region.top + 1).toNat
      let records := buffer.readOutputCharInfoRect region count unicode
      if records.length = count then (.success, records) else (.noMemory, [])
  | status => (status, [])

/-- The bytes of `CHAR_INFO` records in memory. -/
def charInfoBytes (records : List ScreenCore.CharInfo) : List Byte :=
  unitBytes (records.flatMap fun record => [record.char, record.attributes])

abbrev reply (body : ScreenApi) (status : Status) : Reply := Reply.ofApi (.screen body) status

/-- A request that changes the buffer and returns its descriptor as it was. -/
def store (server : ServerState) (index : Nat) (request : ScreenApi)
    (result : ScreenBuffer × Status) : ServerState × Reply :=
  (server.setScreenBuffer index result.1, reply request result.2)

def setFont (server : ServerState) (font : Font) : ServerState :=
  { server with settings := { server.settings with font := font } }

/-- The branches of `dispatch_message` for a handle with the screen buffer at `index`. -/
def handle (server : ServerState) (index : Nat) (buffer : ScreenBuffer) (input : List Byte)
    (capacity : Nat) (request : ScreenApi) : ServerState × Reply :=
  match request with
  | .getCursorInfo _ _ =>
      (server, reply (.getCursorInfo buffer.cursorSize buffer.cursorVisible) .success)
  | .setCursorInfo size visible =>
      store server index request (buffer.requestSetCursorInfo size visible)
  | .getScreenBufferInfo _ =>
      (server, reply (.getScreenBufferInfo (some (screenBufferInfo buffer))) .success)
  | .setScreenBufferInfo body => store server index request (buffer.requestSetScreenBufferInfo body)
  | .setScreenBufferSize size => store server index request (buffer.requestSetScreenBufferSize size)
  | .setCursorPosition position =>
      store server index request (buffer.requestSetCursorPosition position)
  | .getLargestWindowSize _ =>
      (server, reply (.getLargestWindowSize buffer.maximumWindowSize) .success)
  | .scrollScreenBuffer body => store server index request (buffer.requestScroll body)
  | .setTextAttribute attributes =>
      store server index request (buffer.requestSetTextAttribute attributes)
  | .setWindowInfo absolute window =>
      store server index request (buffer.requestSetWindowInfo absolute window)
  | .setActiveScreenBuffer => (server.setActiveScreenBuffer index, reply request .success)
  | .fillConsoleOutput origin elementType element length =>
      let filled := buffer.requestFill origin elementType element length
      (server.setScreenBuffer index filled.1,
        reply (.fillConsoleOutput origin elementType element filled.2.2) filled.2.1)
  | .readConsoleOutputString origin stringType _ =>
      let read := readConsoleOutputStringReply buffer origin stringType capacity
      (server, { reply (.readConsoleOutputString origin stringType read.2.1) read.1 with
        information := if read.1 = .success then capacity else 0
        output := read.2.2 })
  | .writeConsoleOutput region unicode =>
      store server index request (buffer.requestWriteOutput region unicode input)
  | .writeConsoleOutputString origin stringType _ =>
      let written := buffer.requestWriteOutputString origin stringType input
      (server.setScreenBuffer index written.1,
        reply (.writeConsoleOutputString origin stringType written.2.2) written.2.1)
  | .readConsoleOutput region unicode =>
      let read := readConsoleOutputReply buffer region unicode capacity
      (server, { reply request read.1 with
        information := 4 * read.2.length
        output := charInfoBytes read.2 })
  | .getFontInfo _ =>
      if capacity < 8 then (server, reply (.getFontInfo 1) .bufferTooSmall)
      else
        let font := server.settings.font
        (server, { reply (.getFontInfo 1) .success with
          information := 8
          output := dwordBytes font.index ++ coordBytes font.size })
  | .getFontSize fontIndex _ =>
      if fontIndex ≠ server.settings.font.index then (server, reply request .invalidParameter)
      else (server, reply (.getFontSize fontIndex server.settings.font.size) .success)
  | .getCurrentFont _ => (server, reply (.getCurrentFont server.settings.font) .success)
  | .setCurrentFont body =>
      let font := server.settings.font.apply body
      (setFont server font, reply (.setCurrentFont font) .success)
  | .setDisplayMode _ => (server, reply (.setDisplayMode buffer.bufferSize) .success)
  | .charType coord _ =>
      if coord.x < 0 ∨ coord.y < 0 ∨ buffer.bufferSize.x ≤ coord.x ∨
          buffer.bufferSize.y ≤ coord.y then
        (server, reply request .invalidParameter)
      else (server, reply (.charType coord 0) .success)

end ScreenApi

end Conhost
