import Conhost.Screen.OutputInvariant

/-!
# The requests that change a screen buffer

Each definition is what `dispatch_message` does to the screen buffer named by
a request once the handle has been resolved: the checks on the body in the
order of the source, the operations between them, and the reply status. A
request that fails after some of its operations leaves those in place.

`ScreenRequest` collects them, together with text output, into the alphabet of
all histories of a buffer, and the representation invariant is shown for every
history.
-/

namespace Conhost

namespace ScreenBuffer

variable (buffer : ScreenBuffer)

/-- `ConsolepSetCursorInfo`. -/
def requestSetCursorInfo (size : UInt32) (visible : Bool) : ScreenBuffer × Status :=
  if size < 1 ∨ 100 < size then (buffer, .invalidParameter)
  else (buffer.update (buffer.setCursorInfo size visible), .success)

/-- The body of `ConsolepSetScreenBufferInfo`. -/
structure InfoBody where
  size : ShortCoord
  cursorPosition : Coord
  scrollPosition : Coord
  attributes : Attributes
  currentWindowSize : Coord
  colorTable : Vector ColorRef 16

/-- The window part of `ConsolepSetScreenBufferInfo`. -/
def requestInfoWindow (body : InfoBody) : ScreenBuffer × Status :=
  if body.scrollPosition.x < 0 ∨ body.scrollPosition.y < 0 ∨
      body.currentWindowSize.x < 0 ∨ body.currentWindowSize.y < 0 then
    (buffer, .invalidParameter)
  else
    let left := body.scrollPosition.x
    let top := body.scrollPosition.y
    let right := left + body.currentWindowSize.x
    let bottom := top + body.currentWindowSize.y
    if right < left ∨ bottom < top then
      (buffer, .invalidParameter)
    else if buffer.bufferSize.x ≤ left ∨ buffer.bufferSize.y ≤ top ∨
        buffer.bufferSize.x ≤ right ∨ buffer.bufferSize.y ≤ bottom then
      (buffer, .invalidParameter)
    else
      match buffer.setWindowRect ⟨toShort left, toShort top, toShort right, toShort bottom⟩ with
      | (moved, true) => (moved, .success)
      | (unmoved, false) => (unmoved, .invalidParameter)

/-- `ConsolepSetScreenBufferInfo`. -/
def requestSetScreenBufferInfo (body : InfoBody) : ScreenBuffer × Status :=
  let size := body.size.val
  if size.x ≤ 0 ∨ size.y ≤ 0 then
    (buffer, .invalidParameter)
  else
    match buffer.setScreenBufferSize size with
    | (unsized, false) => (unsized, .noMemory)
    | (resized, true) =>
        let cursor := body.cursorPosition
        if cursor.x < 0 ∨ cursor.y < 0 ∨ size.x ≤ cursor.x ∨ size.y ≤ cursor.y then
          (resized, .invalidParameter)
        else
          let moved := resized.setCursorPosition cursor
          let colored := moved.setTextAttributes body.attributes
          let defaulted := colored.update (colored.setDefaultTextAttributes body.attributes)
          (defaulted.update (defaulted.setColorTable body.colorTable)).requestInfoWindow body

/-- `ConsolepSetScreenBufferSize`. -/
def requestSetScreenBufferSize (size : ShortCoord) : ScreenBuffer × Status :=
  if size.val.x ≤ 0 ∨ size.val.y ≤ 0 then
    (buffer, .invalidParameter)
  else
    match buffer.setScreenBufferSize size.val with
    | (resized, true) => (resized, .success)
    | (unsized, false) => (unsized, .noMemory)

/-- `ConsolepSetCursorPosition`. -/
def requestSetCursorPosition (position : Coord) : ScreenBuffer × Status :=
  if position.x < 0 ∨ position.y < 0 ∨ buffer.bufferSize.x ≤ position.x ∨
      buffer.bufferSize.y ≤ position.y then
    (buffer, .invalidParameter)
  else
    ((buffer.setCursorPosition position).snapWindowToCursor, .success)

/-- The part of a rectangle inside the buffer, as `ConsolepScrollScreenBuffer` cuts it. -/
def clipToBuffer (rect : SmallRect) : SmallRect :=
  ⟨if rect.left < 0 then 0 else rect.left, if rect.top < 0 then 0 else rect.top,
    if toShort (buffer.bufferSize.x - 1) < rect.right then toShort (buffer.bufferSize.x - 1)
    else rect.right,
    if toShort (buffer.bufferSize.y - 1) < rect.bottom then toShort (buffer.bufferSize.y - 1)
    else rect.bottom⟩

/-- The body of `ConsolepScrollScreenBuffer`; `clip` is `none` when `Clip` is `FALSE`. -/
structure ScrollBody where
  scrollRectangle : SmallRect
  clip : Option SmallRect
  destinationOrigin : Coord
  unicode : Bool
  fill : ScreenCore.CharInfo

/-- `ConsolepScrollScreenBuffer`. -/
def requestScroll (body : ScrollBody) : ScreenBuffer × Status :=
  let isEmpty (rect : SmallRect) : Bool := rect.right < rect.left ∨ rect.bottom < rect.top
  if buffer.bufferSize.x ≤ 0 ∨ buffer.bufferSize.y ≤ 0 then
    (buffer, .noMemory)
  else if isEmpty body.scrollRectangle then
    (buffer, .invalidParameter)
  else
    let scroll := buffer.clipToBuffer body.scrollRectangle
    if isEmpty scroll then
      (buffer, .success)
    else
      let whole : SmallRect :=
        ⟨0, 0, toShort (buffer.bufferSize.x - 1), toShort (buffer.bufferSize.y - 1)⟩
      if body.clip.any isEmpty then
        (buffer, .invalidParameter)
      else if (body.clip.map buffer.clipToBuffer).any isEmpty then
        (buffer, .success)
      else
        let clip := (body.clip.map buffer.clipToBuffer).getD whole
        let character :=
          if body.unicode then body.fill.char else body.fill.char.toUInt8.toUInt16
        let scrolled :=
          buffer.scrollScreenBuffer scroll clip body.destinationOrigin character
            body.fill.attributes
        (buffer.update scrolled, if scrolled.result then .success else .noMemory)

/-- `ConsolepSetTextAttribute`. -/
def requestSetTextAttribute (attributes : Attributes) : ScreenBuffer × Status :=
  (buffer.setTextAttributes attributes, .success)

/-- `ConsolepSetWindowInfo`. -/
def requestSetWindowInfo (absolute : Bool) (window : SmallRect) : ScreenBuffer × Status :=
  let place (rect : SmallRect) : ScreenBuffer × Status :=
    match buffer.setWindowRect rect with
    | (moved, true) => (moved, .success)
    | (unmoved, false) => (unmoved, .invalidParameter)
  if absolute then
    place window
  else
    let current := buffer.windowRect
    let left := current.left + window.left
    let top := current.top + window.top
    let right := current.right + window.right
    let bottom := current.bottom + window.bottom
    if right < left ∨ bottom < top then
      (buffer, .invalidParameter)
    else if left < 0 ∨ top < 0 ∨ right < 0 ∨ bottom < 0 ∨
        buffer.bufferSize.x ≤ left ∨ buffer.bufferSize.y ≤ top ∨
        buffer.bufferSize.x ≤ right ∨ buffer.bufferSize.y ≤ bottom then
      (buffer, .invalidParameter)
    else
      place ⟨toShort left, toShort top, toShort right, toShort bottom⟩

/-- The kinds of elements of the linear output requests. -/
inductive ElementType where
  | attributes
  | realUnicode
  | falseUnicode
  | ascii
  | other
deriving DecidableEq, Repr

/-- The check of the start coordinate shared by the linear output requests. -/
def originStatus (origin : Coord) : Status :=
  if buffer.bufferSize.x ≤ 0 ∨ buffer.bufferSize.y ≤ 0 then .noMemory
  else if origin.x < 0 ∨ origin.y < 0 ∨ buffer.bufferSize.x ≤ origin.x ∨
      buffer.bufferSize.y ≤ origin.y then .invalidParameter
  else .success

/-- `ConsolepFillConsoleOutput`: the new buffer, the status and the reply length. -/
def requestFill (origin : Coord) (elementType : ElementType) (element : UInt16) (length : Nat) :
    ScreenBuffer × Status × Nat :=
  let store (filled : CoreUpdate Nat) : ScreenBuffer × Status × Nat :=
    (buffer.update filled, .success, filled.result)
  match buffer.originStatus origin with
  | .success =>
      match elementType with
      | .attributes => store (buffer.fillOutputAttributes origin element length)
      | .realUnicode => store (buffer.fillOutputCharacters origin element length)
      | .falseUnicode => store (buffer.fillOutputCharacters origin element length)
      | .ascii => store (buffer.fillOutputCharacters origin element.toUInt8.toUInt16 length)
      | .other => (buffer, .invalidParameter, 0)
  | status => (buffer, status, 0)

/-- The little-endian words of a byte sequence; an odd last byte is dropped. -/
def words : List Byte → List UInt16
  | low :: high :: rest => (low.toUInt16 ||| (high.toUInt16 <<< 8)) :: words rest
  | _ => []

/-- The `CHAR_INFO` records of a byte sequence. -/
def charInfos : List UInt16 → List ScreenCore.CharInfo
  | char :: attributes :: rest => ⟨char, attributes⟩ :: charInfos rest
  | _ => []

/-- The check of a region shared by `ConsolepWriteConsoleOutput` and
`ConsolepReadConsoleOutput`; `bytes` is the size of the client's buffer. -/
def regionStatus (region : SmallRect) (bytes : Nat) : Status :=
  if region.right < region.left ∨ region.bottom < region.top then .invalidParameter
  else if buffer.bufferSize.x ≤ 0 ∨ buffer.bufferSize.y ≤ 0 then .noMemory
  else if region.left < 0 ∨ region.top < 0 ∨ buffer.bufferSize.x ≤ region.right ∨
      buffer.bufferSize.y ≤ region.bottom then .invalidParameter
  else if bytes % 4 ≠ 0 then .invalidParameter
  else if bytes / 4 < (region.right - region.left + 1).toNat *
    (region.bottom - region.top + 1).toNat
    then .invalidParameter
  else .success

/-- `ConsolepWriteConsoleOutput`. -/
def requestWriteOutput (region : SmallRect) (unicode : Bool) (input : List Byte) :
    ScreenBuffer × Status :=
  match buffer.regionStatus region input.length with
  | .success =>
      let count :=
        (region.right - region.left + 1).toNat * (region.bottom - region.top + 1).toNat
      let written :=
        buffer.writeOutputCharInfoRect region ((charInfos (words input)).take count) unicode
      (buffer.update written, if written.result = count then .success else .noMemory)
  | status => (buffer, status)

/-- `ConsolepWriteConsoleOutputString`: the new buffer, the status and the number
of records used. -/
def requestWriteOutputString (origin : Coord) (stringType : ElementType) (input : List Byte) :
    ScreenBuffer × Status × Nat :=
  let store (written : CoreUpdate Nat) : ScreenBuffer × Status × Nat :=
    (buffer.update written, .success, written.result)
  match buffer.originStatus origin with
  | .success =>
      match stringType with
      | .attributes =>
          if input.length % 2 ≠ 0 then (buffer, .invalidParameter, 0)
          else store (buffer.writeOutputAttributes origin (words input))
      | .realUnicode =>
          if input.length % 2 ≠ 0 then (buffer, .invalidParameter, 0)
          else store (buffer.writeOutputCharacters origin (words input))
      | .falseUnicode =>
          if input.length % 2 ≠ 0 then (buffer, .invalidParameter, 0)
          else store (buffer.writeOutputCharacters origin (words input))
      | .ascii => store (buffer.writeOutputAscii origin input)
      | .other => (buffer, .invalidParameter, 0)
  | status => (buffer, status, 0)

end ScreenBuffer

/-- Everything `dispatch_message` does to a screen buffer. -/
inductive ScreenRequest where
  | writeText (text : List WChar) (mode : OutputMode) (title : Option TitleState)
      (answerQueries : Bool)
  | setCursorInfo (size : UInt32) (visible : Bool)
  | setScreenBufferInfo (body : ScreenBuffer.InfoBody)
  | setScreenBufferSize (size : ShortCoord)
  | setCursorPosition (position : Coord)
  | scroll (body : ScreenBuffer.ScrollBody)
  | setTextAttribute (attributes : Attributes)
  | setWindowInfo (absolute : Bool) (window : SmallRect)
  | fill (origin : Coord) (elementType : ScreenBuffer.ElementType) (element : UInt16) (length : Nat)
  | writeOutput (region : SmallRect) (unicode : Bool) (input : List Byte)
  | writeOutputString (origin : Coord) (stringType : ScreenBuffer.ElementType) (input : List Byte)

/-- The screen buffer after a request. -/
def ScreenRequest.apply (buffer : ScreenBuffer) : ScreenRequest → ScreenBuffer
  | .writeText text mode title answerQueries =>
      (applyTextToScreenBuffer buffer text mode title answerQueries).buffer
  | .setCursorInfo size visible => (buffer.requestSetCursorInfo size visible).1
  | .setScreenBufferInfo body => (buffer.requestSetScreenBufferInfo body).1
  | .setScreenBufferSize size => (buffer.requestSetScreenBufferSize size).1
  | .setCursorPosition position => (buffer.requestSetCursorPosition position).1
  | .scroll body => (buffer.requestScroll body).1
  | .setTextAttribute attributes => (buffer.requestSetTextAttribute attributes).1
  | .setWindowInfo absolute window => (buffer.requestSetWindowInfo absolute window).1
  | .fill origin elementType element length =>
      (buffer.requestFill origin elementType element length).1
  | .writeOutput region unicode input => (buffer.requestWriteOutput region unicode input).1
  | .writeOutputString origin stringType input =>
      (buffer.requestWriteOutputString origin stringType input).1

namespace ScreenBuffer.WellFormed

variable {buffer : ScreenBuffer}

theorem requestSetCursorInfo (valid : buffer.WellFormed) (size : UInt32) (visible : Bool) :
    (buffer.requestSetCursorInfo size visible).1.WellFormed := by
  unfold ScreenBuffer.requestSetCursorInfo
  split
  · exact valid
  · exact valid.update (valid.core.setCursorInfo size visible) rfl

theorem requestInfoWindow (valid : buffer.WellFormed) (body : InfoBody) :
    (buffer.requestInfoWindow body).1.WellFormed := by
  unfold ScreenBuffer.requestInfoWindow
  dsimp only
  split
  · exact valid
  · split
    · exact valid
    · split
      · exact valid
      · have placed := valid.setWindowRect
          ⟨toShort body.scrollPosition.x, toShort body.scrollPosition.y,
            toShort (body.scrollPosition.x + body.currentWindowSize.x),
            toShort (body.scrollPosition.y + body.currentWindowSize.y)⟩
        split
        · rename_i moved outcome
          rw [outcome] at placed
          exact placed
        · rename_i unmoved outcome
          rw [outcome] at placed
          exact placed

theorem setScreenBufferSize_bufferSize {size : Coord} {resized : ScreenBuffer}
    (outcome : buffer.setScreenBufferSize size = (resized, true)) :
    resized.bufferSize = size := by
  unfold ScreenBuffer.setScreenBufferSize at outcome
  split at outcome
  · cases outcome
  · cases outcome
    rw [snapWindowToCursor_toScreenCore]
    rfl

theorem requestSetScreenBufferInfo (valid : buffer.WellFormed) (body : InfoBody) :
    (buffer.requestSetScreenBufferInfo body).1.WellFormed := by
  have sized := valid.setScreenBufferSize body.size.property.x_le body.size.property.y_le
  unfold ScreenBuffer.requestSetScreenBufferInfo
  dsimp only
  split
  · exact valid
  · split
    · rename_i unsized outcome
      rw [outcome] at sized
      exact sized
    · rename_i resized outcome
      rw [outcome] at sized
      have sameSize := setScreenBufferSize_bufferSize outcome
      split
      · exact sized
      · rename_i cursorIn
        apply requestInfoWindow
        have inside : body.cursorPosition.Inside resized.bufferSize := by
          rw [sameSize]
          constructor <;> omega
        have colored := (sized.setCursorPosition inside).setTextAttributes body.attributes
        have defaulted :=
          colored.update (colored.core.setDefaultTextAttributes body.attributes) rfl
        exact defaulted.update (defaulted.core.setColorTable body.colorTable) rfl

theorem requestSetScreenBufferSize (valid : buffer.WellFormed) (size : ShortCoord) :
    (buffer.requestSetScreenBufferSize size).1.WellFormed := by
  have sized := valid.setScreenBufferSize size.property.x_le size.property.y_le
  unfold ScreenBuffer.requestSetScreenBufferSize
  split
  · exact valid
  · split
    · rename_i resized outcome
      rw [outcome] at sized
      exact sized
    · rename_i unsized outcome
      rw [outcome] at sized
      exact sized

theorem requestSetCursorPosition (valid : buffer.WellFormed) (position : Coord) :
    (buffer.requestSetCursorPosition position).1.WellFormed := by
  unfold ScreenBuffer.requestSetCursorPosition
  split
  · exact valid
  · apply WellFormed.snapWindowToCursor
    exact valid.setCursorPosition (by constructor <;> omega)

theorem requestScroll (valid : buffer.WellFormed) (body : ScrollBody) :
    (buffer.requestScroll body).1.WellFormed := by
  unfold ScreenBuffer.requestScroll
  dsimp only
  split
  · exact valid
  · split
    · exact valid
    · split
      · exact valid
      · split
        · exact valid
        · split
          · exact valid
          · exact valid.edit (ScreenCore.scrollScreenBuffer_editsCells ..)

theorem requestSetWindowInfo (valid : buffer.WellFormed) (absolute : Bool) (window : SmallRect) :
    (buffer.requestSetWindowInfo absolute window).1.WellFormed := by
  have place (rect : SmallRect) :
      (match buffer.setWindowRect rect with
        | (moved, true) => (moved, Status.success)
        | (unmoved, false) => (unmoved, Status.invalidParameter)).1.WellFormed := by
    have placed := valid.setWindowRect rect
    split
    · rename_i moved outcome
      rw [outcome] at placed
      exact placed
    · rename_i unmoved outcome
      rw [outcome] at placed
      exact placed
  unfold ScreenBuffer.requestSetWindowInfo
  dsimp only
  split
  · exact place _
  · split
    · exact valid
    · split
      · exact valid
      · exact place _

theorem requestFill (valid : buffer.WellFormed) (origin : Coord) (elementType : ElementType)
    (element : UInt16) (length : Nat) :
    (buffer.requestFill origin elementType element length).1.WellFormed := by
  unfold ScreenBuffer.requestFill
  dsimp only
  split
  · cases elementType with
    | other => exact valid
    | attributes => exact valid.edit (ScreenCore.updateRun_editsCells ..)
    | realUnicode => exact valid.edit (ScreenCore.updateRun_editsCells ..)
    | falseUnicode => exact valid.edit (ScreenCore.updateRun_editsCells ..)
    | ascii => exact valid.edit (ScreenCore.updateRun_editsCells ..)
  · exact valid

theorem requestWriteOutput (valid : buffer.WellFormed) (region : SmallRect) (unicode : Bool)
    (input : List Byte) : (buffer.requestWriteOutput region unicode input).1.WellFormed := by
  unfold ScreenBuffer.requestWriteOutput
  split
  · exact valid.edit (ScreenCore.writeOutputCharInfoRect_editsCells ..)
  · exact valid

theorem requestWriteOutputString (valid : buffer.WellFormed) (origin : Coord)
    (stringType : ElementType) (input : List Byte) :
    (buffer.requestWriteOutputString origin stringType input).1.WellFormed := by
  unfold ScreenBuffer.requestWriteOutputString
  dsimp only
  split
  · cases stringType with
    | other => exact valid
    | ascii => exact valid.edit (ScreenCore.updateRun_editsCells ..)
    | attributes | realUnicode | falseUnicode =>
        dsimp only
        split
        · exact valid
        · exact valid.edit (ScreenCore.updateRun_editsCells ..)
  · exact valid

end ScreenBuffer.WellFormed

/-- One request keeps the representation invariant. -/
theorem ScreenRequest.apply_wellFormed {buffer : ScreenBuffer} (valid : buffer.WellFormed)
    (request : ScreenRequest) : (request.apply buffer).WellFormed := by
  cases request with
  | writeText text mode title answerQueries =>
      exact applyTextToScreenBuffer_wellFormed valid text mode title answerQueries
  | setCursorInfo size visible => exact valid.requestSetCursorInfo size visible
  | setScreenBufferInfo body => exact valid.requestSetScreenBufferInfo body
  | setScreenBufferSize size => exact valid.requestSetScreenBufferSize size
  | setCursorPosition position => exact valid.requestSetCursorPosition position
  | scroll body => exact valid.requestScroll body
  | setTextAttribute attributes => exact valid.setTextAttributes attributes
  | setWindowInfo absolute window => exact valid.requestSetWindowInfo absolute window
  | fill origin elementType element length =>
      exact valid.requestFill origin elementType element length
  | writeOutput region unicode input => exact valid.requestWriteOutput region unicode input
  | writeOutputString origin stringType input =>
      exact valid.requestWriteOutputString origin stringType input

/-- The buffer after a history of requests. -/
def ScreenRequest.run (buffer : ScreenBuffer) (requests : List ScreenRequest) : ScreenBuffer :=
  requests.foldl ScreenRequest.apply buffer

/-- The representation invariant holds after every history of requests on a buffer
that satisfies it. -/
theorem ScreenRequest.run_wellFormed {buffer : ScreenBuffer} (valid : buffer.WellFormed)
    (requests : List ScreenRequest) : (ScreenRequest.run buffer requests).WellFormed := by
  induction requests generalizing buffer with
  | nil => exact valid
  | cons request requests ih => exact ih (request.apply_wellFormed valid)

/-- The representation invariant of a screen buffer: it holds after every finite
history of requests on a buffer created with a positive size. -/
theorem ScreenBuffer.representation_invariant (settings : ScreenBuffer.Settings)
    (isSize : settings.bufferSize.IsSize) (requests : List ScreenRequest) :
    (ScreenRequest.run (ScreenBuffer.create settings) requests).WellFormed :=
  ScreenRequest.run_wellFormed (ScreenBuffer.create_wellFormed isSize) requests

/-- A history that resizes the buffer while the alternate screen is active and
margins are set. -/
theorem ScreenBuffer.representation_invariant_resize_alternate :
    ScreenBuffer.defaultSettings.bufferSize.IsSize ∧
      (ScreenRequest.run (ScreenBuffer.create ScreenBuffer.defaultSettings)
        [.writeText ([0x1b, wc '[', wc '2', wc ';', wc '9', wc 'r', 0x1b, wc '['] ++
            [wc '?', wc '1', wc '0', wc '4', wc '9', wc 'h']) ⟨7⟩ none true,
          .setScreenBufferSize ⟨⟨10, 5⟩, by constructor <;> decide⟩]).WellFormed :=
  ⟨by constructor <;> decide,
    ScreenBuffer.representation_invariant ScreenBuffer.defaultSettings
      (by constructor <;> decide) _⟩

end Conhost
