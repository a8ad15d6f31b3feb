import Conhost.Basic

/-!
# The screen buffer

The data of a `ScreenBuffer` is split in three. `ScreenCore` holds what the
output path changes in place: the cells, the color table, the saved cursor, the
margins, the backup of the main screen and the parser state. `VtRegisters`
holds the values the output path copies into local variables and writes back
at the end of a call. The window rectangle and the revision counter complete
the buffer.

An operation on the core returns a `CoreUpdate`: the new core, whether the
revision counter is incremented, and the value the source returns.
-/

namespace Conhost

/-- One character cell (`ScreenBuffer::ScreenCell`). -/
structure ScreenCell where
  character : WChar := 0x20
  attributes : Attributes := 0x07
deriving DecidableEq, Repr, Inhabited

/-- The state saved by DECSC (`ScreenBuffer::SavedCursorState`). -/
structure SavedCursorState where
  position : Coord
  attributes : Attributes
  delayedEolWrap : Bool
  originModeEnabled : Bool
deriving DecidableEq, Repr

/-- The DECSTBM scrolling region; both rows are inclusive. -/
structure VtVerticalMargins where
  top : Int
  bottom : Int
deriving DecidableEq, Repr

/-- The main screen while the alternate one is active
(`ScreenBuffer::VtAlternateBufferBackup`). -/
structure VtAlternateBufferBackup where
  cells : List ScreenCell
  cursorPosition : Coord
  textAttributes : Attributes
  defaultTextAttributes : Attributes
  cursorSize : UInt32
  cursorVisible : Bool
  savedCursorState : Option SavedCursorState
  vtVerticalMargins : Option VtVerticalMargins
  vtDelayedWrapPosition : Option Coord
  vtOriginModeEnabled : Bool
deriving DecidableEq, Repr

/-- A CSI sequence while it is collected. `params` holds at most sixteen
numbers; its length is the source's `param_count`. -/
structure VtCsiSequence where
  final : WChar := 0
  privateMarker : Bool := false
  exclamationMarker : Bool := false
  params : List Nat := []
deriving DecidableEq, Repr

/-- The phases of the streaming output parser. -/
inductive VtPhase where
  | ground
  | escape
  | escDispatch
  | csi
  | osc
  | oscEscape
  | string
  | stringEscape
deriving DecidableEq, Repr

/-- The parser state that survives from one write to the next
(`detail::VtOutputParseState`). The fixed arrays of the source are lists whose
length is the source's counter. -/
structure VtOutputParseState where
  phase : VtPhase := .ground
  escIntermediates : List WChar := []
  escLength : Nat := 0
  csi : VtCsiSequence := {}
  csiCurrent : Nat := 0
  csiHaveDigits : Bool := false
  csiLastWasSeparator : Bool := false
  csiLength : Nat := 0
  oscParam : Nat := 0
  oscParamHaveDigits : Bool := false
  oscInParam : Bool := true
  oscAction : Nat := 0
  oscCapturePayload : Bool := false
  oscPayload : List WChar := []
deriving DecidableEq, Repr

/-- The part of a screen buffer that the output path updates in place.
`assertionFailed` records that an `OC_ASSERT` did not hold. -/
structure ScreenCore where
  bufferSize : Coord
  maximumWindowSize : Coord
  defaultTextAttributes : Attributes
  cursorSize : UInt32
  cursorVisible : Bool
  colorTable : Vector ColorRef 16
  savedCursorState : Option SavedCursorState := none
  vtVerticalMargins : Option VtVerticalMargins := none
  vtMainBackup : Option VtAlternateBufferBackup := none
  vtOutputParseState : VtOutputParseState := {}
  cells : List ScreenCell
  assertionFailed : Bool := false
deriving DecidableEq, Repr

/-- The values `apply_text_to_screen_buffer` caches in local variables. -/
structure VtRegisters where
  cursor : Coord
  attributes : Attributes
  delayedWrap : Option Coord := none
  autowrap : Bool := true
  originMode : Bool := false
  insertMode : Bool := false
deriving DecidableEq, Repr

/-- A `ScreenBuffer`. -/
structure ScreenBuffer extends ScreenCore where
  regs : VtRegisters
  windowRect : SmallRect
  revision : Nat := 0
deriving DecidableEq, Repr

/-- The effect of an operation on the core of a screen buffer. -/
structure CoreUpdate (α : Type) where
  core : ScreenCore
  touched : Bool
  result : α

/-- Store an updated core and count the change (`ScreenBuffer::touch`). -/
def ScreenBuffer.update {α : Type} (buffer : ScreenBuffer) (update : CoreUpdate α) :
    ScreenBuffer :=
  { buffer with
    toScreenCore := update.core
    revision := if update.touched then buffer.revision + 1 else buffer.revision }

namespace ScreenCore

/-- `ScreenBuffer::coord_in_range`. -/
def coordInRange (core : ScreenCore) (coord : Coord) : Bool :=
  !core.cells.isEmpty && decide (0 < core.bufferSize.x) && decide (0 < core.bufferSize.y) &&
    decide (0 ≤ coord.x) && decide (0 ≤ coord.y) &&
    decide (coord.x < core.bufferSize.x) && decide (coord.y < core.bufferSize.y)

/-- `ScreenBuffer::linear_index`. -/
def linearIndex (core : ScreenCore) (coord : Coord) : Nat :=
  coord.y.toNat * core.bufferSize.x.toNat + coord.x.toNat

/-- The update that changes nothing. -/
def untouched {α : Type} (core : ScreenCore) (result : α) : CoreUpdate α :=
  ⟨core, false, result⟩

/-- The update that replaces the cells. -/
def withCells {α : Type} (core : ScreenCore) (cells : List ScreenCell) (result : α) :
    CoreUpdate α :=
  ⟨{ core with cells := cells }, true, result⟩

/-- `ScreenBuffer::write_cell`. -/
def writeCell (core : ScreenCore) (coord : Coord) (character : WChar) (attributes : Attributes) :
    CoreUpdate Bool :=
  if core.coordInRange coord then
    core.withCells (core.cells.set (core.linearIndex coord) ⟨character, attributes⟩) true
  else
    core.untouched false

/-- `ScreenBuffer::insert_cell`: shift the rest of the line right and drop its
last cell. -/
def insertCell (core : ScreenCore) (coord : Coord) (character : WChar) (attributes : Attributes) :
    CoreUpdate Bool :=
  if core.coordInRange coord then
    if core.bufferSize.x ≤ 1 then
      core.writeCell coord character attributes
    else
      let start := core.linearIndex coord
      let lineEnd := coord.y.toNat * core.bufferSize.x.toNat + core.bufferSize.x.toNat
      core.withCells
        (core.cells.take start ++ ⟨character, attributes⟩ ::
          (core.cells.take (lineEnd - 1)).drop start ++ core.cells.drop lineEnd) true
  else
    core.untouched false

/-- The loop shared by the linear writers: from the cell of `origin` on, update
at most `count` cells and stop at the end of the buffer. The result is the
number of cells updated. -/
def updateRun (core : ScreenCore) (origin : Coord) (count : Nat)
    (update : Nat → ScreenCell → ScreenCell) : CoreUpdate Nat :=
  if core.coordInRange origin && count != 0 then
    let index := core.linearIndex origin
    let written := min count (core.cells.length - index)
    core.withCells
      ((List.range written).foldl (fun cells step => cells.modify (index + step) (update step))
        core.cells) written
  else
    core.untouched 0

/-- `ScreenBuffer::fill_output_characters`. -/
def fillOutputCharacters (core : ScreenCore) (origin : Coord) (value : WChar) (length : Nat) :
    CoreUpdate Nat :=
  core.updateRun origin length fun _ cell => { cell with character := value }

/-- `ScreenBuffer::fill_output_attributes`. -/
def fillOutputAttributes (core : ScreenCore) (origin : Coord) (value : Attributes) (length : Nat) :
    CoreUpdate Nat :=
  core.updateRun origin length fun _ cell => { cell with attributes := value }

/-- `ScreenBuffer::write_output_characters`. -/
def writeOutputCharacters (core : ScreenCore) (origin : Coord) (text : List WChar) :
    CoreUpdate Nat :=
  core.updateRun origin text.length fun step cell =>
    { cell with character := text.getD step cell.character }

/-- `ScreenBuffer::write_output_attributes`. -/
def writeOutputAttributes (core : ScreenCore) (origin : Coord) (attributes : List Attributes) :
    CoreUpdate Nat :=
  core.updateRun origin attributes.length fun step cell =>
    { cell with attributes := attributes.getD step cell.attributes }

/-- `ScreenBuffer::write_output_ascii`. -/
def writeOutputAscii (core : ScreenCore) (origin : Coord) (bytes : List Byte) : CoreUpdate Nat :=
  core.writeOutputCharacters origin (bytes.map fun byte => byte.toUInt16)

/-- The cells read by the linear readers, from `origin` to the end of the buffer. -/
def readRun (core : ScreenCore) (origin : Coord) (count : Nat) : List ScreenCell :=
  if core.coordInRange origin && count != 0 then
    (core.cells.drop (core.linearIndex origin)).take count
  else
    []

/-- A character as an ASCII reader returns it. -/
def narrow (character : WChar) : Byte :=
  if character ≤ 0xFF then character.toUInt8 else bc '?'

/-- `ScreenBuffer::read_output_characters`. -/
def readOutputCharacters (core : ScreenCore) (origin : Coord) (count : Nat) : List WChar :=
  (core.readRun origin count).map (·.character)

/-- `ScreenBuffer::read_output_attributes`. -/
def readOutputAttributes (core : ScreenCore) (origin : Coord) (count : Nat) : List Attributes :=
  (core.readRun origin count).map (·.attributes)

/-- `ScreenBuffer::read_output_ascii`. -/
def readOutputAscii (core : ScreenCore) (origin : Coord) (count : Nat) : List Byte :=
  (core.readRun origin count).map fun cell => narrow cell.character

/-- A `CHAR_INFO`: the character union as its sixteen bits, and the attributes. -/
structure CharInfo where
  char : UInt16
  attributes : Attributes
deriving DecidableEq, Repr, Inhabited

/-- The guard shared by the rectangle accessors: the region is well ordered, lies
inside the buffer and the caller supplies a record for every cell of it. -/
def regionFits (core : ScreenCore) (region : SmallRect) (records : Nat) : Bool :=
  !core.cells.isEmpty && decide (region.left ≤ region.right) &&
    decide (region.top ≤ region.bottom) &&
    core.coordInRange ⟨region.left, region.top⟩ &&
    core.coordInRange ⟨region.right, region.bottom⟩ &&
    decide (region.coords.length ≤ records)

/-- `ScreenBuffer::write_output_char_info_rect`. -/
def writeOutputCharInfoRect (core : ScreenCore) (region : SmallRect) (records : List CharInfo)
    (unicode : Bool) : CoreUpdate Nat :=
  if core.regionFits region records.length then
    core.withCells
      ((region.coords.zip records).foldl
        (fun cells (coord, info) =>
          cells.set (core.linearIndex coord)
            ⟨if unicode then info.char else info.char.toUInt8.toUInt16, info.attributes⟩)
        core.cells)
      region.coords.length
  else
    core.untouched 0

/-- `ScreenBuffer::read_output_char_info_rect`. -/
def readOutputCharInfoRect (core : ScreenCore) (region : SmallRect) (capacity : Nat)
    (unicode : Bool) : List CharInfo :=
  if core.regionFits region capacity then
    region.coords.map fun coord =>
      let cell := core.cells.getD (core.linearIndex coord) {}
      ⟨if unicode then cell.character else (narrow cell.character).toUInt16, cell.attributes⟩
  else
    []

/-- The first loop of `scroll_screen_buffer`: blank the part of the scroll
rectangle that lies inside the clip rectangle. -/
def scrollErase (core : ScreenCore) (scroll clip : SmallRect) (fill : ScreenCell) :
    List ScreenCell :=
  scroll.coords.foldl
    (fun cells coord =>
      if clip.Contains coord then cells.set (core.linearIndex coord) fill else cells)
    core.cells

/-- The second loop of `scroll_screen_buffer`: write the saved cells at their
destination where it lies inside the buffer and the clip rectangle. -/
def scrollCopy (core : ScreenCore) (scroll clip : SmallRect) (destination : Coord)
    (cells : List ScreenCell) : List ScreenCell :=
  scroll.coords.foldl
    (fun cells coord =>
      let target : Coord :=
        ⟨coord.x + (destination.x - scroll.left), coord.y + (destination.y - scroll.top)⟩
      if 0 ≤ target.x ∧ 0 ≤ target.y ∧ target.x ≤ core.bufferSize.x - 1 ∧
          target.y ≤ core.bufferSize.y - 1 ∧ clip.Contains target then
        cells.set (core.linearIndex target) (core.cells.getD (core.linearIndex coord) {})
      else
        cells)
    cells

/-- `ScreenBuffer::scroll_screen_buffer`. -/
def scrollScreenBuffer (core : ScreenCore) (scroll clip : SmallRect) (destination : Coord)
    (fillCharacter : WChar) (fillAttributes : Attributes) : CoreUpdate Bool :=
  if core.cells.isEmpty then
    core.untouched false
  else if scroll.right < scroll.left ∨ scroll.bottom < scroll.top then
    core.untouched true
  else if core.coordInRange ⟨scroll.left, scroll.top⟩ &&
      core.coordInRange ⟨scroll.right, scroll.bottom⟩ then
    core.withCells
      (core.scrollCopy scroll clip destination
        (core.scrollErase scroll clip ⟨fillCharacter, fillAttributes⟩)) true
  else
    core.untouched true

/-- `ScreenBuffer::set_default_text_attributes`. -/
def setDefaultTextAttributes (core : ScreenCore) (attributes : Attributes) : CoreUpdate Unit :=
  ⟨{ core with defaultTextAttributes := attributes }, true, ()⟩

/-- `ScreenBuffer::set_cursor_info`. -/
def setCursorInfo (core : ScreenCore) (size : UInt32) (visible : Bool) : CoreUpdate Unit :=
  ⟨{ core with cursorSize := size, cursorVisible := visible }, true, ()⟩

/-- `ScreenBuffer::set_color_table`. -/
def setColorTable (core : ScreenCore) (table : Vector ColorRef 16) : CoreUpdate Unit :=
  ⟨{ core with colorTable := table }, true, ()⟩

/-- `ScreenBuffer::save_cursor_state`. -/
def saveCursorState (core : ScreenCore) (position : Coord) (attributes : Attributes)
    (delayedEolWrap originModeEnabled : Bool) : CoreUpdate Unit :=
  let saved : SavedCursorState :=
    if core.bufferSize.x ≤ 0 ∨ core.bufferSize.y ≤ 0 then
      ⟨⟨0, 0⟩, attributes, false, originModeEnabled⟩
    else
      let clamped : Coord :=
        ⟨clampLong position.x 0 (core.bufferSize.x - 1),
          clampLong position.y 0 (core.bufferSize.y - 1)⟩
      ⟨clamped, attributes, delayedEolWrap && decide (clamped = position), originModeEnabled⟩
  ⟨{ core with savedCursorState := some saved }, true, ()⟩

/-- `ScreenBuffer::restore_cursor_state`. -/
def restoreCursorState (core : ScreenCore) : Option SavedCursorState :=
  core.savedCursorState.map fun saved =>
    if core.bufferSize.x ≤ 0 ∨ core.bufferSize.y ≤ 0 then
      { saved with position := ⟨0, 0⟩ }
    else
      { saved with
        position :=
          ⟨clampLong saved.position.x 0 (core.bufferSize.x - 1),
            clampLong saved.position.y 0 (core.bufferSize.y - 1)⟩ }

/-- The conjunction of the four `OC_ASSERT`s of `set_vt_vertical_margins`. -/
def marginsAsserted (core : ScreenCore) (margins : VtVerticalMargins) : Bool :=
  decide (0 ≤ margins.top) && decide (margins.top ≤ margins.bottom) &&
    decide (0 < core.bufferSize.y) && decide (margins.bottom < core.bufferSize.y)

/-- `ScreenBuffer::set_vt_vertical_margins`. -/
def setVtVerticalMargins (core : ScreenCore) (margins : Option VtVerticalMargins) :
    CoreUpdate Unit :=
  ⟨{ core with
      vtVerticalMargins := margins
      assertionFailed := core.assertionFailed || !margins.all core.marginsAsserted }, true, ()⟩

end ScreenCore

namespace ScreenBuffer

/-- `ScreenBuffer::touch`. -/
def touch (buffer : ScreenBuffer) : ScreenBuffer :=
  { buffer with revision := buffer.revision + 1 }

/-- `ScreenBuffer::set_cursor_position`. -/
def setCursorPosition (buffer : ScreenBuffer) (position : Coord) : ScreenBuffer :=
  { buffer with regs.cursor := position }.touch

/-- `ScreenBuffer::set_text_attributes`. -/
def setTextAttributes (buffer : ScreenBuffer) (attributes : Attributes) : ScreenBuffer :=
  { buffer with regs.attributes := attributes }.touch

/-- `ScreenBuffer::set_vt_autowrap_enabled`. -/
def setVtAutowrapEnabled (buffer : ScreenBuffer) (enabled : Bool) : ScreenBuffer :=
  { buffer with regs.autowrap := enabled, regs.delayedWrap := none }.touch

/-- `ScreenBuffer::set_vt_delayed_wrap_position`. -/
def setVtDelayedWrapPosition (buffer : ScreenBuffer) (position : Option Coord) : ScreenBuffer :=
  { buffer with regs.delayedWrap := position }

/-- `ScreenBuffer::set_vt_origin_mode_enabled`. -/
def setVtOriginModeEnabled (buffer : ScreenBuffer) (enabled : Bool) : ScreenBuffer :=
  { buffer with regs.originMode := enabled }.touch

/-- `ScreenBuffer::set_vt_insert_mode_enabled`. -/
def setVtInsertModeEnabled (buffer : ScreenBuffer) (enabled : Bool) : ScreenBuffer :=
  if buffer.regs.insertMode = enabled then buffer
  else { buffer with regs.insertMode := enabled }.touch

/-- `ScreenBuffer::scroll_position`. -/
def scrollPosition (buffer : ScreenBuffer) : Coord :=
  ⟨buffer.windowRect.left, buffer.windowRect.top⟩

/-- `ScreenBuffer::set_window_rect`. -/
def setWindowRect (buffer : ScreenBuffer) (rect : SmallRect) : ScreenBuffer × Bool :=
  if buffer.bufferSize.x ≤ 0 ∨ buffer.bufferSize.y ≤ 0 then
    (buffer, false)
  else if rect.right < rect.left ∨ rect.bottom < rect.top then
    (buffer, false)
  else if rect.left < 0 ∨ rect.top < 0 ∨ rect.right < 0 ∨ rect.bottom < 0 then
    (buffer, false)
  else if buffer.bufferSize.x ≤ rect.right ∨ buffer.bufferSize.y ≤ rect.bottom then
    (buffer, false)
  else
    ({ buffer with windowRect := rect }.touch, true)

/-- `ScreenBuffer::window_size`. -/
def windowSize (buffer : ScreenBuffer) : Coord :=
  let width := buffer.windowRect.right - buffer.windowRect.left + 1
  let height := buffer.windowRect.bottom - buffer.windowRect.top + 1
  if width ≤ 0 ∨ height ≤ 0 then ⟨0, 0⟩ else ⟨min width 32767, min height 32767⟩

/-- A window of the given size at the given corner. -/
def windowAt (left top width height : Int) : SmallRect :=
  ⟨toShort left, toShort top, toShort (left + width - 1), toShort (top + height - 1)⟩

/-- The corner chosen by `snap_window_to_cursor` on one axis. -/
def snapAxis (low high cursor extent size : Int) : Int :=
  let moved :=
    if cursor < low then cursor
    else if high < cursor then cursor - (extent - 1)
    else low
  let nonnegative := if moved < 0 then 0 else moved
  if size - extent < nonnegative then size - extent else nonnegative

/-- `ScreenBuffer::snap_window_to_cursor`. -/
def snapWindowToCursor (buffer : ScreenBuffer) : ScreenBuffer :=
  let size := buffer.windowSize
  if buffer.bufferSize.x ≤ 0 ∨ buffer.bufferSize.y ≤ 0 then
    buffer
  else if size.x ≤ 0 ∨ size.y ≤ 0 then
    buffer
  else
    let rect := buffer.windowRect
    let left := snapAxis rect.left rect.right buffer.regs.cursor.x size.x buffer.bufferSize.x
    let top := snapAxis rect.top rect.bottom buffer.regs.cursor.y size.y buffer.bufferSize.y
    { buffer with windowRect := windowAt left top size.x size.y }.touch

/-- `ScreenBuffer::set_vt_using_alternate_screen_buffer`. Both directions read and
write the committed registers of the buffer, not the copies of a running call. -/
def setVtUsingAlternateScreenBuffer (buffer : ScreenBuffer) (enable : Bool)
    (fillCharacter : WChar) (fillAttributes : Attributes) : ScreenBuffer :=
  match enable, buffer.vtMainBackup with
  | true, some _ => buffer
  | true, none =>
    { buffer with
      vtMainBackup := some {
        cells := buffer.cells
        cursorPosition := buffer.regs.cursor
        textAttributes := buffer.regs.attributes
        defaultTextAttributes := buffer.defaultTextAttributes
        cursorSize := buffer.cursorSize
        cursorVisible := buffer.cursorVisible
        savedCursorState := buffer.savedCursorState
        vtVerticalMargins := buffer.vtVerticalMargins
        vtDelayedWrapPosition := buffer.regs.delayedWrap
        vtOriginModeEnabled := buffer.regs.originMode }
      cells := List.replicate buffer.cells.length ⟨fillCharacter, fillAttributes⟩
      savedCursorState := none
      vtVerticalMargins := none
      regs.cursor := ⟨0, 0⟩
      regs.delayedWrap := none }.touch
  | false, none => buffer
  | false, some backup =>
    { buffer with
      vtMainBackup := none
      cells := backup.cells
      defaultTextAttributes := backup.defaultTextAttributes
      cursorSize := backup.cursorSize
      cursorVisible := backup.cursorVisible
      savedCursorState := backup.savedCursorState
      vtVerticalMargins := backup.vtVerticalMargins
      regs.cursor := backup.cursorPosition
      regs.attributes := backup.textAttributes
      regs.delayedWrap := backup.vtDelayedWrapPosition
      regs.originMode := backup.vtOriginModeEnabled }.touch

/-- Copy the common part of an old cell grid into a blank grid of another size. -/
def resizeCells (old : List ScreenCell) (oldSize newSize : Coord) (attributes : Attributes) :
    List ScreenCell :=
  let blank := List.replicate (newSize.x.toNat * newSize.y.toNat) ⟨0x20, attributes⟩
  if old.isEmpty then
    blank
  else
    let common : SmallRect := ⟨0, 0, min oldSize.x newSize.x - 1, min oldSize.y newSize.y - 1⟩
    common.coords.foldl
      (fun cells coord =>
        cells.set (coord.y.toNat * newSize.x.toNat + coord.x.toNat)
          (old.getD (coord.y.toNat * oldSize.x.toNat + coord.x.toNat) {}))
      blank

/-- Margins after a resize: cut to the new height, and dropped when nothing is left. -/
def resizeMargins (margins : VtVerticalMargins) (height : Int) : Option VtVerticalMargins :=
  let top := if margins.top < 0 then 0 else margins.top
  if margins.bottom < 0 then
    none
  else
    let top := if height ≤ top then height - 1 else top
    let bottom := if height ≤ margins.bottom then height - 1 else margins.bottom
    if bottom ≤ top then none else some ⟨top, bottom⟩

/-- A cursor after a resize: only the far edges are checked. -/
def resizeCursor (cursor size : Coord) : Coord :=
  ⟨if size.x ≤ cursor.x then size.x - 1 else cursor.x,
    if size.y ≤ cursor.y then size.y - 1 else cursor.y⟩

/-- The window extents after a resize; both are reset when either is degenerate. -/
def resizeExtents (rect : SmallRect) (size : Coord) : Int × Int :=
  let width := rect.right - rect.left + 1
  let height := rect.bottom - rect.top + 1
  let (width, height) := if width ≤ 0 ∨ height ≤ 0 then (size.x, size.y) else (width, height)
  (max 1 (min width size.x), max 1 (min height size.y))

/-- The window after a resize. -/
def resizeWindow (rect : SmallRect) (size : Coord) : SmallRect :=
  let (width, height) := resizeExtents rect size
  windowAt (max 0 (min (max 0 rect.left) (size.x - width)))
    (max 0 (min (max 0 rect.top) (size.y - height))) width height

/-- The backed-up main screen after a resize. -/
def resizeBackup (backup : VtAlternateBufferBackup) (oldSize newSize : Coord) :
    VtAlternateBufferBackup :=
  { backup with
    cells := resizeCells backup.cells oldSize newSize backup.textAttributes
    cursorPosition := resizeCursor backup.cursorPosition newSize
    vtVerticalMargins := backup.vtVerticalMargins.bind (resizeMargins · newSize.y)
    vtDelayedWrapPosition := none }

/-- `ScreenBuffer::set_screen_buffer_size`. -/
def setScreenBufferSize (buffer : ScreenBuffer) (size : Coord) : ScreenBuffer × Bool :=
  if size.x ≤ 0 ∨ size.y ≤ 0 then
    (buffer, false)
  else
    let resized : ScreenBuffer :=
      { buffer with
        cells := resizeCells buffer.cells buffer.bufferSize size buffer.regs.attributes
        vtMainBackup := buffer.vtMainBackup.map (resizeBackup · buffer.bufferSize size)
        bufferSize := size
        maximumWindowSize :=
          ⟨max buffer.maximumWindowSize.x size.x, max buffer.maximumWindowSize.y size.y⟩
        windowRect := resizeWindow buffer.windowRect size
        regs.cursor := resizeCursor buffer.regs.cursor size
        regs.delayedWrap := none
        vtVerticalMargins := buffer.vtVerticalMargins.bind (resizeMargins · size.y) }
    (resized.touch.snapWindowToCursor, true)

/-- `ScreenBuffer::Settings`. -/
structure Settings where
  bufferSize : Coord
  cursorPosition : Coord := ⟨0, 0⟩
  scrollPosition : Coord := ⟨0, 0⟩
  windowSize : Coord
  maximumWindowSize : Coord
  textAttributes : Attributes := 0x07
  cursorSize : UInt32 := 25
  cursorVisible : Bool := true
  colorTable : Vector ColorRef 16
deriving DecidableEq, Repr

/-- The `RGB` macro. -/
def rgb (red green blue : UInt32) : ColorRef := red ||| (green <<< 8) ||| (blue <<< 16)

/-- The legacy console palette. -/
def defaultColorTable : Vector ColorRef 16 :=
  #v[rgb 0 0 0, rgb 0 0 128, rgb 0 128 0, rgb 0 128 128,
    rgb 128 0 0, rgb 128 0 128, rgb 128 128 0, rgb 192 192 192,
    rgb 128 128 128, rgb 0 0 255, rgb 0 255 0, rgb 0 255 255,
    rgb 255 0 0, rgb 255 0 255, rgb 255 255 0, rgb 255 255 255]

/-- `ScreenBuffer::default_settings`. -/
def defaultSettings : Settings where
  bufferSize := ⟨120, 40⟩
  windowSize := ⟨120, 40⟩
  maximumWindowSize := ⟨120, 40⟩
  colorTable := defaultColorTable

/-- The window extent of a new buffer on one axis. -/
def createExtent (desired size : Int) : Int :=
  max 1 (min (if desired ≤ 0 then size else desired) size)

/-- The window corner of a new buffer on one axis. -/
def createOrigin (desired extent size : Int) : Int :=
  max 0 (min (if desired < 0 then 0 else desired) (size - extent))

/-- A cursor component of a new buffer. -/
def createCursor (desired size : Int) : Int :=
  let nonnegative := if desired < 0 then 0 else desired
  if size ≤ nonnegative then size - 1 else nonnegative

/-- The constructor of `ScreenBuffer`. -/
def create (settings : Settings) : ScreenBuffer :=
  let size := settings.bufferSize
  if size.x ≤ 0 ∨ size.y ≤ 0 then
    { bufferSize := ⟨0, 0⟩
      maximumWindowSize := ⟨0, 0⟩
      defaultTextAttributes := settings.textAttributes
      cursorSize := settings.cursorSize
      cursorVisible := settings.cursorVisible
      colorTable := settings.colorTable
      cells := []
      regs := { cursor := ⟨0, 0⟩, attributes := settings.textAttributes }
      windowRect := ⟨0, 0, 0, 0⟩ }
  else
    let desired :=
      if settings.windowSize.x ≤ 0 ∨ settings.windowSize.y ≤ 0 then size
      else settings.windowSize
    let maximum :=
      if settings.maximumWindowSize.x ≤ 0 ∨ settings.maximumWindowSize.y ≤ 0 then size
      else settings.maximumWindowSize
    let width := createExtent desired.x size.x
    let height := createExtent desired.y size.y
    { bufferSize := size
      maximumWindowSize := ⟨max maximum.x size.x, max maximum.y size.y⟩
      defaultTextAttributes := settings.textAttributes
      cursorSize := settings.cursorSize
      cursorVisible := settings.cursorVisible
      colorTable := settings.colorTable
      cells := List.replicate (size.x.toNat * size.y.toNat) ⟨0x20, settings.textAttributes⟩
      regs :=
        { cursor :=
            ⟨createCursor settings.cursorPosition.x size.x,
              createCursor settings.cursorPosition.y size.y⟩
          attributes := settings.textAttributes }
      windowRect :=
        windowAt (createOrigin settings.scrollPosition.x width size.x)
          (createOrigin settings.scrollPosition.y height size.y) width height }

/-- `ScreenBuffer::create_blank_like`. -/
def createBlankLike (template : ScreenBuffer) : ScreenBuffer :=
  create {
    bufferSize := template.bufferSize
    scrollPosition := template.scrollPosition
    windowSize := template.windowSize
    maximumWindowSize := template.maximumWindowSize
    textAttributes := template.regs.attributes
    cursorSize := template.cursorSize
    cursorVisible := template.cursorVisible
    colorTable := template.colorTable }

end ScreenBuffer

/-- A blank buffer of two cells. -/
def twoCells : ScreenBuffer :=
  ScreenBuffer.create {
    bufferSize := ⟨2, 1⟩
    windowSize := ⟨2, 1⟩
    maximumWindowSize := ⟨2, 1⟩
    colorTable := ScreenBuffer.defaultColorTable }

end Conhost
