import Mathlib.Algebra.Group.Int.Defs
import Conhost.Screen.Buffer

/-!
# Writing text to a screen buffer

This module embeds `apply_text_to_screen_buffer`. A call copies the registers
and the margins of the buffer into local variables, feeds the text to the
character loop, and commits the local copies when the text is exhausted.
`OutputCall` holds what is constant during a call and `OutputState` what the
loop changes: the buffer itself, the local copies, the title of the server and
the reports injected into the input queue.

The long conditional of the source over the final character of a CSI sequence
is split into `CsiFunction`, which names its branches, and one definition for
each branch.
-/

namespace Conhost

/-- The bits of the output mode. -/
structure OutputMode where
  value : UInt32
deriving DecidableEq, Repr

namespace OutputMode

/-- `ENABLE_PROCESSED_OUTPUT`. -/
def processedOutput (mode : OutputMode) : Bool := mode.value &&& 0x1 != 0

/-- `ENABLE_WRAP_AT_EOL_OUTPUT`. -/
def wrapAtEolOutput (mode : OutputMode) : Bool := mode.value &&& 0x2 != 0

/-- `ENABLE_VIRTUAL_TERMINAL_PROCESSING`. -/
def vtProcessing (mode : OutputMode) : Bool := mode.value &&& 0x4 != 0

/-- `DISABLE_NEWLINE_AUTO_RETURN`. -/
def disableNewlineAutoReturn (mode : OutputMode) : Bool := mode.value &&& 0x8 != 0

end OutputMode

/-- The constants of the character loop. `answerQueries` is whether there is a host
that answers status queries. -/
structure OutputCall where
  bufferSize : Coord
  defaultAttributes : Attributes
  mode : OutputMode
  answerQueries : Bool

/-- The state of the character loop. -/
structure OutputState where
  buffer : ScreenBuffer
  regs : VtRegisters
  margins : Option VtVerticalMargins
  title : Option TitleState
  replies : List (List Byte) := []
deriving DecidableEq

namespace OutputState

/-- Store an update of the buffer's core. -/
def update {α : Type} (state : OutputState) (update : CoreUpdate α) : OutputState :=
  { state with buffer := state.buffer.update update }

/-- Change the parser state. -/
def parse (state : OutputState) (change : VtOutputParseState → VtOutputParseState) : OutputState :=
  { state with buffer.vtOutputParseState := change state.buffer.vtOutputParseState }

/-- The pair of fills the source always issues together. -/
def fill (state : OutputState) (origin : Coord) (character : WChar) (attributes : Attributes)
    (length : Nat) : OutputState :=
  let filled := state.update (state.buffer.fillOutputCharacters origin character length)
  filled.update (filled.buffer.fillOutputAttributes origin attributes length)

/-- Drop the margins, both the local copy and the buffer's. -/
def resetMargins (state : OutputState) : OutputState :=
  { state.update (state.buffer.setVtVerticalMargins none) with margins := none }

end OutputState

namespace OutputCall

variable (call : OutputCall)

/-- `resolve_vertical_region`. -/
def resolveVerticalRegion (margins : Option VtVerticalMargins) : Int × Int :=
  match margins with
  | some ⟨top, bottom⟩ =>
      if 0 ≤ top ∧ top ≤ bottom ∧ bottom < call.bufferSize.y then (top, bottom)
      else (0, toShort (call.bufferSize.y - 1))
  | none => (0, toShort (call.bufferSize.y - 1))

/-- The guard shared by `scroll_region_up` and `scroll_region_down`. -/
def regionScrolls (top bottom : Int) : Bool :=
  decide (0 < call.bufferSize.x) && decide (1 < call.bufferSize.y) && decide (0 ≤ top) &&
    decide (top ≤ bottom) && decide (bottom < call.bufferSize.y) &&
    decide (1 < bottom - top + 1)

/-- Blank the rows from `top` to `bottom`. -/
def fillRows (state : OutputState) (top bottom : Int) : OutputState :=
  state.fill ⟨0, top⟩ 0x20 state.regs.attributes
    (call.bufferSize.x.toNat * (bottom - top + 1).toNat)

/-- Move the rows of `source` so that they start at `target`, inside the rows from
`top` to `bottom`. -/
def moveRows (state : OutputState) (sourceTop sourceBottom top bottom target : Int) :
    OutputState :=
  let right := toShort (call.bufferSize.x - 1)
  state.update (state.buffer.scrollScreenBuffer ⟨0, sourceTop, right, sourceBottom⟩
    ⟨0, top, right, bottom⟩ ⟨0, target⟩ 0x20 state.regs.attributes)

/-- `scroll_region_up`. -/
def scrollRegionUp (state : OutputState) (top bottom : Int) (count : Nat) : OutputState :=
  let count := if count = 0 then 1 else count
  if call.regionScrolls top bottom then
    if bottom - top + 1 ≤ count then call.fillRows state top bottom
    else call.moveRows state (toShort (top + count)) bottom top bottom top
  else
    state

/-- `scroll_region_down`. -/
def scrollRegionDown (state : OutputState) (top bottom : Int) (count : Nat) : OutputState :=
  let count := if count = 0 then 1 else count
  if call.regionScrolls top bottom then
    if bottom - top + 1 ≤ count then call.fillRows state top bottom
    else call.moveRows state top (toShort (bottom - count)) top bottom (toShort (top + count))
  else
    state

/-- `line_feed`. -/
def lineFeed (state : OutputState) : OutputState :=
  let (top, bottom) := call.resolveVerticalRegion state.margins
  let row := state.regs.cursor.y
  if top ≤ row ∧ row ≤ bottom then
    if row = bottom then call.scrollRegionUp state top bottom 1
    else { state with regs.cursor.y := toShort (row + 1) }
  else if call.bufferSize.y ≤ toShort (row + 1) then
    let last := toShort (call.bufferSize.y - 1)
    { call.scrollRegionUp state 0 last 1 with regs.cursor := ⟨state.regs.cursor.x, last⟩ }
  else
    { state with regs.cursor.y := toShort (row + 1) }

/-- `reverse_line_feed`. -/
def reverseLineFeed (state : OutputState) : OutputState :=
  let (top, bottom) := call.resolveVerticalRegion state.margins
  let row := state.regs.cursor.y
  if top ≤ row ∧ row ≤ bottom then
    if row = top then call.scrollRegionDown state top bottom 1
    else { state with regs.cursor.y := toShort (row - 1) }
  else if 0 < row then
    { state with regs.cursor.y := toShort (row - 1) }
  else
    call.scrollRegionDown state 0 (toShort (call.bufferSize.y - 1)) 1

/-- `advance_line`. -/
def advanceLine (state : OutputState) : OutputState :=
  call.lineFeed { state with regs.cursor.x := 0 }

/-- `maybe_apply_delayed_wrap`. -/
def maybeApplyDelayedWrap (state : OutputState) : OutputState :=
  if call.mode.vtProcessing then
    match state.regs.delayedWrap with
    | none => state
    | some position =>
        let wrapped :=
          if state.regs.autowrap && decide (position = state.regs.cursor) then
            call.advanceLine state
          else
            state
        { wrapped with regs.delayedWrap := none }
  else
    state

/-- The cursor step of `write_printable` while VT processing is on. -/
def advanceVt (state : OutputState) : OutputState :=
  let last := toShort (call.bufferSize.x - 1)
  let cursor := state.regs.cursor
  if last ≤ cursor.x then
    { state with
      regs.cursor.x := last
      regs.delayedWrap :=
        if state.regs.autowrap then some ⟨last, cursor.y⟩ else state.regs.delayedWrap }
  else
    { state with regs.cursor.x := toShort (cursor.x + 1) }

/-- The cursor step of `write_printable` while VT processing is off. -/
def advancePlain (state : OutputState) : OutputState :=
  let next := toShort (state.regs.cursor.x + 1)
  if call.bufferSize.x ≤ next then
    if call.mode.wrapAtEolOutput then call.advanceLine state
    else { state with regs.cursor.x := toShort (call.bufferSize.x - 1) }
  else
    { state with regs.cursor.x := next }

/-- The cell written by `write_printable`; IRM inserts while VT processing is on. -/
def storePrintable (state : OutputState) (value : WChar) : OutputState :=
  let regs := state.regs
  if call.mode.vtProcessing && regs.insertMode then
    state.update (state.buffer.insertCell regs.cursor value regs.attributes)
  else
    state.update (state.buffer.writeCell regs.cursor value regs.attributes)

/-- `write_printable`. -/
def writePrintable (state : OutputState) (value : WChar) : OutputState :=
  let written := call.storePrintable (call.maybeApplyDelayedWrap state) value
  if call.mode.vtProcessing then call.advanceVt written else call.advancePlain written

end OutputCall

namespace Sgr

/-- The three color bits and the intensity bit of the foreground. -/
def foregroundMask : Attributes := 0x000F

/-- The three color bits and the intensity bit of the background. -/
def backgroundMask : Attributes := 0x00F0

/-- `FOREGROUND_INTENSITY`. -/
def foregroundIntensity : Attributes := 0x0008

/-- `COMMON_LVB_REVERSE_VIDEO`. -/
def reverseVideo : Attributes := 0x4000

/-- `COMMON_LVB_UNDERSCORE`. -/
def underscore : Attributes := 0x8000

/-- The legacy bits of an ANSI color number: red, green and blue are the bits
4, 2 and 1 there and 1, 2 and 4 here. -/
def colorBits (color : Nat) (bright : Bool) : Attributes :=
  (if color &&& 1 ≠ 0 then 4 else 0) ||| (if color &&& 2 ≠ 0 then 2 else 0) |||
    (if color &&& 4 ≠ 0 then 1 else 0) ||| (if bright then 8 else 0)

/-- `set_foreground`. -/
def setForeground (attributes : Attributes) (color : Nat) (bright : Bool) : Attributes :=
  (attributes &&& ~~~foregroundMask) ||| colorBits color bright

/-- `set_background`. -/
def setBackground (attributes : Attributes) (color : Nat) (bright : Bool) : Attributes :=
  (attributes &&& ~~~backgroundMask) ||| (colorBits color bright <<< 4)

/-- `set_palette_index`. -/
def setPaletteIndex (attributes : Attributes) (index : Nat) (foreground : Bool) : Attributes :=
  if foreground then
    (attributes &&& ~~~foregroundMask) ||| UInt16.ofNat (index &&& 0x0F)
  else
    (attributes &&& ~~~backgroundMask) ||| UInt16.ofNat ((index &&& 0x0F) <<< 4)

/-- `clamp_byte`. -/
def clampByte (value : Nat) : Nat := if 0xFF < value then 0xFF else value

/-- The squared distance of a palette entry to a color. -/
def colorDistance (color : ColorRef) (red green blue : Nat) : Nat :=
  let square (entry : UInt32) (wanted : Nat) : Nat :=
    (((entry.toNat : Int) - wanted) * ((entry.toNat : Int) - wanted)).toNat
  square (color &&& 0xFF) red + square ((color >>> 8) &&& 0xFF) green +
    square ((color >>> 16) &&& 0xFF) blue

/-- `nearest_palette_index`: the first entry at the least distance. -/
def nearestPaletteIndex (table : Vector ColorRef 16) (red green blue : Nat) : Nat :=
  (table.toList.zipIdx.foldl
    (fun (best : Nat × Nat) (color, index) =>
      let distance := colorDistance color red green blue
      if distance < best.2 then (index, distance) else best)
    (0, 0xFFFFFFFF)).1

/-- `xterm_256_index_to_rgb`. -/
def xterm256IndexToRgb (index : Nat) : Nat × Nat × Nat :=
  let index := clampByte index
  if index < 16 then
    (0, 0, 0)
  else if 232 ≤ index then
    let shade := 8 + 10 * (index - 232)
    (shade, shade, shade)
  else
    let cube := index - 16
    let component (value : Nat) : Nat := if value = 0 then 0 else 55 + 40 * value
    (component (cube / 36), component (cube / 6 % 6), component (cube % 6))

/-- The SGR parameters that take no argument. -/
def applyBasic (defaults attributes : Attributes) (param : Nat) : Attributes :=
  if param = 0 then defaults
  else if param = 1 then attributes ||| foregroundIntensity
  else if param = 22 then attributes &&& ~~~foregroundIntensity
  else if param = 4 then attributes ||| underscore
  else if param = 24 then attributes &&& ~~~underscore
  else if param = 7 then attributes ||| reverseVideo
  else if param = 27 then attributes &&& ~~~reverseVideo
  else if param = 39 then (attributes &&& ~~~foregroundMask) ||| (defaults &&& foregroundMask)
  else if param = 49 then (attributes &&& ~~~backgroundMask) ||| (defaults &&& backgroundMask)
  else if 30 ≤ param ∧ param ≤ 37 then setForeground attributes (param - 30) false
  else if 90 ≤ param ∧ param ≤ 97 then setForeground attributes (param - 90) true
  else if 40 ≤ param ∧ param ≤ 47 then setBackground attributes (param - 40) false
  else if 100 ≤ param ∧ param ≤ 107 then setBackground attributes (param - 100) true
  else attributes

/-- The color chosen by `38;5;index` or `48;5;index`. -/
def applyIndexed (table : Vector ColorRef 16) (attributes : Attributes) (index : Nat)
    (foreground : Bool) : Attributes :=
  let index := clampByte index
  if index < 16 then
    let base := index &&& 0x07
    let bright := index &&& 0x08 != 0
    if foreground then setForeground attributes base bright
    else setBackground attributes base bright
  else
    let (red, green, blue) := xterm256IndexToRgb index
    setPaletteIndex attributes (nearestPaletteIndex table red green blue) foreground

/-- The loop of `apply_sgr` over the parameters. A color parameter without all
its arguments is skipped alone. -/
def apply (table : Vector ColorRef 16) (defaults : Attributes) :
    List Nat → Attributes → Attributes
  | [], attributes => attributes
  | param :: rest, attributes =>
      if param = 38 ∨ param = 48 then
        match rest with
        | 5 :: index :: rest =>
            apply table defaults rest (applyIndexed table attributes index (param == 38))
        | 2 :: red :: green :: blue :: rest =>
            apply table defaults rest
              (setPaletteIndex attributes
                (nearestPaletteIndex table (clampByte red) (clampByte green) (clampByte blue))
                (param == 38))
        | rest => apply table defaults rest attributes
      else
        apply table defaults rest (applyBasic defaults attributes param)

end Sgr

/-- The branches of `apply_csi`, in the order of the source. -/
inductive CsiFunction where
  | selectGraphicRendition
  | deviceStatusReport
  | cursorPosition
  | softReset
  | cursorHorizontalAbsolute
  | verticalPositionAbsolute
  | cursorLine (down : Bool)
  | cursorMove (dx dy : Int)
  | insertCharacter
  | deleteCharacter
  | eraseCharacter
  | setMargins
  | scroll (up : Bool)
  | insertLine
  | deleteLine
  | eraseDisplay
  | eraseLine
  | saveCursor
  | restoreCursor
  | setMode (enable : Bool)
  | unsupported
deriving DecidableEq, Repr

namespace VtCsiSequence

variable (csi : VtCsiSequence)

/-- The branch of `apply_csi` a sequence takes. -/
def function : CsiFunction :=
  if csi.final = wc 'm' then .selectGraphicRendition
  else if csi.final = wc 'n' then .deviceStatusReport
  else if csi.final = wc 'H' ∨ csi.final = wc 'f' then .cursorPosition
  else if csi.final = wc 'p' ∧ csi.exclamationMarker then .softReset
  else if csi.final = wc 'G' ∨ csi.final = 0x60 then .cursorHorizontalAbsolute
  else if csi.final = wc 'd' then .verticalPositionAbsolute
  else if csi.final = wc 'E' then .cursorLine true
  else if csi.final = wc 'F' then .cursorLine false
  else if csi.final = wc 'A' then .cursorMove 0 (-1)
  else if csi.final = wc 'B' then .cursorMove 0 1
  else if csi.final = wc 'C' then .cursorMove 1 0
  else if csi.final = wc 'D' then .cursorMove (-1) 0
  else if csi.final = wc '@' then .insertCharacter
  else if csi.final = wc 'P' then .deleteCharacter
  else if csi.final = wc 'X' then .eraseCharacter
  else if csi.final = wc 'r' then .setMargins
  else if csi.final = wc 'S' then .scroll true
  else if csi.final = wc 'T' then .scroll false
  else if csi.final = wc 'L' then .insertLine
  else if csi.final = wc 'M' then .deleteLine
  else if csi.final = wc 'J' then .eraseDisplay
  else if csi.final = wc 'K' then .eraseLine
  else if csi.final = wc 's' then .saveCursor
  else if csi.final = wc 'u' then .restoreCursor
  else if csi.final = wc 'h' then .setMode true
  else if csi.final = wc 'l' then .setMode false
  else .unsupported

/-- A parameter, or a default when it was not given. -/
def param (index fallback : Nat) : Nat := csi.params.getD index fallback

/-- A count or a one-based position: the default is one, and zero means one. -/
def positive (index : Nat) : Nat :=
  let value := csi.param index 1
  if value = 0 then 1 else value

end VtCsiSequence

namespace OutputCall

variable (call : OutputCall)

/-- The rows an absolute row number is clamped to: the margins in origin mode. -/
def originRows (regs : VtRegisters) (margins : Option VtVerticalMargins) : Int × Int :=
  if regs.originMode then call.resolveVerticalRegion margins else (0, call.bufferSize.y - 1)

/-- The rows a relative cursor movement is clamped to: the margins in origin mode,
and also when the cursor stands inside margins that are set. -/
def movementRows (regs : VtRegisters) (margins : Option VtVerticalMargins) : Int × Int :=
  let (top, bottom) := call.resolveVerticalRegion margins
  if regs.originMode ∨ (margins.isSome ∧ top ≤ regs.cursor.y ∧ regs.cursor.y ≤ bottom) then
    (top, bottom)
  else
    (0, call.bufferSize.y - 1)

/-- Clamp a column to the buffer. -/
def clampColumn (column : Int) : Int := toShort (clampLong column 0 (call.bufferSize.x - 1))

/-- Clamp a row to an interval of rows. -/
def clampRow (row : Int) (rows : Int × Int) : Int := toShort (clampLong row rows.1 rows.2)

/-- The row addressed by a one-based row number. -/
def absoluteRow (regs : VtRegisters) (margins : Option VtVerticalMargins) (row : Nat) : Int :=
  let offset := if regs.originMode then (call.resolveVerticalRegion margins).1 else 0
  clampRow ((row : Int) - 1 + offset) (call.originRows regs margins)

/-- The decimal digits of a number as ASCII bytes. -/
def decimal (value : Nat) : List Byte := (Nat.toDigits 10 value).map bc

/-- The answer to `CSI 5 n` or `CSI 6 n`. -/
def statusReport (csi : VtCsiSequence) (state : OutputState) : List Byte :=
  if csi.param 0 0 = 5 then
    [0x1b, bc '[', bc '0', bc 'n']
  else
    let window := state.buffer.windowRect
    let top := (call.resolveVerticalRegion state.margins).1
    let rowOrigin := if state.regs.originMode then top else window.top
    let row := max 1 (state.regs.cursor.y - rowOrigin + 1)
    let column := max 1 (state.regs.cursor.x - window.left + 1)
    [0x1b, bc '['] ++ (if csi.privateMarker then [bc '?'] else []) ++ decimal row.toNat ++
      [bc ';'] ++ decimal column.toNat ++
      (if csi.privateMarker then [bc ';', bc '1'] else []) ++ [bc 'R']

/-- DSR. -/
def deviceStatusReport (csi : VtCsiSequence) (state : OutputState) : OutputState :=
  if call.answerQueries ∧ (csi.param 0 0 = 5 ∨ csi.param 0 0 = 6) then
    { state with replies := state.replies ++ [call.statusReport csi state] }
  else
    state

/-- CUP and HVP. -/
def cursorPosition (csi : VtCsiSequence) (state : OutputState) : OutputState :=
  { state with
    regs.cursor :=
      ⟨call.clampColumn ((csi.positive 1 : Int) - 1),
        call.absoluteRow state.regs state.margins (csi.positive 0)⟩ }

/-- DECSTR. -/
def softReset (state : OutputState) : OutputState :=
  let shown := state.update (state.buffer.setCursorInfo state.buffer.cursorSize true)
  let reset := shown.resetMargins
  let cleared : OutputState :=
    { reset with
      regs.autowrap := true
      regs.originMode := false
      regs.insertMode := false
      regs.delayedWrap := none
      regs.attributes := call.defaultAttributes }
  cleared.update
    (cleared.buffer.saveCursorState ⟨0, 0⟩ call.defaultAttributes false false)

/-- CHA and HPA. -/
def cursorHorizontalAbsolute (csi : VtCsiSequence) (state : OutputState) : OutputState :=
  { state with regs.cursor.x := call.clampColumn ((csi.positive 0 : Int) - 1) }

/-- VPA. -/
def verticalPositionAbsolute (csi : VtCsiSequence) (state : OutputState) : OutputState :=
  { state with regs.cursor.y := call.absoluteRow state.regs state.margins (csi.positive 0) }

/-- CNL and CPL. -/
def cursorLine (csi : VtCsiSequence) (down : Bool) (state : OutputState) : OutputState :=
  let count : Int := csi.positive 0
  let row := state.regs.cursor.y + (if down then count else -count)
  { state with
    regs.cursor := ⟨0, clampRow row (call.movementRows state.regs state.margins)⟩ }

/-- CUU, CUD, CUF and CUB. -/
def cursorMove (csi : VtCsiSequence) (dx dy : Int) (state : OutputState) : OutputState :=
  let count : Int := csi.positive 0
  { state with
    regs.cursor :=
      ⟨call.clampColumn (state.regs.cursor.x + dx * count),
        clampRow (state.regs.cursor.y + dy * count)
          (call.movementRows state.regs state.margins)⟩ }

/-- Copy one cell inside a row; an unreadable source yields a blank. -/
def copyCell (state : OutputState) (source target : Coord) : OutputState :=
  let cell : ScreenCell :=
    match state.buffer.readOutputCharacters source 1,
      state.buffer.readOutputAttributes source 1 with
    | [character], [attributes] => ⟨character, attributes⟩
    | _, _ => ⟨0x20, state.regs.attributes⟩
  state.update (state.buffer.writeCell target cell.character cell.attributes)

/-- Blank `count` cells of the cursor row from column `start` on. -/
def eraseCells (state : OutputState) (start : Int) (count : Nat) : OutputState :=
  (List.range count).foldl
    (fun state step =>
      state.update (state.buffer.writeCell ⟨start + step, state.regs.cursor.y⟩ 0x20
        state.regs.attributes))
    state

/-- The guard shared by ICH, DCH and ECH. -/
def cursorInside (state : OutputState) : Bool :=
  decide (0 < call.bufferSize.x) && decide (0 ≤ state.regs.cursor.x) &&
    decide (0 ≤ state.regs.cursor.y) && decide (state.regs.cursor.y < call.bufferSize.y) &&
    decide (state.regs.cursor.x < call.bufferSize.x)

/-- The count of ICH, DCH and ECH, cut to the rest of the row. -/
def rowCount (csi : VtCsiSequence) (state : OutputState) : Nat :=
  min (csi.positive 0) (call.bufferSize.x - state.regs.cursor.x).toNat

/-- Copy cells of the cursor row into the given columns, in that order, each from
`offset` columns further right. -/
def shiftCells (state : OutputState) (columns : List Int) (offset : Int) : OutputState :=
  columns.foldl
    (fun state column =>
      copyCell state ⟨column + offset, state.regs.cursor.y⟩ ⟨column, state.regs.cursor.y⟩)
    state

/-- ICH: the columns are visited from the last one down. -/
def insertCharacter (csi : VtCsiSequence) (state : OutputState) : OutputState :=
  let count := call.rowCount csi state
  let width := call.bufferSize.x
  let column := state.regs.cursor.x
  let columns : List Int :=
    (List.range (width - (column + count)).toNat).map fun step => width - 1 - step
  let edited :=
    if call.cursorInside state then eraseCells (shiftCells state columns (-count)) column count
    else state
  { edited with regs.delayedWrap := none }

/-- DCH. -/
def deleteCharacter (csi : VtCsiSequence) (state : OutputState) : OutputState :=
  let count := call.rowCount csi state
  let limit := call.bufferSize.x - count
  let column := state.regs.cursor.x
  let columns : List Int := (List.range (limit - column).toNat).map fun step => column + step
  let edited :=
    if call.cursorInside state then eraseCells (shiftCells state columns count) limit count
    else state
  { edited with regs.delayedWrap := none }

/-- ECH. -/
def eraseCharacter (csi : VtCsiSequence) (state : OutputState) : OutputState :=
  let edited :=
    if call.cursorInside state then
      eraseCells state state.regs.cursor.x (call.rowCount csi state)
    else
      state
  { edited with regs.delayedWrap := none }

/-- DECSTBM. -/
def setMargins (csi : VtCsiSequence) (state : OutputState) : OutputState :=
  let height := call.bufferSize.y.toNat
  let top := if csi.param 0 0 = 0 then 1 else csi.param 0 0
  let bottom := if csi.param 1 0 = 0 then height else csi.param 1 0
  if top < bottom ∧ bottom ≤ height then
    let changed :=
      if top = 1 ∧ bottom = height then
        state.resetMargins
      else
        let margins : VtVerticalMargins := ⟨toShort ((top : Int) - 1), toShort ((bottom : Int) - 1)⟩
        { state.update (state.buffer.setVtVerticalMargins (some margins)) with
          margins := some margins }
    { changed with
      regs.cursor :=
        ⟨0, if state.regs.originMode then (call.resolveVerticalRegion changed.margins).1 else 0⟩ }
  else
    state

/-- SU and SD. -/
def scroll (csi : VtCsiSequence) (up : Bool) (state : OutputState) : OutputState :=
  let (top, bottom) := call.resolveVerticalRegion state.margins
  if up then call.scrollRegionUp state top bottom (csi.positive 0)
  else call.scrollRegionDown state top bottom (csi.positive 0)

/-- IL. -/
def insertLine (csi : VtCsiSequence) (state : OutputState) : OutputState :=
  let (top, bottom) := call.resolveVerticalRegion state.margins
  let row := state.regs.cursor.y
  let count := csi.positive 0
  if top ≤ row ∧ row ≤ bottom then
    if bottom - row + 1 ≤ count then call.fillRows state row bottom
    else call.moveRows state row (toShort (bottom - count)) row bottom (toShort (row + count))
  else
    state

/-- DL. -/
def deleteLine (csi : VtCsiSequence) (state : OutputState) : OutputState :=
  let (top, bottom) := call.resolveVerticalRegion state.margins
  let row := state.regs.cursor.y
  let count := csi.positive 0
  if top ≤ row ∧ row ≤ bottom then
    if bottom - row + 1 ≤ count then call.fillRows state row bottom
    else call.moveRows state (toShort (row + count)) bottom row bottom row
  else
    state

/-- Blank cells in the current attributes; a zero length is skipped. -/
def eraseFrom (state : OutputState) (origin : Coord) (length : Nat) : OutputState :=
  if length = 0 then state else state.fill origin 0x20 state.regs.attributes length

/-- A `size_t` computed from signed operands. -/
def toSize (value : Int) : Nat := (value % 2 ^ 64).toNat

/-- ED. -/
def eraseDisplay (csi : VtCsiSequence) (state : OutputState) : OutputState :=
  let total := call.bufferSize.x.toNat * call.bufferSize.y.toNat
  let cursor := state.regs.cursor
  let index := toSize (cursor.y * call.bufferSize.x + cursor.x)
  let erased :=
    match csi.param 0 0 with
    | 0 => eraseFrom state cursor (if index < total then total - index else 0)
    | 1 => eraseFrom state ⟨0, 0⟩ (if index < total then index + 1 else total)
    | 2 => eraseFrom state ⟨0, 0⟩ total
    | 3 => eraseFrom state ⟨0, 0⟩ total
    | _ => state
  { erased with regs.delayedWrap := none }

/-- EL. -/
def eraseLine (csi : VtCsiSequence) (state : OutputState) : OutputState :=
  let width := call.bufferSize.x
  let cursor := state.regs.cursor
  let erased :=
    if 0 < width then
      match csi.param 0 0 with
      | 0 => eraseFrom state cursor (if cursor.x < width then toSize (width - cursor.x) else 0)
      | 1 =>
          eraseFrom state ⟨0, cursor.y⟩
            (if cursor.x < width then toSize (cursor.x + 1) else width.toNat)
      | 2 => eraseFrom state ⟨0, cursor.y⟩ width.toNat
      | _ => state
    else
      state
  { erased with regs.delayedWrap := none }

/-- DECSC and ANSISYSSC. -/
def saveCursor (state : OutputState) : OutputState :=
  let regs := state.regs
  state.update
    (state.buffer.saveCursorState regs.cursor regs.attributes
      (decide (regs.delayedWrap = some regs.cursor)) regs.originMode)

/-- DECRC and ANSISYSRC. -/
def restoreCursor (state : OutputState) : OutputState :=
  match state.buffer.restoreCursorState with
  | none => state
  | some saved =>
      let regs : VtRegisters :=
        { state.regs with
          attributes := saved.attributes
          originMode := saved.originModeEnabled }
      let cursor : Coord :=
        ⟨call.clampColumn saved.position.x,
          clampRow saved.position.y (call.originRows regs state.margins)⟩
      { state with
        regs :=
          { regs with
            cursor := cursor
            delayedWrap := if saved.delayedEolWrap then some cursor else none } }

/-- The effect of `CSI ? 1049 h` and `CSI ? 1049 l`: switch the buffer, then
reload the local copies from it. -/
def switchScreen (enable : Bool) (state : OutputState) : OutputState :=
  let buffer := state.buffer.setVtUsingAlternateScreenBuffer enable 0x20 state.regs.attributes
  { state with
    buffer := buffer
    margins := buffer.vtVerticalMargins
    regs.cursor := buffer.regs.cursor
    regs.attributes := buffer.regs.attributes
    regs.originMode := buffer.regs.originMode
    regs.delayedWrap := none }

/-- One parameter of SM, RM, DECSET or DECRST. -/
def setModeParam (privateMarker enable : Bool) (state : OutputState) (param : Nat) :
    OutputState :=
  if !privateMarker ∧ param = 4 then
    { state with regs.insertMode := enable }
  else if param = 25 then
    state.update (state.buffer.setCursorInfo state.buffer.cursorSize enable)
  else if param = 6 then
    { state with
      regs.originMode := enable
      regs.cursor := ⟨0, if enable then (call.resolveVerticalRegion state.margins).1 else 0⟩
      regs.delayedWrap := none }
  else if param = 7 then
    { state with regs.autowrap := enable, regs.delayedWrap := none }
  else if param = 1049 then
    switchScreen enable state
  else
    state

/-- `apply_csi`. -/
def applyCsi (csi : VtCsiSequence) (state : OutputState) : OutputState :=
  match csi.function with
  | .selectGraphicRendition =>
      { state with
        regs.attributes :=
          Sgr.apply state.buffer.colorTable call.defaultAttributes csi.params
            state.regs.attributes }
  | .deviceStatusReport => call.deviceStatusReport csi state
  | .cursorPosition => call.cursorPosition csi state
  | .softReset => call.softReset state
  | .cursorHorizontalAbsolute => call.cursorHorizontalAbsolute csi state
  | .verticalPositionAbsolute => call.verticalPositionAbsolute csi state
  | .cursorLine down => call.cursorLine csi down state
  | .cursorMove dx dy => call.cursorMove csi dx dy state
  | .insertCharacter => call.insertCharacter csi state
  | .deleteCharacter => call.deleteCharacter csi state
  | .eraseCharacter => call.eraseCharacter csi state
  | .setMargins => call.setMargins csi state
  | .scroll up => call.scroll csi up state
  | .insertLine => call.insertLine csi state
  | .deleteLine => call.deleteLine csi state
  | .eraseDisplay => call.eraseDisplay csi state
  | .eraseLine => call.eraseLine csi state
  | .saveCursor => if csi.params.isEmpty then saveCursor state else state
  | .restoreCursor => call.restoreCursor state
  | .setMode enable =>
      csi.params.foldl (call.setModeParam csi.privateMarker enable) state
  | .unsupported => state

/-- RIS while the alternate screen is active first returns to the main one. -/
def leaveAlternateScreen (state : OutputState) : OutputState :=
  if state.buffer.vtMainBackup.isSome then
    let buffer := state.buffer.setVtUsingAlternateScreenBuffer false 0x20 state.regs.attributes
    { state with
      buffer := buffer
      margins := buffer.vtVerticalMargins
      regs.cursor := buffer.regs.cursor
      regs.attributes := buffer.regs.attributes
      regs.originMode := buffer.regs.originMode
      regs.insertMode := buffer.regs.insertMode
      regs.delayedWrap := buffer.regs.delayedWrap }
  else
    state

/-- The part of RIS that does not depend on the screen it was sent to. -/
def resetScreen (state : OutputState) : OutputState :=
  let colored := state.update (state.buffer.setColorTable ScreenBuffer.defaultColorTable)
  let shown := colored.update (colored.buffer.setCursorInfo colored.buffer.cursorSize true)
  let saved :=
    shown.update (shown.buffer.saveCursorState ⟨0, 0⟩ call.defaultAttributes false false)
  let reset := saved.resetMargins
  let cleared : OutputState :=
    { reset with
      regs :=
        { cursor := ⟨0, 0⟩
          attributes := call.defaultAttributes
          delayedWrap := none
          autowrap := true
          originMode := false
          insertMode := false } }
  cleared.fill ⟨0, 0⟩ 0x20 call.defaultAttributes
    (call.bufferSize.x.toNat * call.bufferSize.y.toNat)

/-- RIS. -/
def hardReset (state : OutputState) : OutputState :=
  call.resetScreen (leaveAlternateScreen state)

/-- DECALN. -/
def screenAlignment (state : OutputState) : OutputState :=
  let filled :=
    state.fill ⟨0, 0⟩ (wc 'E') call.defaultAttributes
      (call.bufferSize.x.toNat * call.bufferSize.y.toNat)
  { filled.resetMargins with
    regs :=
      { state.regs with
        cursor := ⟨0, 0⟩
        attributes := state.regs.attributes &&& ~~~(Sgr.reverseVideo ||| Sgr.underscore)
        delayedWrap := none
        originMode := false } }

end OutputCall

namespace VtOutputParseState

variable (parser : VtOutputParseState)

/-- Clear the CSI fields and continue in another phase. -/
def restartCsi (phase : VtPhase) : VtOutputParseState :=
  { parser with
    phase := phase
    csi := {}
    csiCurrent := 0
    csiHaveDigits := false
    csiLastWasSeparator := false
    csiLength := 0 }

/-- Clear the OSC fields and continue in another phase. -/
def restartOsc (phase : VtPhase) : VtOutputParseState :=
  { parser with
    phase := phase
    oscParam := 0
    oscParamHaveDigits := false
    oscInParam := true
    oscAction := 0
    oscCapturePayload := false
    oscPayload := [] }

/-- Clear the ESC fields and continue in another phase. -/
def restartEscape (phase : VtPhase) : VtOutputParseState :=
  { parser with phase := phase, escIntermediates := [], escLength := 0 }

/-- Whether a character is a decimal digit. -/
def isDigit (character : WChar) : Bool := wc '0' ≤ character && character ≤ wc '9'

/-- One more decimal digit; a number above a million is no longer extended. -/
def appendDigit (value : Nat) (character : WChar) : Nat :=
  if value ≤ 1000000 then value * 10 + (character - wc '0').toNat else value

/-- Store the current parameter while the array of sixteen has room. -/
def pushParam : VtOutputParseState :=
  if parser.csi.params.length < 16 then
    { parser with
      csi.params := parser.csi.params ++ [if parser.csiHaveDigits then parser.csiCurrent else 0] }
  else
    parser

/-- The sequence that is dispatched at a final character. -/
def finishCsi (final : WChar) : VtCsiSequence :=
  let pushed :=
    if parser.csiHaveDigits || parser.csiLastWasSeparator then parser.pushParam else parser
  let csi : VtCsiSequence := { pushed.csi with final := final }
  if final = wc 'm' ∧ csi.params = [] then { csi with params := [0] } else csi

/-- An intermediate character of an ESC sequence. -/
def pushIntermediate (character : WChar) : VtOutputParseState :=
  let pushed : VtOutputParseState :=
    if parser.escIntermediates.length < 8 then
      { parser with escIntermediates := parser.escIntermediates ++ [character] }
    else
      parser
  if 16 ≤ parser.escLength + 1 then pushed.restartEscape .ground
  else { pushed with escLength := parser.escLength + 1 }

/-- A character of a CSI sequence that does not dispatch it. -/
def collectCsi (character : WChar) : VtOutputParseState :=
  if isDigit character then
    { parser with
      csiHaveDigits := true
      csiLastWasSeparator := false
      csiCurrent := appendDigit parser.csiCurrent character }
  else if character = wc '?' then
    { parser with csi.privateMarker := true }
  else if character = wc '!' then
    { parser with csi.exclamationMarker := true }
  else if character = wc ';' then
    { parser.pushParam with
      csiLastWasSeparator := true
      csiCurrent := 0
      csiHaveDigits := false }
  else
    parser

/-- A character of the numeric parameter of an OSC sequence. -/
def collectOscParam (character : WChar) : VtOutputParseState :=
  if isDigit character then
    { parser with
      oscParamHaveDigits := true
      oscParam := appendDigit parser.oscParam character }
  else if character = wc ';' then
    let action := if parser.oscParamHaveDigits then parser.oscParam else 0
    { parser with
      oscAction := action
      oscCapturePayload := action = 0 ∨ action = 1 ∨ action = 2 ∨ action = 21
      oscInParam := false
      oscPayload := [] }
  else
    parser.restartOsc .ground

/-- A character of the payload of an OSC sequence. -/
def collectOscPayload (character : WChar) : VtOutputParseState :=
  if parser.oscCapturePayload ∧ parser.oscPayload.length < 4096 then
    { parser with oscPayload := parser.oscPayload ++ [character] }
  else
    parser

end VtOutputParseState

/-- What one look at a character does: it is used up, it is looked at again in
another phase, or it is plain text. -/
inductive VtOutcome where
  | consumed (state : OutputState)
  | again (state : OutputState)
  | text

namespace OutputCall

variable (call : OutputCall)

/-- The terminator of an OSC sequence sets the title. -/
def finishOsc (state : OutputState) : OutputState :=
  let parser := state.buffer.vtOutputParseState
  let titled : OutputState :=
    if parser.oscCapturePayload ∧ (parser.oscAction = 0 ∨ parser.oscAction = 1 ∨
        parser.oscAction = 2 ∨ parser.oscAction = 21) then
      { state with title := state.title.map (·.setTitle parser.oscPayload) }
    else
      state
  titled.parse (·.restartOsc .ground)

/-- The character after ESC. -/
def escapeFinal (state : OutputState) (character : WChar) : OutputState :=
  let state := state.parse (·.restartEscape .ground)
  if character = wc '[' then state.parse (·.restartCsi .csi)
  else if character = wc ']' then state.parse (·.restartOsc .osc)
  else if character = wc 'P' ∨ character = wc '^' ∨ character = wc '_' ∨ character = wc 'X' then
    state.parse ({ · with phase := .string })
  else if character = wc '7' then saveCursor state
  else if character = wc '8' then call.restoreCursor state
  else if character = wc 'D' then call.lineFeed state
  else if character = wc 'M' then call.reverseLineFeed state
  else if character = wc 'E' then call.advanceLine state
  else if character = wc 'c' then call.hardReset state
  else if 0x20 ≤ character ∧ character ≤ 0x2f then
    state.parse ({ · with phase := .escDispatch, escIntermediates := [character], escLength := 1 })
  else state

/-- A character after ESC and at least one intermediate. -/
def escapeDispatch (state : OutputState) (character : WChar) : OutputState :=
  if 0x20 ≤ character ∧ character ≤ 0x2f then
    state.parse (·.pushIntermediate character)
  else
    let dispatched :=
      if state.buffer.vtOutputParseState.escIntermediates = [wc '#'] ∧ character = wc '8' then
        call.screenAlignment state
      else
        state
    dispatched.parse (·.restartEscape .ground)

/-- A character of a CSI sequence. -/
def csiCharacter (state : OutputState) (character : WChar) : OutputState :=
  let parser := state.buffer.vtOutputParseState
  if 128 ≤ parser.csiLength then
    state.parse (·.restartCsi .ground)
  else if 0x40 ≤ character ∧ character ≤ 0x7e then
    (call.applyCsi (parser.finishCsi character) state).parse (·.restartCsi .ground)
  else
    state.parse fun parser =>
      { parser.collectCsi character with csiLength := parser.csiLength + 1 }

/-- A character of an OSC sequence. -/
def oscCharacter (state : OutputState) (character : WChar) : OutputState :=
  if state.buffer.vtOutputParseState.oscInParam then
    state.parse (·.collectOscParam character)
  else if character = 0x07 ∨ character = 0x9c then
    finishOsc state
  else if character = 0x1b then
    state.parse ({ · with phase := .oscEscape })
  else
    state.parse (·.collectOscPayload character)

/-- A character of a DCS, SOS, PM or APC string. -/
def stringCharacter (state : OutputState) (character : WChar) : OutputState :=
  if character = 0x9c then state.parse ({ · with phase := .ground })
  else if character = 0x1b then state.parse ({ · with phase := .stringEscape })
  else state

/-- A control character in ground phase. -/
def groundCharacter (state : OutputState) (character : WChar) : VtOutcome :=
  if character = 0x1b then .consumed (state.parse ({ · with phase := .escape }))
  else if character = 0x9b then .consumed (state.parse (·.restartCsi .csi))
  else if character = 0x9d then .consumed (state.parse (·.restartOsc .osc))
  else if character = 0x9c then .consumed state
  else if character = 0x90 ∨ character = 0x98 ∨ character = 0x9e ∨ character = 0x9f then
    .consumed (state.parse ({ · with phase := .string }))
  else .text

/-- One pass of the parser over a character. -/
def vtPass (state : OutputState) (character : WChar) : VtOutcome :=
  match state.buffer.vtOutputParseState.phase with
  | .escape => .consumed (call.escapeFinal state character)
  | .escDispatch => .consumed (call.escapeDispatch state character)
  | .csi => .consumed (call.csiCharacter state character)
  | .osc => .consumed (oscCharacter state character)
  | .oscEscape =>
      if character = wc '\\' then .consumed (finishOsc state)
      else .again (state.parse ({ · with phase := .osc }))
  | .string => .consumed (stringCharacter state character)
  | .stringEscape =>
      if character = wc '\\' then .consumed (state.parse ({ · with phase := .ground }))
      else .again (state.parse ({ · with phase := .string }))
  | .ground => groundCharacter state character

/-- A character that is not part of a control sequence. -/
def textCharacter (state : OutputState) (character : WChar) : OutputState :=
  if call.mode.processedOutput then
    if character = 0x0d then
      { state with regs.cursor.x := 0 }
    else if character = 0x0a then
      call.lineFeed
        (if call.mode.disableNewlineAutoReturn then state else { state with regs.cursor.x := 0 })
    else if character = 0x08 then
      if 0 < state.regs.cursor.x then
        { state with regs.cursor.x := toShort (state.regs.cursor.x - 1) }
      else
        state
    else if character = 0x09 then
      let column := state.regs.cursor.x
      let spaces := 8 - (if column < 0 then 0 else column.toNat % 8)
      (List.range spaces).foldl (fun state _ => call.writePrintable state 0x20) state
    else
      call.writePrintable state character
  else
    call.writePrintable state character

/-- The character loop on one character. A character that is looked at again is
used up the second time. -/
def step (state : OutputState) (character : WChar) : OutputState :=
  if call.mode.vtProcessing then
    match call.vtPass state character with
    | .consumed state => state
    | .again state =>
        match call.vtPass state character with
        | .consumed state => state
        | .again state => state
        | .text => call.textCharacter state character
    | .text => call.textCharacter state character
  else
    call.textCharacter state character

/-- The character loop. -/
def run (state : OutputState) (text : List WChar) : OutputState :=
  text.foldl call.step state

end OutputCall

/-- Write the local copies back at the end of a call. A mode is written only if it
differs from its value at the start of the call. -/
def OutputState.commit (state : OutputState) (original : VtRegisters) : ScreenBuffer :=
  let regs := state.regs
  let buffer := state.buffer
  let buffer :=
    if regs.autowrap ≠ original.autowrap then buffer.setVtAutowrapEnabled regs.autowrap
    else buffer
  let buffer :=
    if regs.originMode ≠ original.originMode then buffer.setVtOriginModeEnabled regs.originMode
    else buffer
  let buffer :=
    if regs.insertMode ≠ original.insertMode then buffer.setVtInsertModeEnabled regs.insertMode
    else buffer
  let buffer := buffer.setVtDelayedWrapPosition regs.delayedWrap
  let buffer := buffer.setCursorPosition regs.cursor
  let buffer := buffer.setTextAttributes regs.attributes
  buffer.snapWindowToCursor

namespace ScreenBuffer

/-- The constants of a call that starts on this buffer. -/
def outputCall (buffer : ScreenBuffer) (mode : OutputMode) (answerQueries : Bool) : OutputCall where
  bufferSize := buffer.bufferSize
  defaultAttributes := buffer.defaultTextAttributes
  mode := mode
  answerQueries := answerQueries

/-- The state in which the character loop starts. -/
def outputState (buffer : ScreenBuffer) (mode : OutputMode) (title : Option TitleState) :
    OutputState :=
  let started : OutputState :=
    { buffer := buffer
      regs := buffer.regs
      margins := buffer.vtVerticalMargins
      title := title }
  if mode.vtProcessing then started
  else { started.parse (fun _ => {}) with regs.delayedWrap := none }

end ScreenBuffer

/-- The result of a call: the buffer, the title and the injected reports. -/
structure OutputResult where
  buffer : ScreenBuffer
  title : Option TitleState
  replies : List (List Byte)
deriving DecidableEq

/-- `apply_text_to_screen_buffer`. -/
def applyTextToScreenBuffer (buffer : ScreenBuffer) (text : List WChar) (mode : OutputMode)
    (title : Option TitleState) (answerQueries : Bool) : OutputResult :=
  if buffer.bufferSize.x ≤ 0 ∨ buffer.bufferSize.y ≤ 0 then
    ⟨buffer, title, []⟩
  else
    let call := buffer.outputCall mode answerQueries
    let state := call.run (buffer.outputState mode title) text
    ⟨state.commit buffer.regs, state.title, state.replies⟩

end Conhost
