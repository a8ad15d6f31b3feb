import Conhost.Screen.Invariant

/-!
# The invariant of a running output call

While the character loop runs, the cursor the user sees is a local variable
and the margins exist twice. `OutputCall.Invariant` states what holds between
any two characters: the buffer is well formed with its committed cursor, the
local cursor is inside it, and the local margins equal the committed ones. One
lemma for each branch of the loop shows that it keeps the invariant.
-/

namespace Conhost

namespace OutputCall

/-- The loop invariant of `apply_text_to_screen_buffer`. -/
structure Invariant (call : OutputCall) (state : OutputState) : Prop where
  buffer : state.buffer.WellFormed
  size : state.buffer.bufferSize = call.bufferSize
  margins : state.margins = state.buffer.vtVerticalMargins
  cursor : state.regs.cursor.Inside call.bufferSize

variable {call : OutputCall} {state : OutputState}

namespace Invariant

theorem isSize (invariant : call.Invariant state) : call.bufferSize.IsSize := by
  rw [← invariant.size]
  exact invariant.buffer.core.size

theorem marginsValid (invariant : call.Invariant state) :
    ∀ margins ∈ state.margins, margins.Valid call.bufferSize.y := by
  rw [invariant.margins, ← invariant.size]
  exact invariant.buffer.core.margins

theorem setRegs (invariant : call.Invariant state) {regs : VtRegisters}
    (inside : regs.cursor.Inside call.bufferSize) :
    call.Invariant { state with regs := regs } :=
  ⟨invariant.buffer, invariant.size, invariant.margins, inside⟩

theorem setReplies (invariant : call.Invariant state) (replies : List (List Byte)) :
    call.Invariant { state with replies := replies } :=
  ⟨invariant.buffer, invariant.size, invariant.margins, invariant.cursor⟩

theorem setTitle (invariant : call.Invariant state) (title : Option TitleState) :
    call.Invariant { state with title := title } :=
  ⟨invariant.buffer, invariant.size, invariant.margins, invariant.cursor⟩

theorem parse (invariant : call.Invariant state)
    (change : VtOutputParseState → VtOutputParseState) : call.Invariant (state.parse change) := by
  have core := invariant.buffer.core
  exact ⟨⟨⟨core.size, core.cells, core.margins, core.backup, core.asserted⟩,
    invariant.buffer.cursor, invariant.buffer.window⟩, invariant.size, invariant.margins,
    invariant.cursor⟩

theorem edit {α : Type} {update : CoreUpdate α} (invariant : call.Invariant state)
    (edits : update.EditsCells state.buffer.toScreenCore) :
    call.Invariant (state.update update) := by
  refine ⟨invariant.buffer.edit edits, ?_, ?_, invariant.cursor⟩
  all_goals
    rcases edits with ⟨cells, updated, _⟩
    simp only [OutputState.update, ScreenBuffer.update, updated, invariant.size,
      invariant.margins]

theorem setCursorInfo (invariant : call.Invariant state) (size : UInt32) (visible : Bool) :
    call.Invariant (state.update (state.buffer.setCursorInfo size visible)) :=
  ⟨invariant.buffer.update (invariant.buffer.core.setCursorInfo size visible) rfl,
    invariant.size, invariant.margins, invariant.cursor⟩

theorem setColorTable (invariant : call.Invariant state) (table : Vector ColorRef 16) :
    call.Invariant (state.update (state.buffer.setColorTable table)) :=
  ⟨invariant.buffer.update (invariant.buffer.core.setColorTable table) rfl,
    invariant.size, invariant.margins, invariant.cursor⟩

theorem saveCursorState (invariant : call.Invariant state) (position : Coord)
    (attributes : Attributes) (delayed origin : Bool) :
    call.Invariant
      (state.update (state.buffer.saveCursorState position attributes delayed origin)) :=
  ⟨invariant.buffer.update
      (invariant.buffer.core.saveCursorState position attributes delayed origin) rfl,
    invariant.size, invariant.margins, invariant.cursor⟩

theorem setVtVerticalMargins (invariant : call.Invariant state)
    {margins : Option VtVerticalMargins}
    (fit : ∀ region ∈ margins, region.Valid call.bufferSize.y) :
    call.Invariant
      { state.update (state.buffer.setVtVerticalMargins margins) with margins := margins } := by
  rw [← invariant.size] at fit
  exact ⟨invariant.buffer.update (invariant.buffer.core.setVtVerticalMargins fit) rfl,
    invariant.size, rfl, invariant.cursor⟩

theorem resetMargins (invariant : call.Invariant state) :
    call.Invariant state.resetMargins := by
  apply invariant.setVtVerticalMargins
  intro region mem
  cases mem

theorem fill (invariant : call.Invariant state) (origin : Coord) (character : WChar)
    (attributes : Attributes) (length : Nat) :
    call.Invariant (state.fill origin character attributes length) :=
  (invariant.edit (ScreenCore.updateRun_editsCells ..)).edit
    (ScreenCore.updateRun_editsCells ..)

/-- The home position is inside every buffer. -/
theorem home (invariant : call.Invariant state) : (⟨0, 0⟩ : Coord).Inside call.bufferSize :=
  ⟨le_rfl, invariant.isSize.x_pos, le_rfl, invariant.isSize.y_pos⟩

theorem toShort_lastRow (invariant : call.Invariant state) :
    toShort (call.bufferSize.y - 1) = call.bufferSize.y - 1 := by
  have := invariant.isSize.y_pos
  have := invariant.isSize.y_le
  exact toShort_eq_self (by omega) (by omega)

theorem toShort_lastColumn (invariant : call.Invariant state) :
    toShort (call.bufferSize.x - 1) = call.bufferSize.x - 1 := by
  have := invariant.isSize.x_pos
  have := invariant.isSize.x_le
  exact toShort_eq_self (by omega) (by omega)

/-- The scrolling region is a non-empty range of rows of the buffer. -/
theorem region (invariant : call.Invariant state) :
    0 ≤ (call.resolveVerticalRegion state.margins).1 ∧
      (call.resolveVerticalRegion state.margins).1 ≤
        (call.resolveVerticalRegion state.margins).2 ∧
      (call.resolveVerticalRegion state.margins).2 < call.bufferSize.y := by
  have := invariant.isSize.y_pos
  unfold resolveVerticalRegion
  rw [invariant.toShort_lastRow]
  split
  · split
    · assumption
    · dsimp only
      omega
  · dsimp only
    omega

theorem clampColumn_bounds (invariant : call.Invariant state) (column : Int) :
    0 ≤ call.clampColumn column ∧ call.clampColumn column < call.bufferSize.x := by
  have xPos := invariant.isSize.x_pos
  have xLe := invariant.isSize.x_le
  have ordered : (0 : Int) ≤ call.bufferSize.x - 1 := by omega
  unfold clampColumn
  rw [toShort_clampLong (by omega) ordered (by omega)]
  have := le_clampLong column ordered
  have := clampLong_le column ordered
  omega

theorem clampRow_bounds (invariant : call.Invariant state) (row : Int) {rows : Int × Int}
    (rowsIn : 0 ≤ rows.1 ∧ rows.1 ≤ rows.2 ∧ rows.2 < call.bufferSize.y) :
    0 ≤ clampRow row rows ∧ clampRow row rows < call.bufferSize.y := by
  have yLe := invariant.isSize.y_le
  unfold clampRow
  rw [toShort_clampLong (by omega) rowsIn.2.1 (by omega)]
  have := le_clampLong row rowsIn.2.1
  have := clampLong_le row rowsIn.2.1
  omega

theorem originRows_bounds (invariant : call.Invariant state) (regs : VtRegisters) :
    0 ≤ (call.originRows regs state.margins).1 ∧
      (call.originRows regs state.margins).1 ≤ (call.originRows regs state.margins).2 ∧
      (call.originRows regs state.margins).2 < call.bufferSize.y := by
  have := invariant.isSize.y_pos
  unfold originRows
  split
  · exact invariant.region
  · dsimp only
    omega

theorem movementRows_bounds (invariant : call.Invariant state) (regs : VtRegisters) :
    0 ≤ (call.movementRows regs state.margins).1 ∧
      (call.movementRows regs state.margins).1 ≤ (call.movementRows regs state.margins).2 ∧
      (call.movementRows regs state.margins).2 < call.bufferSize.y := by
  have := invariant.isSize.y_pos
  unfold movementRows
  dsimp only
  split
  · exact invariant.region
  · dsimp only
    omega

/-- A cursor built from a clamped column and a clamped row is inside the buffer. -/
theorem clamped_inside (invariant : call.Invariant state) (column row : Int) {rows : Int × Int}
    (rowsIn : 0 ≤ rows.1 ∧ rows.1 ≤ rows.2 ∧ rows.2 < call.bufferSize.y) :
    (⟨call.clampColumn column, clampRow row rows⟩ : Coord).Inside call.bufferSize :=
  have columns := invariant.clampColumn_bounds column
  have rows := invariant.clampRow_bounds row rowsIn
  ⟨columns.1, columns.2, rows.1, rows.2⟩

/-- The cursor homed to the first row of the region is inside the buffer. -/
theorem regionHome (invariant : call.Invariant state) (origin : Bool) :
    (⟨0, if origin then (call.resolveVerticalRegion state.margins).1 else 0⟩ : Coord).Inside
      call.bufferSize := by
  have region := invariant.region
  have := invariant.isSize.y_pos
  refine ⟨le_rfl, invariant.isSize.x_pos, ?_, ?_⟩
  · dsimp only
    split <;> omega
  · dsimp only
    split <;> omega

theorem scrollRegionUp (invariant : call.Invariant state) (top bottom : Int) (count : Nat) :
    call.Invariant (call.scrollRegionUp state top bottom count) := by
  unfold OutputCall.scrollRegionUp
  dsimp only
  generalize (if count = 0 then 1 else count) = lines
  split
  · split
    · exact invariant.fill ..
    · exact invariant.edit (ScreenCore.scrollScreenBuffer_editsCells ..)
  · exact invariant

theorem scrollRegionDown (invariant : call.Invariant state) (top bottom : Int) (count : Nat) :
    call.Invariant (call.scrollRegionDown state top bottom count) := by
  unfold OutputCall.scrollRegionDown
  dsimp only
  generalize (if count = 0 then 1 else count) = lines
  split
  · split
    · exact invariant.fill ..
    · exact invariant.edit (ScreenCore.scrollScreenBuffer_editsCells ..)
  · exact invariant

/-- Moving the cursor to another row of the buffer. -/
theorem setRow (invariant : call.Invariant state) {row : Int} (nonneg : 0 ≤ row)
    (lt : row < call.bufferSize.y) : call.Invariant { state with regs.cursor.y := row } :=
  invariant.setRegs ⟨invariant.cursor.x_nonneg, invariant.cursor.x_lt, nonneg, lt⟩

/-- Moving the cursor to another column of the buffer. -/
theorem setColumn (invariant : call.Invariant state) {column : Int} (nonneg : 0 ≤ column)
    (lt : column < call.bufferSize.x) : call.Invariant { state with regs.cursor.x := column } :=
  invariant.setRegs ⟨nonneg, lt, invariant.cursor.y_nonneg, invariant.cursor.y_lt⟩

theorem lineFeed (invariant : call.Invariant state) :
    call.Invariant (call.lineFeed state) := by
  have region := invariant.region
  have yLe := invariant.isSize.y_le
  rcases invariant.cursor with ⟨xNonneg, xLt, yNonneg, yLt⟩
  have next : toShort (state.regs.cursor.y + 1) = state.regs.cursor.y + 1 :=
    toShort_eq_self (by omega) (by omega)
  unfold OutputCall.lineFeed
  dsimp only
  rw [next, invariant.toShort_lastRow]
  split
  · split
    · exact invariant.scrollRegionUp _ _ _
    · exact invariant.setRow (by omega) (by omega)
  · split
    · refine (invariant.scrollRegionUp _ _ _).setRegs ⟨xNonneg, xLt, ?_, ?_⟩ <;> dsimp only <;>
        omega
    · exact invariant.setRow (by omega) (by omega)

theorem reverseLineFeed (invariant : call.Invariant state) :
    call.Invariant (call.reverseLineFeed state) := by
  have region := invariant.region
  have yLe := invariant.isSize.y_le
  rcases invariant.cursor with ⟨xNonneg, xLt, yNonneg, yLt⟩
  have previous : toShort (state.regs.cursor.y - 1) = state.regs.cursor.y - 1 :=
    toShort_eq_self (by omega) (by omega)
  unfold OutputCall.reverseLineFeed
  dsimp only
  rw [previous]
  split
  · split
    · exact invariant.scrollRegionDown _ _ _
    · exact invariant.setRow (by omega) (by omega)
  · split
    · exact invariant.setRow (by omega) (by omega)
    · exact invariant.scrollRegionDown _ _ _

theorem advanceLine (invariant : call.Invariant state) :
    call.Invariant (call.advanceLine state) :=
  (invariant.setColumn le_rfl invariant.isSize.x_pos).lineFeed

theorem maybeApplyDelayedWrap (invariant : call.Invariant state) :
    call.Invariant (call.maybeApplyDelayedWrap state) := by
  unfold OutputCall.maybeApplyDelayedWrap
  split
  · split
    · exact invariant
    · dsimp only
      split
      · exact invariant.advanceLine.setRegs invariant.advanceLine.cursor
      · exact invariant.setRegs invariant.cursor
  · exact invariant

theorem advanceVt (invariant : call.Invariant state) :
    call.Invariant (call.advanceVt state) := by
  have xPos := invariant.isSize.x_pos
  have xLe := invariant.isSize.x_le
  rcases invariant.cursor with ⟨xNonneg, xLt, yNonneg, yLt⟩
  have next : toShort (state.regs.cursor.x + 1) = state.regs.cursor.x + 1 :=
    toShort_eq_self (by omega) (by omega)
  unfold OutputCall.advanceVt
  dsimp only
  rw [next, invariant.toShort_lastColumn]
  split
  · refine invariant.setRegs ⟨?_, ?_, yNonneg, yLt⟩ <;> dsimp only <;> omega
  · exact invariant.setColumn (by omega) (by omega)

theorem advancePlain (invariant : call.Invariant state) :
    call.Invariant (call.advancePlain state) := by
  have xPos := invariant.isSize.x_pos
  have xLe := invariant.isSize.x_le
  rcases invariant.cursor with ⟨xNonneg, xLt, yNonneg, yLt⟩
  have next : toShort (state.regs.cursor.x + 1) = state.regs.cursor.x + 1 :=
    toShort_eq_self (by omega) (by omega)
  unfold OutputCall.advancePlain
  dsimp only
  rw [next, invariant.toShort_lastColumn]
  split
  · split
    · exact invariant.advanceLine
    · exact invariant.setColumn (by omega) (by omega)
  · exact invariant.setColumn (by omega) (by omega)

/-- A conditional between two states that satisfy the invariant. -/
theorem ite {condition : Prop} [Decidable condition] {first second : OutputState}
    (whenTrue : call.Invariant first) (whenFalse : call.Invariant second) :
    call.Invariant (if condition then first else second) := by
  split
  · exact whenTrue
  · exact whenFalse

theorem storePrintable (invariant : call.Invariant state) (value : WChar) :
    call.Invariant (call.storePrintable state value) :=
  ite (invariant.edit (ScreenCore.insertCell_editsCells invariant.buffer.core _ _ _))
    (invariant.edit (ScreenCore.writeCell_editsCells _ _ _))

theorem writePrintable (invariant : call.Invariant state) (value : WChar) :
    call.Invariant (call.writePrintable state value) :=
  have written := invariant.maybeApplyDelayedWrap.storePrintable value
  ite written.advanceVt written.advancePlain

/-- A fold of steps that keep the invariant keeps it. -/
theorem foldl {β : Type} {action : OutputState → β → OutputState}
    (preserves : ∀ state item, call.Invariant state → call.Invariant (action state item))
    (items : List β) (invariant : call.Invariant state) :
    call.Invariant (items.foldl action state) := by
  induction items generalizing state with
  | nil => exact invariant
  | cons item items ih => exact ih (preserves state item invariant)

theorem copyCell (invariant : call.Invariant state) (source target : Coord) :
    call.Invariant (copyCell state source target) :=
  invariant.edit (ScreenCore.writeCell_editsCells _ _ _)

theorem eraseCells (invariant : call.Invariant state) (start : Int) (count : Nat) :
    call.Invariant (eraseCells state start count) :=
  foldl (fun _ _ before => before.edit (ScreenCore.writeCell_editsCells _ _ _)) _ invariant

/-- Clearing the delayed wrap keeps the invariant. -/
theorem clearDelayedWrap (invariant : call.Invariant state) :
    call.Invariant { state with regs.delayedWrap := none } :=
  invariant.setRegs invariant.cursor

theorem shiftCells (invariant : call.Invariant state) (columns : List Int) (offset : Int) :
    call.Invariant (shiftCells state columns offset) :=
  foldl (fun _ _ before => before.copyCell _ _) _ invariant

theorem insertCharacter (invariant : call.Invariant state) (csi : VtCsiSequence) :
    call.Invariant (call.insertCharacter csi state) :=
  (ite ((invariant.shiftCells _ _).eraseCells _ _) invariant).clearDelayedWrap

theorem deleteCharacter (invariant : call.Invariant state) (csi : VtCsiSequence) :
    call.Invariant (call.deleteCharacter csi state) :=
  (ite ((invariant.shiftCells _ _).eraseCells _ _) invariant).clearDelayedWrap

theorem eraseCharacter (invariant : call.Invariant state) (csi : VtCsiSequence) :
    call.Invariant (call.eraseCharacter csi state) := by
  unfold OutputCall.eraseCharacter
  apply clearDelayedWrap
  split
  · exact invariant.eraseCells _ _
  · exact invariant

theorem eraseFrom (invariant : call.Invariant state) (origin : Coord) (length : Nat) :
    call.Invariant (eraseFrom state origin length) := by
  unfold OutputCall.eraseFrom
  split
  · exact invariant
  · exact invariant.fill ..

theorem eraseDisplay (invariant : call.Invariant state) (csi : VtCsiSequence) :
    call.Invariant (call.eraseDisplay csi state) := by
  unfold OutputCall.eraseDisplay
  apply clearDelayedWrap
  split
  · exact invariant.eraseFrom _ _
  · exact invariant.eraseFrom _ _
  · exact invariant.eraseFrom _ _
  · exact invariant.eraseFrom _ _
  · exact invariant

theorem eraseLine (invariant : call.Invariant state) (csi : VtCsiSequence) :
    call.Invariant (call.eraseLine csi state) := by
  unfold OutputCall.eraseLine
  apply clearDelayedWrap
  split
  · split
    · exact invariant.eraseFrom _ _
    · exact invariant.eraseFrom _ _
    · exact invariant.eraseFrom _ _
    · exact invariant
  · exact invariant

theorem setMargins (invariant : call.Invariant state) (csi : VtCsiSequence) :
    call.Invariant (call.setMargins csi state) := by
  have yPos := invariant.isSize.y_pos
  have yLe := invariant.isSize.y_le
  have regionFits {top bottom : Nat} (topPos : 1 ≤ top)
      (ordered : top < bottom ∧ bottom ≤ call.bufferSize.y.toNat) :
      ∀ region ∈ some (⟨toShort ((top : Int) - 1), toShort ((bottom : Int) - 1)⟩ :
        VtVerticalMargins), region.Valid call.bufferSize.y := by
    intro region mem
    obtain rfl := Option.some.inj mem
    rw [toShort_eq_self (by omega) (by omega), toShort_eq_self (by omega) (by omega)]
    constructor <;> dsimp only <;> omega
  unfold OutputCall.setMargins
  dsimp only
  generalize topEq : (if csi.param 0 0 = 0 then 1 else csi.param 0 0) = top
  generalize (if csi.param 1 0 = 0 then call.bufferSize.y.toNat else csi.param 1 0) = bottom
  split
  · rename_i ordered
    by_cases whole : top = 1 ∧ bottom = call.bufferSize.y.toNat
    · simp only [if_pos whole]
      exact invariant.resetMargins.setRegs (invariant.resetMargins.regionHome _)
    · simp only [if_neg whole]
      have topPos : 1 ≤ top := by
        subst topEq
        split <;> omega
      have changed := invariant.setVtVerticalMargins (regionFits topPos ordered)
      exact changed.setRegs (changed.regionHome _)
  · exact invariant

theorem scroll (invariant : call.Invariant state) (csi : VtCsiSequence) (up : Bool) :
    call.Invariant (call.scroll csi up state) := by
  unfold OutputCall.scroll
  dsimp only
  split
  · exact invariant.scrollRegionUp _ _ _
  · exact invariant.scrollRegionDown _ _ _

theorem insertLine (invariant : call.Invariant state) (csi : VtCsiSequence) :
    call.Invariant (call.insertLine csi state) := by
  unfold OutputCall.insertLine
  dsimp only
  split
  · split
    · exact invariant.fill ..
    · exact invariant.edit (ScreenCore.scrollScreenBuffer_editsCells ..)
  · exact invariant

theorem deleteLine (invariant : call.Invariant state) (csi : VtCsiSequence) :
    call.Invariant (call.deleteLine csi state) := by
  unfold OutputCall.deleteLine
  dsimp only
  split
  · split
    · exact invariant.fill ..
    · exact invariant.edit (ScreenCore.scrollScreenBuffer_editsCells ..)
  · exact invariant

theorem deviceStatusReport (invariant : call.Invariant state) (csi : VtCsiSequence) :
    call.Invariant (call.deviceStatusReport csi state) := by
  unfold OutputCall.deviceStatusReport
  split
  · exact invariant.setReplies _
  · exact invariant

theorem cursorPosition (invariant : call.Invariant state) (csi : VtCsiSequence) :
    call.Invariant (call.cursorPosition csi state) :=
  invariant.setRegs (invariant.clamped_inside _ _ (invariant.originRows_bounds state.regs))

theorem softReset (invariant : call.Invariant state) :
    call.Invariant (call.softReset state) := by
  have shown := invariant.setCursorInfo state.buffer.cursorSize true
  unfold OutputCall.softReset
  apply saveCursorState
  exact shown.resetMargins.setRegs shown.cursor

theorem cursorHorizontalAbsolute (invariant : call.Invariant state) (csi : VtCsiSequence) :
    call.Invariant (call.cursorHorizontalAbsolute csi state) :=
  have columns := invariant.clampColumn_bounds ((csi.positive 0 : Int) - 1)
  invariant.setColumn columns.1 columns.2

theorem verticalPositionAbsolute (invariant : call.Invariant state) (csi : VtCsiSequence) :
    call.Invariant (call.verticalPositionAbsolute csi state) :=
  have rows := invariant.clampRow_bounds _ (invariant.originRows_bounds state.regs)
  invariant.setRow rows.1 rows.2

theorem cursorLine (invariant : call.Invariant state) (csi : VtCsiSequence) (down : Bool) :
    call.Invariant (call.cursorLine csi down state) :=
  have rows := invariant.clampRow_bounds _ (invariant.movementRows_bounds state.regs)
  invariant.setRegs ⟨le_rfl, invariant.isSize.x_pos, rows.1, rows.2⟩

theorem cursorMove (invariant : call.Invariant state) (csi : VtCsiSequence) (dx dy : Int) :
    call.Invariant (call.cursorMove csi dx dy state) :=
  invariant.setRegs (invariant.clamped_inside _ _ (invariant.movementRows_bounds state.regs))

theorem saveCursor (invariant : call.Invariant state) : call.Invariant (saveCursor state) :=
  invariant.saveCursorState _ _ _ _

theorem restoreCursor (invariant : call.Invariant state) :
    call.Invariant (call.restoreCursor state) := by
  unfold OutputCall.restoreCursor
  split
  · exact invariant
  · exact invariant.setRegs (invariant.clamped_inside _ _ (invariant.originRows_bounds _))

/-- A switch of screens reloads the local copies from a well-formed buffer. -/
theorem reload (invariant : call.Invariant state) (enable : Bool) {regs : VtRegisters}
    (cursor : regs.cursor =
      (state.buffer.setVtUsingAlternateScreenBuffer enable 0x20
        state.regs.attributes).regs.cursor) :
    call.Invariant
      { state with
        buffer := state.buffer.setVtUsingAlternateScreenBuffer enable 0x20 state.regs.attributes
        margins :=
          (state.buffer.setVtUsingAlternateScreenBuffer enable 0x20
            state.regs.attributes).vtVerticalMargins
        regs := regs } := by
  have switched :=
    invariant.buffer.setVtUsingAlternateScreenBuffer enable 0x20 state.regs.attributes
  have size : (state.buffer.setVtUsingAlternateScreenBuffer enable 0x20
      state.regs.attributes).bufferSize = call.bufferSize := by
    rw [← invariant.size]
    unfold ScreenBuffer.setVtUsingAlternateScreenBuffer
    split <;> rfl
  refine ⟨switched, size, rfl, ?_⟩
  dsimp only
  rw [cursor, ← size]
  exact switched.cursor

theorem setModeParam (invariant : call.Invariant state) (privateMarker enable : Bool)
    (param : Nat) : call.Invariant (call.setModeParam privateMarker enable state param) := by
  unfold OutputCall.setModeParam
  refine ite (invariant.setRegs invariant.cursor) ?_
  refine ite (invariant.setCursorInfo _ _) ?_
  refine ite (invariant.setRegs (invariant.regionHome _)) ?_
  refine ite (invariant.setRegs invariant.cursor) ?_
  exact ite (invariant.reload enable rfl) invariant

theorem applyCsi (invariant : call.Invariant state) (csi : VtCsiSequence) :
    call.Invariant (call.applyCsi csi state) := by
  unfold OutputCall.applyCsi
  cases csi.function with
  | selectGraphicRendition => exact invariant.setRegs invariant.cursor
  | deviceStatusReport => exact invariant.deviceStatusReport csi
  | cursorPosition => exact invariant.cursorPosition csi
  | softReset => exact invariant.softReset
  | cursorHorizontalAbsolute => exact invariant.cursorHorizontalAbsolute csi
  | verticalPositionAbsolute => exact invariant.verticalPositionAbsolute csi
  | cursorLine down => exact invariant.cursorLine csi down
  | cursorMove dx dy => exact invariant.cursorMove csi dx dy
  | insertCharacter => exact invariant.insertCharacter csi
  | deleteCharacter => exact invariant.deleteCharacter csi
  | eraseCharacter => exact invariant.eraseCharacter csi
  | setMargins => exact invariant.setMargins csi
  | scroll up => exact invariant.scroll csi up
  | insertLine => exact invariant.insertLine csi
  | deleteLine => exact invariant.deleteLine csi
  | eraseDisplay => exact invariant.eraseDisplay csi
  | eraseLine => exact invariant.eraseLine csi
  | saveCursor =>
      dsimp only
      split
      · exact invariant.saveCursor
      · exact invariant
  | restoreCursor => exact invariant.restoreCursor
  | setMode enable =>
      exact foldl (fun _ param before => before.setModeParam _ enable param) _ invariant
  | unsupported => exact invariant

theorem leaveAlternateScreen (invariant : call.Invariant state) :
    call.Invariant (leaveAlternateScreen state) := by
  unfold OutputCall.leaveAlternateScreen
  split
  · exact invariant.reload false rfl
  · exact invariant

theorem hardReset (invariant : call.Invariant state) :
    call.Invariant (call.hardReset state) := by
  have onMain := invariant.leaveAlternateScreen
  unfold OutputCall.hardReset resetScreen
  apply fill
  refine setRegs ?_ invariant.home
  exact (((onMain.setColorTable _).setCursorInfo _ _).saveCursorState _ _ _ _).resetMargins

theorem screenAlignment (invariant : call.Invariant state) :
    call.Invariant (call.screenAlignment state) :=
  (invariant.fill ..).resetMargins.setRegs invariant.home

theorem finishOsc (invariant : call.Invariant state) : call.Invariant (finishOsc state) := by
  unfold OutputCall.finishOsc
  apply parse
  split
  · exact invariant.setTitle _
  · exact invariant

theorem escapeFinal (invariant : call.Invariant state) (character : WChar) :
    call.Invariant (call.escapeFinal state character) := by
  have restarted := invariant.parse (·.restartEscape .ground)
  unfold OutputCall.escapeFinal
  refine ite (restarted.parse _) ?_
  refine ite (restarted.parse _) ?_
  refine ite (restarted.parse _) ?_
  refine ite restarted.saveCursor ?_
  refine ite restarted.restoreCursor ?_
  refine ite restarted.lineFeed ?_
  refine ite restarted.reverseLineFeed ?_
  refine ite restarted.advanceLine ?_
  refine ite restarted.hardReset ?_
  exact ite (restarted.parse _) restarted

theorem escapeDispatch (invariant : call.Invariant state) (character : WChar) :
    call.Invariant (call.escapeDispatch state character) := by
  unfold OutputCall.escapeDispatch
  dsimp only
  split
  · exact invariant.parse _
  · apply parse
    split
    · exact invariant.screenAlignment
    · exact invariant

theorem csiCharacter (invariant : call.Invariant state) (character : WChar) :
    call.Invariant (call.csiCharacter state character) := by
  unfold OutputCall.csiCharacter
  dsimp only
  split
  · exact invariant.parse _
  · split
    · exact (invariant.applyCsi _).parse _
    · exact invariant.parse _

theorem oscCharacter (invariant : call.Invariant state) (character : WChar) :
    call.Invariant (oscCharacter state character) := by
  unfold OutputCall.oscCharacter
  refine ite (invariant.parse _) ?_
  refine ite invariant.finishOsc ?_
  exact ite (invariant.parse _) (invariant.parse _)

theorem stringCharacter (invariant : call.Invariant state) (character : WChar) :
    call.Invariant (stringCharacter state character) := by
  unfold OutputCall.stringCharacter
  exact ite (invariant.parse _) (ite (invariant.parse _) invariant)

end Invariant

end OutputCall

/-- A property of the state an outcome of the parser carries. -/
def VtOutcome.Satisfies (property : OutputState → Prop) : VtOutcome → Prop
  | .consumed state => property state
  | .again state => property state
  | .text => True

namespace OutputCall

variable {call : OutputCall} {state : OutputState}

namespace Invariant

theorem groundCharacter (invariant : call.Invariant state) (character : WChar) :
    (groundCharacter state character).Satisfies call.Invariant := by
  unfold OutputCall.groundCharacter
  split
  · exact invariant.parse _
  · split
    · exact invariant.parse _
    · split
      · exact invariant.parse _
      · split
        · exact invariant
        · split
          · exact invariant.parse _
          · trivial

theorem vtPass (invariant : call.Invariant state) (character : WChar) :
    (call.vtPass state character).Satisfies call.Invariant := by
  unfold OutputCall.vtPass
  cases state.buffer.vtOutputParseState.phase with
  | escape => exact invariant.escapeFinal character
  | escDispatch => exact invariant.escapeDispatch character
  | csi => exact invariant.csiCharacter character
  | osc => exact invariant.oscCharacter character
  | oscEscape =>
      dsimp only
      split
      · exact invariant.finishOsc
      · exact invariant.parse _
  | string => exact invariant.stringCharacter character
  | stringEscape =>
      dsimp only
      split
      · exact invariant.parse _
      · exact invariant.parse _
  | ground => exact invariant.groundCharacter character

theorem textCharacter (invariant : call.Invariant state) (character : WChar) :
    call.Invariant (call.textCharacter state character) := by
  have xPos := invariant.isSize.x_pos
  have xLe := invariant.isSize.x_le
  have homed := invariant.setColumn le_rfl xPos
  rcases invariant.cursor with ⟨xNonneg, xLt, yNonneg, yLt⟩
  unfold OutputCall.textCharacter
  refine ite ?_ (invariant.writePrintable character)
  refine ite homed ?_
  refine ite (ite invariant homed).lineFeed ?_
  refine ite ?_ (ite ?_ (invariant.writePrintable character))
  · split
    · have previous : toShort (state.regs.cursor.x - 1) = state.regs.cursor.x - 1 :=
        toShort_eq_self (by omega) (by omega)
      rw [previous]
      exact invariant.setColumn (by omega) (by omega)
    · exact invariant
  · exact foldl (fun _ _ before => before.writePrintable 0x20) _ invariant

/-- One character keeps the loop invariant. -/
theorem step (invariant : call.Invariant state) (character : WChar) :
    call.Invariant (call.step state character) := by
  have first := invariant.vtPass character
  unfold OutputCall.step
  refine ite ?_ (invariant.textCharacter character)
  cases outcome : call.vtPass state character with
  | consumed next =>
      rw [outcome] at first
      exact first
  | again next =>
      rw [outcome] at first
      have second := first.vtPass character
      dsimp only
      cases again : call.vtPass next character with
      | consumed last =>
          rw [again] at second
          exact second
      | again last =>
          rw [again] at second
          exact second
      | text => exact first.textCharacter character
  | text => exact invariant.textCharacter character

/-- A whole text keeps the loop invariant. -/
theorem run (invariant : call.Invariant state) (text : List WChar) :
    call.Invariant (call.run state text) :=
  foldl (fun _ character before => before.step character) text invariant

end Invariant

end OutputCall

namespace OutputState

variable {state : OutputState} {original : VtRegisters}

/-- Committing changes no more than the registers, the window and the revision. -/
@[simp]
theorem commit_toScreenCore :
    (state.commit original).toScreenCore = state.buffer.toScreenCore := by
  unfold commit
  dsimp only
  rw [ScreenBuffer.snapWindowToCursor_toScreenCore]
  simp only [ScreenBuffer.setTextAttributes, ScreenBuffer.setCursorPosition,
    ScreenBuffer.setVtDelayedWrapPosition, ScreenBuffer.setVtInsertModeEnabled,
    ScreenBuffer.setVtOriginModeEnabled, ScreenBuffer.setVtAutowrapEnabled, ScreenBuffer.touch]
  split_ifs <;> rfl

/-- The registers after a commit. -/
theorem commit_regs :
    (state.commit original).regs =
      { cursor := state.regs.cursor
        attributes := state.regs.attributes
        delayedWrap := state.regs.delayedWrap
        autowrap :=
          if state.regs.autowrap ≠ original.autowrap then state.regs.autowrap
          else state.buffer.regs.autowrap
        originMode :=
          if state.regs.originMode ≠ original.originMode then state.regs.originMode
          else state.buffer.regs.originMode
        insertMode :=
          if state.regs.insertMode ≠ original.insertMode then state.regs.insertMode
          else state.buffer.regs.insertMode } := by
  unfold commit
  dsimp only
  rw [ScreenBuffer.snapWindowToCursor_regs]
  simp only [ScreenBuffer.setTextAttributes, ScreenBuffer.setCursorPosition,
    ScreenBuffer.setVtDelayedWrapPosition, ScreenBuffer.setVtInsertModeEnabled,
    ScreenBuffer.setVtOriginModeEnabled, ScreenBuffer.setVtAutowrapEnabled, ScreenBuffer.touch]
  split_ifs <;> simp_all

theorem commit_wellFormed {call : OutputCall} (invariant : call.Invariant state) :
    (state.commit original).WellFormed := by
  unfold commit
  dsimp only
  apply ScreenBuffer.WellFormed.snapWindowToCursor
  simp only [ScreenBuffer.setTextAttributes, ScreenBuffer.setCursorPosition,
    ScreenBuffer.setVtDelayedWrapPosition, ScreenBuffer.setVtInsertModeEnabled,
    ScreenBuffer.setVtOriginModeEnabled, ScreenBuffer.setVtAutowrapEnabled, ScreenBuffer.touch]
  have inside : state.regs.cursor.Inside state.buffer.bufferSize := by
    rw [invariant.size]
    exact invariant.cursor
  split_ifs <;> exact ⟨invariant.buffer.core, inside, invariant.buffer.window⟩

end OutputState

/-- The character loop starts in a state that satisfies its invariant. -/
theorem ScreenBuffer.WellFormed.outputState {buffer : ScreenBuffer} (valid : buffer.WellFormed)
    (mode : OutputMode) (title : Option TitleState) (answerQueries : Bool) :
    (buffer.outputCall mode answerQueries).Invariant (buffer.outputState mode title) := by
  have started : (buffer.outputCall mode answerQueries).Invariant
      { buffer := buffer
        regs := buffer.regs
        margins := buffer.vtVerticalMargins
        title := title } := ⟨valid, rfl, rfl, valid.cursor⟩
  unfold ScreenBuffer.outputState
  exact .ite started ((started.parse _).setRegs valid.cursor)

/-- A call of `apply_text_to_screen_buffer` keeps the representation invariant. -/
theorem applyTextToScreenBuffer_wellFormed {buffer : ScreenBuffer} (valid : buffer.WellFormed)
    (text : List WChar) (mode : OutputMode) (title : Option TitleState) (answerQueries : Bool) :
    (applyTextToScreenBuffer buffer text mode title answerQueries).buffer.WellFormed := by
  unfold applyTextToScreenBuffer
  split
  · exact valid
  · exact OutputState.commit_wellFormed ((valid.outputState mode title answerQueries).run text)

end Conhost
