import Conhost.Screen.VtOutput
import Mathlib.Tactic.Ring

/-!
# The representation invariant of a screen buffer

`ScreenBuffer.WellFormed` says that the cell grid has the size of the buffer,
that the hidden main screen has it too, that every cursor and both pairs of
margins fit, that the window is a non-empty part of the buffer and that no
assertion has failed. The first half of the module shows it for the operations
of the buffer. The second half carries it through a whole call of
`apply_text_to_screen_buffer` with the loop invariant `OutputCall.Invariant`,
which relates the local copies of the call to the buffer.
-/

namespace Conhost

/-- A buffer size: both components are positive and fit a `SHORT`. -/
structure Coord.IsSize (size : Coord) : Prop where
  x_pos : 0 < size.x
  x_le : size.x ≤ 32767
  y_pos : 0 < size.y
  y_le : size.y ≤ 32767

/-- A position inside a grid of the given size. -/
structure Coord.Inside (coord size : Coord) : Prop where
  x_nonneg : 0 ≤ coord.x
  x_lt : coord.x < size.x
  y_nonneg : 0 ≤ coord.y
  y_lt : coord.y < size.y

/-- Margins of a screen of the given height. -/
structure VtVerticalMargins.Valid (margins : VtVerticalMargins) (height : Int) : Prop where
  top_nonneg : 0 ≤ margins.top
  top_lt : margins.top < margins.bottom
  bottom_lt : margins.bottom < height

/-- A window: a non-empty rectangle inside a grid of the given size. -/
structure SmallRect.IsWindow (rect : SmallRect) (size : Coord) : Prop where
  left_nonneg : 0 ≤ rect.left
  left_le : rect.left ≤ rect.right
  right_lt : rect.right < size.x
  top_nonneg : 0 ≤ rect.top
  top_le : rect.top ≤ rect.bottom
  bottom_lt : rect.bottom < size.y

/-- The hidden main screen fits the size of the buffer. -/
structure VtAlternateBufferBackup.WellFormed (backup : VtAlternateBufferBackup) (size : Coord) :
    Prop where
  cells : backup.cells.length = size.x.toNat * size.y.toNat
  cursor : backup.cursorPosition.Inside size
  margins : ∀ margins ∈ backup.vtVerticalMargins, margins.Valid size.y

/-- The invariant of the part of a buffer that is updated in place. -/
structure ScreenCore.WellFormed (core : ScreenCore) : Prop where
  size : core.bufferSize.IsSize
  cells : core.cells.length = core.bufferSize.x.toNat * core.bufferSize.y.toNat
  margins : ∀ margins ∈ core.vtVerticalMargins, margins.Valid core.bufferSize.y
  backup : ∀ backup ∈ core.vtMainBackup, backup.WellFormed core.bufferSize
  asserted : core.assertionFailed = false

/-- The representation invariant of a screen buffer. -/
structure ScreenBuffer.WellFormed (buffer : ScreenBuffer) : Prop where
  core : buffer.toScreenCore.WellFormed
  cursor : buffer.regs.cursor.Inside buffer.bufferSize
  window : buffer.windowRect.IsWindow buffer.bufferSize

/-- An update that changes the contents of cells and nothing else. -/
def CoreUpdate.EditsCells {α : Type} (core : ScreenCore) (update : CoreUpdate α) : Prop :=
  ∃ cells : List ScreenCell,
    update.core = { core with cells := cells } ∧ cells.length = core.cells.length

namespace ScreenCore

variable {core : ScreenCore}

theorem WellFormed.of_editsCells {α : Type} {update : CoreUpdate α} (valid : core.WellFormed)
    (edits : update.EditsCells core) : update.core.WellFormed := by
  rcases edits with ⟨cells, updated, sameLength⟩
  rw [updated]
  exact ⟨valid.size, sameLength.trans valid.cells, valid.margins, valid.backup, valid.asserted⟩

theorem editsCells_untouched {α : Type} (result : α) :
    (core.untouched result).EditsCells core :=
  ⟨core.cells, rfl, rfl⟩

theorem editsCells_withCells {α : Type} {cells : List ScreenCell} {result : α}
    (sameLength : cells.length = core.cells.length) :
    (core.withCells cells result).EditsCells core :=
  ⟨cells, rfl, sameLength⟩

theorem length_foldl_cells {β : Type} (items : List β)
    {edit : List ScreenCell → β → List ScreenCell}
    (sameLength : ∀ cells item, (edit cells item).length = cells.length)
    (cells : List ScreenCell) : (items.foldl edit cells).length = cells.length := by
  induction items generalizing cells with
  | nil => rfl
  | cons item items ih =>
      rw [List.foldl_cons, ih, sameLength]

theorem inside_of_coordInRange {coord : Coord} (inRange : core.coordInRange coord = true) :
    coord.Inside core.bufferSize := by
  simp only [coordInRange, Bool.and_eq_true, decide_eq_true_eq] at inRange
  rcases inRange with ⟨⟨⟨⟨_, xNonneg⟩, yNonneg⟩, xLt⟩, yLt⟩
  exact ⟨xNonneg, xLt, yNonneg, yLt⟩

theorem writeCell_editsCells (coord : Coord) (character : WChar) (attributes : Attributes) :
    (core.writeCell coord character attributes).EditsCells core := by
  unfold writeCell
  split
  · exact editsCells_withCells List.length_set
  · exact editsCells_untouched _

/-- A row of the grid ends inside the cells. -/
theorem WellFormed.rowEnd_le (valid : core.WellFormed) {row : Int} (nonneg : 0 ≤ row)
    (lt : row < core.bufferSize.y) :
    row.toNat * core.bufferSize.x.toNat + core.bufferSize.x.toNat ≤ core.cells.length := by
  have rows : row.toNat + 1 ≤ core.bufferSize.y.toNat := by omega
  calc row.toNat * core.bufferSize.x.toNat + core.bufferSize.x.toNat
      = core.bufferSize.x.toNat * (row.toNat + 1) := by ring
    _ ≤ core.bufferSize.x.toNat * core.bufferSize.y.toNat := Nat.mul_le_mul_left _ rows
    _ = core.cells.length := valid.cells.symm

theorem insertCell_editsCells (valid : core.WellFormed) (coord : Coord) (character : WChar)
    (attributes : Attributes) :
    (core.insertCell coord character attributes).EditsCells core := by
  unfold insertCell
  split
  · rename_i inRange
    split
    · exact writeCell_editsCells coord character attributes
    · have inside := inside_of_coordInRange inRange
      have rowEnd := valid.rowEnd_le inside.y_nonneg inside.y_lt
      have column : coord.x.toNat < core.bufferSize.x.toNat := by
        have := inside.x_nonneg
        have := inside.x_lt
        omega
      apply editsCells_withCells
      simp only [linearIndex, List.length_append, List.length_cons, List.length_take,
        List.length_drop]
      omega
  · exact editsCells_untouched _

theorem updateRun_editsCells (origin : Coord) (count : Nat)
    (update : Nat → ScreenCell → ScreenCell) :
    (core.updateRun origin count update).EditsCells core := by
  unfold updateRun
  split
  · apply editsCells_withCells
    exact length_foldl_cells _ (fun cells step => List.length_modify ..) _
  · exact editsCells_untouched _

theorem writeOutputCharInfoRect_editsCells (region : SmallRect) (records : List CharInfo)
    (unicode : Bool) :
    (core.writeOutputCharInfoRect region records unicode).EditsCells core := by
  unfold writeOutputCharInfoRect
  split
  · apply editsCells_withCells
    exact length_foldl_cells _ (fun cells item => List.length_set) _
  · exact editsCells_untouched _

theorem length_scrollErase (scroll clip : SmallRect) (fill : ScreenCell) :
    (core.scrollErase scroll clip fill).length = core.cells.length := by
  apply length_foldl_cells
  intro cells coord
  split
  · exact List.length_set
  · rfl

theorem length_scrollCopy (scroll clip : SmallRect) (destination : Coord)
    (cells : List ScreenCell) :
    (core.scrollCopy scroll clip destination cells).length = cells.length := by
  apply length_foldl_cells
  intro cells coord
  dsimp only
  split
  · exact List.length_set
  · rfl

theorem scrollScreenBuffer_editsCells (scroll clip : SmallRect) (destination : Coord)
    (fillCharacter : WChar) (fillAttributes : Attributes) :
    (core.scrollScreenBuffer scroll clip destination fillCharacter fillAttributes).EditsCells
      core := by
  unfold scrollScreenBuffer
  split
  · exact editsCells_untouched _
  · split
    · exact editsCells_untouched _
    · split
      · apply editsCells_withCells
        rw [length_scrollCopy, length_scrollErase]
      · exact editsCells_untouched _

theorem WellFormed.setCursorInfo (valid : core.WellFormed) (size : UInt32) (visible : Bool) :
    (core.setCursorInfo size visible).core.WellFormed :=
  ⟨valid.size, valid.cells, valid.margins, valid.backup, valid.asserted⟩

theorem WellFormed.setDefaultTextAttributes (valid : core.WellFormed) (attributes : Attributes) :
    (core.setDefaultTextAttributes attributes).core.WellFormed :=
  ⟨valid.size, valid.cells, valid.margins, valid.backup, valid.asserted⟩

theorem WellFormed.setColorTable (valid : core.WellFormed) (table : Vector ColorRef 16) :
    (core.setColorTable table).core.WellFormed :=
  ⟨valid.size, valid.cells, valid.margins, valid.backup, valid.asserted⟩

theorem WellFormed.saveCursorState (valid : core.WellFormed) (position : Coord)
    (attributes : Attributes) (delayedEolWrap originModeEnabled : Bool) :
    (core.saveCursorState position attributes delayedEolWrap
      originModeEnabled).core.WellFormed :=
  ⟨valid.size, valid.cells, valid.margins, valid.backup, valid.asserted⟩

/-- Valid margins pass the assertions of `set_vt_vertical_margins`. -/
theorem WellFormed.setVtVerticalMargins (valid : core.WellFormed)
    {margins : Option VtVerticalMargins}
    (fit : ∀ region ∈ margins, region.Valid core.bufferSize.y) :
    (core.setVtVerticalMargins margins).core.WellFormed := by
  refine ⟨valid.size, valid.cells, fit, valid.backup, ?_⟩
  cases margins with
  | none =>
      simp [ScreenCore.setVtVerticalMargins, valid.asserted]
  | some region =>
      have ⟨nonneg, ordered, below⟩ := fit region rfl
      have height := valid.size.y_pos
      have between := ordered.le
      simp [ScreenCore.setVtVerticalMargins, valid.asserted, marginsAsserted, nonneg, between,
        height, below]

end ScreenCore

/-- Clamping into a non-empty range of `SHORT`s survives the narrowing. -/
theorem toShort_clampLong {value low high : Int} (lower : -32768 ≤ low) (ordered : low ≤ high)
    (upper : high ≤ 32767) : toShort (clampLong value low high) = clampLong value low high :=
  toShort_eq_self (lower.trans (le_clampLong value ordered))
    ((clampLong_le value ordered).trans upper)

namespace ScreenBuffer

variable {buffer : ScreenBuffer}

theorem WellFormed.update {α : Type} {update : CoreUpdate α} (valid : buffer.WellFormed)
    (core : update.core.WellFormed) (sameSize : update.core.bufferSize = buffer.bufferSize) :
    (buffer.update update).WellFormed where
  core := core
  cursor := by
    change buffer.regs.cursor.Inside update.core.bufferSize
    rw [sameSize]
    exact valid.cursor
  window := by
    change buffer.windowRect.IsWindow update.core.bufferSize
    rw [sameSize]
    exact valid.window

theorem WellFormed.edit {α : Type} {update : CoreUpdate α} (valid : buffer.WellFormed)
    (edits : update.EditsCells buffer.toScreenCore) : (buffer.update update).WellFormed := by
  apply valid.update (valid.core.of_editsCells edits)
  rcases edits with ⟨cells, updated, _⟩
  rw [updated]

theorem WellFormed.setTextAttributes (valid : buffer.WellFormed) (attributes : Attributes) :
    (buffer.setTextAttributes attributes).WellFormed :=
  ⟨valid.core, valid.cursor, valid.window⟩

theorem WellFormed.setCursorPosition (valid : buffer.WellFormed) {position : Coord}
    (inside : position.Inside buffer.bufferSize) :
    (buffer.setCursorPosition position).WellFormed :=
  ⟨valid.core, inside, valid.window⟩

theorem WellFormed.setWindowRect (valid : buffer.WellFormed) (rect : SmallRect) :
    (buffer.setWindowRect rect).1.WellFormed := by
  unfold ScreenBuffer.setWindowRect
  split
  · exact valid
  · split
    · exact valid
    · split
      · exact valid
      · split
        · exact valid
        · refine ⟨valid.core, valid.cursor, ?_⟩
          constructor <;> dsimp only [touch] <;> omega

section WindowAt

variable {left top width height : Int} {size : Coord}

theorem windowAt_eq (isSize : size.IsSize) (leftNonneg : 0 ≤ left) (right : left + width ≤ size.x)
    (topNonneg : 0 ≤ top) (bottom : top + height ≤ size.y) (widthPos : 0 < width)
    (heightPos : 0 < height) :
    windowAt left top width height = ⟨left, top, left + width - 1, top + height - 1⟩ := by
  have wide := isSize.x_le
  have high := isSize.y_le
  unfold windowAt
  rw [toShort_eq_self (by omega) (by omega), toShort_eq_self (by omega) (by omega),
    toShort_eq_self (by omega) (by omega), toShort_eq_self (by omega) (by omega)]

/-- A window given by a corner and an extent that fit the buffer. -/
theorem windowAt_isWindow (isSize : size.IsSize) (leftNonneg : 0 ≤ left) (widthPos : 0 < width)
    (right : left + width ≤ size.x) (topNonneg : 0 ≤ top) (heightPos : 0 < height)
    (bottom : top + height ≤ size.y) : (windowAt left top width height).IsWindow size := by
  rw [windowAt_eq isSize leftNonneg right topNonneg bottom widthPos heightPos]
  constructor <;> dsimp only <;> omega

end WindowAt

theorem snapAxis_bounds (low high cursor : Int) {extent size : Int} (extentLe : extent ≤ size) :
    0 ≤ snapAxis low high cursor extent size ∧
      snapAxis low high cursor extent size + extent ≤ size := by
  unfold snapAxis
  dsimp only
  split <;> split <;> split <;> omega

theorem windowSize_eq (isSize : buffer.bufferSize.IsSize)
    (window : buffer.windowRect.IsWindow buffer.bufferSize) :
    buffer.windowSize =
      ⟨buffer.windowRect.right - buffer.windowRect.left + 1,
        buffer.windowRect.bottom - buffer.windowRect.top + 1⟩ := by
  rcases window with ⟨leftNonneg, leftLe, rightLt, topNonneg, topLe, bottomLt⟩
  have := isSize.x_le
  have := isSize.y_le
  unfold windowSize
  dsimp only
  rw [if_neg (by omega), min_eq_left (by omega), min_eq_left (by omega)]

theorem snapWindowToCursor_isWindow (isSize : buffer.bufferSize.IsSize)
    (window : buffer.windowRect.IsWindow buffer.bufferSize) :
    buffer.snapWindowToCursor.windowRect.IsWindow buffer.bufferSize := by
  have sizeEq := windowSize_eq isSize window
  rcases window with ⟨leftNonneg, leftLe, rightLt, topNonneg, topLe, bottomLt⟩
  have := isSize.x_pos
  have := isSize.y_pos
  unfold snapWindowToCursor
  dsimp only
  rw [sizeEq, if_neg (by omega), if_neg (by dsimp only; omega)]
  dsimp only [touch]
  have width : buffer.windowRect.right - buffer.windowRect.left + 1 ≤ buffer.bufferSize.x := by
    omega
  have height : buffer.windowRect.bottom - buffer.windowRect.top + 1 ≤ buffer.bufferSize.y := by
    omega
  have horizontal := snapAxis_bounds buffer.windowRect.left buffer.windowRect.right
    buffer.regs.cursor.x width
  have vertical := snapAxis_bounds buffer.windowRect.top buffer.windowRect.bottom
    buffer.regs.cursor.y height
  apply windowAt_isWindow isSize <;> omega

@[simp]
theorem snapWindowToCursor_toScreenCore :
    buffer.snapWindowToCursor.toScreenCore = buffer.toScreenCore := by
  unfold snapWindowToCursor
  dsimp only
  split
  · rfl
  · split <;> rfl

@[simp]
theorem snapWindowToCursor_regs : buffer.snapWindowToCursor.regs = buffer.regs := by
  unfold snapWindowToCursor
  dsimp only
  split
  · rfl
  · split <;> rfl

theorem WellFormed.snapWindowToCursor (valid : buffer.WellFormed) :
    buffer.snapWindowToCursor.WellFormed where
  core := by
    rw [snapWindowToCursor_toScreenCore]
    exact valid.core
  cursor := by
    rw [snapWindowToCursor_regs, snapWindowToCursor_toScreenCore]
    exact valid.cursor
  window := by
    rw [snapWindowToCursor_toScreenCore]
    exact snapWindowToCursor_isWindow valid.core.size valid.window

theorem length_resizeCells (old : List ScreenCell) (oldSize newSize : Coord)
    (attributes : Attributes) :
    (resizeCells old oldSize newSize attributes).length =
      newSize.x.toNat * newSize.y.toNat := by
  unfold resizeCells
  dsimp only
  split
  · exact List.length_replicate
  · rw [ScreenCore.length_foldl_cells _ (fun cells coord => List.length_set),
      List.length_replicate]

theorem resizeCursor_inside {cursor oldSize size : Coord} (inside : cursor.Inside oldSize)
    (isSize : size.IsSize) : (resizeCursor cursor size).Inside size := by
  rcases inside with ⟨xNonneg, _, yNonneg, _⟩
  rcases isSize with ⟨xPos, _, yPos, _⟩
  unfold resizeCursor
  constructor <;> dsimp only <;> split <;> omega

theorem resizeMargins_valid {margins resized : VtVerticalMargins} {height : Int}
    (heightPos : 0 < height) (mem : resized ∈ resizeMargins margins height) :
    resized.Valid height := by
  simp only [resizeMargins, Option.mem_def, Option.ite_none_left_eq_some,
    Option.some.injEq] at mem
  rcases mem with ⟨bottomNonneg, ordered, rfl⟩
  refine ⟨?_, not_le.mp ordered, ?_⟩
  · dsimp only
    split
    · omega
    · split <;> omega
  · dsimp only
    split <;> omega

theorem bind_resizeMargins_valid {margins : Option VtVerticalMargins} {height : Int}
    (heightPos : 0 < height) :
    ∀ resized ∈ margins.bind (resizeMargins · height), resized.Valid height := by
  intro resized mem
  cases margins with
  | none => cases mem
  | some region => exact resizeMargins_valid heightPos mem

theorem resizeBackup_wellFormed {backup : VtAlternateBufferBackup} {oldSize size : Coord}
    (valid : backup.WellFormed oldSize) (isSize : size.IsSize) :
    (resizeBackup backup oldSize size).WellFormed size where
  cells := length_resizeCells _ _ _ _
  cursor := resizeCursor_inside valid.cursor isSize
  margins := bind_resizeMargins_valid isSize.y_pos

theorem resizeWindow_isWindow (rect : SmallRect) {size : Coord} (isSize : size.IsSize) :
    (resizeWindow rect size).IsWindow size := by
  have := isSize.x_pos
  have := isSize.y_pos
  have extents : 0 < (resizeExtents rect size).1 ∧ (resizeExtents rect size).1 ≤ size.x ∧
      0 < (resizeExtents rect size).2 ∧ (resizeExtents rect size).2 ≤ size.y := by
    unfold resizeExtents
    dsimp only
    omega
  rcases extents with ⟨widthPos, widthLe, heightPos, heightLe⟩
  unfold resizeWindow
  dsimp only
  apply windowAt_isWindow isSize <;> omega

theorem WellFormed.setScreenBufferSize (valid : buffer.WellFormed) {size : Coord}
    (xShort : size.x ≤ 32767) (yShort : size.y ≤ 32767) :
    (buffer.setScreenBufferSize size).1.WellFormed := by
  unfold ScreenBuffer.setScreenBufferSize
  split
  · exact valid
  · rename_i positive
    have isSize : size.IsSize := ⟨by omega, xShort, by omega, yShort⟩
    apply WellFormed.snapWindowToCursor
    refine ⟨⟨isSize, length_resizeCells _ _ _ _, bind_resizeMargins_valid isSize.y_pos, ?_,
      valid.core.asserted⟩, resizeCursor_inside valid.cursor isSize,
      resizeWindow_isWindow _ isSize⟩
    intro backup mem
    simp only [touch, Option.mem_def, Option.map_eq_some_iff] at mem
    rcases mem with ⟨hidden, isBackup, rfl⟩
    exact resizeBackup_wellFormed (valid.core.backup hidden isBackup) isSize

/-- The core after a switch of screens, and the cursor it leaves committed. -/
theorem WellFormed.setVtUsingAlternateScreenBuffer (valid : buffer.WellFormed) (enable : Bool)
    (fillCharacter : WChar) (fillAttributes : Attributes) :
    (buffer.setVtUsingAlternateScreenBuffer enable fillCharacter
      fillAttributes).WellFormed := by
  have size := valid.core.size
  unfold ScreenBuffer.setVtUsingAlternateScreenBuffer
  split
  · exact valid
  · refine ⟨⟨size, ?_, ?_, ?_, valid.core.asserted⟩, ⟨le_rfl, size.x_pos, le_rfl, size.y_pos⟩,
      valid.window⟩
    · simp only [touch, List.length_replicate, valid.core.cells]
    · intro margins mem
      cases mem
    · intro backup mem
      obtain rfl := Option.some.inj mem
      exact ⟨valid.core.cells, valid.cursor, valid.core.margins⟩
  · exact valid
  · rename_i backup isBackup
    have hidden := valid.core.backup backup isBackup
    refine ⟨⟨size, hidden.cells, hidden.margins, ?_, valid.core.asserted⟩, hidden.cursor,
      valid.window⟩
    intro other mem
    cases mem

theorem createCursor_bounds (desired : Int) {size : Int} (sizePos : 0 < size) :
    0 ≤ createCursor desired size ∧ createCursor desired size < size := by
  unfold createCursor
  dsimp only
  split <;> split <;> omega

/-- A buffer created with a positive size satisfies the invariant. -/
theorem create_wellFormed {settings : Settings} (isSize : settings.bufferSize.IsSize) :
    (create settings).WellFormed := by
  have xPos := isSize.x_pos
  have yPos := isSize.y_pos
  unfold create
  dsimp only
  rw [if_neg (by omega)]
  have columns := createCursor_bounds settings.cursorPosition.x xPos
  have rows := createCursor_bounds settings.cursorPosition.y yPos
  refine ⟨⟨isSize, List.length_replicate, ?_, ?_, rfl⟩,
    ⟨columns.1, columns.2, rows.1, rows.2⟩, ?_⟩
  · intro margins mem
    cases mem
  · intro backup mem
    cases mem
  · apply windowAt_isWindow isSize
    all_goals
      simp only [createOrigin, createExtent]
      omega

end ScreenBuffer

theorem twoCells_wellFormed : twoCells.WellFormed := by
  apply ScreenBuffer.create_wellFormed
  exact ⟨by decide, by decide, by decide, by decide⟩

end Conhost
