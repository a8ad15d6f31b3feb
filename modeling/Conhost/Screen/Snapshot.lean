import Conhost.Screen.Revision

/-!
# Snapshots of the viewport

The window never looks at a screen buffer. The server copies what the window
shows of it, row by row, and hands the copy over. A row that ends outside of the
buffer is filled up with blanks; a window of a well-formed buffer has no such row.
-/

namespace Conhost

/-- `view::ScreenBufferSnapshot` -/
structure ScreenBufferSnapshot where
  revision : Nat
  windowRect : SmallRect
  bufferSize : Coord
  cursorPosition : Coord
  cursorVisible : Bool
  cursorSize : UInt32
  defaultAttributes : Attributes
  colorTable : Vector ColorRef 16
  viewportSize : Coord
  text : List WChar
  attributes : List Attributes
deriving DecidableEq

/-- `rect_dimensions`; `none` if the number of cells is no `size_t`. -/
def rectDimensions (rect : SmallRect) : Option (Nat × Nat) :=
  let width := rect.right - rect.left + 1
  let height := rect.bottom - rect.top + 1
  if width ≤ 0 ∨ height ≤ 0 then some (0, 0)
  else if (2 ^ 64 - 1) / height.toNat < width.toNat then none
  else some (width.toNat, height.toNat)

/-- `to_coord_saturating` -/
def toCoordSaturating (width height : Nat) : Coord :=
  ⟨(min width 32767 : Nat), (min height 32767 : Nat)⟩

/-- A row of a snapshot: what was read of it, and blanks. -/
def fillRow {α : Type} (width : Nat) (blank : α) (read : List α) : List α :=
  read ++ List.replicate (width - read.length) blank

namespace ScreenBuffer

variable (buffer : ScreenBuffer)

/-- The first cell of a row of the viewport. -/
def rowOrigin (row : Nat) : Coord :=
  ⟨buffer.windowRect.left, toShort (buffer.windowRect.top + row)⟩

/-- `make_viewport_snapshot`, where no allocation fails. -/
def makeViewportSnapshot : Option ScreenBufferSnapshot :=
  (rectDimensions buffer.windowRect).map fun (width, height) =>
    { revision := buffer.revision
      windowRect := buffer.windowRect
      bufferSize := buffer.bufferSize
      cursorPosition := buffer.regs.cursor
      cursorVisible := buffer.cursorVisible
      cursorSize := buffer.cursorSize
      defaultAttributes := buffer.defaultTextAttributes
      colorTable := buffer.colorTable
      viewportSize := toCoordSaturating width height
      text := (List.range height).flatMap fun row =>
        fillRow width 0x20 (buffer.readOutputCharacters (buffer.rowOrigin row) width)
      attributes := (List.range height).flatMap fun row =>
        fillRow width buffer.defaultTextAttributes
          (buffer.readOutputAttributes (buffer.rowOrigin row) width) }

/-- The number of columns of the window. -/
def viewportWidth : Nat := (buffer.windowRect.right - buffer.windowRect.left + 1).toNat

/-- The number of rows of the window. -/
def viewportHeight : Nat := (buffer.windowRect.bottom - buffer.windowRect.top + 1).toNat

/-- The cell at a place of the viewport. -/
def viewportCell (row column : Nat) : Option ScreenCell :=
  buffer.cells[buffer.linearIndex
    ⟨buffer.windowRect.left + column, buffer.windowRect.top + row⟩]?

end ScreenBuffer

/-- A snapshot shows the viewport of a buffer, its cursor and its palette. -/
structure ScreenBufferSnapshot.Describes (snapshot : ScreenBufferSnapshot)
    (buffer : ScreenBuffer) : Prop where
  revision : snapshot.revision = buffer.revision
  windowRect : snapshot.windowRect = buffer.windowRect
  bufferSize : snapshot.bufferSize = buffer.bufferSize
  cursorPosition : snapshot.cursorPosition = buffer.regs.cursor
  cursorVisible : snapshot.cursorVisible = buffer.cursorVisible
  cursorSize : snapshot.cursorSize = buffer.cursorSize
  defaultAttributes : snapshot.defaultAttributes = buffer.defaultTextAttributes
  colorTable : snapshot.colorTable = buffer.colorTable
  viewportSize : snapshot.viewportSize = ⟨buffer.viewportWidth, buffer.viewportHeight⟩
  text_length : snapshot.text.length = buffer.viewportHeight * buffer.viewportWidth
  attributes_length : snapshot.attributes.length = buffer.viewportHeight * buffer.viewportWidth
  cells : ∀ row < buffer.viewportHeight, ∀ column < buffer.viewportWidth,
    ∃ cell, buffer.viewportCell row column = some cell ∧
      snapshot.text[row * buffer.viewportWidth + column]? = some cell.character ∧
      snapshot.attributes[row * buffer.viewportWidth + column]? = some cell.attributes

/-- A snapshot stays good while neither the counter nor anything that is painted changes. -/
theorem ScreenBufferSnapshot.Describes.of_same {snapshot : ScreenBufferSnapshot}
    {before after : ScreenBuffer} (describes : snapshot.Describes before)
    (still : after.revision = before.revision) (same : after.appearance = before.appearance) :
    snapshot.Describes after := by
  simp only [ScreenBuffer.appearance, Appearance.mk.injEq] at same
  obtain ⟨cells, bufferSize, cursor, cursorSize, cursorVisible, windowRect, defaults,
    colors⟩ := same
  have width : after.viewportWidth = before.viewportWidth := by
    simp only [ScreenBuffer.viewportWidth, windowRect]
  have height : after.viewportHeight = before.viewportHeight := by
    simp only [ScreenBuffer.viewportHeight, windowRect]
  have cell : after.viewportCell = before.viewportCell := by
    funext row column
    simp only [ScreenBuffer.viewportCell, ScreenCore.linearIndex, windowRect, bufferSize, cells]
  constructor
  · rw [still, describes.revision]
  · rw [windowRect, describes.windowRect]
  · rw [bufferSize, describes.bufferSize]
  · rw [cursor, describes.cursorPosition]
  · rw [cursorVisible, describes.cursorVisible]
  · rw [cursorSize, describes.cursorSize]
  · rw [defaults, describes.defaultAttributes]
  · rw [colors, describes.colorTable]
  · rw [width, height, describes.viewportSize]
  · rw [width, height, describes.text_length]
  · rw [width, height, describes.attributes_length]
  · rw [width, height, cell]
    exact describes.cells

section Rows

variable {α : Type} {width height : Nat} {row : Nat → List α}

theorem length_flatMap_rows (rows : ∀ index, (row index).length = width) (height : Nat) :
    ((List.range height).flatMap row).length = height * width := by
  induction height with
  | zero => simp
  | succ height hypothesis =>
      simp [List.range_succ, hypothesis, rows, Nat.succ_mul]

/-- The place of a cell in a picture that is stored row by row. -/
theorem getElem?_flatMap_rows (rows : ∀ index, (row index).length = width) {index column : Nat}
    (inside : index < height) (fits : column < width) :
    ((List.range height).flatMap row)[index * width + column]? = (row index)[column]? := by
  induction height with
  | zero => cases inside
  | succ height hypothesis =>
      have whole := length_flatMap_rows rows height
      rw [List.range_succ, List.flatMap_append]
      rcases Nat.lt_succ_iff_lt_or_eq.mp inside with above | rfl
      · have earlier : index * width + column < height * width := by
          have next : (index + 1) * width ≤ height * width := Nat.mul_le_mul_right _ above
          rw [Nat.succ_mul] at next
          omega
        rw [List.getElem?_append_left (by omega)]
        exact hypothesis above
      · rw [List.getElem?_append_right (by omega), whole, Nat.add_sub_cancel_left]
        simp

theorem length_fillRow {blank : α} {read : List α} (short : read.length ≤ width) :
    (fillRow width blank read).length = width := by
  simp only [fillRow, List.length_append, List.length_replicate]
  omega

theorem getElem?_fillRow {blank value : α} {read : List α} {column : Nat}
    (found : read[column]? = some value) : (fillRow width blank read)[column]? = some value := by
  have inside := (List.getElem?_eq_some_iff.mp found).1
  rw [fillRow, List.getElem?_append_left inside, found]

end Rows

namespace ScreenCore

variable {core : ScreenCore}

theorem length_readRun_le (origin : Coord) (count : Nat) :
    (core.readRun origin count).length ≤ count := by
  unfold readRun
  split
  · simp
  · simp

/-- A reader returns the cells from its origin on. -/
theorem getElem?_readRun {origin : Coord} {count column : Nat} (inside : core.coordInRange origin)
    (fits : column < count) :
    (core.readRun origin count)[column]? = core.cells[core.linearIndex origin + column]? := by
  have some : count ≠ 0 := by omega
  simp [readRun, inside, some, fits]

end ScreenCore

namespace ScreenBuffer

variable {buffer : ScreenBuffer}

theorem WellFormed.viewportWidth_le (valid : buffer.WellFormed) :
    buffer.viewportWidth ≤ 32767 := by
  have left := valid.window.left_nonneg
  have right := valid.window.right_lt
  have wide := valid.core.size.x_le
  simp only [viewportWidth]
  omega

theorem WellFormed.viewportHeight_le (valid : buffer.WellFormed) :
    buffer.viewportHeight ≤ 32767 := by
  have top := valid.window.top_nonneg
  have bottom := valid.window.bottom_lt
  have tall := valid.core.size.y_le
  simp only [viewportHeight]
  omega

section Viewport

variable {row column : Nat} (below : row < buffer.viewportHeight)
  (fits : column < buffer.viewportWidth)
include below fits

/-- The viewport lies inside the buffer. -/
theorem WellFormed.viewport_inside (valid : buffer.WellFormed) :
    (⟨buffer.windowRect.left + column, buffer.windowRect.top + row⟩ : Coord).Inside
      buffer.bufferSize := by
  have left := valid.window.left_nonneg
  have top := valid.window.top_nonneg
  have right := valid.window.right_lt
  have bottom := valid.window.bottom_lt
  simp only [viewportHeight] at below
  simp only [viewportWidth] at fits
  constructor <;> dsimp only <;> omega

/-- A row of the viewport is a stretch of the cells of the buffer. -/
theorem WellFormed.getElem?_row (valid : buffer.WellFormed) :
    (buffer.readRun (buffer.rowOrigin row) buffer.viewportWidth)[column]? =
      buffer.viewportCell row column := by
  have inside := valid.viewport_inside below fits
  have left := valid.window.left_nonneg
  have size := valid.core.size
  have tall := size.y_le
  have x_lt := inside.x_lt
  have y_lt := inside.y_lt
  have y_nonneg := inside.y_nonneg
  dsimp only at x_lt y_lt y_nonneg
  have short : toShort (buffer.windowRect.top + row) = buffer.windowRect.top + row :=
    toShort_eq_self (by omega) (by omega)
  have cells : buffer.cells ≠ [] := by
    intro empty
    have length := valid.core.cells
    have area := Nat.mul_pos (Int.pos_iff_toNat_pos.mp size.x_pos)
      (Int.pos_iff_toNat_pos.mp size.y_pos)
    rw [empty, List.length_nil] at length
    omega
  have inRange : buffer.coordInRange (buffer.rowOrigin row) = true := by
    simp only [ScreenCore.coordInRange, rowOrigin, short, Bool.and_eq_true, decide_eq_true_eq,
      Bool.not_eq_true', List.isEmpty_eq_false_iff]
    exact ⟨⟨⟨⟨⟨⟨cells, size.x_pos⟩, size.y_pos⟩, left⟩, y_nonneg⟩, by omega⟩, y_lt⟩
  rw [ScreenCore.getElem?_readRun inRange fits, viewportCell]
  congr 1
  simp only [ScreenCore.linearIndex, rowOrigin, short]
  omega

theorem WellFormed.viewportCell_isSome (valid : buffer.WellFormed) :
    ∃ cell, buffer.viewportCell row column = some cell := by
  have inside := valid.viewport_inside below fits
  have rowEnd := valid.core.rowEnd_le inside.y_nonneg inside.y_lt
  have x_nonneg := inside.x_nonneg
  have x_lt := inside.x_lt
  dsimp only at rowEnd x_nonneg x_lt
  have place : buffer.linearIndex
      ⟨buffer.windowRect.left + column, buffer.windowRect.top + row⟩ < buffer.cells.length := by
    simp only [ScreenCore.linearIndex]
    omega
  exact ⟨_, List.getElem?_eq_getElem place⟩

end Viewport

theorem WellFormed.rectDimensions (valid : buffer.WellFormed) :
    rectDimensions buffer.windowRect = some (buffer.viewportWidth, buffer.viewportHeight) := by
  have leftLe := valid.window.left_le
  have topLe := valid.window.top_le
  have many : ¬ (2 ^ 64 - 1) / buffer.viewportHeight < buffer.viewportWidth := by
    have positive : 0 < buffer.viewportHeight := by
      simp only [viewportHeight]
      omega
    rw [Nat.not_lt, Nat.le_div_iff_mul_le positive]
    calc buffer.viewportWidth * buffer.viewportHeight
        ≤ 32767 * 32767 := Nat.mul_le_mul valid.viewportWidth_le valid.viewportHeight_le
      _ ≤ 2 ^ 64 - 1 := by decide
  have nonempty : ¬ (buffer.windowRect.right - buffer.windowRect.left + 1 ≤ 0 ∨
      buffer.windowRect.bottom - buffer.windowRect.top + 1 ≤ 0) := by omega
  simp only [Conhost.rectDimensions, if_neg nonempty]
  exact if_neg many

/-- A snapshot of a well-formed buffer describes it. -/
theorem WellFormed.makeViewportSnapshot (valid : buffer.WellFormed) :
    ∃ snapshot, buffer.makeViewportSnapshot = some snapshot ∧ snapshot.Describes buffer := by
  refine ⟨_, by rw [ScreenBuffer.makeViewportSnapshot, valid.rectDimensions, Option.map_some], ?_⟩
  have textRows : ∀ row, (fillRow buffer.viewportWidth 0x20
      (buffer.readOutputCharacters (buffer.rowOrigin row) buffer.viewportWidth)).length =
        buffer.viewportWidth := by
    intro row
    apply length_fillRow
    simpa [ScreenCore.readOutputCharacters] using ScreenCore.length_readRun_le _ _
  have attributeRows : ∀ row, (fillRow buffer.viewportWidth buffer.defaultTextAttributes
      (buffer.readOutputAttributes (buffer.rowOrigin row) buffer.viewportWidth)).length =
        buffer.viewportWidth := by
    intro row
    apply length_fillRow
    simpa [ScreenCore.readOutputAttributes] using ScreenCore.length_readRun_le _ _
  constructor
  case viewportSize =>
    simp only [toCoordSaturating, Nat.min_eq_left valid.viewportWidth_le,
      Nat.min_eq_left valid.viewportHeight_le]
  case text_length => exact length_flatMap_rows textRows _
  case attributes_length => exact length_flatMap_rows attributeRows _
  case cells =>
    intro row below column fits
    obtain ⟨cell, found⟩ := valid.viewportCell_isSome below fits
    have read := (valid.getElem?_row below fits).trans found
    refine ⟨cell, found, ?_, ?_⟩
    · rw [getElem?_flatMap_rows textRows below fits]
      apply getElem?_fillRow
      rw [ScreenCore.readOutputCharacters, List.getElem?_map, read, Option.map_some]
    · rw [getElem?_flatMap_rows attributeRows below fits]
      apply getElem?_fillRow
      rw [ScreenCore.readOutputAttributes, List.getElem?_map, read, Option.map_some]
  all_goals rfl

end ScreenBuffer

end Conhost
