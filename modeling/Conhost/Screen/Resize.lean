import Conhost.Screen.Scrolling
import Conhost.Screen.Viewport

/-!
# Resizing a screen buffer

A resize lays the cells of the active screen and of the hidden main screen out with
another width. What both sizes contain keeps its contents, the rest is blank, and the
window keeps its extent as far as it fits and follows the cursor.
-/

namespace Conhost

/-- A grid after a resize. -/
structure ResizedGrid (old : List ScreenCell) (oldSize : Coord) (cells : List ScreenCell)
    (size : Coord) (attributes : Attributes) : Prop where
  length : cells.length = size.x.toNat * size.y.toNat
  kept : ∀ coord : Coord, coord.Inside oldSize → coord.Inside size →
    gridCell cells size coord = gridCell old oldSize coord
  blank : ∀ coord : Coord, coord.Inside size → ¬ coord.Inside oldSize →
    gridCell cells size coord = ⟨0x20, attributes⟩
  same : size = oldSize → cells = old

namespace ScreenBuffer

section Cells

variable {old : List ScreenCell} {oldSize size coord : Coord} {attributes : Attributes}

/-- The coordinates that a resize copies. -/
theorem mem_common : coord ∈ (⟨0, 0, min oldSize.x size.x - 1, min oldSize.y size.y - 1⟩ :
    SmallRect).coords ↔ coord.Inside oldSize ∧ coord.Inside size := by
  rw [SmallRect.mem_coords]
  constructor
  · rintro ⟨left, right, top, bottom⟩
    simp only at left right top bottom
    constructor <;> constructor <;> omega
  · rintro ⟨⟨_, _, _, _⟩, ⟨_, _, _, _⟩⟩
    simp only [SmallRect.Contains]
    omega

theorem resizeCells_nonempty (nonempty : old.isEmpty = false) :
    resizeCells old oldSize size attributes =
      (⟨0, 0, min oldSize.x size.x - 1, min oldSize.y size.y - 1⟩ : SmallRect).coords.foldl
        (fun cells coord =>
          if True then
            cells.set (coord.y.toNat * size.x.toNat + coord.x.toNat) (gridCell old oldSize coord)
          else cells)
        (List.replicate (size.x.toNat * size.y.toNat) ⟨0x20, attributes⟩) := by
  simp only [resizeCells, nonempty, Bool.false_eq_true, if_false, if_true, gridCell]

theorem gridCell_resizeCells (nonempty : old.isEmpty = false) (inside : coord.Inside size)
    {cell : ScreenCell} (kept : coord.Inside oldSize → gridCell old oldSize coord = cell)
    (blank : ¬ coord.Inside oldSize → (⟨0x20, attributes⟩ : ScreenCell) = cell) :
    gridCell (resizeCells old oldSize size attributes) size coord = cell := by
  apply gridCell_of_getElem?
  rw [resizeCells_nonempty nonempty]
  have room := inside.place_lt
  apply Grid.getElem?_writes
  · rwa [List.length_replicate]
  · intro item member _ same
    obtain ⟨itemOld, itemNew⟩ := mem_common.mp member
    obtain rfl := itemNew.place_injective inside same
    exact kept itemOld
  · by_cases both : coord.Inside oldSize
    · exact .inr ⟨coord, mem_common.mpr ⟨both, inside⟩, trivial, rfl⟩
    · left
      rw [List.getElem?_replicate_of_lt room, blank both]

/-- The grid of a resize. -/
theorem resizeCells_resized (oldIsSize : oldSize.IsSize)
    (length : old.length = oldSize.x.toNat * oldSize.y.toNat) (attributes : Attributes) :
    ResizedGrid old oldSize (resizeCells old oldSize size attributes) size attributes := by
  have wide := oldIsSize.x_pos
  have high := oldIsSize.y_pos
  have nonempty : old.isEmpty = false := by
    apply List.isEmpty_eq_false_iff.mpr
    apply List.ne_nil_of_length_pos
    rw [length]
    exact Nat.mul_pos (by omega) (by omega)
  have keeps (coord : Coord) (inside : coord.Inside oldSize) (new : coord.Inside size) :
      gridCell (resizeCells old oldSize size attributes) size coord =
        gridCell old oldSize coord :=
    gridCell_resizeCells nonempty new (fun _ => rfl) fun outside => absurd inside outside
  exact {
    length := length_resizeCells ..
    kept := keeps
    blank := fun coord new outside =>
      gridCell_resizeCells nonempty new (fun inside => absurd inside outside) fun _ => rfl
    same := by
      rintro rfl
      apply List.ext_getElem (by rw [length_resizeCells, length])
      intro place stored oldStored
      rw [length] at oldStored
      obtain ⟨coord, inside, rfl⟩ := Coord.exists_place oldStored
      have cell := keeps coord inside inside
      rwa [gridCell, gridCell, List.getD_eq_getElem _ _ stored, List.getD_eq_getElem] at cell }

end Cells

section Window

variable {rect : SmallRect} {oldSize size : Coord}

/-- A window keeps its extent as far as the new size allows it. -/
theorem extent_resizeWindow (window : rect.IsWindow oldSize) (isSize : size.IsSize) :
    extent (resizeWindow rect size) =
      ⟨min (extent rect).x size.x, min (extent rect).y size.y⟩ := by
  rcases window with ⟨leftNonneg, leftLe, _, topNonneg, topLe, _⟩
  have wide := isSize.x_pos
  have high := isSize.y_pos
  have extents : resizeExtents rect size =
      (min (extent rect).x size.x, min (extent rect).y size.y) := by
    unfold resizeExtents extent
    simp only
    rw [if_neg (by omega), max_eq_right (by omega), max_eq_right (by omega)]
  have positive : 0 < (extent rect).x ∧ 0 < (extent rect).y := by
    unfold extent
    simp only
    omega
  unfold resizeWindow
  rw [extents]
  simp only
  rw [windowAt_eq isSize (by omega) (by omega) (by omega) (by omega) (by omega) (by omega)]
  simp only [extent, Coord.mk.injEq]
  omega

end Window

/-- Which of the allocations of a resize succeed. -/
structure ResizeAllocations where
  active : Bool := true
  hidden : Bool := true
deriving DecidableEq, Repr

/-- The grids a resize builds before it stores anything; `none` when an allocation throws. -/
def resizedGrids (buffer : ScreenBuffer) (size : Coord) (allocates : ResizeAllocations) :
    Option (List ScreenCell × Option (List ScreenCell)) := do
  guard allocates.active
  let cells := resizeCells buffer.cells buffer.bufferSize size buffer.regs.attributes
  match buffer.vtMainBackup with
  | none => some (cells, none)
  | some backup =>
      guard allocates.hidden
      some (cells, some (resizeCells backup.cells buffer.bufferSize size backup.textAttributes))

/-- The part of `set_screen_buffer_size` after the grids are built. -/
def storeResized (buffer : ScreenBuffer) (size : Coord) (cells : List ScreenCell)
    (hidden : Option (List ScreenCell)) : ScreenBuffer :=
  let backup := buffer.vtMainBackup.map fun backup =>
    { backup with
      cells := hidden.getD backup.cells
      cursorPosition := resizeCursor backup.cursorPosition size
      vtVerticalMargins := backup.vtVerticalMargins.bind (resizeMargins · size.y)
      vtDelayedWrapPosition := none }
  let resized : ScreenBuffer :=
    { buffer with
      cells := cells
      vtMainBackup := backup
      bufferSize := size
      maximumWindowSize :=
        ⟨max buffer.maximumWindowSize.x size.x, max buffer.maximumWindowSize.y size.y⟩
      windowRect := resizeWindow buffer.windowRect size
      regs.cursor := resizeCursor buffer.regs.cursor size
      regs.delayedWrap := none
      vtVerticalMargins := buffer.vtVerticalMargins.bind (resizeMargins · size.y) }
  resized.touch.snapWindowToCursor

/-- `set_screen_buffer_size` with allocations that may fail. -/
def setScreenBufferSizeUnder (buffer : ScreenBuffer) (allocates : ResizeAllocations)
    (size : Coord) : ScreenBuffer × Bool :=
  if size.x ≤ 0 ∨ size.y ≤ 0 then
    (buffer, false)
  else
    match buffer.resizedGrids size allocates with
    | none => (buffer, false)
    | some (cells, hidden) => (buffer.storeResized size cells hidden, true)

/-- The allocations that a resize of this buffer makes succeed. -/
def Allocated (buffer : ScreenBuffer) (allocates : ResizeAllocations) : Prop :=
  allocates.active = true ∧ (buffer.vtMainBackup.isSome = true → allocates.hidden = true)

section Operation

variable {buffer : ScreenBuffer} {allocates : ResizeAllocations} {size : Coord}

/-- Without a failure the operation is the one that always finds memory. -/
theorem setScreenBufferSizeUnder_allocated (allocated : buffer.Allocated allocates) :
    buffer.setScreenBufferSizeUnder allocates size = buffer.setScreenBufferSize size := by
  unfold setScreenBufferSizeUnder setScreenBufferSize
  split
  · rfl
  · unfold resizedGrids storeResized
    rw [allocated.1]
    cases hidden : buffer.vtMainBackup with
    | none => rfl
    | some backup =>
        rw [allocated.2 (by rw [hidden]; rfl)]
        rfl

/-- A failure is noticed before anything is stored. -/
theorem setScreenBufferSizeUnder_failed (failed : ¬ buffer.Allocated allocates) :
    buffer.setScreenBufferSizeUnder allocates size = (buffer, false) := by
  have none : buffer.resizedGrids size allocates = none := by
    unfold resizedGrids
    cases active : allocates.active with
    | false => rfl
    | true =>
        cases hidden : buffer.vtMainBackup with
        | none => exact absurd ⟨active, by rw [hidden]; simp⟩ failed
        | some backup =>
            cases second : allocates.hidden with
            | false => rfl
            | true => exact absurd ⟨active, fun _ => second⟩ failed
  unfold setScreenBufferSizeUnder
  rw [none]
  split <;> rfl

/-- A buffer after it has been resized. -/
structure ResizedTo (buffer : ScreenBuffer) (size : Coord) (resized : ScreenBuffer) : Prop where
  bufferSize : resized.bufferSize = size
  attributes : resized.regs.attributes = buffer.regs.attributes
  active : ResizedGrid buffer.cells buffer.bufferSize resized.cells size buffer.regs.attributes
  hidden : Option.Rel (fun backup hidden : VtAlternateBufferBackup =>
      hidden.textAttributes = backup.textAttributes ∧
        ResizedGrid backup.cells buffer.bufferSize hidden.cells size backup.textAttributes ∧
        hidden.vtDelayedWrapPosition = none)
    buffer.vtMainBackup resized.vtMainBackup
  windowSize : resized.windowSize =
    ⟨min buffer.windowSize.x size.x, min buffer.windowSize.y size.y⟩
  window : resized.windowRect.IsWindow size
  cursor : resized.regs.cursor.Inside size
  shown : resized.windowRect.Contains resized.regs.cursor
  delayedWrap : resized.regs.delayedWrap = none

/-- The result of `set_screen_buffer_size`. -/
structure Resizes (buffer : ScreenBuffer) (allocates : ResizeAllocations) (size : Coord)
    (result : ScreenBuffer × Bool) : Prop where
  succeeds : result.2 = true ↔ 0 < size.x ∧ 0 < size.y ∧ buffer.Allocated allocates
  success : result.2 = true → buffer.ResizedTo size result.1
  failure : result.2 = false → result.1 = buffer

theorem setScreenBufferSize_snaps (valid : buffer.WellFormed) (isSize : size.IsSize) :
    ∃ resized : ScreenBuffer, resized.WellFormed ∧
      buffer.setScreenBufferSize size = (resized.snapWindowToCursor, true) ∧
      resized.windowRect = resizeWindow buffer.windowRect size ∧
      resized.toScreenCore =
        { buffer.toScreenCore with
          cells := resizeCells buffer.cells buffer.bufferSize size buffer.regs.attributes
          vtMainBackup := buffer.vtMainBackup.map (resizeBackup · buffer.bufferSize size)
          bufferSize := size
          maximumWindowSize :=
            ⟨max buffer.maximumWindowSize.x size.x, max buffer.maximumWindowSize.y size.y⟩
          vtVerticalMargins := buffer.vtVerticalMargins.bind (resizeMargins · size.y) } ∧
      resized.regs =
        { buffer.regs with
          cursor := resizeCursor buffer.regs.cursor size
          delayedWrap := none } := by
  have wide := isSize.x_pos
  have high := isSize.y_pos
  have after := valid.setScreenBufferSize isSize.x_le isSize.y_le
  unfold setScreenBufferSize at after ⊢
  rw [if_neg (by omega)] at after ⊢
  refine ⟨_, ?_, rfl, rfl, rfl, rfl⟩
  have core := after.core
  have cursor := after.cursor
  rw [snapWindowToCursor_toScreenCore] at core cursor
  rw [snapWindowToCursor_regs] at cursor
  exact ⟨core, cursor, resizeWindow_isWindow _ isSize⟩

theorem setScreenBufferSize_resizedTo (valid : buffer.WellFormed) (isSize : size.IsSize) :
    (buffer.setScreenBufferSize size).2 = true ∧
      buffer.ResizedTo size (buffer.setScreenBufferSize size).1 := by
  obtain ⟨resized, sized, eq, windowRect, core, regs⟩ := setScreenBufferSize_snaps valid isSize
  have bufferSize : resized.bufferSize = size := congrArg ScreenCore.bufferSize core
  have showing := snapWindowToCursor_isShowing sized.core.size sized.window sized.cursor
  have snapped := sized.snapWindowToCursor
  have oldIsSize := valid.core.size
  rw [eq]
  refine ⟨rfl, ?_⟩
  exact {
    bufferSize := by rw [snapWindowToCursor_toScreenCore, bufferSize]
    attributes := by rw [snapWindowToCursor_regs, regs]
    active := by
      rw [snapWindowToCursor_toScreenCore, core]
      exact resizeCells_resized oldIsSize valid.core.cells _
    hidden := by
      rw [snapWindowToCursor_toScreenCore, core]
      cases hidden : buffer.vtMainBackup with
      | none => exact .none
      | some main =>
          have length := (valid.core.backup main (by rw [hidden]; rfl)).cells
          exact .some ⟨rfl, resizeCells_resized oldIsSize length _, rfl⟩
    windowSize := by
      have old := windowSize_eq oldIsSize valid.window
      have new := windowSize_eq snapped.core.size snapped.window
      have extents := extent_resizeWindow valid.window isSize
      rw [new, old]
      rw [← windowRect] at extents
      exact showing.sameExtent.trans extents
    window := by
      have window := snapped.window
      rwa [snapWindowToCursor_toScreenCore, bufferSize] at window
    cursor := by
      have cursor := snapped.cursor
      rwa [snapWindowToCursor_toScreenCore, bufferSize] at cursor
    shown := by
      rw [snapWindowToCursor_regs]
      exact showing.shown
    delayedWrap := by rw [snapWindowToCursor_regs, regs] }

/-- A resize keeps what both sizes contain, or changes nothing. -/
theorem setScreenBufferSize_resizes (valid : buffer.WellFormed) (allocates : ResizeAllocations)
    (size : ShortCoord) :
    buffer.Resizes allocates size.val (buffer.setScreenBufferSizeUnder allocates size.val) := by
  by_cases positive : 0 < size.val.x ∧ 0 < size.val.y
  · by_cases allocated : buffer.Allocated allocates
    · rw [setScreenBufferSizeUnder_allocated allocated]
      have isSize : size.val.IsSize :=
        ⟨positive.1, size.property.x_le, positive.2, size.property.y_le⟩
      obtain ⟨succeeds, resized⟩ := setScreenBufferSize_resizedTo valid isSize
      refine ⟨by simp [succeeds, positive, allocated], fun _ => resized, ?_⟩
      intro fails
      rw [succeeds] at fails
      cases fails
    · rw [setScreenBufferSizeUnder_failed allocated]
      exact ⟨by simp [allocated], nofun, fun _ => rfl⟩
  · have rejected : size.val.x ≤ 0 ∨ size.val.y ≤ 0 := by omega
    unfold setScreenBufferSizeUnder
    rw [if_pos rejected]
    refine ⟨?_, nofun, fun _ => rfl⟩
    simp only [Bool.false_eq_true, false_iff]
    intro both
    exact positive ⟨both.1, both.2.1⟩

/-- The alternate screen hides two letters. -/
def hidingLetters : ScreenBuffer :=
  let enter := [0x1b, wc '[', wc '?', wc '1', wc '0', wc '4', wc '9', wc 'h']
  (applyTextToScreenBuffer twoCells ([wc 'A', wc 'B'] ++ enter ++ [wc 'C']) ⟨7⟩ none true).buffer

theorem hidingLetters_wellFormed : hidingLetters.WellFormed :=
  applyTextToScreenBuffer_wellFormed twoCells_wellFormed _ ⟨7⟩ none true

theorem setScreenBufferSize_resizes_alternate :
    let resized := hidingLetters.setScreenBufferSizeUnder ⟨true, true⟩ ⟨1, 2⟩
    hidingLetters.Resizes ⟨true, true⟩ ⟨1, 2⟩ resized ∧
      resized.1.cells.map (·.character) = [wc 'C', 0x20] ∧
      resized.1.vtMainBackup.map (·.cells.map (·.character)) = some [wc 'A', 0x20] := by
  refine ⟨?_, by decide +kernel, by decide +kernel⟩
  apply setScreenBufferSize_resizes hidingLetters_wellFormed ⟨true, true⟩ ⟨⟨1, 2⟩, ?_⟩
  constructor <;> decide

end Operation

end ScreenBuffer

end Conhost
