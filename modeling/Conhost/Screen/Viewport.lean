import Conhost.Lib.Nearest
import Conhost.Screen.Invariant

/-!
# The window follows the cursor

A window of the buffer is moved, without being resized, until it shows the cursor. On each
axis the corners of the windows that fit and show the cursor form an interval, and the corner
of the moved window is the one of them nearest to the old corner. So a window that already
shows the cursor on an axis stays there, and a second move does nothing.
-/

namespace Conhost

namespace ScreenBuffer

/-- The extent of a window. -/
def extent (rect : SmallRect) : Coord :=
  ⟨rect.right - rect.left + 1, rect.bottom - rect.top + 1⟩

/-- The corners on one axis of the windows that fit and show the cursor. -/
def showingCorners (cursor extent size : Int) : Set Int :=
  { corner | 0 ≤ corner ∧ corner + extent ≤ size ∧ corner ≤ cursor ∧
    cursor ≤ corner + extent - 1 }

/-- A window of the extent of the current one that fits and shows the cursor. -/
structure IsShowing (buffer : ScreenBuffer) (rect : SmallRect) : Prop where
  sameExtent : extent rect = extent buffer.windowRect
  window : rect.IsWindow buffer.bufferSize
  shown : rect.Contains buffer.regs.cursor

section Axis

variable {low high cursor extent size : Int}

/-- They lie between two bounds. -/
theorem mem_showingCorners (corner : Int) : corner ∈ showingCorners cursor extent size ↔
    max 0 (cursor - (extent - 1)) ≤ corner ∧ corner ≤ min cursor (size - extent) := by
  simp only [showingCorners, Set.mem_ofPred_eq]
  omega

/-- Some window of the extent fits and shows the cursor. -/
theorem showingCorners_ordered (inside : 0 ≤ cursor ∧ cursor < size) (positive : 0 < extent)
    (fits : extent ≤ size) : max 0 (cursor - (extent - 1)) ≤ min cursor (size - extent) := by
  omega

/-- Following the cursor and clamping afterwards is one projection. -/
theorem snapAxis_eq_projIcc (window : high = low + extent - 1) (lowNonneg : 0 ≤ low)
    (inside : 0 ≤ cursor ∧ cursor < size) (positive : 0 < extent) (fits : high < size) :
    snapAxis low high cursor extent size =
      Set.projIcc (max 0 (cursor - (extent - 1))) (min cursor (size - extent))
        (showingCorners_ordered inside positive (by omega)) low := by
  rw [Set.coe_projIcc]
  unfold snapAxis
  simp only
  split_ifs <;> omega

theorem snapAxis_isNearest (window : high = low + extent - 1) (lowNonneg : 0 ≤ low)
    (inside : 0 ≤ cursor ∧ cursor < size) (positive : 0 < extent) (fits : high < size) :
    IsNearest (showingCorners cursor extent size) low
      (snapAxis low high cursor extent size) := by
  rw [snapAxis_eq_projIcc window lowNonneg inside positive fits]
  exact isNearest_projIcc mem_showingCorners _ low

end Axis

section Window

variable {buffer : ScreenBuffer} {rect : SmallRect}

theorem IsShowing.left_mem (showing : buffer.IsShowing rect) :
    rect.left ∈ showingCorners buffer.regs.cursor.x (extent buffer.windowRect).x
      buffer.bufferSize.x := by
  rcases showing with ⟨sameExtent, ⟨leftNonneg, _, rightLt, _, _, _⟩, ⟨shownLeft, shownRight, _, _⟩⟩
  rw [← sameExtent]
  simp only [showingCorners, extent, Set.mem_ofPred_eq]
  omega

theorem IsShowing.top_mem (showing : buffer.IsShowing rect) :
    rect.top ∈ showingCorners buffer.regs.cursor.y (extent buffer.windowRect).y
      buffer.bufferSize.y := by
  rcases showing with ⟨sameExtent, ⟨_, _, _, topNonneg, _, bottomLt⟩, ⟨_, _, shownTop, shownBottom⟩⟩
  rw [← sameExtent]
  simp only [showingCorners, extent, Set.mem_ofPred_eq]
  omega

/-- The corner of the window that follows the cursor. -/
def snapCorner (buffer : ScreenBuffer) : Coord :=
  let rect := buffer.windowRect
  ⟨snapAxis rect.left rect.right buffer.regs.cursor.x (extent rect).x buffer.bufferSize.x,
    snapAxis rect.top rect.bottom buffer.regs.cursor.y (extent rect).y buffer.bufferSize.y⟩

section Corner

variable (window : buffer.windowRect.IsWindow buffer.bufferSize)
  (inside : buffer.regs.cursor.Inside buffer.bufferSize)

include window inside

theorem snapCorner_x_isNearest : IsNearest
    (showingCorners buffer.regs.cursor.x (extent buffer.windowRect).x buffer.bufferSize.x)
    buffer.windowRect.left buffer.snapCorner.x := by
  apply snapAxis_isNearest _ window.left_nonneg ⟨inside.x_nonneg, inside.x_lt⟩ _ window.right_lt
  · simp only [extent]
    omega
  · have ordered := window.left_le
    simp only [extent]
    omega

theorem snapCorner_y_isNearest : IsNearest
    (showingCorners buffer.regs.cursor.y (extent buffer.windowRect).y buffer.bufferSize.y)
    buffer.windowRect.top buffer.snapCorner.y := by
  apply snapAxis_isNearest _ window.top_nonneg ⟨inside.y_nonneg, inside.y_lt⟩ _ window.bottom_lt
  · simp only [extent]
    omega
  · have ordered := window.top_le
    simp only [extent]
    omega

theorem snapCorner_x_eq_self (shown : buffer.windowRect.left ≤ buffer.regs.cursor.x ∧
    buffer.regs.cursor.x ≤ buffer.windowRect.right) :
    buffer.snapCorner.x = buffer.windowRect.left := by
  apply (snapCorner_x_isNearest window inside).eq_self
  rcases window with ⟨leftNonneg, _, rightLt, _, _, _⟩
  simp only [showingCorners, extent, Set.mem_ofPred_eq]
  omega

theorem snapCorner_y_eq_self (shown : buffer.windowRect.top ≤ buffer.regs.cursor.y ∧
    buffer.regs.cursor.y ≤ buffer.windowRect.bottom) :
    buffer.snapCorner.y = buffer.windowRect.top := by
  apply (snapCorner_y_isNearest window inside).eq_self
  rcases window with ⟨_, _, _, topNonneg, _, bottomLt⟩
  simp only [showingCorners, extent, Set.mem_ofPred_eq]
  omega

end Corner

/-- The operation moves the window to its corner and counts the change. -/
theorem snapWindowToCursor_eq (isSize : buffer.bufferSize.IsSize)
    (window : buffer.windowRect.IsWindow buffer.bufferSize) :
    buffer.snapWindowToCursor =
      { buffer with
        windowRect := ⟨buffer.snapCorner.x, buffer.snapCorner.y,
          buffer.snapCorner.x + (extent buffer.windowRect).x - 1,
          buffer.snapCorner.y + (extent buffer.windowRect).y - 1⟩ }.touch := by
  have wide := isSize.x_pos
  have high := isSize.y_pos
  have size := windowSize_eq isSize window
  rcases window with ⟨leftNonneg, leftLe, rightLt, topNonneg, topLe, bottomLt⟩
  have columns := snapAxis_bounds buffer.windowRect.left buffer.windowRect.right
    buffer.regs.cursor.x
    (by omega : buffer.windowRect.right - buffer.windowRect.left + 1 ≤ buffer.bufferSize.x)
  have rows := snapAxis_bounds buffer.windowRect.top buffer.windowRect.bottom
    buffer.regs.cursor.y
    (by omega : buffer.windowRect.bottom - buffer.windowRect.top + 1 ≤ buffer.bufferSize.y)
  have moved := windowAt_eq isSize columns.1 columns.2 rows.1 rows.2 (by omega) (by omega)
  unfold snapWindowToCursor snapCorner extent
  simp only [size]
  rw [if_neg (by omega), if_neg (by omega), moved]

theorem snapWindowToCursor_isShowing (isSize : buffer.bufferSize.IsSize)
    (window : buffer.windowRect.IsWindow buffer.bufferSize)
    (inside : buffer.regs.cursor.Inside buffer.bufferSize) :
    buffer.IsShowing buffer.snapWindowToCursor.windowRect where
  sameExtent := by
    rw [snapWindowToCursor_eq isSize window]
    simp only [extent, touch, Coord.mk.injEq]
    omega
  window := snapWindowToCursor_isWindow isSize window
  shown := by
    rcases (snapCorner_x_isNearest window inside).mem with ⟨_, _, shownLeft, shownRight⟩
    rcases (snapCorner_y_isNearest window inside).mem with ⟨_, _, shownTop, shownBottom⟩
    rw [snapWindowToCursor_eq isSize window]
    exact ⟨shownLeft, shownRight, shownTop, shownBottom⟩

/-- A window that shows the cursor stays. -/
theorem snapWindowToCursor_eq_touch (isSize : buffer.bufferSize.IsSize)
    (window : buffer.windowRect.IsWindow buffer.bufferSize)
    (inside : buffer.regs.cursor.Inside buffer.bufferSize)
    (shown : buffer.windowRect.Contains buffer.regs.cursor) :
    buffer.snapWindowToCursor = buffer.touch := by
  rcases shown with ⟨shownLeft, shownRight, shownTop, shownBottom⟩
  rw [snapWindowToCursor_eq isSize window,
    snapCorner_x_eq_self window inside ⟨shownLeft, shownRight⟩,
    snapCorner_y_eq_self window inside ⟨shownTop, shownBottom⟩]
  have same : (⟨buffer.windowRect.left, buffer.windowRect.top,
      buffer.windowRect.left + (extent buffer.windowRect).x - 1,
      buffer.windowRect.top + (extent buffer.windowRect).y - 1⟩ : SmallRect) =
        buffer.windowRect := by
    generalize buffer.windowRect = rect
    cases rect
    simp only [extent, SmallRect.mk.injEq, true_and]
    omega
  rw [same]

end Window

/-- A buffer whose window has followed the cursor: no window of its size that fits and shows the
cursor has its corner closer to the old one on either axis. -/
structure FollowsCursor (buffer snapped : ScreenBuffer) : Prop where
  windowSize : snapped.windowSize = buffer.windowSize
  showing : buffer.IsShowing snapped.windowRect
  left : IsNearest (SmallRect.left '' { rect | buffer.IsShowing rect }) buffer.windowRect.left
    snapped.windowRect.left
  top : IsNearest (SmallRect.top '' { rect | buffer.IsShowing rect }) buffer.windowRect.top
    snapped.windowRect.top
  columns : buffer.windowRect.left ≤ buffer.regs.cursor.x →
    buffer.regs.cursor.x ≤ buffer.windowRect.right →
      snapped.windowRect.left = buffer.windowRect.left ∧
        snapped.windowRect.right = buffer.windowRect.right
  rows : buffer.windowRect.top ≤ buffer.regs.cursor.y →
    buffer.regs.cursor.y ≤ buffer.windowRect.bottom →
      snapped.windowRect.top = buffer.windowRect.top ∧
        snapped.windowRect.bottom = buffer.windowRect.bottom

section Follows

variable {buffer : ScreenBuffer}

theorem snapWindowToCursor_followsCursor (isSize : buffer.bufferSize.IsSize)
    (window : buffer.windowRect.IsWindow buffer.bufferSize)
    (inside : buffer.regs.cursor.Inside buffer.bufferSize) :
    buffer.FollowsCursor buffer.snapWindowToCursor := by
  have showing := snapWindowToCursor_isShowing isSize window inside
  have nearestLeft := snapCorner_x_isNearest window inside
  have nearestTop := snapCorner_y_isNearest window inside
  have moved := congrArg ScreenBuffer.windowRect (snapWindowToCursor_eq isSize window)
  exact {
    windowSize := by
      have after : buffer.snapWindowToCursor.bufferSize = buffer.bufferSize := by
        rw [snapWindowToCursor_toScreenCore]
      rw [windowSize_eq isSize window, windowSize_eq (by rwa [after])
        (by rw [after]; exact showing.window)]
      exact showing.sameExtent
    showing := showing
    left := by
      refine ⟨⟨_, showing, rfl⟩, ?_⟩
      rintro _ ⟨rect, other, rfl⟩
      rw [moved]
      exact nearestLeft.least rect.left other.left_mem
    top := by
      refine ⟨⟨_, showing, rfl⟩, ?_⟩
      rintro _ ⟨rect, other, rfl⟩
      rw [moved]
      exact nearestTop.least rect.top other.top_mem
    columns := by
      intro shownLeft shownRight
      have stays := snapCorner_x_eq_self window inside ⟨shownLeft, shownRight⟩
      rw [moved]
      refine ⟨stays, ?_⟩
      simp only [stays, extent, touch]
      omega
    rows := by
      intro shownTop shownBottom
      have stays := snapCorner_y_eq_self window inside ⟨shownTop, shownBottom⟩
      rw [moved]
      refine ⟨stays, ?_⟩
      simp only [stays, extent, touch]
      omega }

/-- Following the cursor is the least move, and the second time it only counts a change. -/
theorem snapWindowToCursor_least (isShort : buffer.bufferSize.IsShort)
    (window : buffer.windowRect.IsWindow buffer.bufferSize)
    (inside : buffer.regs.cursor.Inside buffer.bufferSize) :
    buffer.FollowsCursor buffer.snapWindowToCursor ∧
      buffer.snapWindowToCursor.snapWindowToCursor = buffer.snapWindowToCursor.touch := by
  have isSize : buffer.bufferSize.IsSize := by
    rcases inside with ⟨_, _, _, _⟩
    exact ⟨by omega, isShort.x_le, by omega, isShort.y_le⟩
  have follows := snapWindowToCursor_followsCursor isSize window inside
  refine ⟨follows, snapWindowToCursor_eq_touch ?_ ?_ ?_ ?_⟩
  · rwa [snapWindowToCursor_toScreenCore]
  · rw [snapWindowToCursor_toScreenCore]
    exact follows.showing.window
  · rwa [snapWindowToCursor_toScreenCore, snapWindowToCursor_regs]
  · rw [snapWindowToCursor_regs]
    exact follows.showing.shown

theorem snapWindowToCursor_least_corner :
    let settings : Settings :=
      { bufferSize := ⟨3, 2⟩
        windowSize := ⟨2, 1⟩
        maximumWindowSize := ⟨3, 2⟩
        cursorPosition := ⟨2, 1⟩
        colorTable := defaultColorTable }
    (create settings).FollowsCursor (create settings).snapWindowToCursor ∧
      (create settings).snapWindowToCursor.snapWindowToCursor =
        (create settings).snapWindowToCursor.touch :=
  snapWindowToCursor_least (by constructor <;> decide) (by constructor <;> decide)
    (by constructor <;> decide)

end Follows

end ScreenBuffer

end Conhost
