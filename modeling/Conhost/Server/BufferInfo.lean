import Conhost.Screen.Resize
import Conhost.Server.ScreenApi

/-!
# Setting the screen buffer info

`ConsolepSetScreenBufferInfo` resizes the buffer before it looks at the cursor position,
and stores the cursor, the attributes and the color table before it looks at the window.
A success does what was asked for. A rejection leaves the screen alone only if the
steps before it had nothing to change.
-/

namespace Conhost

namespace ScreenBuffer

/-- The window that a request asks for. -/
def InfoBody.window (body : InfoBody) : SmallRect :=
  ⟨body.scrollPosition.x, body.scrollPosition.y,
    body.scrollPosition.x + body.currentWindowSize.x,
    body.scrollPosition.y + body.currentWindowSize.y⟩

/-- The steps of the request between its checks of the cursor and of the window. -/
def storeInfo (buffer : ScreenBuffer) (body : InfoBody) : ScreenBuffer :=
  let moved := buffer.setCursorPosition body.cursorPosition
  let colored := moved.setTextAttributes body.attributes
  let defaulted := colored.update (colored.setDefaultTextAttributes body.attributes)
  defaulted.update (defaulted.setColorTable body.colorTable)

/-- `ConsolepSetScreenBufferInfo` with allocations that may fail. -/
def requestSetScreenBufferInfoUnder (buffer : ScreenBuffer) (allocates : ResizeAllocations)
    (body : InfoBody) : ScreenBuffer × Status :=
  let size := body.size.val
  if size.x ≤ 0 ∨ size.y ≤ 0 then
    (buffer, .invalidParameter)
  else
    match buffer.setScreenBufferSizeUnder allocates size with
    | (unsized, false) => (unsized, .noMemory)
    | (resized, true) =>
        let cursor := body.cursorPosition
        if cursor.x < 0 ∨ cursor.y < 0 ∨ size.x ≤ cursor.x ∨ size.y ≤ cursor.y then
          (resized, .invalidParameter)
        else
          (resized.storeInfo body).requestInfoWindow body

/-- Two buffers that show and hide the same screens. -/
structure SameScreen (before after : ScreenBuffer) : Prop where
  cells : after.cells = before.cells
  bufferSize : after.bufferSize = before.bufferSize
  cursor : after.regs.cursor = before.regs.cursor
  windowRect : after.windowRect = before.windowRect
  attributes : after.regs.attributes = before.regs.attributes
  defaultAttributes : after.defaultTextAttributes = before.defaultTextAttributes
  margins : after.vtVerticalMargins = before.vtVerticalMargins
  delayedWrap : after.regs.delayedWrap = before.regs.delayedWrap
  colorTable : after.colorTable = before.colorTable
  main : after.vtMainBackup = before.vtMainBackup

theorem SameScreen.refl (buffer : ScreenBuffer) : buffer.SameScreen buffer :=
  ⟨rfl, rfl, rfl, rfl, rfl, rfl, rfl, rfl, rfl, rfl⟩

/-- A buffer that a resize to its own size does not change. -/
structure Settled (buffer : ScreenBuffer) : Prop where
  shown : buffer.windowRect.Contains buffer.regs.cursor
  delayedWrap : buffer.regs.delayedWrap = none
  hidden : ∀ backup ∈ buffer.vtMainBackup, backup.vtDelayedWrapPosition = none

/-- A buffer whose registers and colors are the requested ones. -/
structure Matches (buffer : ScreenBuffer) (body : InfoBody) : Prop where
  cursor : body.cursorPosition = buffer.regs.cursor
  attributes : body.attributes = buffer.regs.attributes
  defaultAttributes : body.attributes = buffer.defaultTextAttributes
  colorTable : body.colorTable = buffer.colorTable

section SameSize

variable {buffer : ScreenBuffer} {size : Coord}

theorem resizeCursor_eq_self {cursor : Coord} (inside : cursor.Inside size) :
    resizeCursor cursor size = cursor := by
  unfold resizeCursor
  rw [if_neg (not_le.mpr inside.x_lt), if_neg (not_le.mpr inside.y_lt)]

theorem resizeMargins_eq_self {margins : VtVerticalMargins} {height : Int}
    (valid : margins.Valid height) : resizeMargins margins height = some margins := by
  rcases valid with ⟨_, _, _⟩
  unfold resizeMargins
  simp only
  rw [if_neg (by omega), if_neg (by omega), if_neg (by omega), if_neg (by omega),
    if_neg (by omega)]

theorem bind_resizeMargins_eq_self {margins : Option VtVerticalMargins} {height : Int}
    (valid : ∀ region ∈ margins, region.Valid height) :
    margins.bind (resizeMargins · height) = margins := by
  cases margins with
  | none => rfl
  | some region => exact resizeMargins_eq_self (valid region rfl)

theorem resizeWindow_eq_self {rect : SmallRect} (window : rect.IsWindow size)
    (isSize : size.IsSize) : resizeWindow rect size = rect := by
  rcases window with ⟨leftNonneg, leftLe, rightLt, topNonneg, topLe, bottomLt⟩
  have extents : resizeExtents rect size =
      (rect.right - rect.left + 1, rect.bottom - rect.top + 1) := by
    unfold resizeExtents
    simp only
    rw [if_neg (by omega), min_eq_left (by omega), min_eq_left (by omega),
      max_eq_right (by omega), max_eq_right (by omega)]
  have left : max 0 (min (max 0 rect.left) (size.x - (rect.right - rect.left + 1))) =
      rect.left := by
    omega
  have top : max 0 (min (max 0 rect.top) (size.y - (rect.bottom - rect.top + 1))) = rect.top := by
    omega
  unfold resizeWindow
  rw [extents]
  simp only
  rw [left, top, windowAt_eq isSize leftNonneg (by omega) topNonneg (by omega) (by omega)
    (by omega)]
  cases rect
  simp only [SmallRect.mk.injEq, true_and]
  omega

theorem resizeBackup_eq_self {backup : VtAlternateBufferBackup} (valid : backup.WellFormed size)
    (isSize : size.IsSize) (settled : backup.vtDelayedWrapPosition = none) :
    resizeBackup backup size size = backup := by
  have cells := (resizeCells_resized isSize valid.cells backup.textAttributes).same rfl
  unfold resizeBackup
  rw [cells, resizeCursor_eq_self valid.cursor, bind_resizeMargins_eq_self valid.margins]
  cases backup
  simp only at settled
  rw [settled]

/-- A resize leaves the screen alone exactly if it is to the size of a settled buffer. -/
theorem sameScreen_resize (valid : buffer.WellFormed) (isSize : size.IsSize) :
    buffer.SameScreen (buffer.setScreenBufferSize size).1 ↔
      size = buffer.bufferSize ∧ buffer.Settled := by
  have resized := (setScreenBufferSize_resizedTo valid isSize).2
  constructor
  · intro same
    have shown := resized.shown
    have delayedWrap := resized.delayedWrap
    have hidden := resized.hidden
    rw [same.windowRect, same.cursor] at shown
    rw [same.delayedWrap] at delayedWrap
    refine ⟨resized.bufferSize.symm.trans same.bufferSize, shown, delayedWrap, ?_⟩
    intro backup mem
    rw [same.main, mem] at hidden
    cases hidden with
    | some related => exact related.2.2
  · rintro ⟨rfl, settled⟩
    obtain ⟨sized, ordered, eq, windowRect, core, regs⟩ := setScreenBufferSize_snaps valid isSize
    have window := windowRect.trans (resizeWindow_eq_self valid.window isSize)
    have cursor : sized.regs.cursor = buffer.regs.cursor := by
      rw [regs]
      exact resizeCursor_eq_self valid.cursor
    have shown : sized.windowRect.Contains sized.regs.cursor := by
      rw [window, cursor]
      exact settled.shown
    have main : buffer.vtMainBackup.map (resizeBackup · buffer.bufferSize buffer.bufferSize) =
        buffer.vtMainBackup := by
      cases hidden : buffer.vtMainBackup with
      | none => rfl
      | some backup =>
          rw [Option.map_some, resizeBackup_eq_self (valid.core.backup backup hidden) isSize
            (settled.hidden backup hidden)]
    have resized := resized.active.same rfl
    have stays := snapWindowToCursor_eq_touch ordered.core.size ordered.window ordered.cursor shown
    rw [eq] at resized ⊢
    exact {
      cells := resized
      bufferSize := by rw [snapWindowToCursor_toScreenCore, core]
      cursor := by rw [snapWindowToCursor_regs, cursor]
      windowRect := by
        rw [stays]
        exact window
      attributes := by rw [snapWindowToCursor_regs, regs]
      defaultAttributes := by rw [snapWindowToCursor_toScreenCore, core]
      margins := by
        rw [snapWindowToCursor_toScreenCore, core]
        exact bind_resizeMargins_eq_self valid.core.margins
      delayedWrap := by rw [snapWindowToCursor_regs, regs, settled.delayedWrap]
      colorTable := by rw [snapWindowToCursor_toScreenCore, core]
      main := by
        rw [snapWindowToCursor_toScreenCore, core]
        exact main }

end SameSize

/-- The info that a request asks for. -/
structure Requested (info : ScreenBufferInfo) (body : InfoBody) : Prop where
  size : info.size = body.size.val
  cursorPosition : info.cursorPosition = body.cursorPosition
  scrollPosition : info.scrollPosition = body.scrollPosition
  currentWindowSize : info.currentWindowSize = body.currentWindowSize
  attributes : info.attributes = body.attributes
  colorTable : info.colorTable = body.colorTable

/-- A result that is the old screen or the requested one. -/
structure SetsInfo (buffer : ScreenBuffer) (body : InfoBody) (result : ScreenBuffer × Status) :
    Prop where
  failure : result.2 ≠ .success → buffer.SameScreen result.1
  success : result.2 = .success → Requested (ScreenApi.screenBufferInfo result.1) body

/-- The request is rejected before it changes anything, accepted, or finds that what it
changes before it is rejected is already so. -/
def InfoSafe (buffer : ScreenBuffer) (allocates : ResizeAllocations) (body : InfoBody) : Prop :=
  ¬ (0 < body.size.val.x ∧ 0 < body.size.val.y) ∨ ¬ buffer.Allocated allocates ∨
    body.cursorPosition.Inside body.size.val ∧ body.window.IsWindow body.size.val ∨
    body.size.val = buffer.bufferSize ∧ buffer.Settled ∧
      (body.cursorPosition.Inside body.size.val → buffer.Matches body)

section Request

variable {buffer : ScreenBuffer} {allocates : ResizeAllocations} {body : InfoBody} {size : Coord}

theorem requestInfoWindow_accepted (isSize : buffer.bufferSize.IsSize)
    (window : body.window.IsWindow buffer.bufferSize) :
    buffer.requestInfoWindow body =
      ({ buffer with windowRect := body.window }.touch, .success) := by
  have wide := isSize.x_le
  have high := isSize.y_le
  rcases window with ⟨leftNonneg, leftLe, rightLt, topNonneg, topLe, bottomLt⟩
  simp only [InfoBody.window] at leftNonneg leftLe rightLt topNonneg topLe bottomLt
  unfold requestInfoWindow setWindowRect
  simp only
  rw [if_neg (by omega), if_neg (by omega), if_neg (by omega),
    toShort_eq_self (by omega) (by omega), toShort_eq_self (by omega) (by omega),
    toShort_eq_self (by omega) (by omega), toShort_eq_self (by omega) (by omega),
    if_neg (by omega), if_neg (by omega), if_neg (by omega), if_neg (by omega)]
  rfl

theorem requestInfoWindow_rejected
    (outside : ¬ body.window.IsWindow buffer.bufferSize) :
    buffer.requestInfoWindow body = (buffer, .invalidParameter) := by
  unfold requestInfoWindow
  simp only
  split
  · rfl
  · rename_i nonneg
    split
    · rfl
    · split
      · rfl
      · rename_i fits
        refine absurd ?_ outside
        unfold InfoBody.window
        constructor <;> simp only <;> omega

/-- A resize changes neither the colors nor, to the same size, the cursor. -/
theorem setScreenBufferSize_colors (valid : buffer.WellFormed) (isSize : size.IsSize) :
    let resized := (buffer.setScreenBufferSize size).1
    resized.regs.attributes = buffer.regs.attributes ∧
      resized.defaultTextAttributes = buffer.defaultTextAttributes ∧
      resized.colorTable = buffer.colorTable ∧
      (size = buffer.bufferSize → resized.regs.cursor = buffer.regs.cursor) := by
  obtain ⟨sized, _, eq, _, core, regs⟩ := setScreenBufferSize_snaps valid isSize
  rw [eq]
  simp only [snapWindowToCursor_toScreenCore, snapWindowToCursor_regs, core, regs, true_and]
  rintro rfl
  exact resizeCursor_eq_self valid.cursor

/-- Storing the info of a request shows if the resize does or if the info differs. -/
theorem sameScreen_storeInfo (valid : buffer.WellFormed) (isSize : size.IsSize) :
    buffer.SameScreen ((buffer.setScreenBufferSize size).1.storeInfo body) ↔
      buffer.SameScreen (buffer.setScreenBufferSize size).1 ∧ buffer.Matches body := by
  obtain ⟨attributes, defaultAttributes, colorTable, cursor⟩ :=
    setScreenBufferSize_colors valid isSize
  have sized := (setScreenBufferSize_resizedTo valid isSize).2.bufferSize
  generalize (buffer.setScreenBufferSize size).1 = resized at *
  constructor
  · intro same
    have sameSize : resized.bufferSize = buffer.bufferSize := same.bufferSize
    exact ⟨⟨same.cells, sameSize, cursor (sized.symm.trans sameSize), same.windowRect, attributes,
      defaultAttributes, same.margins, same.delayedWrap, colorTable, same.main⟩,
      ⟨same.cursor, same.attributes, same.defaultAttributes, same.colorTable⟩⟩
  · rintro ⟨same, info⟩
    exact ⟨same.cells, same.bufferSize, info.cursor, same.windowRect, info.attributes,
      info.defaultAttributes, same.margins, same.delayedWrap, info.colorTable, same.main⟩

theorem request_unsized (rejected : ¬ (0 < body.size.val.x ∧ 0 < body.size.val.y)) :
    buffer.requestSetScreenBufferInfoUnder allocates body = (buffer, .invalidParameter) := by
  unfold requestSetScreenBufferInfoUnder
  exact if_pos (by omega)

theorem request_unallocated (positive : 0 < body.size.val.x ∧ 0 < body.size.val.y)
    (failed : ¬ buffer.Allocated allocates) :
    buffer.requestSetScreenBufferInfoUnder allocates body = (buffer, .noMemory) := by
  unfold requestSetScreenBufferInfoUnder
  simp only
  rw [if_neg (by omega), setScreenBufferSizeUnder_failed failed]

section Sized

variable (valid : buffer.WellFormed) (isSize : body.size.val.IsSize)
  (allocated : buffer.Allocated allocates)
include valid isSize allocated

theorem request_badCursor (outside : ¬ body.cursorPosition.Inside body.size.val) :
    buffer.requestSetScreenBufferInfoUnder allocates body =
      ((buffer.setScreenBufferSize body.size.val).1, .invalidParameter) := by
  have wide := isSize.x_pos
  have high := isSize.y_pos
  have succeeds := (setScreenBufferSize_resizedTo valid isSize).1
  unfold requestSetScreenBufferInfoUnder
  simp only
  rw [if_neg (by omega), setScreenBufferSizeUnder_allocated allocated]
  generalize buffer.setScreenBufferSize body.size.val = result at succeeds
  rcases result with ⟨resized, done⟩
  obtain rfl : done = true := succeeds
  refine if_pos ?_
  by_contra inside
  exact outside ⟨by omega, by omega, by omega, by omega⟩

theorem request_goodCursor (inside : body.cursorPosition.Inside body.size.val) :
    buffer.requestSetScreenBufferInfoUnder allocates body =
      ((buffer.setScreenBufferSize body.size.val).1.storeInfo body).requestInfoWindow body := by
  have wide := isSize.x_pos
  have high := isSize.y_pos
  have succeeds := (setScreenBufferSize_resizedTo valid isSize).1
  rcases inside with ⟨_, _, _, _⟩
  unfold requestSetScreenBufferInfoUnder
  simp only
  rw [if_neg (by omega), setScreenBufferSizeUnder_allocated allocated]
  generalize buffer.setScreenBufferSize body.size.val = result at succeeds
  rcases result with ⟨resized, done⟩
  obtain rfl : done = true := succeeds
  exact if_neg (by omega)

end Sized

/-- What an accepted request stores is what it asked for. -/
theorem requested_of_accepted (isSize : body.size.val.IsSize)
    (sized : buffer.bufferSize = body.size.val) (window : body.window.IsWindow body.size.val) :
    Requested (ScreenApi.screenBufferInfo
      { buffer.storeInfo body with windowRect := body.window }.touch) body := by
  have wide := isSize.x_le
  have high := isSize.y_le
  rcases window with ⟨leftNonneg, leftLe, rightLt, topNonneg, topLe, bottomLt⟩
  simp only [InfoBody.window] at leftNonneg leftLe rightLt topNonneg topLe bottomLt
  have windowSize : (⟨toShort (body.window.right - body.window.left),
      toShort (body.window.bottom - body.window.top)⟩ : Coord) = body.currentWindowSize := by
    simp only [InfoBody.window]
    rw [add_sub_cancel_left, add_sub_cancel_left, toShort_eq_self (by omega) (by omega),
      toShort_eq_self (by omega) (by omega)]
  exact ⟨sized, rfl, rfl, windowSize, rfl, rfl⟩

/-- When `ConsolepSetScreenBufferInfo` is atomic. -/
theorem setsInfo_iff (valid : buffer.WellFormed) (allocates : ResizeAllocations)
    (body : InfoBody) :
    buffer.SetsInfo body (buffer.requestSetScreenBufferInfoUnder allocates body) ↔
      buffer.InfoSafe allocates body := by
  have unchanged {status : Status} (error : status ≠ .success) :
      buffer.SetsInfo body (buffer, status) :=
    ⟨fun _ => .refl buffer, fun success => absurd success error⟩
  by_cases positive : 0 < body.size.val.x ∧ 0 < body.size.val.y
  swap
  · rw [request_unsized positive]
    exact iff_of_true (unchanged (by decide)) (.inl positive)
  by_cases allocated : buffer.Allocated allocates
  swap
  · rw [request_unallocated positive allocated]
    exact iff_of_true (unchanged (by decide)) (.inr (.inl allocated))
  have isSize : body.size.val.IsSize :=
    ⟨positive.1, body.size.property.x_le, positive.2, body.size.property.y_le⟩
  have rejected (resized : ScreenBuffer) :
      buffer.SetsInfo body (resized, .invalidParameter) ↔ buffer.SameScreen resized :=
    ⟨fun sets => sets.failure nofun, fun same => ⟨fun _ => same, nofun⟩⟩
  have sized := (setScreenBufferSize_resizedTo valid isSize).2.bufferSize
  unfold InfoSafe
  by_cases inside : body.cursorPosition.Inside body.size.val
  swap
  · rw [request_badCursor valid isSize allocated inside, rejected,
      sameScreen_resize valid isSize]
    simp [positive, allocated, inside]
  rw [request_goodCursor valid isSize allocated inside]
  have stored : ((buffer.setScreenBufferSize body.size.val).1.storeInfo body).bufferSize =
      body.size.val := sized
  by_cases window : body.window.IsWindow body.size.val
  · rw [requestInfoWindow_accepted (by rwa [stored]) (by rwa [stored])]
    refine iff_of_true ⟨fun failed => absurd rfl failed, fun _ => ?_⟩
      (.inr (.inr (.inl ⟨inside, window⟩)))
    exact requested_of_accepted isSize sized window
  · rw [requestInfoWindow_rejected (by rwa [stored]), rejected,
      sameScreen_storeInfo valid isSize, sameScreen_resize valid isSize]
    simp [positive, allocated, inside, window, and_assoc]

theorem threeCells_isShort : (⟨3, 1⟩ : Coord).IsShort := by
  constructor <;> decide

/-- A request for three cells with the cursor behind them. -/
def cursorOutside : InfoBody where
  size := ⟨⟨3, 1⟩, threeCells_isShort⟩
  cursorPosition := ⟨5, 0⟩
  scrollPosition := ⟨0, 0⟩
  attributes := 0x07
  currentWindowSize := ⟨1, 0⟩
  colorTable := twoCells.colorTable

/-- With the cursor inside, the request is carried out on the alternate screen. -/
theorem setsInfo_iff_accepted :
    let body := { cursorOutside with cursorPosition := ⟨2, 0⟩ }
    let result := hidingLetters.requestSetScreenBufferInfoUnder ⟨true, true⟩ body
    hidingLetters.SetsInfo body result ∧ result.2 = .success ∧
      result.1.vtMainBackup.map (·.cells.map (·.character)) = some [wc 'A', wc 'B', 0x20] := by
  intro body result
  refine ⟨?_, by decide +kernel, by decide +kernel⟩
  apply (setsInfo_iff hidingLetters_wellFormed ⟨true, true⟩ body).mpr
  have window : body.window.IsWindow body.size.val := by
    constructor <;> decide
  refine .inr (.inr (.inl ⟨?_, window⟩))
  constructor <;> decide

/-- A rejected cursor leaves the buffer with its new size. -/
theorem not_setsInfo :
    ¬ ∀ (buffer : ScreenBuffer) (body : InfoBody), buffer.WellFormed →
      buffer.SetsInfo body (buffer.requestSetScreenBufferInfoUnder ⟨true, true⟩ body) := by
  intro every
  have sets := every twoCells cursorOutside twoCells_wellFormed
  have size := (sets.failure (by decide +kernel)).bufferSize
  have resized : (twoCells.requestSetScreenBufferInfoUnder ⟨true, true⟩
      cursorOutside).1.bufferSize ≠ twoCells.bufferSize := by
    decide +kernel
  exact resized size

end Request

end ScreenBuffer

end Conhost
