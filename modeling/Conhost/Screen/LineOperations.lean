import Conhost.Screen.Scrolling

/-!
# Operations on lines

SU, SD, IL and DL move the rows of a region by a count. They share one pair of routines, which
blank the whole region if the count reaches its height and otherwise move the rows that stay in
the region by `scroll_screen_buffer`. That blanks the places the moved rows have come from; where
these do not include all the places that no row comes to, rows stay behind. The operations are
shifts of rows exactly up to half of the region.
-/

namespace Conhost

namespace OutputCall

/-- The routine behind SU and DL (`up`) and behind SD and IL. -/
def slideRows (call : OutputCall) (up : Bool) (state : OutputState) (top bottom : Int)
    (count : Nat) : OutputState :=
  if bottom - top + 1 ≤ count then call.fillRows state top bottom
  else if up then call.moveRows state (toShort (top + count)) bottom top bottom top
  else call.moveRows state top (toShort (bottom - count)) top bottom (toShort (top + count))

variable {call : OutputCall} {state : OutputState} {up : Bool} {top bottom : Int} {count : Nat}

theorem repaints_slideRows : state.Repaints (call.slideRows up state top bottom count) := by
  unfold slideRows
  split
  · exact .fill ..
  · split
    · exact .update (ScreenCore.scrollScreenBuffer_editsCells ..)
    · exact .update (ScreenCore.scrollScreenBuffer_editsCells ..)

/-- The guard of SU and SD passes on every region of at least two rows. -/
theorem regionScrolls_of_lt (wide : 0 < call.bufferSize.x) (nonneg : 0 ≤ top)
    (ordered : top < bottom) (below : bottom < call.bufferSize.y) :
    call.regionScrolls top bottom = true := by
  simp only [regionScrolls, Bool.and_eq_true, decide_eq_true_eq]
  omega

theorem scrollRegionUp_eq (scrolls : call.regionScrolls top bottom = true) (positive : 1 ≤ count) :
    call.scrollRegionUp state top bottom count = call.slideRows true state top bottom count := by
  have nonzero : count ≠ 0 := by omega
  simp only [scrollRegionUp, slideRows, if_neg nonzero, if_pos scrolls, if_true]

theorem scrollRegionDown_eq (scrolls : call.regionScrolls top bottom = true)
    (positive : 1 ≤ count) :
    call.scrollRegionDown state top bottom count = call.slideRows false state top bottom count := by
  have nonzero : count ≠ 0 := by omega
  simp only [scrollRegionDown, slideRows, if_neg nonzero, if_pos scrolls, Bool.false_eq_true,
    if_false]

namespace Invariant

variable (invariant : call.Invariant state) {coord : Coord}
  (inside : coord.Inside call.bufferSize)
include invariant inside

/-- The cells after some rows have been moved inside of a region. -/
theorem cellAt_moveRows {sourceTop sourceBottom target : Int}
    (source : 0 ≤ sourceTop ∧ sourceTop ≤ sourceBottom ∧ sourceBottom < call.bufferSize.y) :
    (call.moveRows state sourceTop sourceBottom top bottom target).buffer.cellAt coord =
      if (sourceTop ≤ coord.y + (sourceTop - target) ∧
          coord.y + (sourceTop - target) ≤ sourceBottom) ∧ top ≤ coord.y ∧ coord.y ≤ bottom then
        state.buffer.column coord.x (coord.y + (sourceTop - target))
      else if (sourceTop ≤ coord.y ∧ coord.y ≤ sourceBottom) ∧ top ≤ coord.y ∧ coord.y ≤ bottom then
        ⟨0x20, state.regs.attributes⟩
      else state.buffer.cellAt coord := by
  have xNonneg := inside.x_nonneg
  have xLt := inside.x_lt
  have wide := invariant.isSize.x_pos
  rw [← invariant.size] at inside
  have corner {row column : Int} (rows : 0 ≤ row ∧ row < call.bufferSize.y)
      (columns : 0 ≤ column ∧ column < call.bufferSize.x) :
      (⟨column, row⟩ : Coord).Inside state.buffer.bufferSize := by
    rw [invariant.size]
    exact ⟨columns.1, columns.2, rows.1, rows.2⟩
  have columns : 0 ≤ coord.x ∧ coord.x ≤ call.bufferSize.x - 1 := by omega
  have home : coord.y - (target - sourceTop) = coord.y + (sourceTop - target) := by omega
  rw [moveRows, invariant.toShort_lastColumn]
  refine (ScreenCore.cellAt_scrollScreenBuffer invariant.buffer.core
    (corner (by simp only; omega) (by simp only; omega))
    (corner (by simp only; omega) (by simp only; omega)) inside ..).trans ?_
  simp only [ScreenCore.scrolledCell, SmallRect.Contains, SmallRect.sourceOf, Int.sub_self,
    Int.sub_zero, columns, true_and, home]
  rfl

variable (nonneg : 0 ≤ top) (ordered : top ≤ bottom) (below : bottom < call.bufferSize.y)
include nonneg ordered below

/-- The rows of a region are filled with blanks. -/
theorem cellAt_fillRows :
    (call.fillRows state top bottom).buffer.cellAt coord =
      if top ≤ coord.y ∧ coord.y ≤ bottom then ⟨0x20, state.regs.attributes⟩
      else state.buffer.cellAt coord := by
  have xNonneg := inside.x_nonneg
  have xLt := inside.x_lt
  have yNonneg := inside.y_nonneg
  have yLt := inside.y_lt
  rw [← invariant.size] at inside
  have started : (⟨0, top⟩ : Coord).Inside state.buffer.bufferSize := by
    rw [invariant.size]
    exact ⟨le_rfl, by simp only; omega, nonneg, by simp only; omega⟩
  rw [fillRows, OutputState.cellAt_fill invariant.buffer.core started inside]
  have column : coord.x.toNat < call.bufferSize.x.toNat := by omega
  have lines : top.toNat * call.bufferSize.x.toNat +
      call.bufferSize.x.toNat * (bottom - top + 1).toNat =
        (bottom + 1).toNat * call.bufferSize.x.toNat := by
    have height : (bottom + 1).toNat = top.toNat + (bottom - top + 1).toNat := by omega
    rw [height, Nat.add_mul, Nat.mul_comm call.bufferSize.x.toNat]
  have shown : (top.toNat ≤ coord.y.toNat ∧ ¬ (bottom + 1).toNat ≤ coord.y.toNat) ↔
      top ≤ coord.y ∧ coord.y ≤ bottom := by omega
  simp only [ScreenCore.linearIndex, invariant.size]
  simp only [lines, ← Nat.not_le, Int.toNat_zero, Nat.add_zero, Grid.row_le_place column, shown]

/-- The routines slide the rows of their region. -/
theorem cellAt_slideRows (positive : 1 ≤ count) :
    (call.slideRows up state top bottom count).buffer.cellAt coord =
      Grid.slide top bottom (Grid.toward up count) ⟨0x20, state.regs.attributes⟩
        (state.buffer.column coord.x) coord.y := by
  have yLe := invariant.isSize.y_le
  unfold slideRows
  by_cases whole : bottom - top + 1 ≤ count
  · rw [if_pos whole, cellAt_fillRows invariant inside nonneg ordered below]
    have far : bottom - top + 1 ≤ (Grid.toward up count).natAbs := by
      simp only [Grid.toward]
      split <;> omega
    by_cases row : top ≤ coord.y ∧ coord.y ≤ bottom
    · rw [if_pos row, Grid.slide_far far row]
    · rw [if_neg row, Grid.slide_outside row]
      rfl
  · rw [if_neg whole]
    have moved {sourceTop sourceBottom target offset : Int}
        (source : 0 ≤ sourceTop ∧ sourceTop ≤ sourceBottom ∧ sourceBottom < call.bufferSize.y)
        (vector : sourceTop - target = offset) (start : sourceTop = max top (top + offset))
        (stop : sourceBottom = min bottom (bottom + offset)) (short : offset.natAbs = count) :
        (call.moveRows state sourceTop sourceBottom top bottom target).buffer.cellAt coord =
          Grid.slide top bottom offset ⟨0x20, state.regs.attributes⟩
            (state.buffer.column coord.x) coord.y := by
      rw [cellAt_moveRows invariant inside source, vector]
      by_cases row : top ≤ coord.y ∧ coord.y ≤ bottom
      · by_cases comes : top ≤ coord.y + offset ∧ coord.y + offset ≤ bottom
        · rw [if_pos (by omega), Grid.slide_moved row comes]
        · rw [if_neg (by omega)]
          by_cases goes : top ≤ coord.y - offset ∧ coord.y - offset ≤ bottom
          · rw [if_pos (by omega), Grid.slide_left row comes (by omega)]
          · rw [if_neg (by omega), Grid.slide_stays row comes (by omega)]
            rfl
      · rw [if_neg (by omega), if_neg (by omega), Grid.slide_outside row]
        rfl
    have next : toShort (top + count) = top + count := toShort_eq_self (by omega) (by omega)
    cases up with
    | true =>
        rw [if_pos rfl, next]
        apply moved (by omega) <;> simp only [Grid.toward, if_true] <;> omega
    | false =>
        have last : toShort (bottom - count) = bottom - count :=
          toShort_eq_self (by omega) (by omega)
        rw [if_neg Bool.false_ne_true, next, last]
        apply moved (by omega) <;> simp only [Grid.toward, Bool.false_eq_true, if_false] <;> omega

omit inside nonneg ordered below in
theorem resolve_eq :
    call.resolveVerticalRegion state.margins =
      match state.margins with
      | some ⟨top, bottom⟩ => (top, bottom)
      | none => (0, call.bufferSize.y - 1) := by
  have valid := invariant.marginsValid
  simp only [resolveVerticalRegion, invariant.toShort_lastRow]
  cases margins : state.margins with
  | none => rfl
  | some region =>
      rcases valid region margins with ⟨nonneg, ordered, below⟩
      exact if_pos ⟨nonneg, ordered.le, below⟩

omit inside nonneg ordered below in
/-- A region of a buffer of at least two rows has at least two rows. -/
theorem region_tall (tall : 1 < call.bufferSize.y) :
    (call.resolveVerticalRegion state.margins).1 <
      (call.resolveVerticalRegion state.margins).2 := by
  rw [resolve_eq invariant]
  cases margins : state.margins with
  | none =>
      simp only
      omega
  | some region => exact (invariant.marginsValid region margins).top_lt

end Invariant

end OutputCall

/-- The operations on lines. -/
inductive LineOperation where
  | scrollUp
  | scrollDown
  | insertLine
  | deleteLine
deriving DecidableEq, Repr

namespace LineOperation

/-- The final characters of SU, SD, IL and DL. -/
def final : LineOperation → WChar
  | .scrollUp => wc 'S'
  | .scrollDown => wc 'T'
  | .insertLine => wc 'L'
  | .deleteLine => wc 'M'

/-- The sequence with a count. -/
def sequence (operation : LineOperation) (count : Nat) : VtCsiSequence :=
  { final := operation.final, params := [count] }

/-- The effect of the sequence with a count. -/
def apply (operation : LineOperation) (call : OutputCall) (count : Nat) (state : OutputState) :
    OutputState :=
  call.applyCsi (operation.sequence count) state

/-- Whether rows go up. -/
def up : LineOperation → Bool
  | .scrollUp | .deleteLine => true
  | .scrollDown | .insertLine => false

/-- The first row that an operation may change: the top margin, or the row of the cursor. -/
def firstRow (operation : LineOperation) (call : OutputCall) (state : OutputState) : Int :=
  match operation with
  | .scrollUp | .scrollDown => (call.resolveVerticalRegion state.margins).1
  | .insertLine | .deleteLine => state.regs.cursor.y

/-- Whether an operation does anything: SU and SD have a guard for buffers of one row, and IL
and DL one for a cursor outside of the scrolling region. -/
def Acts (operation : LineOperation) (call : OutputCall) (state : OutputState) : Prop :=
  match operation with
  | .scrollUp | .scrollDown => 1 < call.bufferSize.y
  | .insertLine | .deleteLine =>
      (call.resolveVerticalRegion state.margins).1 ≤ state.regs.cursor.y ∧
        state.regs.cursor.y ≤ (call.resolveVerticalRegion state.margins).2

variable {call : OutputCall} {state : OutputState} {operation : LineOperation}
  {count first second : Nat}

theorem positive_sequence (positive : 1 ≤ count) :
    (operation.sequence count).positive 0 = count := by
  have nonzero : count ≠ 0 := by omega
  simp [sequence, VtCsiSequence.positive, VtCsiSequence.param, nonzero]

/-- Each operation slides the rows from its first one to the bottom margin. -/
theorem apply_of_acts (invariant : call.Invariant state) (positive : 1 ≤ count)
    (acts : operation.Acts call state) :
    operation.apply call count state =
      call.slideRows operation.up state (operation.firstRow call state)
        (call.resolveVerticalRegion state.margins).2 count := by
  have counted := @positive_sequence operation count positive
  have bounds := invariant.region
  have wide := invariant.isSize.x_pos
  have scrolls (tall : 1 < call.bufferSize.y) :=
    OutputCall.regionScrolls_of_lt wide bounds.1 (invariant.region_tall tall) bounds.2.2
  cases operation with
  | scrollUp =>
      change call.scroll _ true state = _
      simp only [OutputCall.scroll, counted, if_true,
        OutputCall.scrollRegionUp_eq (scrolls acts) positive, up, firstRow]
  | scrollDown =>
      change call.scroll _ false state = _
      simp only [OutputCall.scroll, counted, Bool.false_eq_true, if_false,
        OutputCall.scrollRegionDown_eq (scrolls acts) positive, up, firstRow]
  | insertLine =>
      change call.insertLine _ state = _
      simp only [Acts] at acts
      simp only [OutputCall.insertLine, counted, if_pos acts, Bool.false_eq_true, if_false,
        OutputCall.slideRows, up, firstRow]
  | deleteLine =>
      change call.deleteLine _ state = _
      simp only [Acts] at acts
      simp only [OutputCall.deleteLine, counted, if_pos acts, if_true, OutputCall.slideRows, up,
        firstRow]

theorem apply_of_not_acts (positive : 1 ≤ count) (idle : ¬ operation.Acts call state) :
    operation.apply call count state = state := by
  have counted := @positive_sequence operation count positive
  have scrolls {top bottom : Int} (low : ¬ 1 < call.bufferSize.y) :
      call.regionScrolls top bottom = false := by
    simp [OutputCall.regionScrolls, low]
  cases operation with
  | scrollUp =>
      change call.scroll _ true state = _
      simp [OutputCall.scroll, OutputCall.scrollRegionUp, scrolls idle]
  | scrollDown =>
      change call.scroll _ false state = _
      simp [OutputCall.scroll, OutputCall.scrollRegionDown, scrolls idle]
  | insertLine =>
      change call.insertLine _ state = _
      simp only [Acts] at idle
      simp only [OutputCall.insertLine, if_neg idle]
  | deleteLine =>
      change call.deleteLine _ state = _
      simp only [Acts] at idle
      simp only [OutputCall.deleteLine, if_neg idle]

theorem repaints_apply (invariant : call.Invariant state) (positive : 1 ≤ count) :
    state.Repaints (operation.apply call count state) := by
  by_cases acts : operation.Acts call state
  · rw [apply_of_acts invariant positive acts]
    exact OutputCall.repaints_slideRows
  · rw [apply_of_not_acts positive acts]
    exact .refl state

theorem firstRow_bounds (invariant : call.Invariant state) (acts : operation.Acts call state) :
    0 ≤ operation.firstRow call state ∧
      operation.firstRow call state ≤ (call.resolveVerticalRegion state.margins).2 ∧
      (call.resolveVerticalRegion state.margins).2 < call.bufferSize.y := by
  have bounds := invariant.region
  have inside := invariant.cursor.y_nonneg
  cases operation with
  | scrollUp | scrollDown => exact bounds
  | insertLine | deleteLine => exact ⟨inside, acts.2, bounds.2.2⟩

/-- What an operation that acts leaves at a coordinate. -/
theorem cellAt_apply (invariant : call.Invariant state) (positive : 1 ≤ count)
    (acts : operation.Acts call state) {coord : Coord} (inside : coord.Inside call.bufferSize) :
    (operation.apply call count state).buffer.cellAt coord =
      Grid.slide (operation.firstRow call state) (call.resolveVerticalRegion state.margins).2
        (Grid.toward operation.up count) ⟨0x20, state.regs.attributes⟩
        (state.buffer.column coord.x) coord.y := by
  rw [apply_of_acts invariant positive acts]
  rcases firstRow_bounds invariant acts with ⟨nonneg, ordered, below⟩
  exact invariant.cellAt_slideRows inside nonneg ordered below positive

theorem acts_congr {after : OutputState} (repaints : state.Repaints after) :
    operation.Acts call after ↔ operation.Acts call state := by
  cases operation <;> simp only [Acts, repaints.regs, repaints.margins]

theorem firstRow_congr {after : OutputState} (repaints : state.Repaints after) :
    operation.firstRow call after = operation.firstRow call state := by
  cases operation <;> simp only [firstRow, repaints.regs, repaints.margins]

/-- What two runs of an operation leave at a coordinate. -/
theorem cellAt_apply_apply (invariant : call.Invariant state)
    (positive : 1 ≤ first ∧ 1 ≤ second) (acts : operation.Acts call state) {coord : Coord}
    (inside : coord.Inside call.bufferSize) :
    (operation.apply call second (operation.apply call first state)).buffer.cellAt coord =
      Grid.slide (operation.firstRow call state) (call.resolveVerticalRegion state.margins).2
        (Grid.toward operation.up second) ⟨0x20, state.regs.attributes⟩
        (Grid.slide (operation.firstRow call state) (call.resolveVerticalRegion state.margins).2
          (Grid.toward operation.up first) ⟨0x20, state.regs.attributes⟩
          (state.buffer.column coord.x)) coord.y := by
  have repaints := @repaints_apply call state operation first invariant positive.1
  have bounds := firstRow_bounds invariant acts
  rw [cellAt_apply (repaints.invariant invariant) positive.2
    ((acts_congr repaints).mpr acts) inside,
    firstRow_congr repaints, repaints.regs, repaints.margins]
  apply Grid.slide_congr
  rintro row within
  apply cellAt_apply invariant positive.1 acts
  rcases within with within | rfl
  · exact ⟨inside.x_nonneg, inside.x_lt, bounds.1.trans within.1,
      within.2.trans_lt bounds.2.2⟩
  · exact inside

/-- The rows that an operation works on allow its counts to be added. -/
def Adds (operation : LineOperation) (call : OutputCall) (state : OutputState)
    (first second : Nat) : Prop :=
  Grid.SlidesAdd
    ((call.resolveVerticalRegion state.margins).2 - operation.firstRow call state + 1).toNat
    first second

theorem apply_apply (invariant : call.Invariant state) (positive : 1 ≤ first ∧ 1 ≤ second)
    (adds : operation.Acts call state → operation.Adds call state first second) :
    (operation.apply call second (operation.apply call first state)).screen =
      (operation.apply call (first + second) state).screen := by
  by_cases acts : operation.Acts call state
  · have repaints := @repaints_apply call state operation first invariant positive.1
    have bounds := firstRow_bounds invariant acts
    apply OutputState.Repaints.screen_eq invariant
      (repaints.trans (repaints_apply (repaints.invariant invariant) positive.2))
      (repaints_apply invariant (by omega))
    intro coord inside
    rw [cellAt_apply_apply invariant positive acts inside,
      cellAt_apply invariant (by omega) acts inside,
      Grid.slide_toward operation.up (by omega) (adds acts)]
  · rw [apply_of_not_acts positive.1 acts, apply_of_not_acts positive.2 acts,
      apply_of_not_acts (by omega) acts]

end LineOperation

namespace OutputState

/-- Another content in another color. -/
def painted (state : OutputState) (cells : List ScreenCell) (attributes : Attributes) :
    OutputState :=
  { state with buffer.cells := cells, regs.attributes := attributes }

/-- The cursor in another row. -/
def atRow (state : OutputState) (row : Int) : OutputState := { state with regs.cursor.y := row }

end OutputState

/-- The laws of the operations on lines, for one screen and two counts. -/
structure LineLaws (call : OutputCall) (state : OutputState) (first second : Nat) : Prop where
  adds : ∀ operation : LineOperation,
    (operation.apply call second (operation.apply call first state)).screen =
      (operation.apply call (first + second) state).screen
  deletes : ∀ count, 1 ≤ count → ∀ top, top = (call.resolveVerticalRegion state.margins).1 →
    (LineOperation.scrollUp.apply call count (state.atRow top)).buffer.cells =
      (LineOperation.deleteLine.apply call count (state.atRow top)).buffer.cells
  inserts : ∀ count, 1 ≤ count → ∀ top, top = (call.resolveVerticalRegion state.margins).1 →
    (LineOperation.scrollDown.apply call count (state.atRow top)).buffer.cells =
      (LineOperation.insertLine.apply call count (state.atRow top)).buffer.cells
  lineFeed : ∀ bottom, bottom = (call.resolveVerticalRegion state.margins).2 →
    call.lineFeed (state.atRow bottom) = LineOperation.scrollUp.apply call 1 (state.atRow bottom)
  frame : ∀ operation : LineOperation, ∀ count, 1 ≤ count → ∀ coord : Coord,
    coord.Inside call.bufferSize →
    ¬ (operation.firstRow call state ≤ coord.y ∧
      coord.y ≤ (call.resolveVerticalRegion state.margins).2) →
    (operation.apply call count state).buffer.cellAt coord = state.buffer.cellAt coord

namespace LineLaws

open LineOperation

variable {call : OutputCall} {state : OutputState} {first second count : Nat} {row : Int}

/-- On a buffer of at least two rows, two operations that move rows the same way agree with the
cursor on the top margin. -/
theorem apply_eq_of_top (invariant : call.Invariant state) (tall : 1 < call.bufferSize.y)
    (atTop : state.regs.cursor.y = (call.resolveVerticalRegion state.margins).1)
    (positive : 1 ≤ count) {operation other : LineOperation} (same : operation.up = other.up) :
    operation.apply call count state = other.apply call count state := by
  have bounds := invariant.region
  have acts (operation : LineOperation) : operation.Acts call state := by
    cases operation with
    | scrollUp | scrollDown => exact tall
    | insertLine | deleteLine => exact ⟨atTop.ge, atTop.trans_le bounds.2.1⟩
  have top (operation : LineOperation) : operation.firstRow call state =
      (call.resolveVerticalRegion state.margins).1 := by
    cases operation with
    | scrollUp | scrollDown => rfl
    | insertLine | deleteLine => exact atTop
  rw [apply_of_acts invariant positive (acts operation),
    apply_of_acts invariant positive (acts other),
    top, top, same]

theorem of_adds (invariant : call.Invariant state) (positive : 1 ≤ first ∧ 1 ≤ second)
    (tall : 1 < call.bufferSize.y)
    (adds : ∀ operation : LineOperation, operation.Acts call state →
      operation.Adds call state first second) : LineLaws call state first second := by
  have region := invariant.region
  have agree {count : Nat} (counted : 1 ≤ count) {operation other : LineOperation}
      (same : operation.up = other.up) :
      operation.apply call count (state.atRow (call.resolveVerticalRegion state.margins).1) =
        other.apply call count (state.atRow (call.resolveVerticalRegion state.margins).1) :=
    apply_eq_of_top (invariant.setRow (by omega) (by omega)) tall rfl counted same
  refine ⟨fun operation => apply_apply invariant positive (adds operation), ?_, ?_, ?_, ?_⟩
  · rintro count counted top rfl
    rw [agree counted (show LineOperation.scrollUp.up = LineOperation.deleteLine.up from rfl)]
  · rintro count counted top rfl
    rw [agree counted (show LineOperation.scrollDown.up = LineOperation.insertLine.up from rfl)]
  · rintro bottom rfl
    simp only [OutputCall.lineFeed, OutputState.atRow, and_self, region.2.1, le_refl, if_true]
    rfl
  · intro operation count counted coord inside outside
    by_cases acts : operation.Acts call state
    · rw [cellAt_apply invariant counted acts inside, Grid.slide_outside outside]
      rfl
    · rw [apply_of_not_acts counted acts]

/-- A content in which every row is another one. -/
def numbered (size : Coord) : List ScreenCell :=
  (List.range (size.x.toNat * size.y.toNat)).map fun place =>
    ⟨UInt16.ofNat (place / size.x.toNat), 1⟩

theorem column_numbered (invariant : call.Invariant state) {coord : Coord}
    (inside : coord.Inside call.bufferSize) :
    (state.painted (numbered call.bufferSize) 0).buffer.column coord.x coord.y =
      ⟨UInt16.ofNat coord.y.toNat, 1⟩ := by
  have xNonneg := inside.x_nonneg
  have xLt := inside.x_lt
  have yNonneg := inside.y_nonneg
  have yLt := inside.y_lt
  have stored := @Grid.place_lt call.bufferSize.x.toNat call.bufferSize.y.toNat coord.y.toNat
    coord.x.toNat (by omega) (by omega)
  have row : (coord.y.toNat * call.bufferSize.x.toNat + coord.x.toNat) / call.bufferSize.x.toNat =
      coord.y.toNat := by
    rw [Nat.mul_comm, Nat.mul_add_div (by omega), Nat.div_eq_of_lt (by omega), Nat.add_zero]
  simp only [ScreenCore.column, ScreenCore.cellAt, ScreenCore.linearIndex, OutputState.painted,
    invariant.size]
  rw [List.getD_eq_getElem _ _ (by simpa [numbered] using stored)]
  simp [numbered, row]

theorem painted_invariant (invariant : call.Invariant state) :
    call.Invariant (state.painted (numbered call.bufferSize) 0) := by
  have length : (numbered call.bufferSize).length = state.buffer.cells.length := by
    rw [numbered, List.length_map, List.length_range, invariant.buffer.core.cells, invariant.size]
  exact ⟨invariant.buffer.withCells length state.buffer.revision, invariant.size,
    invariant.margins, invariant.cursor⟩

/-- On a buffer of one row, DL blanks the row and SU does nothing. -/
theorem tall_of_laws (invariant : call.Invariant state)
    (laws : LineLaws call (state.painted (numbered call.bufferSize) 0) first second) :
    1 < call.bufferSize.y := by
  by_contra low
  have region := invariant.region
  have inside : (⟨0, (call.resolveVerticalRegion state.margins).1⟩ : Coord).Inside
      call.bufferSize :=
    ⟨le_rfl, invariant.isSize.x_pos, region.1, region.2.1.trans_lt region.2.2⟩
  have painted : call.Invariant ((state.painted (numbered call.bufferSize) 0).atRow
      (call.resolveVerticalRegion state.margins).1) :=
    (painted_invariant invariant).setRow inside.y_nonneg inside.y_lt
  have acts : LineOperation.deleteLine.Acts call ((state.painted (numbered call.bufferSize) 0).atRow
      (call.resolveVerticalRegion state.margins).1) := ⟨le_rfl, region.2.1⟩
  have same := laws.deletes 1 le_rfl _ rfl
  change (LineOperation.scrollUp.apply call 1 ((state.painted (numbered call.bufferSize) 0).atRow
    (call.resolveVerticalRegion state.margins).1)).buffer.cells = (LineOperation.deleteLine.apply
      call 1 ((state.painted (numbered call.bufferSize) 0).atRow
        (call.resolveVerticalRegion state.margins).1)).buffer.cells at same
  have repaints := @repaints_apply _ _ .deleteLine 1 painted le_rfl
  rw [apply_of_not_acts le_rfl (show ¬ LineOperation.scrollUp.Acts call _ from low)] at same
  have far : (call.resolveVerticalRegion state.margins).2 -
      (call.resolveVerticalRegion state.margins).1 + 1 ≤ (Grid.toward true 1).natAbs := by
    simp only [Grid.toward, if_true]
    omega
  have blank := (cellAt_apply painted le_rfl acts inside).trans
    (Grid.slide_far far ⟨le_rfl, region.2.1⟩)
  have shown := column_numbered invariant inside
  rw [ScreenCore.column, ScreenCore.cellAt] at shown
  rw [ScreenCore.cellAt, ← same, ScreenCore.linearIndex_congr repaints.size] at blank
  have colors : (1 : Attributes) = 0 := congrArg ScreenCell.attributes (shown.symm.trans blank)
  exact absurd colors (by decide)

theorem adds_of_laws (invariant : call.Invariant state) (positive : 1 ≤ first ∧ 1 ≤ second)
    (laws : LineLaws call (state.painted (numbered call.bufferSize) 0) first second)
    {operation : LineOperation} (acts : operation.Acts call state) :
    operation.Adds call state first second := by
  by_contra fails
  have painted := painted_invariant invariant
  have bounds := firstRow_bounds invariant acts
  have yLe := invariant.isSize.y_le
  have inside {row : Int} (low : operation.firstRow call state ≤ row)
      (high : row ≤ (call.resolveVerticalRegion state.margins).2) :
      (⟨0, row⟩ : Coord).Inside call.bufferSize :=
    ⟨le_rfl, invariant.isSize.x_pos, bounds.1.trans low, high.trans_lt bounds.2.2⟩
  have shown {row : Int} (low : operation.firstRow call state ≤ row)
      (high : row ≤ (call.resolveVerticalRegion state.margins).2) :
      (state.painted (numbered call.bufferSize) 0).buffer.column 0 row =
        ⟨UInt16.ofNat row.toNat, 1⟩ := column_numbered invariant (inside low high)
  rcases @Grid.exists_slide_toward_ne _ (operation.firstRow call state)
    (call.resolveVerticalRegion state.margins).2 ⟨0x20, 0⟩
    ((state.painted (numbered call.bufferSize) 0).buffer.column 0) first second _ operation.up
    (by omega) positive fails
    (by
      intro row other low high otherLow otherHigh same
      rw [shown low high, shown otherLow otherHigh] at same
      have units := congrArg (fun cell => cell.character.toNat) same
      simp only [UInt16.toNat_ofNat'] at units
      omega)
    (by
      intro row low high same
      rw [shown low high] at same
      have colors : (1 : Attributes) = 0 := congrArg ScreenCell.attributes same
      exact absurd colors (by decide)) with ⟨row, low, high, differ⟩
  have once := @cellAt_apply _ _ operation (first + second) painted (by omega) acts _
    (inside low high)
  have twice := @cellAt_apply_apply _ _ operation first second painted positive acts _
    (inside low high)
  have same := congrArg (fun screen => screen.buffer.cellAt ⟨0, row⟩) (laws.adds operation)
  exact differ (twice.symm.trans (same.trans once))

end LineLaws

/-- The laws of the operations on lines hold for all contents and attributes if and only if the
buffer has at least two rows and the counts can be added on the rows of every operation that
acts. -/
theorem lineLaws_iff {call : OutputCall} {state : OutputState} (invariant : call.Invariant state)
    {first second : Nat} (positive : 1 ≤ first ∧ 1 ≤ second) :
    (∀ cells attributes, cells.length = state.buffer.cells.length →
        LineLaws call (state.painted cells attributes) first second) ↔
      1 < call.bufferSize.y ∧ ∀ operation : LineOperation, operation.Acts call state →
        operation.Adds call state first second := by
  constructor
  · intro laws
    have numbered := laws (LineLaws.numbered call.bufferSize) 0 (by
      rw [LineLaws.numbered, List.length_map, List.length_range, invariant.buffer.core.cells,
        invariant.size])
    exact ⟨numbered.tall_of_laws invariant, fun _ => numbered.adds_of_laws invariant positive⟩
  · rintro ⟨tall, adds⟩ cells attributes length
    have core := invariant.buffer.core
    have painted : call.Invariant (state.painted cells attributes) :=
      ⟨⟨⟨core.size, length.trans core.cells, core.margins, core.backup, core.asserted⟩,
        invariant.buffer.cursor, invariant.buffer.window⟩, invariant.size, invariant.margins,
        invariant.cursor⟩
    exact .of_adds painted positive tall adds

/-- Three rows of one cell each. -/
def threeRows : ScreenBuffer :=
  { ScreenBuffer.create {
      bufferSize := ⟨1, 3⟩
      windowSize := ⟨1, 3⟩
      maximumWindowSize := ⟨1, 3⟩
      colorTable := ScreenBuffer.defaultColorTable } with
    cells := [⟨wc 'A', 7⟩, ⟨wc 'B', 7⟩, ⟨wc 'C', 7⟩] }

theorem threeRows_invariant :
    (threeRows.outputCall ⟨7⟩ false).Invariant (threeRows.outputState ⟨7⟩ none) := by
  apply ScreenBuffer.WellFormed.outputState
  have created : (ScreenBuffer.create {
      bufferSize := ⟨1, 3⟩
      windowSize := ⟨1, 3⟩
      maximumWindowSize := ⟨1, 3⟩
      colorTable := ScreenBuffer.defaultColorTable }).WellFormed :=
    ScreenBuffer.create_wellFormed ⟨by decide, by decide, by decide, by decide⟩
  exact ⟨⟨created.core.size, rfl, created.core.margins, created.core.backup, created.core.asserted⟩,
    created.cursor, created.window⟩

theorem lineLaws_iff_threeRows :
    (∀ cells attributes, cells.length = (threeRows.outputState ⟨7⟩ none).buffer.cells.length →
        LineLaws (threeRows.outputCall ⟨7⟩ false)
          ((threeRows.outputState ⟨7⟩ none).painted cells attributes) 1 3) ↔
      1 < (threeRows.outputCall ⟨7⟩ false).bufferSize.y ∧ ∀ operation : LineOperation,
        operation.Acts (threeRows.outputCall ⟨7⟩ false) (threeRows.outputState ⟨7⟩ none) →
        operation.Adds (threeRows.outputCall ⟨7⟩ false) (threeRows.outputState ⟨7⟩ none) 1 3 :=
  lineLaws_iff threeRows_invariant ⟨by decide, by decide⟩

/-- Of three rows, two scrolls by one row leave only the last one, and a scroll by two rows leaves
the middle one as well. -/
theorem not_lineLaws :
    let call := threeRows.outputCall ⟨7⟩ false
    let state := threeRows.outputState ⟨7⟩ none
    let scroll := LineOperation.scrollUp.apply call
    call.Invariant state ∧
      (scroll 1 (scroll 1 state)).buffer.cells.map (·.character) = [wc 'C', 0x20, 0x20] ∧
      (scroll 2 state).buffer.cells.map (·.character) = [wc 'C', wc 'B', 0x20] ∧
      ¬ LineLaws call state 1 1 := by
  have twice : ((LineOperation.scrollUp.apply (threeRows.outputCall ⟨7⟩ false) 1
      (LineOperation.scrollUp.apply (threeRows.outputCall ⟨7⟩ false) 1
        (threeRows.outputState ⟨7⟩ none))).buffer.cells.map (·.character)) =
      [wc 'C', 0x20, 0x20] := by decide +kernel
  have once : ((LineOperation.scrollUp.apply (threeRows.outputCall ⟨7⟩ false) 2
      (threeRows.outputState ⟨7⟩ none)).buffer.cells.map (·.character)) =
      [wc 'C', wc 'B', 0x20] := by decide +kernel
  refine ⟨threeRows_invariant, twice, once, fun laws => ?_⟩
  have same := congrArg (fun screen => screen.buffer.cells.map (·.character))
    (laws.adds .scrollUp)
  exact absurd (twice.symm.trans (same.trans once)) (by decide)

end Conhost
