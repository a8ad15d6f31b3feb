import Conhost.Lib.Tape
import Conhost.Screen.Drawing
import Conhost.Screen.OutputInvariant
import Conhost.Screen.LineOperations

/-!
# Plain output

Without VT processing a screen buffer stands in for a tape. Characters wrap at the right
edge and scroll the rows up at the bottom, so that the cells of the tape keep their order.
A backspace at the left edge is the exception: it stays where it is.
-/

namespace Conhost

/-- The rows that line feeds from `row` on come to scroll. -/
def ScreenCore.scrollRows (core : ScreenCore) (row : Int) : Int × Int :=
  match core.vtVerticalMargins with
  | some ⟨top, bottom⟩ => if row ≤ bottom then (top, bottom) else (0, core.bufferSize.y - 1)
  | none => (0, core.bufferSize.y - 1)

theorem ScreenCore.WellFormed.scrollRows_valid {core : ScreenCore} (valid : core.WellFormed)
    {row first last : Int} (inside : row < core.bufferSize.y)
    (rows : core.scrollRows row = (first, last)) :
    0 ≤ first ∧ first ≤ last ∧ last < core.bufferSize.y ∧ row ≤ last := by
  have height := valid.size.y_pos
  have fits := valid.margins
  simp only [scrollRows] at rows
  cases margins : core.vtVerticalMargins with
  | none =>
      rw [margins] at rows
      cases rows
      omega
  | some region =>
      rcases fits region margins with ⟨nonneg, ordered, below⟩
      rw [margins] at rows
      simp only at rows
      split at rows
      · cases rows
        omega
      · cases rows
        omega

/-- A tape as it is shown from the cell `start` on, on rows that scroll from `first` to `last`. -/
structure View where
  width : Nat
  first : Nat
  last : Nat
  start : Nat

namespace View

variable (view : View)

/-- The rows that have been scrolled away when the head has been as far as `reach`. -/
def scrolled (reach : Nat) : Nat := reach / view.width - view.last

/-- The start has not been scrolled away. -/
def Fits (reach : Nat) : Prop :=
  reach / view.width ≤ view.last + (view.start / view.width - view.first)

variable {view}

theorem Fits.mono {low high : Nat} (fits : view.Fits high) (below : low ≤ high) : view.Fits low :=
  (Nat.div_le_div_right below).trans fits

theorem Fits.scrolled_le {reach : Nat} (fits : view.Fits reach) :
    view.width * view.scrolled reach ≤ view.start := by
  have rows : view.scrolled reach ≤ view.start / view.width := by
    simp only [Fits, scrolled] at fits ⊢
    generalize view.start / view.width = startRow at *
    omega
  exact (Nat.mul_le_mul_left _ rows).trans (Nat.mul_div_le _ _)

/-- Going on to a row that is shown scrolls nothing. -/
theorem scrolled_shown {reach head : Nat}
    (shown : head / view.width ≤ view.last + view.scrolled reach) :
    view.scrolled (max reach head) = view.scrolled reach := by
  rcases le_total head reach with within | beyond
  · rw [Nat.max_eq_left within]
  · have rows : reach / view.width ≤ head / view.width := Nat.div_le_div_right beyond
    rw [Nat.max_eq_right beyond]
    simp only [scrolled] at shown ⊢
    omega

/-- Going on to the first row that is not shown scrolls one row away. -/
theorem scrolled_next {reach head : Nat}
    (under : head / view.width = view.last + view.scrolled reach + 1) :
    max reach head = head ∧ view.scrolled head = view.scrolled reach + 1 := by
  refine ⟨?_, ?_⟩
  · apply Nat.max_eq_right
    by_contra beyond
    have rows : head / view.width ≤ reach / view.width := Nat.div_le_div_right (by omega)
    simp only [scrolled] at under
    omega
  · rw [scrolled, under]
    omega

end View

/-- A screen buffer shows what a tape holds between `start` and the farthest place of its head. -/
structure ScreenCore.Displays (core : ScreenCore) (cursor : Coord) (view : View)
    (tape : Tape WChar) : Prop where
  width : core.bufferSize.x = view.width
  rows : core.scrollRows cursor.y = ((view.first : Int), (view.last : Int))
  above : cursor.y ≤ view.last
  head : core.linearIndex cursor + view.width * view.scrolled tape.reach = tape.head
  behind : view.start ≤ tape.head
  visited : tape.head ≤ tape.reach
  fits : view.Fits tape.reach
  cells : ∀ place, view.start ≤ place → place < tape.reach →
    (core.cells[place - view.width * view.scrolled tape.reach]?).map ScreenCell.character =
      some (tape.cells place)

namespace OutputCall

variable {call : OutputCall} {state : OutputState} {first last : Int}

theorem Invariant.scrollRows_valid (invariant : call.Invariant state) {row : Int}
    (inside : row < call.bufferSize.y)
    (rows : state.buffer.scrollRows row = (first, last)) :
    0 ≤ first ∧ first ≤ last ∧ last < call.bufferSize.y ∧ row ≤ last := by
  rw [← invariant.size] at inside ⊢
  exact invariant.buffer.core.scrollRows_valid inside rows

theorem scrollRegionUp_margins {top bottom : Int} {count : Nat} :
    (call.scrollRegionUp state top bottom count).margins = state.margins := by
  simp only [scrollRegionUp]
  split_ifs <;> rfl

theorem scrollRows_congr {core other : ScreenCore}
    (margins : core.vtVerticalMargins = other.vtVerticalMargins)
    (size : core.bufferSize = other.bufferSize) (row : Int) :
    core.scrollRows row = other.scrollRows row := by
  simp only [ScreenCore.scrollRows, margins, size]

theorem scrollRows_next {core : ScreenCore} {row : Int}
    (rows : core.scrollRows row = (first, last)) (below : row < last) :
    core.scrollRows (row + 1) = (first, last) := by
  simp only [ScreenCore.scrollRows] at rows ⊢
  cases margins : core.vtVerticalMargins with
  | none =>
      rw [margins] at rows
      exact rows
  | some region =>
      rw [margins] at rows
      simp only at rows ⊢
      split at rows
      · cases rows
        rw [if_pos (by omega)]
      · cases rows
        rw [if_neg (by omega)]

/-- A line feed goes to the next row, or scrolls the rows up when it is on the last of them. -/
theorem Invariant.lineFeed_eq (invariant : call.Invariant state)
    (rows : state.buffer.scrollRows state.regs.cursor.y = (first, last)) :
    call.lineFeed state =
      if state.regs.cursor.y = last then call.scrollRegionUp state first last 1
      else { state with regs.cursor.y := state.regs.cursor.y + 1 } := by
  have inside := invariant.cursor
  have height := invariant.isSize.y_le
  have xPos := inside.x_nonneg
  have yPos := inside.y_nonneg
  have below := inside.y_lt
  have next : toShort (state.regs.cursor.y + 1) = state.regs.cursor.y + 1 :=
    toShort_eq_self (by omega) (by omega)
  have valid := invariant.marginsValid
  have lastCursor (atLast : state.regs.cursor.y = last) (scrolled : OutputState)
      (same : scrolled.regs = state.regs) :
      { scrolled with regs.cursor := ⟨state.regs.cursor.x, last⟩ } = scrolled := by
    rw [← atLast, ← same]
  simp only [OutputCall.lineFeed, invariant.resolve_eq, next, invariant.toShort_lastRow]
  simp only [ScreenCore.scrollRows, ← invariant.margins, invariant.size] at rows
  cases margins : state.margins with
  | none =>
      rw [margins] at rows
      cases rows
      simp only
      rw [if_pos (by omega)]
  | some region =>
      rcases valid region margins with ⟨nonneg, ordered, bottom⟩
      rw [margins] at rows
      simp only at rows ⊢
      by_cases inRows : state.regs.cursor.y ≤ region.bottom
      · rw [if_pos inRows] at rows
        cases rows
        by_cases under : region.top ≤ state.regs.cursor.y
        · rw [if_pos ⟨under, inRows⟩]
        · rw [if_neg (by omega), if_neg (by omega), if_neg (by omega)]
      · rw [if_neg inRows] at rows
        cases rows
        rw [if_neg (by omega)]
        by_cases atLast : state.regs.cursor.y = call.bufferSize.y - 1
        · rw [if_pos (by omega), if_pos atLast]
          exact lastCursor atLast _ (scrollRegionUp_regs ..)
        · rw [if_neg (by omega), if_neg atLast]

/-- Scrolling rows up moves each of them to the place of the row above. -/
theorem Invariant.cells_scrollRegionUp (invariant : call.Invariant state) (nonneg : 0 ≤ first)
    (ordered : first < last) (below : last < call.bufferSize.y) {place : Nat}
    (afterFirst : first.toNat ≤ place / call.bufferSize.x.toNat)
    (beforeLast : place / call.bufferSize.x.toNat < last.toNat) :
    (call.scrollRegionUp state first last 1).buffer.cells[place]? =
      state.buffer.cells[place + call.bufferSize.x.toNat]? := by
  have wide := invariant.isSize.x_pos
  rw [scrollRegionUp_eq (regionScrolls_of_lt wide nonneg ordered below) le_rfl]
  have column := Nat.mod_lt place (show 0 < call.bufferSize.x.toNat by omega)
  have split := Nat.div_add_mod place call.bufferSize.x.toNat
  generalize place / call.bufferSize.x.toNat = row at afterFirst beforeLast split
  generalize place % call.bufferSize.x.toNat = offset at column split
  have inside {line : Nat} (within : line ≤ last.toNat) :
      (⟨offset, line⟩ : Coord).Inside call.bufferSize := by
    constructor <;> simp only <;> omega
  have index (line : Nat) : state.buffer.linearIndex ⟨offset, line⟩ =
      call.bufferSize.x.toNat * line + offset := by
    rw [ScreenCore.linearIndex, invariant.size, Int.toNat_natCast, Int.toNat_natCast, Nat.mul_comm]
  have repaints : state.Repaints (call.slideRows true state first last 1) := repaints_slideRows
  have slid := (repaints.invariant invariant).buffer.core.getElem?_linearIndex
    (by rw [repaints.size, invariant.size]; exact inside (show row ≤ last.toNat by omega))
  rw [invariant.cellAt_slideRows (inside (by omega)) nonneg ordered.le below le_rfl,
    Grid.slide_moved (by simp only; omega) (by simp only [Grid.toward, if_true]; omega),
    ScreenCore.linearIndex_congr repaints.size, index, split] at slid
  have source := invariant.buffer.core.getElem?_linearIndex
    (by rw [invariant.size]; exact inside (show row + 1 ≤ last.toNat by omega))
  rw [index, Nat.mul_succ, Nat.add_right_comm, split] at source
  rw [slid, source]
  rfl

end OutputCall

/-- Processed output that wraps, without VT processing. -/
structure OutputMode.Plain (mode : OutputMode) : Prop where
  processed : mode.processedOutput = true
  wraps : mode.wrapAtEolOutput = true
  noVt : mode.vtProcessing = false

/-- What a unit of plain output does to a tape. -/
def plainMark (unit : WChar) : Mark WChar := if unit = 8 then .back else .put unit

/-- A unit that plain output prints, or a backspace. -/
def IsPlain (unit : WChar) : Prop := unit = 8 ∨ 0x20 ≤ unit.toNat

namespace OutputCall

variable {call : OutputCall} {state : OutputState} {view : View} {tape : Tape WChar}
  {unit : WChar}

theorem step_backspace (plain : call.mode.Plain) (inRow : 0 < state.regs.cursor.x) :
    call.step state 8 =
      { state with regs.cursor.x := toShort (state.regs.cursor.x - 1) } := by
  simp [step, textCharacter, plain.noVt, plain.processed, inRow]

theorem step_printable (plain : call.mode.Plain) (printable : 0x20 ≤ unit.toNat) :
    call.step state unit = call.advancePlain (state.update
      (state.buffer.writeCell state.regs.cursor unit state.regs.attributes)) := by
  have other (value : WChar) (control : value.toNat < 0x20) : unit ≠ value := by
    rintro rfl
    omega
  simp only [step, textCharacter, plain.noVt, plain.processed, if_neg (other 0x0d (by decide)),
    if_neg (other 0x0a (by decide)), if_neg (other 0x08 (by decide)),
    if_neg (other 0x09 (by decide)), writePrintable, maybeApplyDelayedWrap, storePrintable,
    Bool.false_and, Bool.false_eq_true, if_false, if_true]

/-- Where the head of the tape is, in rows and columns. -/
theorem head_of_displays (invariant : call.Invariant state)
    (displays : state.buffer.Displays state.regs.cursor view tape) :
    tape.head / view.width = state.regs.cursor.y.toNat + view.scrolled tape.reach ∧
      tape.head % view.width = state.regs.cursor.x.toNat := by
  have inside := invariant.cursor
  have width := displays.width
  have head := displays.head
  rw [invariant.size] at width
  rw [ScreenCore.linearIndex, invariant.size, width, Int.toNat_natCast] at head
  have xPos := inside.x_nonneg
  have column : state.regs.cursor.x.toNat < view.width := by
    have xLt := inside.x_lt
    omega
  rw [← head]
  constructor
  · rw [Nat.add_mul_div_left _ _ (by omega), Nat.mul_comm, Nat.mul_add_div (by omega),
      Nat.div_eq_of_lt column, Nat.add_zero]
  · rw [Nat.add_mul_mod_self_left, Nat.mul_add_mod_self_right, Nat.mod_eq_of_lt column]

theorem displays_back (plain : call.mode.Plain) (invariant : call.Invariant state)
    (displays : state.buffer.Displays state.regs.cursor view tape)
    (behind : view.start < tape.head) (inRow : tape.head % view.width ≠ 0) :
    (call.step state 8).buffer.Displays (call.step state 8).regs.cursor view (tape.mark .back) := by
  have column := (head_of_displays invariant displays).2
  have inside := invariant.cursor
  have xPos := inside.x_nonneg
  have xLt := inside.x_lt
  have xLe := invariant.isSize.x_le
  have previous : toShort (state.regs.cursor.x - 1) = state.regs.cursor.x - 1 :=
    toShort_eq_self (by omega) (by omega)
  rw [step_backspace plain (by omega), previous]
  refine ⟨displays.width, displays.rows, displays.above, ?_, ?_, ?_, displays.fits,
    displays.cells⟩
  · have head := displays.head
    simp only [ScreenCore.linearIndex, Tape.mark] at head ⊢
    omega
  · simp only [Tape.mark]
    omega
  · have visited := displays.visited
    simp only [Tape.mark]
    omega

/-- The cells after a character has been written where the head is. -/
theorem cells_writeCell (invariant : call.Invariant state)
    (displays : state.buffer.Displays state.regs.cursor view tape) (attributes : Attributes)
    {place : Nat} (behind : view.start ≤ place)
    (reachable : place < (tape.mark (.put unit)).reach) :
    ((state.buffer.writeCell state.regs.cursor unit attributes).core.cells[
      place - view.width * view.scrolled tape.reach]?).map ScreenCell.character =
        some ((tape.mark (.put unit)).cells place) := by
  have inside := invariant.cursor
  have head := displays.head
  have visited := displays.visited
  have length := invariant.buffer.core.cells
  have scrolledBelow := displays.fits.scrolled_le
  have xNonneg := inside.x_nonneg
  have xLt := inside.x_lt
  rw [← invariant.size] at xLt
  have rowEnd := invariant.buffer.core.rowEnd_le inside.y_nonneg (by
    rw [invariant.size]
    exact inside.y_lt)
  have room : state.buffer.linearIndex state.regs.cursor < state.buffer.cells.length := by
    rw [ScreenCore.linearIndex]
    omega
  have inRange : state.buffer.coordInRange state.regs.cursor = true := by
    have filled : state.buffer.cells.isEmpty = false :=
      List.isEmpty_eq_false_iff.mpr (List.ne_nil_of_length_pos (by omega))
    have height := inside.y_nonneg.trans_lt inside.y_lt
    simp only [ScreenCore.coordInRange, filled, invariant.size, Bool.not_false, Bool.true_and,
      Bool.and_eq_true, decide_eq_true_eq]
    exact ⟨⟨⟨⟨⟨invariant.isSize.x_pos, height⟩, inside.x_nonneg⟩, inside.y_nonneg⟩, inside.x_lt⟩,
      inside.y_lt⟩
  simp only [ScreenCore.writeCell, if_pos inRange, ScreenCore.withCells]
  simp only [Tape.mark] at reachable ⊢
  by_cases here : place = tape.head
  · have index : place - view.width * view.scrolled tape.reach =
        state.buffer.linearIndex state.regs.cursor := by omega
    rw [index, List.getElem?_set_self room, here, Function.update_self]
    rfl
  · have shown := displays.cells place behind (by omega)
    rw [List.getElem?_set_ne (by omega), Function.update_of_ne here]
    exact shown

/-- The head goes on over the cell it has written. -/
theorem displays_advance {written : OutputState} {next : Tape WChar} (plain : call.mode.Plain)
    (invariant : call.Invariant written)
    (width : call.bufferSize.x = view.width)
    (rows : written.buffer.scrollRows written.regs.cursor.y =
      ((view.first : Int), (view.last : Int)))
    (head : written.buffer.linearIndex written.regs.cursor + view.width * view.scrolled tape.reach =
      tape.head)
    (behind : view.start ≤ tape.head)
    (advanced : next.head = tape.head + 1) (reach : next.reach = max tape.reach next.head)
    (fits : view.Fits next.reach)
    (cells : ∀ place, view.start ≤ place → place < next.reach →
      (written.buffer.cells[place - view.width * view.scrolled tape.reach]?).map
        ScreenCell.character = some (next.cells place)) :
    (call.advancePlain written).buffer.Displays
    (call.advancePlain written).regs.cursor view next := by
  have inside := invariant.cursor
  have xLe := invariant.isSize.x_le
  have xNonneg := inside.x_nonneg
  have xLt := inside.x_lt
  have yNonneg := inside.y_nonneg
  have size := invariant.size
  have following : toShort (written.regs.cursor.x + 1) = written.regs.cursor.x + 1 :=
    toShort_eq_self (by omega) (by omega)
  rcases invariant.scrollRows_valid inside.y_lt rows with ⟨firstNonneg, ordered, below, above⟩
  have index (coord : Coord) : written.buffer.linearIndex coord =
      coord.y.toNat * view.width + coord.x.toNat := by
    rw [ScreenCore.linearIndex, size, width, Int.toNat_natCast]
  rw [index] at head
  have column : written.regs.cursor.x.toNat < view.width := by omega
  have wide : 0 < view.width := by omega
  have headRow : tape.head / view.width =
      written.regs.cursor.y.toNat + view.scrolled tape.reach := by
    rw [← head, Nat.add_mul_div_left _ _ wide, Nat.mul_comm, Nat.mul_add_div wide,
      Nat.div_eq_of_lt column, Nat.add_zero]
  simp only [advancePlain, following, plain.wraps, if_true]
  by_cases wraps : call.bufferSize.x ≤ written.regs.cursor.x + 1
  · rw [if_pos wraps, advanceLine, (invariant.setColumn le_rfl invariant.isSize.x_pos).lineFeed_eq
      rows]
    have nextHead : next.head = (written.regs.cursor.y.toNat + 1) * view.width +
        view.width * view.scrolled tape.reach := by
      rw [advanced, ← head, Nat.add_mul]
      omega
    have nextRow : next.head / view.width =
        written.regs.cursor.y.toNat + 1 + view.scrolled tape.reach := by
      rw [nextHead, Nat.add_mul_div_left _ _ wide, Nat.mul_div_cancel _ wide]
    by_cases atLast : written.regs.cursor.y = view.last
    · rw [if_pos atLast]
      rcases @View.scrolled_next view tape.reach next.head (by omega) with ⟨farther, scrolls⟩
      rw [farther] at reach
      rw [← reach] at scrolls
      have homed := invariant.setColumn le_rfl invariant.isSize.x_pos
      have final := homed.scrollRegionUp view.first view.last 1
      have scrolledRegs := @scrollRegionUp_regs call { written with regs.cursor.x := 0 }
        view.first view.last 1
      have startRow : view.start / view.width ≤ tape.head / view.width :=
        Nat.div_le_div_right behind
      have fitted := fits
      rw [View.Fits, reach, nextRow] at fitted
      have scrolledBelow := fits.scrolled_le
      rw [scrolls] at scrolledBelow
      refine ⟨by rw [final.size, width], ?_, ?_, ?_, by omega, by omega, fits, ?_⟩
      · rw [scrolledRegs, ← rows]
        refine scrollRows_congr ?_ ?_ _
        · rw [final.margins.symm, scrollRegionUp_margins]
          exact invariant.margins
        · rw [final.size, size]
      · rw [scrolledRegs]
        exact above
      · rw [scrolledRegs, ScreenCore.linearIndex, final.size, width, nextHead, scrolls]
        simp only [Int.toNat_zero, Int.toNat_natCast, Nat.mul_add, Nat.add_mul, Nat.mul_one]
        omega
      · intro place first reachable
        have shown := cells place first reachable
        have placeRow : view.start / view.width ≤ place / view.width :=
          Nat.div_le_div_right first
        have beforeHead : place / view.width < view.last + 1 + view.scrolled tape.reach := by
          rw [Nat.div_lt_iff_lt_mul wide, Nat.add_mul, Nat.mul_comm (view.scrolled _)]
          rw [reach, nextHead] at reachable
          rwa [show written.regs.cursor.y.toNat = view.last by omega] at reachable
        have moved : (place - view.width * (view.scrolled tape.reach + 1)) / view.width =
            place / view.width - (view.scrolled tape.reach + 1) :=
          Nat.sub_mul_div ..
        have source : place - view.width * (view.scrolled tape.reach + 1) + view.width =
            place - view.width * view.scrolled tape.reach := by
          rw [Nat.mul_add] at scrolledBelow ⊢
          omega
        rw [scrolls, homed.cells_scrollRegionUp firstNonneg (by omega) below]
        · rw [width, Int.toNat_natCast, source]
          exact shown
        · rw [width, Int.toNat_natCast, Int.toNat_natCast, moved]
          omega
        · rw [width, Int.toNat_natCast, Int.toNat_natCast, moved]
          omega
    · rw [if_neg atLast]
      have kept : view.scrolled next.reach = view.scrolled tape.reach := by
        rw [reach]
        apply View.scrolled_shown
        omega
      rw [← kept] at cells nextHead
      refine ⟨by rw [size, width], ?_, ?_, ?_, by omega, by omega, fits, cells⟩
      · exact scrollRows_next rows (lt_of_le_of_ne above atLast)
      · simp only
        omega
      · rw [index, nextHead]
        simp only [Int.toNat_add yNonneg Int.one_nonneg]
        rfl
  · rw [if_neg wraps]
    have sameRow : next.head / view.width =
        written.regs.cursor.y.toNat + view.scrolled tape.reach := by
      rw [advanced, ← head, Nat.add_right_comm, Nat.add_assoc _ _ 1,
        Nat.add_mul_div_left _ _ wide, Nat.mul_comm, Nat.mul_add_div wide,
        Nat.div_eq_of_lt (by omega), Nat.add_zero]
    have kept : view.scrolled next.reach = view.scrolled tape.reach := by
      rw [reach]
      apply View.scrolled_shown
      omega
    rw [← kept] at cells head
    refine ⟨by rw [size, width], rows, above, ?_, by omega, by omega, fits, cells⟩
    rw [index]
    simp only
    omega

theorem displays_put (plain : call.mode.Plain) (invariant : call.Invariant state)
    (displays : state.buffer.Displays state.regs.cursor view tape)
    (printable : 0x20 ≤ unit.toNat) (fits : view.Fits (tape.mark (.put unit)).reach) :
    (call.step state unit).buffer.Displays (call.step state unit).regs.cursor view
      (tape.mark (.put unit)) := by
  have edits := @ScreenCore.writeCell_editsCells state.buffer.toScreenCore state.regs.cursor unit
    state.regs.attributes
  have written := invariant.edit edits
  have cells (place : Nat) := @cells_writeCell call state view tape unit invariant displays
    state.regs.attributes place
  have width := displays.width
  rw [invariant.size] at width
  rw [step_printable plain printable]
  rcases edits with ⟨changed, core, -⟩
  refine displays_advance plain written width ?_ ?_ displays.behind rfl rfl fits cells
  · simp only [OutputState.update, ScreenBuffer.update, core]
    exact displays.rows
  · simp only [OutputState.update, ScreenBuffer.update, core]
    exact displays.head

theorem displays_run (plain : call.mode.Plain) {text : List WChar}
    (units : ∀ unit ∈ text, IsPlain unit)
    (invariant : call.Invariant state)
    (displays : state.buffer.Displays state.regs.cursor view tape)
    (inRow : tape.BacksInRow view.width view.start (text.map plainMark))
    (fits : view.Fits (tape.marks (text.map plainMark)).reach) :
    (call.run state text).buffer.Displays (call.run state text).regs.cursor view
      (tape.marks (text.map plainMark)) := by
  induction text generalizing state tape with
  | nil => exact displays
  | cons unit later hypothesis =>
      have laterUnits := fun other member => units other (List.mem_cons_of_mem unit member)
      rcases units unit List.mem_cons_self with rfl | printable
      · rcases inRow with ⟨behind, column, rest⟩
        exact hypothesis laterUnits (invariant.step 8)
          (displays_back plain invariant displays behind column) rest fits
      · have mark : plainMark unit = .put unit := by
          apply if_neg
          rintro rfl
          exact absurd printable (by decide)
        simp only [List.map_cons, mark] at inRow fits ⊢
        exact hypothesis laterUnits (invariant.step unit)
          (displays_put plain invariant displays printable (fits.mono (Tape.reach_marks _))) inRow
          fits

end OutputCall

/-- A well-formed screen buffer that shows a tape. -/
structure ScreenBuffer.ShowsTape (buffer : ScreenBuffer) (view : View) (tape : Tape WChar) :
    Prop where
  valid : buffer.WellFormed
  displays : buffer.toScreenCore.Displays buffer.regs.cursor view tape

/-- A plain text does to the buffer what its marks do to the tape. -/
theorem ScreenBuffer.ShowsTape.write {buffer : ScreenBuffer} {view : View} {tape : Tape WChar}
    (shows : buffer.ShowsTape view tape) {mode : OutputMode} (plain : mode.Plain)
    {text : List WChar} (units : ∀ unit ∈ text, IsPlain unit)
    (title : Option TitleState) (answerQueries : Bool)
    (inRow : tape.BacksInRow view.width view.start (text.map plainMark))
    (fits : view.Fits (tape.marks (text.map plainMark)).reach) :
    (applyTextToScreenBuffer buffer text mode title answerQueries).buffer.ShowsTape view
      (tape.marks (text.map plainMark)) := by
  refine ⟨applyTextToScreenBuffer_wellFormed shows.valid text mode title answerQueries, ?_⟩
  have size := shows.valid.core.size
  have xPos := size.x_pos
  have yPos := size.y_pos
  have started : (buffer.outputState mode title).buffer.Displays
      (buffer.outputState mode title).regs.cursor view tape := by
    simp only [ScreenBuffer.outputState]
    split <;> exact ⟨shows.displays.width, shows.displays.rows, shows.displays.above,
      shows.displays.head, shows.displays.behind, shows.displays.visited, shows.displays.fits,
      shows.displays.cells⟩
  have written := @OutputCall.displays_run (buffer.outputCall mode answerQueries) _ view tape plain
    text units (shows.valid.outputState mode title answerQueries) started inRow fits
  rw [applyTextToScreenBuffer, if_neg (by omega)]
  simp only [OutputState.commit_toScreenCore, OutputState.commit_regs]
  exact written

end Conhost
