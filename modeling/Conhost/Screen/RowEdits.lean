import Conhost.Screen.Cells

/-!
# Edits of a row

ICH, DCH and ECH are loops over single cells of the cursor row, and insert mode shifts the row in
one move. All of them come down to shifts of the part of the row from the cursor on.
-/

namespace Conhost

namespace ScreenCore

variable {core : ScreenCore} {coord origin : Coord}

/-- The cells of a row, by their columns. -/
def row (core : ScreenCore) (row column : Int) : ScreenCell := core.cellAt ⟨column, row⟩

/-- `insert_cell` shifts the rest of the row by one cell. -/
theorem WellFormed.cellAt_insertCell (valid : core.WellFormed)
    (written : origin.Inside core.bufferSize) (inside : coord.Inside core.bufferSize)
    (character : WChar) (attributes : Attributes) :
    (core.insertCell origin character attributes).core.cellAt coord =
      if coord.y = origin.y then
        Grid.shift origin.x (core.bufferSize.x - 1) (-1) ⟨character, attributes⟩
          (core.row origin.y) coord.x
      else core.cellAt coord := by
  have xNonneg := inside.x_nonneg
  have xLt := inside.x_lt
  have yNonneg := inside.y_nonneg
  have originX := written.x_nonneg
  have originLt := written.x_lt
  have originY := written.y_nonneg
  rw [insertCell, if_pos (valid.coordInRange_iff.mpr written)]
  by_cases narrow : core.bufferSize.x ≤ 1
  · rw [if_pos narrow, valid.cellAt_writeCell written inside]
    by_cases row : coord.y = origin.y
    · have same : coord = origin := by
        cases coord
        cases origin
        simp only [Coord.mk.injEq] at *
        omega
      rw [if_pos same, if_pos row, Grid.shift_blank (by omega) (by omega)]
    · rw [if_neg row, if_neg fun same => row (congrArg Coord.y same)]
  · rw [if_neg narrow]
    have rowEnd := valid.rowEnd_le originY written.y_lt
    have start : core.linearIndex origin <
        origin.y.toNat * core.bufferSize.x.toNat + core.bufferSize.x.toNat := by
      simp only [linearIndex]
      omega
    have read := @Grid.getElem?_insert _ core.cells ⟨character, attributes⟩ _ _ start rowEnd
      (core.linearIndex coord)
    have updated : (core.cells.take (core.linearIndex origin) ++ ⟨character, attributes⟩ ::
        (core.cells.take (origin.y.toNat * core.bufferSize.x.toNat + core.bufferSize.x.toNat -
          1)).drop (core.linearIndex origin) ++ core.cells.drop
            (origin.y.toNat * core.bufferSize.x.toNat + core.bufferSize.x.toNat)).getD
              (core.linearIndex coord) {} =
        if coord.y = origin.y then
          Grid.shift origin.x (core.bufferSize.x - 1) (-1) ⟨character, attributes⟩
            (core.row origin.y) coord.x
        else core.cellAt coord := by
      rw [List.getD_eq_getElem?_getD, read, valid.getElem?_linearIndex inside]
      by_cases row : coord.y = origin.y
      · have sameRow : (⟨coord.x, origin.y⟩ : Coord) = coord := by rw [← row]
        rw [if_pos row]
        simp only [linearIndex, row]
        by_cases here : coord.x = origin.x
        · rw [if_pos (by omega), Grid.shift_blank (by omega) (by omega)]
          rfl
        · rw [if_neg (by omega)]
          by_cases after : origin.x < coord.x
          · have previous : (⟨coord.x - 1, origin.y⟩ : Coord).Inside core.bufferSize :=
              ⟨by simp only; omega, by simp only; omega, originY, written.y_lt⟩
            have index : origin.y.toNat * core.bufferSize.x.toNat + coord.x.toNat - 1 =
                core.linearIndex ⟨coord.x - 1, origin.y⟩ := by
              simp only [linearIndex]
              omega
            rw [if_pos (by omega), index, valid.getElem?_linearIndex previous,
              Grid.shift_moved (by omega) (by omega)]
            rfl
          · rw [if_neg (by omega), Grid.shift_outside (by omega), ScreenCore.row, sameRow]
            rfl
      · have apart : ¬ (core.linearIndex origin < core.linearIndex coord ∧
            core.linearIndex coord <
              origin.y.toNat * core.bufferSize.x.toNat + core.bufferSize.x.toNat) := by
          rintro ⟨after, before⟩
          have column : coord.x.toNat < core.bufferSize.x.toNat := by omega
          have above : origin.y.toNat ≤ coord.y.toNat := by
            rw [← Grid.row_le_place column]
            exact (Nat.le_add_right _ _).trans after.le
          have below : ¬ origin.y.toNat + 1 ≤ coord.y.toNat := by
            rw [← Grid.row_le_place column, Nat.succ_mul]
            exact not_le.mpr before
          omega
        have elsewhere : core.linearIndex coord ≠ core.linearIndex origin := fun same =>
          row (congrArg Coord.y (linearIndex_injective inside written same))
        rw [if_neg elsewhere, if_neg apart, if_neg row]
        rfl
    exact updated

end ScreenCore

namespace OutputCall

variable {call : OutputCall} {state : OutputState} {coord : Coord}

/-- Copying a cell inside of the buffer writes the cell that is read. -/
theorem copyCell_eq (invariant : call.Invariant state) {source : Coord} (target : Coord)
    (inside : source.Inside call.bufferSize) :
    copyCell state source target =
      state.update (state.buffer.writeCell target (state.buffer.cellAt source).character
        (state.buffer.cellAt source).attributes) := by
  rw [← invariant.size] at inside
  have stored := invariant.buffer.core.linearIndex_lt inside
  have read : state.buffer.readRun source 1 = [state.buffer.cellAt source] := by
    rw [ScreenCore.readRun, invariant.buffer.core.coordInRange_iff.mpr inside,
      if_pos (by decide), List.drop_eq_getElem_cons stored, List.take_succ_cons, List.take_zero,
      ScreenCore.cellAt, List.getD_eq_getElem _ _ stored]
  simp only [copyCell, ScreenCore.readOutputCharacters, ScreenCore.readOutputAttributes, read,
    List.map_cons, List.map_nil]

/-- Cells are copied along the cursor row in an order in which none is overwritten before it has
been copied. -/
theorem cellAt_shiftCells (invariant : call.Invariant state) {columns : List Int}
    {offset : Int}
    (inRow : ∀ column ∈ columns, (0 ≤ column ∧ column < call.bufferSize.x) ∧
      0 ≤ column + offset ∧ column + offset < call.bufferSize.x)
    (apart : columns.Pairwise fun earlier later => later + offset ≠ earlier)
    (inside : coord.Inside call.bufferSize) :
    state.Repaints (shiftCells state columns offset) ∧
      (shiftCells state columns offset).buffer.cellAt coord =
        if coord.y = state.regs.cursor.y ∧ coord.x ∈ columns then
          state.buffer.row coord.y (coord.x + offset)
        else state.buffer.cellAt coord := by
  induction columns generalizing state coord with
  | nil => exact ⟨.refl state, by simp [shiftCells]⟩
  | cons first later hypothesis =>
      have cursor := invariant.cursor
      have here := inRow first List.mem_cons_self
      have source : (⟨first + offset, state.regs.cursor.y⟩ : Coord).Inside call.bufferSize :=
        ⟨here.2.1, here.2.2, cursor.y_nonneg, cursor.y_lt⟩
      have target : (⟨first, state.regs.cursor.y⟩ : Coord).Inside call.bufferSize :=
        ⟨here.1.1, here.1.2, cursor.y_nonneg, cursor.y_lt⟩
      have copies := copyCell_eq invariant ⟨first, state.regs.cursor.y⟩ source
      have repaints : state.Repaints (copyCell state ⟨first + offset, state.regs.cursor.y⟩
          ⟨first, state.regs.cursor.y⟩) := .update (ScreenCore.writeCell_editsCells ..)
      have shown {place : Coord} (placeInside : place.Inside call.bufferSize) :
          (copyCell state ⟨first + offset, state.regs.cursor.y⟩
              ⟨first, state.regs.cursor.y⟩).buffer.cellAt place =
            if place = ⟨first, state.regs.cursor.y⟩ then
              state.buffer.row state.regs.cursor.y (first + offset)
            else state.buffer.cellAt place := by
        rw [← invariant.size] at target placeInside
        rw [copies]
        exact invariant.buffer.core.cellAt_writeCell target placeInside _ _
      rcases List.pairwise_cons.mp apart with ⟨apartFirst, apartLater⟩
      have rest := @hypothesis (copyCell state ⟨first + offset, state.regs.cursor.y⟩
        ⟨first, state.regs.cursor.y⟩) coord (repaints.invariant invariant)
        (fun column member => inRow column (List.mem_cons_of_mem first member)) apartLater inside
      refine ⟨repaints.trans rest.1, rest.2.trans ?_⟩
      rw [repaints.regs]
      by_cases row : coord.y = state.regs.cursor.y
      · by_cases copied : coord.x ∈ later
        · have fromInside := inRow coord.x (List.mem_cons_of_mem first copied)
          rw [if_pos ⟨row, copied⟩, if_pos ⟨row, List.mem_cons_of_mem first copied⟩,
            ScreenCore.row, @shown ⟨coord.x + offset, coord.y⟩ ⟨fromInside.2.1, fromInside.2.2,
              inside.y_nonneg, inside.y_lt⟩, if_neg]
          · rfl
          · intro same
            exact apartFirst coord.x copied (congrArg Coord.x same)
        · rw [if_neg fun moved => copied moved.2, shown inside]
          by_cases atFirst : coord.x = first
          · have same : coord = ⟨first, state.regs.cursor.y⟩ := by
              rw [← row, ← atFirst]
            rw [if_pos same, if_pos ⟨row, atFirst ▸ List.mem_cons_self⟩, row, atFirst]
          · rw [if_neg fun same => atFirst (congrArg Coord.x same), if_neg]
            rintro ⟨-, member⟩
            rcases List.mem_cons.mp member with same | member
            · exact atFirst same
            · exact copied member
      · have elsewhere : coord ≠ ⟨first, state.regs.cursor.y⟩ := by
          rintro rfl
          exact row rfl
        rw [if_neg fun moved => row moved.1, if_neg fun moved => row moved.1, shown inside,
          if_neg elsewhere]

/-- A run of cells of the cursor row is blanked. -/
theorem cellAt_eraseCells (invariant : call.Invariant state) {start : Int} {count : Nat}
    (inRow : 0 ≤ start ∧ start + count ≤ call.bufferSize.x)
    (inside : coord.Inside call.bufferSize) :
    state.Repaints (eraseCells state start count) ∧
      (eraseCells state start count).buffer.cellAt coord =
        if coord.y = state.regs.cursor.y ∧ start ≤ coord.x ∧ coord.x < start + count then
          ⟨0x20, state.regs.attributes⟩
        else state.buffer.cellAt coord := by
  induction count generalizing coord with
  | zero =>
      refine ⟨.refl state, ?_⟩
      rw [if_neg (by omega)]
      rfl
  | succ count hypothesis =>
      rcases hypothesis (by omega) inside with ⟨repaints, shown⟩
      have step : eraseCells state start (count + 1) =
          (eraseCells state start count).update
            ((eraseCells state start count).buffer.writeCell
              ⟨start + count, (eraseCells state start count).regs.cursor.y⟩ 0x20
              (eraseCells state start count).regs.attributes) := by
        simp [eraseCells, List.range_succ, List.foldl_append]
      rw [step, repaints.regs]
      refine ⟨repaints.trans (.update (ScreenCore.writeCell_editsCells ..)), ?_⟩
      have cursor := invariant.cursor
      have target : (⟨start + count, state.regs.cursor.y⟩ : Coord).Inside
          (eraseCells state start count).buffer.bufferSize := by
        rw [repaints.size, invariant.size]
        exact ⟨by simp only; omega, by simp only; omega, cursor.y_nonneg, cursor.y_lt⟩
      have placed : coord.Inside (eraseCells state start count).buffer.bufferSize := by
        rwa [repaints.size, invariant.size]
      have written := (repaints.invariant invariant).buffer.core.cellAt_writeCell target placed
        0x20 state.regs.attributes
      refine written.trans ?_
      rw [shown]
      by_cases row : coord.y = state.regs.cursor.y
      · by_cases last : coord.x = start + count
        · have same : coord = ⟨start + count, state.regs.cursor.y⟩ := by
            rw [← row, ← last]
          rw [if_pos same, if_pos ⟨row, by omega, by omega⟩]
        · rw [if_neg fun same => last (congrArg Coord.x same)]
          by_cases within : start ≤ coord.x ∧ coord.x < start + count
          · rw [if_pos ⟨row, within⟩, if_pos ⟨row, by omega, by omega⟩]
          · rw [if_neg (by omega), if_neg (by omega)]
      · have elsewhere : coord ≠ ⟨start + count, state.regs.cursor.y⟩ := by
          rintro rfl
          exact row rfl
        rw [if_neg elsewhere, if_neg fun there => row there.1, if_neg fun there => row there.1]

end OutputCall

namespace OutputCall

variable {call : OutputCall} {state : OutputState} {coord : Coord} {csi : VtCsiSequence}

/-- ICH, DCH and ECH work on the row of a cursor inside of the buffer. -/
theorem cursorInside_eq (invariant : call.Invariant state) : call.cursorInside state = true := by
  have cursor := invariant.cursor
  have wide := invariant.isSize.x_pos
  simp [cursorInside, wide, cursor.x_nonneg, cursor.x_lt, cursor.y_nonneg, cursor.y_lt]

theorem rowCount_eq (invariant : call.Invariant state) :
    (call.rowCount csi state : Int) =
      min (csi.positive 0 : Int) (call.bufferSize.x - state.regs.cursor.x) := by
  have xLt := invariant.cursor.x_lt
  rw [rowCount]
  omega

theorem positive_pos : 1 ≤ csi.positive 0 := by
  simp only [VtCsiSequence.positive]
  split <;> omega

/-- The row of the cursor from the cursor on. -/
def editedRow (call : OutputCall) (state : OutputState) (offset : Int) (column : Int) :
    ScreenCell :=
  Grid.shift state.regs.cursor.x (call.bufferSize.x - 1) offset ⟨0x20, state.regs.attributes⟩
    (state.buffer.row state.regs.cursor.y) column

/-- Columns from the last one down. -/
theorem descending_columns (last : Int) (count : Nat) {columns : List Int}
    (walked : columns = (List.range count).map fun step => last - step) :
    (∀ column, column ∈ columns ↔ last - count < column ∧ column ≤ last) ∧
      columns.Pairwise fun earlier later => later < earlier := by
  have plain : columns = (List.range count).map fun step : Nat => last - (step : Int) := by
    rw [walked]
    simp only [List.map_eq_flatMap, List.bind_eq_flatMap, List.pure_def, List.flatMap_assoc,
      List.flatMap_cons, List.flatMap_nil, List.append_nil]
  subst plain
  refine ⟨fun column => ?_, ?_⟩
  · rw [List.mem_map]
    constructor
    · rintro ⟨step, member, rfl⟩
      have := List.mem_range.mp member
      omega
    · rintro ⟨above, below⟩
      exact ⟨(last - column).toNat, List.mem_range.mpr (by omega), by omega⟩
  · rw [List.pairwise_map]
    exact List.pairwise_lt_range.imp fun {earlier later} before => by omega

/-- Columns from the first one up. -/
theorem ascending_columns (first : Int) (count : Nat) {columns : List Int}
    (walked : columns = (List.range count).map fun step => first + step) :
    (∀ column, column ∈ columns ↔ first ≤ column ∧ column < first + count) ∧
      columns.Pairwise fun earlier later => earlier < later := by
  have plain : columns = (List.range count).map fun step : Nat => first + (step : Int) := by
    rw [walked]
    simp only [List.map_eq_flatMap, List.bind_eq_flatMap, List.pure_def, List.flatMap_assoc,
      List.flatMap_cons, List.flatMap_nil, List.append_nil]
  subst plain
  refine ⟨fun column => ?_, ?_⟩
  · rw [List.mem_map]
    constructor
    · rintro ⟨step, member, rfl⟩
      have := List.mem_range.mp member
      omega
    · rintro ⟨above, below⟩
      exact ⟨(column - first).toNat, List.mem_range.mpr (by omega), by omega⟩
  · rw [List.pairwise_map]
    exact List.pairwise_lt_range.imp fun {earlier later} before => by omega

theorem insertCharacter_cells (invariant : call.Invariant state)
    (inside : coord.Inside call.bufferSize) :
    { state with regs.delayedWrap := none }.Repaints (call.insertCharacter csi state) ∧
      (call.insertCharacter csi state).buffer.cellAt coord =
        if coord.y = state.regs.cursor.y then
          call.editedRow state (-(csi.positive 0 : Int)) coord.x
        else state.buffer.cellAt coord := by
  have xNonneg := invariant.cursor.x_nonneg
  have xLt := invariant.cursor.x_lt
  have counted := @rowCount_eq call state csi invariant
  have positive := @positive_pos csi
  have walked := @descending_columns (call.bufferSize.x - 1)
    (call.bufferSize.x - (state.regs.cursor.x + call.rowCount csi state)).toNat _ rfl
  simp only [insertCharacter, cursorInside_eq invariant, if_true]
  generalize (List.range (call.bufferSize.x -
    (state.regs.cursor.x + call.rowCount csi state)).toNat).map (fun step =>
      call.bufferSize.x - 1 - step) = columns at walked ⊢
  generalize call.rowCount csi state = count at counted walked ⊢
  rcases walked with ⟨member, falling⟩
  have inRow : ∀ column ∈ columns, (0 ≤ column ∧ column < call.bufferSize.x) ∧
      0 ≤ column + -(count : Int) ∧ column + -(count : Int) < call.bufferSize.x := by
    intro column among
    have bounds := (member column).mp among
    omega
  rcases cellAt_shiftCells invariant inRow (falling.imp fun before => by omega) inside with
    ⟨shifted, moved⟩
  rcases @cellAt_eraseCells _ _ _ (shifted.invariant invariant) state.regs.cursor.x count
    (by omega) inside with ⟨erased, blank⟩
  refine ⟨(shifted.trans erased).mapRegs ({ · with delayedWrap := none }), blank.trans ?_⟩
  rw [shifted.regs, moved, editedRow]
  by_cases row : coord.y = state.regs.cursor.y
  · by_cases blanked : state.regs.cursor.x ≤ coord.x ∧ coord.x < state.regs.cursor.x + count
    · rw [if_pos ⟨row, blanked⟩, if_pos row, Grid.shift_blank (by omega) (by omega)]
    · rw [if_neg fun there => blanked there.2, if_pos row]
      by_cases kept : coord.x ∈ columns
      · have bounds := (member coord.x).mp kept
        have whole : (csi.positive 0 : Int) = count := by omega
        rw [if_pos ⟨row, kept⟩, whole, Grid.shift_moved (by omega) (by omega), row]
      · have outside := mt (member coord.x).mpr kept
        have xLast := inside.x_lt
        rw [if_neg fun there => kept there.2, Grid.shift_outside (by omega), ← row]
        rfl
  · rw [if_neg fun there => row there.1, if_neg fun there => row there.1, if_neg row]

theorem deleteCharacter_cells (invariant : call.Invariant state)
    (inside : coord.Inside call.bufferSize) :
    { state with regs.delayedWrap := none }.Repaints (call.deleteCharacter csi state) ∧
      (call.deleteCharacter csi state).buffer.cellAt coord =
        if coord.y = state.regs.cursor.y then
          call.editedRow state (csi.positive 0 : Int) coord.x
        else state.buffer.cellAt coord := by
  have xNonneg := invariant.cursor.x_nonneg
  have xLt := invariant.cursor.x_lt
  have counted := @rowCount_eq call state csi invariant
  have positive := @positive_pos csi
  have walked := @ascending_columns state.regs.cursor.x
    (call.bufferSize.x - call.rowCount csi state - state.regs.cursor.x).toNat _ rfl
  simp only [deleteCharacter, cursorInside_eq invariant, if_true]
  generalize (List.range (call.bufferSize.x - call.rowCount csi state -
    state.regs.cursor.x).toNat).map (fun step => state.regs.cursor.x + step) = columns at walked ⊢
  generalize call.rowCount csi state = count at counted walked ⊢
  rcases walked with ⟨member, rising⟩
  have inRow : ∀ column ∈ columns, (0 ≤ column ∧ column < call.bufferSize.x) ∧
      0 ≤ column + (count : Int) ∧ column + (count : Int) < call.bufferSize.x := by
    intro column among
    have bounds := (member column).mp among
    omega
  rcases cellAt_shiftCells invariant inRow (rising.imp fun before => by omega) inside with
    ⟨shifted, moved⟩
  rcases @cellAt_eraseCells _ _ _ (shifted.invariant invariant) (call.bufferSize.x - count) count
    (by omega) inside with ⟨erased, blank⟩
  refine ⟨(shifted.trans erased).mapRegs ({ · with delayedWrap := none }), blank.trans ?_⟩
  rw [shifted.regs, moved, editedRow]
  have xLast := inside.x_lt
  by_cases row : coord.y = state.regs.cursor.y
  · by_cases blanked : call.bufferSize.x - count ≤ coord.x
    · rw [if_pos ⟨row, blanked, by omega⟩, if_pos row, Grid.shift_blank (by omega) (by omega)]
    · rw [if_neg fun there => blanked there.2.1, if_pos row]
      by_cases kept : coord.x ∈ columns
      · have bounds := (member coord.x).mp kept
        have whole : (csi.positive 0 : Int) = count := by omega
        rw [if_pos ⟨row, kept⟩, whole, Grid.shift_moved (by omega) (by omega), row]
      · have outside := mt (member coord.x).mpr kept
        rw [if_neg fun there => kept there.2, Grid.shift_outside (by omega), ← row]
        rfl
  · rw [if_neg fun there => row there.1, if_neg fun there => row there.1, if_neg row]

theorem eraseCharacter_cells (invariant : call.Invariant state)
    (inside : coord.Inside call.bufferSize) :
    { state with regs.delayedWrap := none }.Repaints (call.eraseCharacter csi state) ∧
      (call.eraseCharacter csi state).buffer.cellAt coord =
        if coord.y = state.regs.cursor.y ∧ state.regs.cursor.x ≤ coord.x ∧
            coord.x < state.regs.cursor.x + csi.positive 0 then
          ⟨0x20, state.regs.attributes⟩
        else state.buffer.cellAt coord := by
  have xNonneg := invariant.cursor.x_nonneg
  have xLt := invariant.cursor.x_lt
  have xLast := inside.x_lt
  have counted := @rowCount_eq call state csi invariant
  rcases @cellAt_eraseCells _ _ _ invariant state.regs.cursor.x (call.rowCount csi state)
    (by omega) inside with ⟨erased, blank⟩
  simp only [eraseCharacter, cursorInside_eq invariant, if_true]
  refine ⟨erased.mapRegs ({ · with delayedWrap := none }), blank.trans (if_congr ?_ rfl rfl)⟩
  omega

/-- Where insert mode differs from replace mode. -/
def inMode (state : OutputState) (insert : Bool) : OutputState :=
  { state with regs.insertMode := insert }

/-- The cell written in insert mode is the one written in replace mode after ICH. -/
theorem storePrintable_insert (invariant : call.Invariant state)
    (vt : call.mode.vtProcessing = true) (noWrap : state.regs.delayedWrap = none)
    (once : csi.positive 0 = 1) (value : WChar) :
    (call.storePrintable (inMode state true) value).screen =
      (inMode (call.storePrintable (inMode (call.insertCharacter csi state) false) value)
        true).screen := by
  have cleared : { state with regs.delayedWrap := none } = state := by
    rw [← noWrap]
  have cursor := invariant.cursor
  have inserted := (@insertCharacter_cells call state state.regs.cursor csi invariant cursor).1
  rw [cleared] at inserted
  have insertedInvariant := inserted.invariant invariant
  have inMode_invariant : call.Invariant (inMode state true) := invariant.setRegs cursor
  have replaced : state.Repaints ((call.insertCharacter csi state).update
      ((call.insertCharacter csi state).buffer.writeCell state.regs.cursor value
        state.regs.attributes)) := inserted.trans (.update (ScreenCore.writeCell_editsCells ..))
  have written : inMode (call.storePrintable (inMode (call.insertCharacter csi state) false) value)
        true =
      inMode ((call.insertCharacter csi state).update
        ((call.insertCharacter csi state).buffer.writeCell state.regs.cursor value
          state.regs.attributes)) true := by
    rw [← inserted.regs]
    simp [storePrintable, inMode, OutputState.update]
  have stored : call.storePrintable (inMode state true) value =
      (inMode state true).update (state.buffer.insertCell state.regs.cursor value
        state.regs.attributes) := by
    simp [storePrintable, inMode, vt]
  have repainted := replaced.mapRegs ({ · with insertMode := true })
  rw [written, stored]
  refine OutputState.Repaints.screen_eq inMode_invariant
    (.update (ScreenCore.insertCell_editsCells invariant.buffer.core ..)) repainted
    fun coord inside => ?_
  have placed : coord.Inside (call.insertCharacter csi state).buffer.bufferSize := by
    rwa [insertedInvariant.size]
  have inserts := (@insertCharacter_cells call state coord csi invariant inside).2
  have overwrites := insertedInvariant.buffer.core.cellAt_writeCell
    (by rwa [insertedInvariant.size] : state.regs.cursor.Inside _) placed value
    state.regs.attributes
  rw [← invariant.size] at cursor inside
  have shifts := invariant.buffer.core.cellAt_insertCell cursor inside value state.regs.attributes
  refine shifts.trans (Eq.trans ?_ overwrites.symm)
  rw [inserts, once, editedRow, invariant.size]
  by_cases row : coord.y = state.regs.cursor.y
  · by_cases here : coord.x = state.regs.cursor.x
    · have same : coord = state.regs.cursor := by
        cases coord
        rw [Coord.mk.injEq]
        exact ⟨here, row⟩
      have last := cursor.x_lt
      rw [invariant.size] at last
      rw [if_pos row, if_pos same, Grid.shift_blank (by omega) (by omega)]
    · rw [if_pos row, if_neg fun same => here (congrArg Coord.x same), if_pos row]
      exact Grid.shift_blank_congr (by omega)
  · rw [if_neg row, if_neg fun same => row (congrArg Coord.y same), if_neg row]

theorem advanceVt_screen : (call.advanceVt state).screen = call.advanceVt state.screen :=
  apply_ite OutputState.screen (toShort (call.bufferSize.x - 1) ≤ state.regs.cursor.x) _ _

theorem advanceVt_inMode (insert : Bool) :
    inMode (call.advanceVt state) insert = call.advanceVt (inMode state insert) :=
  apply_ite (inMode · insert) (toShort (call.bufferSize.x - 1) ≤ state.regs.cursor.x) _ _

/-- In insert mode a character goes where ICH has made room for it. -/
theorem writePrintable_insert (invariant : call.Invariant state)
    (vt : call.mode.vtProcessing = true) (noWrap : state.regs.delayedWrap = none)
    (once : csi.positive 0 = 1) (value : WChar) :
    (call.writePrintable (inMode state true) value).screen =
      (inMode (call.writePrintable (inMode (call.insertCharacter csi state) false) value)
        true).screen := by
  have writes {state : OutputState} (noWrap : state.regs.delayedWrap = none) :
      call.writePrintable state value = call.advanceVt (call.storePrintable state value) := by
    simp only [writePrintable, maybeApplyDelayedWrap, vt, noWrap, if_true]
  rw [writes (by exact noWrap), writes rfl, advanceVt_inMode, advanceVt_screen, advanceVt_screen,
    storePrintable_insert invariant vt noWrap once]

/-- What ICH, DCH and ECH do to the cells of a screen, and that insert mode is ICH and replace
mode. -/
structure RowEditLaws (call : OutputCall) (state : OutputState) : Prop where
  inserts : ∀ csi : VtCsiSequence, csi.function = .insertCharacter →
    ∀ coord : Coord, coord.Inside call.bufferSize →
      (call.applyCsi csi state).buffer.cellAt coord =
        if coord.y = state.regs.cursor.y then
          Grid.shift state.regs.cursor.x (call.bufferSize.x - 1) (-(csi.positive 0 : Int))
            ⟨0x20, state.regs.attributes⟩ (state.buffer.row state.regs.cursor.y) coord.x
        else state.buffer.cellAt coord
  deletes : ∀ csi : VtCsiSequence, csi.function = .deleteCharacter →
    ∀ coord : Coord, coord.Inside call.bufferSize →
      (call.applyCsi csi state).buffer.cellAt coord =
        if coord.y = state.regs.cursor.y then
          Grid.shift state.regs.cursor.x (call.bufferSize.x - 1) (csi.positive 0)
            ⟨0x20, state.regs.attributes⟩ (state.buffer.row state.regs.cursor.y) coord.x
        else state.buffer.cellAt coord
  erases : ∀ csi : VtCsiSequence, csi.function = .eraseCharacter →
    ∀ coord : Coord, coord.Inside call.bufferSize →
      (call.applyCsi csi state).buffer.cellAt coord =
        if coord.y = state.regs.cursor.y ∧ state.regs.cursor.x ≤ coord.x ∧
            coord.x < state.regs.cursor.x + csi.positive 0 then
          ⟨0x20, state.regs.attributes⟩
        else state.buffer.cellAt coord
  changes : ∀ csi : VtCsiSequence, csi.function = .insertCharacter ∨
      csi.function = .deleteCharacter ∨ csi.function = .eraseCharacter →
    { state with regs.delayedWrap := none }.Repaints (call.applyCsi csi state)
  restores : ∀ insert delete : VtCsiSequence, insert.function = .insertCharacter →
    delete.function = .deleteCharacter → delete.positive 0 = insert.positive 0 →
    ∀ coord : Coord, coord.Inside call.bufferSize →
      coord.y = state.regs.cursor.y → coord.x < call.bufferSize.x - insert.positive 0 →
      (call.applyCsi delete (call.applyCsi insert state)).buffer.cellAt coord =
        state.buffer.cellAt coord
  insertMode : ∀ insert : VtCsiSequence, insert.function = .insertCharacter →
    insert.positive 0 = 1 → call.mode.vtProcessing = true → state.regs.delayedWrap = none →
    ∀ value : WChar,
      (call.writePrintable (inMode state true) value).screen =
        (inMode (call.writePrintable (inMode (call.applyCsi insert state) false) value)
          true).screen

/-- The laws hold for every screen, every position of the cursor and every count. -/
theorem rowEditLaws (invariant : call.Invariant state) : RowEditLaws call state := by
  have insert {csi : VtCsiSequence} (function : csi.function = .insertCharacter)
      (state : OutputState) : call.applyCsi csi state = call.insertCharacter csi state := by
    rw [applyCsi, function]
  have delete {csi : VtCsiSequence} (function : csi.function = .deleteCharacter)
      (state : OutputState) : call.applyCsi csi state = call.deleteCharacter csi state := by
    rw [applyCsi, function]
  have erase {csi : VtCsiSequence} (function : csi.function = .eraseCharacter)
      (state : OutputState) : call.applyCsi csi state = call.eraseCharacter csi state := by
    rw [applyCsi, function]
  constructor
  case inserts =>
    intro csi function coord inside
    rw [insert function]
    exact (insertCharacter_cells invariant inside).2
  case deletes =>
    intro csi function coord inside
    rw [delete function]
    exact (deleteCharacter_cells invariant inside).2
  case erases =>
    intro csi function coord inside
    rw [erase function]
    exact (eraseCharacter_cells invariant inside).2
  case changes =>
    rintro csi (function | function | function)
    · rw [insert function]
      exact (insertCharacter_cells invariant invariant.cursor).1
    · rw [delete function]
      exact (deleteCharacter_cells invariant invariant.cursor).1
    · rw [erase function]
      exact (eraseCharacter_cells invariant invariant.cursor).1
  case restores =>
    intro first second inserting deleting counts coord inside row kept
    rw [insert inserting, delete deleting]
    have inserted := @insertCharacter_cells call state state.regs.cursor first invariant
      invariant.cursor
    have cleared : call.Invariant { state with regs.delayedWrap := none } :=
      invariant.setRegs invariant.cursor
    have cursorKept : (call.insertCharacter first state).regs.cursor = state.regs.cursor := by
      rw [inserted.1.regs]
    have attributesKept :
        (call.insertCharacter first state).regs.attributes = state.regs.attributes := by
      rw [inserted.1.regs]
    have between := inserted.1.invariant cleared
    have cursor := invariant.cursor
    rw [(deleteCharacter_cells between inside).2, cursorKept, if_pos row, editedRow, cursorKept,
      attributesKept, counts]
    have sameRow (column : Int) (columnInside : 0 ≤ column ∧ column < call.bufferSize.x) :
        (call.insertCharacter first state).buffer.row state.regs.cursor.y column =
          call.editedRow state (-(first.positive 0 : Int)) column := by
      have placed : (⟨column, state.regs.cursor.y⟩ : Coord).Inside call.bufferSize :=
        ⟨columnInside.1, columnInside.2, cursor.y_nonneg, cursor.y_lt⟩
      exact (insertCharacter_cells invariant placed).2.trans (if_pos rfl)
    have xNonneg := cursor.x_nonneg
    have xFirst := inside.x_nonneg
    have xLast := inside.x_lt
    rw [@Grid.shift_congr _ _ _ _ _ _ _ (call.editedRow state (-(first.positive 0 : Int)))
      fun column among => sameRow column (by omega)]
    have here : state.buffer.row state.regs.cursor.y coord.x = state.buffer.cellAt coord := by
      rw [← row]
      rfl
    rw [← here]
    by_cases after : state.regs.cursor.x ≤ coord.x
    · exact Grid.shift_back (by omega) (by omega) (by omega)
    · rw [Grid.shift_outside (by omega), editedRow, Grid.shift_outside (by omega)]
  case insertMode =>
    intro csi function once vt noWrap value
    rw [insert function]
    exact writePrintable_insert invariant vt noWrap once value

theorem rowEditLaws_twoCells :
    RowEditLaws (twoCells.outputCall ⟨7⟩ false) (twoCells.outputState ⟨7⟩ none) :=
  rowEditLaws (twoCells_wellFormed.outputState ..)

end OutputCall

end Conhost
