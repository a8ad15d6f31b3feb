import Conhost.Lib.Grid
import Conhost.Screen.OutputInvariant

/-!
# The cells of a screen buffer

A buffer is looked at as a map from coordinates to cells. Each operation that writes cells is
described by what it leaves at every coordinate, and a change of cells alone is determined by
that description.
-/

namespace Conhost

/-- The cell at a coordinate of a grid that is stored row by row. -/
def gridCell (cells : List ScreenCell) (size coord : Coord) : ScreenCell :=
  cells.getD (coord.y.toNat * size.x.toNat + coord.x.toNat) {}

theorem gridCell_of_getElem? {cells : List ScreenCell} {size coord : Coord} {cell : ScreenCell}
    (stored : cells[coord.y.toNat * size.x.toNat + coord.x.toNat]? = some cell) :
    gridCell cells size coord = cell := by
  rw [gridCell, List.getD_eq_getElem?_getD, stored, Option.getD_some]

namespace Coord

variable {coord other size : Coord}

theorem Inside.place_lt (inside : coord.Inside size) :
    coord.y.toNat * size.x.toNat + coord.x.toNat < size.x.toNat * size.y.toNat := by
  rcases inside with ⟨_, _, _, _⟩
  exact Grid.place_lt (by omega) (by omega)

theorem Inside.place_injective (inside : coord.Inside size) (otherInside : other.Inside size)
    (same : coord.y.toNat * size.x.toNat + coord.x.toNat =
      other.y.toNat * size.x.toNat + other.x.toNat) : coord = other := by
  rcases inside with ⟨left, right, above, below⟩
  rcases otherInside with ⟨otherLeft, otherRight, otherAbove, otherBelow⟩
  rcases Grid.place_injective (by omega) (by omega) same with ⟨rows, columns⟩
  cases coord
  cases other
  simp only [Coord.mk.injEq] at *
  omega

/-- Every place of a grid is that of a coordinate. -/
theorem exists_place {place : Nat} (inside : place < size.x.toNat * size.y.toNat) :
    ∃ coord : Coord, coord.Inside size ∧
      coord.y.toNat * size.x.toNat + coord.x.toNat = place := by
  have wide : 0 < size.x.toNat := by
    by_contra none
    rw [Nat.eq_zero_of_not_pos none, Nat.zero_mul] at inside
    exact Nat.not_lt_zero place inside
  have column := Nat.mod_lt place wide
  have row : place / size.x.toNat < size.y.toNat := Nat.div_lt_of_lt_mul inside
  have split := Nat.div_add_mod' place size.x.toNat
  generalize place % size.x.toNat = offset at column split
  generalize place / size.x.toNat = line at row split
  refine ⟨⟨offset, line⟩, ⟨?_, ?_, ?_, ?_⟩, ?_⟩
  · exact Int.natCast_nonneg offset
  · simp only
    omega
  · exact Int.natCast_nonneg line
  · simp only
    omega
  · simp only [Int.toNat_natCast]
    exact split

end Coord

namespace ScreenCore

/-- The cell at a coordinate of the buffer. -/
def cellAt (core : ScreenCore) (coord : Coord) : ScreenCell :=
  core.cells.getD (core.linearIndex coord) {}

/-- The cells of a column, by their rows. -/
def column (core : ScreenCore) (column row : Int) : ScreenCell := core.cellAt ⟨column, row⟩

variable {core : ScreenCore} {coord other origin : Coord}

theorem WellFormed.linearIndex_lt (valid : core.WellFormed)
    (inside : coord.Inside core.bufferSize) :
    core.linearIndex coord < core.cells.length := by
  rw [valid.cells]
  exact inside.place_lt

theorem linearIndex_injective (inside : coord.Inside core.bufferSize)
    (otherInside : other.Inside core.bufferSize)
    (same : core.linearIndex coord = core.linearIndex other) : coord = other :=
  inside.place_injective otherInside same

theorem WellFormed.cells_nonempty (valid : core.WellFormed) : core.cells.isEmpty = false := by
  have xPos := valid.size.x_pos
  have yPos := valid.size.y_pos
  apply List.isEmpty_eq_false_iff.mpr
  apply List.ne_nil_of_length_pos
  rw [valid.cells]
  exact Nat.mul_pos (by omega) (by omega)

theorem WellFormed.coordInRange_iff (valid : core.WellFormed) :
    core.coordInRange coord = true ↔ coord.Inside core.bufferSize := by
  refine ⟨inside_of_coordInRange, fun inside => ?_⟩
  have xPos := valid.size.x_pos
  have yPos := valid.size.y_pos
  simp [coordInRange, valid.cells_nonempty, xPos, yPos, inside.x_nonneg, inside.x_lt,
    inside.y_nonneg,
    inside.y_lt]

theorem WellFormed.getElem?_linearIndex (valid : core.WellFormed)
    (inside : coord.Inside core.bufferSize) :
    core.cells[core.linearIndex coord]? = some (core.cellAt coord) := by
  rw [cellAt, List.getD_eq_getElem _ _ (valid.linearIndex_lt inside),
    List.getElem?_eq_getElem (valid.linearIndex_lt inside)]

theorem linearIndex_congr {changed : ScreenCore} (size : changed.bufferSize = core.bufferSize)
    (coord : Coord) : changed.linearIndex coord = core.linearIndex coord := by
  rw [linearIndex, linearIndex, size]

/-- Every cell is stored for some coordinate. -/
theorem WellFormed.exists_linearIndex (valid : core.WellFormed) {place : Nat}
    (inside : place < core.cells.length) :
    ∃ coord : Coord, coord.Inside core.bufferSize ∧ core.linearIndex coord = place := by
  rw [valid.cells] at inside
  exact Coord.exists_place inside

/-- Two grids of one size with the same cells at every coordinate are the same. -/
theorem WellFormed.cells_eq (valid : core.WellFormed) {changed : ScreenCore}
    (size : changed.bufferSize = core.bufferSize)
    (lengths : changed.cells.length = core.cells.length)
    (same : ∀ coord : Coord, coord.Inside core.bufferSize →
      changed.cellAt coord = core.cellAt coord) :
    changed.cells = core.cells := by
  apply List.ext_getElem lengths
  intro place changedInside inside
  rcases valid.exists_linearIndex inside with ⟨coord, coordInside, rfl⟩
  have here := same coord coordInside
  rwa [cellAt, cellAt, linearIndex_congr size, List.getD_eq_getElem _ _ changedInside,
    List.getD_eq_getElem _ _ inside] at here

theorem WellFormed.cellAt_writeCell (valid : core.WellFormed)
    (written : origin.Inside core.bufferSize)
    (inside : coord.Inside core.bufferSize) (character : WChar) (attributes : Attributes) :
    (core.writeCell origin character attributes).core.cellAt coord =
      if coord = origin then ⟨character, attributes⟩ else core.cellAt coord := by
  rw [writeCell, if_pos (valid.coordInRange_iff.mpr written)]
  change (core.cells.set (core.linearIndex origin) _).getD (core.linearIndex coord) {} = _
  rw [List.getD_eq_getElem?_getD]
  by_cases here : coord = origin
  · subst here
    rw [if_pos rfl, List.getElem?_set_self (valid.linearIndex_lt inside), Option.getD_some]
  · rw [if_neg here, List.getElem?_set_ne fun same =>
      here (linearIndex_injective inside written same.symm), valid.getElem?_linearIndex inside,
      Option.getD_some]

theorem WellFormed.cellAt_updateRun_steps (valid : core.WellFormed)
    (started : origin.Inside core.bufferSize) (inside : coord.Inside core.bufferSize) (count : Nat)
    (change : Nat → ScreenCell → ScreenCell) :
    (core.updateRun origin count change).core.cellAt coord =
      if core.linearIndex origin ≤ core.linearIndex coord ∧
          core.linearIndex coord < core.linearIndex origin + count then
        change (core.linearIndex coord - core.linearIndex origin) (core.cellAt coord)
      else core.cellAt coord := by
  have place := valid.linearIndex_lt inside
  have first := valid.linearIndex_lt started
  rw [updateRun, valid.coordInRange_iff.mpr started, Bool.true_and]
  by_cases none : count = 0
  · rw [if_neg (by simp [none]), if_neg (by omega)]
    rfl
  · rw [if_pos (by simp [none])]
    change ((List.range (min count (core.cells.length - core.linearIndex origin))).foldl
      (fun cells step => cells.modify (core.linearIndex origin + step) (change step))
        core.cells).getD (core.linearIndex coord) {} = _
    rw [List.getD_eq_getElem?_getD, Grid.getElem?_foldl_modify, valid.getElem?_linearIndex inside]
    by_cases within : core.linearIndex origin ≤ core.linearIndex coord ∧
        core.linearIndex coord < core.linearIndex origin + count
    · rw [if_pos (by omega), if_pos within]
      rfl
    · rw [if_neg (by omega), if_neg within]
      rfl

theorem WellFormed.cellAt_updateRun (valid : core.WellFormed)
    (started : origin.Inside core.bufferSize) (inside : coord.Inside core.bufferSize) (count : Nat)
    (change : ScreenCell → ScreenCell) :
    (core.updateRun origin count fun _ => change).core.cellAt coord =
      if core.linearIndex origin ≤ core.linearIndex coord ∧
          core.linearIndex coord < core.linearIndex origin + count then
        change (core.cellAt coord)
      else core.cellAt coord :=
  valid.cellAt_updateRun_steps started inside count fun _ => change

end ScreenCore

/-- The invariant does not depend on what the cells show. -/
theorem ScreenBuffer.WellFormed.withCells {buffer : ScreenBuffer} (valid : buffer.WellFormed)
    {cells : List ScreenCell} (length : cells.length = buffer.cells.length) (revision : Nat) :
    ({ buffer with cells := cells, revision := revision } : ScreenBuffer).WellFormed :=
  ⟨⟨valid.core.size, length.trans valid.core.cells, valid.core.margins, valid.core.backup,
    valid.core.asserted⟩, valid.cursor, valid.window⟩

namespace OutputState

variable {state : OutputState} {coord origin : Coord}

theorem cellAt_fill (valid : state.buffer.toScreenCore.WellFormed)
    (started : origin.Inside state.buffer.bufferSize)
    (inside : coord.Inside state.buffer.bufferSize) (character : WChar) (attributes : Attributes)
    (length : Nat) :
    (state.fill origin character attributes length).buffer.cellAt coord =
      if state.buffer.linearIndex origin ≤ state.buffer.linearIndex coord ∧
          state.buffer.linearIndex coord < state.buffer.linearIndex origin + length then
        ⟨character, attributes⟩
      else state.buffer.cellAt coord := by
  have edits := @ScreenCore.updateRun_editsCells state.buffer.toScreenCore origin length
    (fun _ cell => { cell with character := character })
  have still := valid.of_editsCells edits
  have size : (state.buffer.updateRun origin length fun _ cell =>
      { cell with character := character }).core.bufferSize = state.buffer.bufferSize := by
    rcases edits with ⟨cells, updated, -⟩
    rw [updated]
  have first := valid.cellAt_updateRun started inside length
    (fun cell => { cell with character := character })
  rw [← size] at started inside
  have second := still.cellAt_updateRun started inside length
    (fun cell => { cell with attributes := attributes })
  refine Eq.trans second ?_
  rw [ScreenCore.linearIndex_congr size, ScreenCore.linearIndex_congr size, first]
  split <;> rfl

/-- Only cells have changed, and the count of changes. -/
def Repaints (before after : OutputState) : Prop :=
  ∃ cells revision, cells.length = before.buffer.cells.length ∧
    after = { before with buffer.cells := cells, buffer.revision := revision }

/-- A state without the count of its changes. -/
def screen (state : OutputState) : OutputState := { state with buffer.revision := 0 }

namespace Repaints

variable {call : OutputCall} {before middle after other : OutputState}

theorem refl (state : OutputState) : state.Repaints state := ⟨_, _, rfl, rfl⟩

theorem trans (first : before.Repaints middle) (second : middle.Repaints after) :
    before.Repaints after := by
  rcases first with ⟨cells, revision, length, rfl⟩
  rcases second with ⟨repainted, later, sameLength, rfl⟩
  exact ⟨repainted, later, sameLength.trans length, rfl⟩

theorem update {α : Type} {update : CoreUpdate α}
    (edits : update.EditsCells before.buffer.toScreenCore) :
    before.Repaints (before.update update) := by
  rcases edits with ⟨cells, updated, length⟩
  refine ⟨cells, if update.touched then before.buffer.revision + 1 else before.buffer.revision,
    length, ?_⟩
  rw [OutputState.update, ScreenBuffer.update, updated]

theorem fill (origin : Coord) (character : WChar) (attributes : Attributes) (length : Nat) :
    before.Repaints (before.fill origin character attributes length) :=
  (update (ScreenCore.updateRun_editsCells ..)).trans (update (ScreenCore.updateRun_editsCells ..))

theorem mapRegs (repaints : before.Repaints after) (change : VtRegisters → VtRegisters) :
    { before with regs := change before.regs }.Repaints
      { after with regs := change after.regs } := by
  rcases repaints with ⟨cells, revision, length, rfl⟩
  exact ⟨cells, revision, length, rfl⟩

theorem regs (repaints : before.Repaints after) : after.regs = before.regs := by
  rcases repaints with ⟨_, _, _, rfl⟩
  rfl

theorem margins (repaints : before.Repaints after) : after.margins = before.margins := by
  rcases repaints with ⟨_, _, _, rfl⟩
  rfl

theorem size (repaints : before.Repaints after) :
    after.buffer.bufferSize = before.buffer.bufferSize := by
  rcases repaints with ⟨_, _, _, rfl⟩
  rfl

theorem invariant (repaints : before.Repaints after) (invariant : call.Invariant before) :
    call.Invariant after := by
  rcases repaints with ⟨cells, revision, length, rfl⟩
  exact ⟨invariant.buffer.withCells length revision, invariant.size, invariant.margins,
    invariant.cursor⟩

/-- Two repaintings of a screen with the same cells are the same. -/
theorem screen_eq (invariant : call.Invariant before) (repaints : before.Repaints after)
    (otherwise : before.Repaints other)
    (same : ∀ coord : Coord, coord.Inside call.bufferSize →
      after.buffer.cellAt coord = other.buffer.cellAt coord) :
    after.screen = other.screen := by
  have otherValid := otherwise.invariant invariant
  have cells := otherValid.buffer.core.cells_eq
    (repaints.size.trans otherwise.size.symm)
    ((repaints.invariant invariant).buffer.core.cells.trans
      (by rw [otherValid.buffer.core.cells, repaints.size, otherwise.size]))
    (by rwa [otherValid.size])
  rcases repaints with ⟨painted, _, _, rfl⟩
  rcases otherwise with ⟨otherPainted, _, _, rfl⟩
  simp only at cells
  simp only [screen, cells]

end Repaints

end OutputState

end Conhost
