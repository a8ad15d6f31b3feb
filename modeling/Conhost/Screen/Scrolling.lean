import Conhost.Screen.Cells

/-!
# Scrolling a rectangle

`scroll_screen_buffer` saves a rectangle, blanks it and writes the saved cells back at
another place. The cells it leaves are described one by one, for every overlap of the two
places and every part of the destination that is outside of the buffer or the clip rectangle.
-/

namespace Conhost

/-- The coordinate that a translation of the rectangle to `destination` takes to `coord`. -/
def SmallRect.sourceOf (rect : SmallRect) (destination coord : Coord) : Coord :=
  ⟨coord.x - (destination.x - rect.left), coord.y - (destination.y - rect.top)⟩

theorem SmallRect.mem_coords {rect : SmallRect} {coord : Coord} :
    coord ∈ rect.coords ↔ rect.Contains coord := by
  have walked : coord ∈ rect.coords ↔ ∃ row : Nat, (row : Int) < rect.bottom - rect.top + 1 ∧
      ∃ column : Nat, (column : Int) < rect.right - rect.left + 1 ∧
        (⟨rect.left + column, rect.top + row⟩ : Coord) = coord := by
    simp [coords]
  rw [walked]
  constructor
  · rintro ⟨row, rowInside, column, columnInside, rfl⟩
    simp only [Contains]
    omega
  · rintro ⟨left, right, top, bottom⟩
    refine ⟨(coord.y - rect.top).toNat, by omega, (coord.x - rect.left).toNat, by omega, ?_⟩
    rw [Int.toNat_of_nonneg (by omega), Int.toNat_of_nonneg (by omega)]
    cases coord
    simp

theorem SmallRect.inside_of_contains {rect : SmallRect} {coord size : Coord}
    (corner : (⟨rect.left, rect.top⟩ : Coord).Inside size)
    (opposite : (⟨rect.right, rect.bottom⟩ : Coord).Inside size) (contains : rect.Contains coord) :
    coord.Inside size := by
  rcases corner with ⟨leftNonneg, -, topNonneg, -⟩
  rcases opposite with ⟨-, rightLt, -, bottomLt⟩
  rcases contains with ⟨left, right, top, bottom⟩
  exact ⟨leftNonneg.trans left, right.trans_lt rightLt, topNonneg.trans top,
    bottom.trans_lt bottomLt⟩

namespace ScreenCore

/-- What a scroll leaves at a coordinate: the cell that comes to it, the fill cell where
cells have only gone, or what was there. -/
def scrolledCell (core : ScreenCore) (scroll clip : SmallRect) (destination : Coord)
    (fill : ScreenCell) (coord : Coord) : ScreenCell :=
  if scroll.Contains (scroll.sourceOf destination coord) ∧ clip.Contains coord then
    core.cellAt (scroll.sourceOf destination coord)
  else if scroll.Contains coord ∧ clip.Contains coord then fill
  else core.cellAt coord

variable {core : ScreenCore} {scroll clip : SmallRect} {destination coord other : Coord}
  {fill : ScreenCell}

/-- The second loop writes each saved cell where the translation takes it. -/
theorem getElem?_scrollCopy (valid : core.WellFormed) (inside : coord.Inside core.bufferSize)
    {cells : List ScreenCell} (sameLength : cells.length = core.cells.length) :
    (core.scrollCopy scroll clip destination cells)[core.linearIndex coord]? =
      if scroll.Contains (scroll.sourceOf destination coord) ∧ clip.Contains coord then
        some (core.cellAt (scroll.sourceOf destination coord))
      else cells[core.linearIndex coord]? := by
  have targetOf {item : Coord} (bounds : 0 ≤ item.x + (destination.x - scroll.left) ∧
      0 ≤ item.y + (destination.y - scroll.top) ∧
      item.x + (destination.x - scroll.left) ≤ core.bufferSize.x - 1 ∧
      item.y + (destination.y - scroll.top) ≤ core.bufferSize.y - 1)
      (same : core.linearIndex ⟨item.x + (destination.x - scroll.left),
        item.y + (destination.y - scroll.top)⟩ = core.linearIndex coord) :
      item = scroll.sourceOf destination coord ∧
        coord = ⟨item.x + (destination.x - scroll.left),
          item.y + (destination.y - scroll.top)⟩ := by
    rcases bounds with ⟨left, top, right, bottom⟩
    have here := linearIndex_injective ⟨left, Int.lt_of_le_sub_one right, top,
      Int.lt_of_le_sub_one bottom⟩ inside same
    subst here
    refine ⟨?_, rfl⟩
    simp [SmallRect.sourceOf]
  by_cases moved : scroll.Contains (scroll.sourceOf destination coord) ∧ clip.Contains coord
  · rw [if_pos moved]
    apply Grid.getElem?_writes
    · rw [sameLength]
      exact valid.linearIndex_lt inside
    · rintro item - ⟨left, top, right, bottom, -⟩ same
      rw [(targetOf ⟨left, top, right, bottom⟩ same).1, cellAt]
    · have backX : (scroll.sourceOf destination coord).x + (destination.x - scroll.left) =
          coord.x := Int.sub_add_cancel _ _
      have backY : (scroll.sourceOf destination coord).y + (destination.y - scroll.top) =
          coord.y := Int.sub_add_cancel _ _
      refine .inr ⟨_, SmallRect.mem_coords.mpr moved.1, ?_, ?_⟩
      · rw [backX, backY]
        exact ⟨inside.x_nonneg, inside.y_nonneg, Int.le_sub_one_of_lt inside.x_lt,
          Int.le_sub_one_of_lt inside.y_lt, moved.2⟩
      · rw [backX, backY]
  · rw [if_neg moved]
    apply Grid.getElem?_writes_of_forall_ne
    rintro item member ⟨left, top, right, bottom, clipped⟩ same
    rcases targetOf ⟨left, top, right, bottom⟩ same with ⟨source, target⟩
    rw [← source, target] at moved
    exact moved ⟨SmallRect.mem_coords.mp member, clipped⟩

section Loops

variable (valid : core.WellFormed)
  (corner : (⟨scroll.left, scroll.top⟩ : Coord).Inside core.bufferSize)
  (opposite : (⟨scroll.right, scroll.bottom⟩ : Coord).Inside core.bufferSize)
  (inside : coord.Inside core.bufferSize)
include valid corner opposite inside

/-- The first loop blanks the part of the rectangle that is inside the clip rectangle. -/
theorem getElem?_scrollErase :
    (core.scrollErase scroll clip fill)[core.linearIndex coord]? =
      some (if scroll.Contains coord ∧ clip.Contains coord then fill else core.cellAt coord) := by
  by_cases erased : scroll.Contains coord ∧ clip.Contains coord
  · rw [if_pos erased]
    apply Grid.getElem?_writes _ core.linearIndex (fun _ => fill)
    · exact valid.linearIndex_lt inside
    · intro item _ _ _
      rfl
    · exact .inr ⟨coord, SmallRect.mem_coords.mpr erased.1, erased.2, rfl⟩
  · rw [if_neg erased, ← valid.getElem?_linearIndex inside]
    apply Grid.getElem?_writes_of_forall_ne _ core.linearIndex (fun _ => fill)
    intro item member clipped same
    have contains := SmallRect.mem_coords.mp member
    have here :=
      linearIndex_injective (SmallRect.inside_of_contains corner opposite contains) inside same
    subst here
    exact erased ⟨contains, clipped⟩

theorem cellAt_scrollScreenBuffer (fillCharacter : WChar) (fillAttributes : Attributes) :
    (core.scrollScreenBuffer scroll clip destination fillCharacter fillAttributes).core.cellAt
      coord = core.scrolledCell scroll clip destination ⟨fillCharacter, fillAttributes⟩ coord := by
  rw [scrollScreenBuffer, valid.cells_nonempty, if_neg Bool.false_ne_true]
  by_cases disordered : scroll.right < scroll.left ∨ scroll.bottom < scroll.top
  · have empty (item : Coord) : ¬ scroll.Contains item := by
      rintro ⟨left, right, top, bottom⟩
      omega
    rw [if_pos disordered, scrolledCell, if_neg fun moved => empty _ moved.1,
      if_neg fun gone => empty _ gone.1]
    rfl
  · have corners : (core.coordInRange ⟨scroll.left, scroll.top⟩ &&
        core.coordInRange ⟨scroll.right, scroll.bottom⟩) = true := by
      rw [valid.coordInRange_iff.mpr corner, valid.coordInRange_iff.mpr opposite, Bool.and_self]
    rw [if_neg disordered, if_pos corners]
    change (core.scrollCopy scroll clip destination _).getD (core.linearIndex coord) {} = _
    rw [List.getD_eq_getElem?_getD, getElem?_scrollCopy valid inside (length_scrollErase ..),
      getElem?_scrollErase valid corner opposite inside, scrolledCell]
    split <;> rfl

end Loops

/-- Every cell of the buffer after a scroll is the cell that the translation takes there, the
fill cell or the cell that was there, and nothing but cells has changed. -/
theorem scrollScreenBuffer_cells (valid : core.WellFormed)
    (corner : core.coordInRange ⟨scroll.left, scroll.top⟩ = true)
    (opposite : core.coordInRange ⟨scroll.right, scroll.bottom⟩ = true) (clip : SmallRect)
    (destination : Coord) (fillCharacter : WChar) (fillAttributes : Attributes) :
    let scrolled :=
      core.scrollScreenBuffer scroll clip destination fillCharacter fillAttributes
    scrolled.result = true ∧ scrolled.EditsCells core ∧
      ∀ coord, core.coordInRange coord = true →
        scrolled.core.cellAt coord =
          core.scrolledCell scroll clip destination ⟨fillCharacter, fillAttributes⟩ coord := by
  intro scrolled
  refine ⟨?_, scrollScreenBuffer_editsCells .., fun coord inRange => ?_⟩
  · simp only [scrolled, scrollScreenBuffer, valid.cells_nonempty, corner, opposite]
    split
    · contradiction
    · split <;> rfl
  · rw [valid.coordInRange_iff] at corner opposite inRange
    exact cellAt_scrollScreenBuffer valid corner opposite inRange ..

/-- A scroll of both cells to the right keeps the first one as the second and fills its place. -/
theorem scrollScreenBuffer_cells_twoCells :
    (twoCells.scrollScreenBuffer ⟨0, 0, 1, 0⟩ ⟨0, 0, 1, 0⟩ ⟨1, 0⟩ (wc '.') 7).result = true ∧
      (twoCells.scrollScreenBuffer ⟨0, 0, 1, 0⟩ ⟨0, 0, 1, 0⟩ ⟨1, 0⟩ (wc '.') 7).EditsCells
        twoCells.toScreenCore ∧
      ∀ coord, twoCells.coordInRange coord = true →
        (twoCells.scrollScreenBuffer ⟨0, 0, 1, 0⟩ ⟨0, 0, 1, 0⟩ ⟨1, 0⟩ (wc '.') 7).core.cellAt
            coord =
          twoCells.scrolledCell ⟨0, 0, 1, 0⟩ ⟨0, 0, 1, 0⟩ ⟨1, 0⟩ ⟨wc '.', 7⟩ coord :=
  scrollScreenBuffer_cells twoCells_wellFormed.core (by decide) (by decide) ..

end ScreenCore

end Conhost
