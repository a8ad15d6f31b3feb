import Conhost.Screen.Requests
import Conhost.Screen.Scrolling

/-!
# The vector of a scroll request

`ConsolepScrollScreenBuffer` cuts the scroll rectangle to the buffer before it hands it on, and
the destination is then taken to be that of the corner of the part. A client means the corner of
the rectangle it has sent. The two are the same for a rectangle that does not reach out of the
buffer on the left or at the top.
-/

namespace Conhost

namespace ScreenBuffer

/-- The translation that takes a corner of the scroll rectangle to the destination. -/
def ScrollBody.vectorFrom (body : ScrollBody) (corner : Coord) : Coord :=
  ⟨body.destinationOrigin.x - corner.x, body.destinationOrigin.y - corner.y⟩

/-- The vector a client asks for. -/
def ScrollBody.vector (body : ScrollBody) : Coord :=
  body.vectorFrom ⟨body.scrollRectangle.left, body.scrollRectangle.top⟩

/-- The vector from the corner of the part of the rectangle that is inside a buffer. -/
def ScrollBody.partVector (body : ScrollBody) : Coord :=
  body.vectorFrom ⟨max 0 body.scrollRectangle.left, max 0 body.scrollRectangle.top⟩

/-- The clip rectangle lets a coordinate be written. -/
def ScrollBody.clips (body : ScrollBody) (coord : Coord) : Bool :=
  body.clip.all fun clip => decide (clip.Contains coord)

/-- The cell that is written where cells have only gone. -/
def ScrollBody.fillCell (body : ScrollBody) : ScreenCell :=
  ⟨if body.unicode then body.fill.char else body.fill.char.toUInt8.toUInt16, body.fill.attributes⟩

/-- A translation takes a cell of the scroll rectangle and the buffer to a coordinate. -/
def Arrives (buffer : ScreenBuffer) (body : ScrollBody) (vector coord : Coord) : Prop :=
  body.scrollRectangle.Contains ⟨coord.x - vector.x, coord.y - vector.y⟩ ∧
    buffer.coordInRange ⟨coord.x - vector.x, coord.y - vector.y⟩ = true ∧ body.clips coord = true

instance (buffer : ScreenBuffer) (body : ScrollBody) (vector coord : Coord) :
    Decidable (buffer.Arrives body vector coord) :=
  inferInstanceAs (Decidable (_ ∧ _ ∧ _))

/-- What is at a coordinate after the cells of the scroll rectangle have moved by a vector. -/
def movedCell (buffer : ScreenBuffer) (body : ScrollBody) (vector coord : Coord) : ScreenCell :=
  if buffer.Arrives body vector coord then
    buffer.cellAt ⟨coord.x - vector.x, coord.y - vector.y⟩
  else if body.scrollRectangle.Contains coord ∧ body.clips coord = true then body.fillCell
  else buffer.cellAt coord

/-- The request moves the cells of its rectangle by a vector, and no cell otherwise. -/
def MovesBy (buffer : ScreenBuffer) (body : ScrollBody) (vector : Coord) : Prop :=
  ∀ coord : Coord, coord.Inside buffer.bufferSize →
    (buffer.requestScroll body).1.cellAt coord = buffer.movedCell body vector coord

/-- The buffer with another content. -/
def withContents (buffer : ScreenBuffer) (cells : List ScreenCell) : ScreenBuffer :=
  { buffer with cells := cells }

variable {buffer : ScreenBuffer} {body : ScrollBody}

section Part

variable (valid : buffer.WellFormed)
include valid

theorem toShort_lastColumn : toShort (buffer.bufferSize.x - 1) = buffer.bufferSize.x - 1 := by
  have xLe := valid.core.size.x_le
  have xPos := valid.core.size.x_pos
  exact toShort_eq_self (by omega) (by omega)

theorem toShort_lastRow : toShort (buffer.bufferSize.y - 1) = buffer.bufferSize.y - 1 := by
  have yLe := valid.core.size.y_le
  have yPos := valid.core.size.y_pos
  exact toShort_eq_self (by omega) (by omega)

theorem clipToBuffer_contains {rect : SmallRect} {coord : Coord} :
    (buffer.clipToBuffer rect).Contains coord ↔
      rect.Contains coord ∧ coord.Inside buffer.bufferSize := by
  simp only [clipToBuffer, SmallRect.Contains, toShort_lastColumn valid, toShort_lastRow valid]
  constructor
  · rintro ⟨left, right, top, bottom⟩
    exact ⟨⟨by omega, by omega, by omega, by omega⟩, ⟨by omega, by omega, by omega, by omega⟩⟩
  · rintro ⟨⟨left, right, top, bottom⟩, ⟨xNonneg, xLt, yNonneg, yLt⟩⟩
    exact ⟨by omega, by omega, by omega, by omega⟩

theorem clipToBuffer_corners {rect : SmallRect}
    (ordered : (buffer.clipToBuffer rect).left ≤ (buffer.clipToBuffer rect).right ∧
      (buffer.clipToBuffer rect).top ≤ (buffer.clipToBuffer rect).bottom) :
    (⟨(buffer.clipToBuffer rect).left, (buffer.clipToBuffer rect).top⟩ : Coord).Inside
        buffer.bufferSize ∧
      (⟨(buffer.clipToBuffer rect).right, (buffer.clipToBuffer rect).bottom⟩ : Coord).Inside
        buffer.bufferSize := by
  constructor
  · exact ((clipToBuffer_contains valid).mp ⟨le_rfl, ordered.1, le_rfl, ordered.2⟩).2
  · exact ((clipToBuffer_contains valid).mp ⟨ordered.1, le_rfl, ordered.2, le_rfl⟩).2

/-- A scroll of the part of the rectangle inside the buffer moves by the vector from its corner. -/
theorem cellAt_scroll_part {clip : SmallRect} {coord : Coord}
    (inside : coord.Inside buffer.bufferSize)
    (ordered : (buffer.clipToBuffer body.scrollRectangle).left ≤
        (buffer.clipToBuffer body.scrollRectangle).right ∧
      (buffer.clipToBuffer body.scrollRectangle).top ≤
        (buffer.clipToBuffer body.scrollRectangle).bottom)
    (clips : clip.Contains coord ↔ body.clips coord = true) :
    (buffer.scrollScreenBuffer (buffer.clipToBuffer body.scrollRectangle) clip
      body.destinationOrigin body.fillCell.character body.fillCell.attributes).core.cellAt coord =
        buffer.movedCell body body.partVector coord := by
  have corners := clipToBuffer_corners valid ordered
  have source : (buffer.clipToBuffer body.scrollRectangle).sourceOf body.destinationOrigin coord =
      ⟨coord.x - body.partVector.x, coord.y - body.partVector.y⟩ := by
    simp only [SmallRect.sourceOf, ScrollBody.partVector, ScrollBody.vectorFrom, clipToBuffer,
      Coord.mk.injEq]
    omega
  have arrives : (buffer.clipToBuffer body.scrollRectangle).Contains
        ⟨coord.x - body.partVector.x, coord.y - body.partVector.y⟩ ∧ clip.Contains coord ↔
      buffer.Arrives body body.partVector coord := by
    rw [clipToBuffer_contains valid, clips, and_assoc, ← valid.core.coordInRange_iff]
    rfl
  have goes : (buffer.clipToBuffer body.scrollRectangle).Contains coord ∧ clip.Contains coord ↔
      body.scrollRectangle.Contains coord ∧ body.clips coord = true := by
    rw [clipToBuffer_contains valid, clips, and_iff_left inside]
  rw [ScreenCore.cellAt_scrollScreenBuffer valid.core corners.1 corners.2 inside,
    ScreenCore.scrolledCell, source]
  exact if_congr arrives rfl (if_congr goes rfl rfl)

/-- The request moves cells by the vector from the corner of the part inside the buffer. -/
theorem movesBy_partVector
    (ordered : body.scrollRectangle.left ≤ body.scrollRectangle.right ∧
      body.scrollRectangle.top ≤ body.scrollRectangle.bottom) :
    buffer.MovesBy body body.partVector := by
  intro coord inside
  have xPos := valid.core.size.x_pos
  have yPos := valid.core.size.y_pos
  have still (idle : ¬ ((∃ source, body.scrollRectangle.Contains source ∧
      source.Inside buffer.bufferSize) ∧ body.clips coord = true)) :
      buffer.cellAt coord = buffer.movedCell body body.partVector coord := by
    rw [movedCell, if_neg, if_neg]
    · rintro ⟨contains, clips⟩
      exact idle ⟨⟨coord, contains, inside⟩, clips⟩
    · rintro ⟨contains, inRange, clips⟩
      exact idle ⟨⟨_, contains, valid.core.coordInRange_iff.mp inRange⟩, clips⟩
  have emptyPart {rect : SmallRect} (empty : (buffer.clipToBuffer rect).right <
      (buffer.clipToBuffer rect).left ∨ (buffer.clipToBuffer rect).bottom <
        (buffer.clipToBuffer rect).top) (source : Coord) (contains : rect.Contains source)
      (sourceInside : source.Inside buffer.bufferSize) : False := by
    rcases (clipToBuffer_contains valid).mpr ⟨contains, sourceInside⟩ with
      ⟨left, right, top, bottom⟩
    omega
  simp only [requestScroll]
  rw [if_neg (by omega), if_neg (by simp only [decide_eq_true_eq]; omega)]
  by_cases empty : (buffer.clipToBuffer body.scrollRectangle).right <
      (buffer.clipToBuffer body.scrollRectangle).left ∨
        (buffer.clipToBuffer body.scrollRectangle).bottom <
          (buffer.clipToBuffer body.scrollRectangle).top
  · rw [if_pos (by simpa using empty)]
    apply still
    rintro ⟨⟨source, contains, sourceInside⟩, -⟩
    exact emptyPart empty source contains sourceInside
  · rw [if_neg (by simpa using empty)]
    have part : (buffer.clipToBuffer body.scrollRectangle).left ≤
        (buffer.clipToBuffer body.scrollRectangle).right ∧
      (buffer.clipToBuffer body.scrollRectangle).top ≤
        (buffer.clipToBuffer body.scrollRectangle).bottom := by omega
    cases clipped : body.clip with
    | none =>
        have clips : (⟨0, 0, toShort (buffer.bufferSize.x - 1),
            toShort (buffer.bufferSize.y - 1)⟩ : SmallRect).Contains coord ↔
              body.clips coord = true := by
          simp only [ScrollBody.clips, clipped, Option.all_none, iff_true]
          rw [toShort_lastColumn valid, toShort_lastRow valid]
          exact ⟨inside.x_nonneg, Int.le_sub_one_of_lt inside.x_lt, inside.y_nonneg,
            Int.le_sub_one_of_lt inside.y_lt⟩
        exact cellAt_scroll_part valid inside part clips
    | some clip =>
        simp only [Option.any_some, Option.map_some, Option.getD_some]
        by_cases disordered : clip.right < clip.left ∨ clip.bottom < clip.top
        · rw [if_pos (by simpa using disordered)]
          apply still
          rintro ⟨-, clips⟩
          simp only [ScrollBody.clips, clipped, Option.all_some, decide_eq_true_eq] at clips
          rcases clips with ⟨left, right, top, bottom⟩
          omega
        · rw [if_neg (by simpa using disordered)]
          have clips : (buffer.clipToBuffer clip).Contains coord ↔ body.clips coord = true := by
            rw [clipToBuffer_contains valid, and_iff_left inside]
            simp only [ScrollBody.clips, clipped, Option.all_some, decide_eq_true_eq]
          by_cases outside : (buffer.clipToBuffer clip).right < (buffer.clipToBuffer clip).left ∨
              (buffer.clipToBuffer clip).bottom < (buffer.clipToBuffer clip).top
          · rw [if_pos (by simpa using outside)]
            apply still
            rintro ⟨-, shown⟩
            rcases clips.mpr shown with ⟨left, right, top, bottom⟩
            omega
          · rw [if_neg (by simpa using outside)]
            exact cellAt_scroll_part valid inside part clips

theorem withContents_wellFormed {cells : List ScreenCell}
    (length : cells.length = buffer.cells.length) :
    (buffer.withContents cells).WellFormed :=
  valid.withCells length buffer.revision

theorem arrives_withContents {cells : List ScreenCell} (length : cells.length = buffer.cells.length)
    {vector coord : Coord} :
    (buffer.withContents cells).Arrives body vector coord ↔
      buffer.Arrives body vector coord := by
  rw [Arrives, Arrives, (withContents_wellFormed valid length).core.coordInRange_iff,
    valid.core.coordInRange_iff]
  rfl

/-- A content in which one cell differs from the fill cell and the others do not. -/
theorem exists_marked {place : Coord} (placeInside : place.Inside buffer.bufferSize)
    (fill : ScreenCell) :
    ∃ cells mark, cells.length = buffer.cells.length ∧ mark ≠ fill ∧
      ∀ coord : Coord, coord.Inside buffer.bufferSize →
        (buffer.withContents cells).cellAt coord =
          if coord = place then mark else fill := by
  refine ⟨(List.replicate buffer.cells.length fill).set (buffer.linearIndex place)
    { fill with character := fill.character + 1 }, { fill with character := fill.character + 1 },
    ?_, ?_, fun coord inside => ?_⟩
  · rw [List.length_set, List.length_replicate]
  · intro same
    have characters := congrArg (fun cell => cell.character) same
    simp at characters
  · change (List.set _ (buffer.linearIndex place) _).getD (buffer.linearIndex coord)
      ({} : ScreenCell) = _
    have stored := valid.core.linearIndex_lt inside
    rw [List.getD_eq_getElem?_getD, List.getElem?_set]
    by_cases here : coord = place
    · subst here
      simp [stored]
    · have apart : buffer.linearIndex place ≠ buffer.linearIndex coord := fun same =>
        here (ScreenCore.linearIndex_injective inside placeInside same.symm)
      simp [here, apart, stored]

/-- Two vectors are told apart by a content that marks the cell one of them moves. -/
theorem exists_movedCell_ne {vector other coord : Coord} (differ : vector ≠ other)
    (inside : coord.Inside buffer.bufferSize) (arrives : buffer.Arrives body vector coord) :
    ∃ cells, cells.length = buffer.cells.length ∧
      (buffer.withContents cells).movedCell body vector coord ≠
        (buffer.withContents cells).movedCell body other coord := by
  have source := valid.core.coordInRange_iff.mp arrives.2.1
  rcases exists_marked valid source body.fillCell with ⟨cells, mark, length, marked, shown⟩
  refine ⟨cells, length, ?_⟩
  rw [movedCell, if_pos ((arrives_withContents valid length).mpr arrives),
    shown _ source, if_pos rfl,
    movedCell]
  by_cases comes : buffer.Arrives body other coord
  · have otherSource := valid.core.coordInRange_iff.mp comes.2.1
    rw [if_pos ((arrives_withContents valid length).mpr comes), shown _ otherSource, if_neg]
    · exact marked
    · intro same
      rw [Coord.mk.injEq] at same
      apply differ
      cases vector
      cases other
      simp only [Coord.mk.injEq] at same ⊢
      omega
  · rw [if_neg fun there => comes ((arrives_withContents valid length).mp there)]
    by_cases goes : body.scrollRectangle.Contains coord ∧ body.clips coord = true
    · rw [if_pos goes]
      exact marked
    · rw [if_neg goes, shown _ inside, if_neg]
      · exact marked
      · intro here
        exact goes ⟨here ▸ arrives.1, arrives.2.2⟩

end Part

/-- The request moves all contents of a buffer by the requested vector if and only if the
rectangle does not reach out on the left or at the top, or no cell arrives anywhere by the
requested vector or by the one from the part inside the buffer. -/
theorem movesBy_vector_iff (valid : buffer.WellFormed)
    (ordered : body.scrollRectangle.left ≤ body.scrollRectangle.right ∧
      body.scrollRectangle.top ≤ body.scrollRectangle.bottom) :
    (∀ cells, cells.length = buffer.cells.length →
        (buffer.withContents cells).MovesBy body body.vector) ↔
      (0 ≤ body.scrollRectangle.left ∧ 0 ≤ body.scrollRectangle.top) ∨
        ∀ coord : Coord, coord.Inside buffer.bufferSize →
          ¬ buffer.Arrives body body.vector coord ∧
            ¬ buffer.Arrives body body.partVector coord := by
  constructor
  · intro moves
    by_cases reaches : 0 ≤ body.scrollRectangle.left ∧ 0 ≤ body.scrollRectangle.top
    · exact .inl reaches
    have differ : body.vector ≠ body.partVector := by
      intro same
      simp only [ScrollBody.vector, ScrollBody.partVector, ScrollBody.vectorFrom,
        Coord.mk.injEq] at same
      omega
    have agree {cells : List ScreenCell} (length : cells.length = buffer.cells.length)
        {coord : Coord} (inside : coord.Inside buffer.bufferSize) :
        (buffer.withContents cells).movedCell body body.vector coord =
          (buffer.withContents cells).movedCell body body.partVector coord :=
      (moves cells length coord inside).symm.trans
        (movesBy_partVector (withContents_wellFormed valid length) ordered coord inside)
    refine .inr fun coord inside => ⟨fun arrives => ?_, fun arrives => ?_⟩
    · rcases exists_movedCell_ne valid differ inside arrives with ⟨cells, length, apart⟩
      exact apart (agree length inside)
    · rcases exists_movedCell_ne valid differ.symm inside arrives with ⟨cells, length, apart⟩
      exact apart (agree length inside).symm
  · intro condition cells length coord inside
    have moved := movesBy_partVector (withContents_wellFormed valid length) ordered coord inside
    rw [moved]
    rcases condition with ⟨left, top⟩ | still
    · have same : body.partVector = body.vector := by
        rw [ScrollBody.partVector, ScrollBody.vector, max_eq_right left, max_eq_right top]
      rw [same]
    · rcases still coord inside with ⟨byVector, byPart⟩
      rw [movedCell, movedCell, if_neg fun there =>
        byPart ((arrives_withContents valid length).mp there),
        if_neg fun there => byVector ((arrives_withContents valid length).mp there)]

/-- A scroll of the part of a rectangle left of the buffer and its first cell to the first cell. -/
def reachingOut : ScrollBody where
  scrollRectangle := ⟨-1, 0, 0, 0⟩
  clip := none
  destinationOrigin := ⟨0, 0⟩
  unicode := true
  fill := ⟨wc '.', 7⟩

theorem movesBy_vector_iff_twoCells :
    (∀ cells, cells.length = twoCells.cells.length →
        (twoCells.withContents cells).MovesBy reachingOut
          reachingOut.vector) ↔
      (0 ≤ reachingOut.scrollRectangle.left ∧ 0 ≤ reachingOut.scrollRectangle.top) ∨
        ∀ coord : Coord, coord.Inside twoCells.bufferSize →
          ¬ twoCells.Arrives reachingOut reachingOut.vector coord ∧
            ¬ twoCells.Arrives reachingOut reachingOut.partVector coord :=
  movesBy_vector_iff twoCells_wellFormed ⟨by decide, by decide⟩

/-- The first cell of `AB` is to move one cell to the right, and stays. -/
theorem not_movesBy_vector :
    let buffer := twoCells.withContents [⟨wc 'A', 7⟩, ⟨wc 'B', 7⟩]
    buffer.WellFormed ∧ reachingOut.vector = ⟨1, 0⟩ ∧
      (buffer.requestScroll reachingOut).2 = .success ∧
      (buffer.requestScroll reachingOut).1.cells = [⟨wc 'A', 7⟩, ⟨wc 'B', 7⟩] ∧
      ¬ buffer.MovesBy reachingOut reachingOut.vector := by
  refine ⟨withContents_wellFormed twoCells_wellFormed rfl, rfl, by decide +kernel,
    by decide +kernel,
    fun moves => ?_⟩
  have second := moves ⟨1, 0⟩ ⟨by decide, by decide, by decide, by decide⟩
  exact absurd second (by decide +kernel)

end ScreenBuffer

end Conhost
