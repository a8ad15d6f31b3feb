import Conhost.Screen.Scrolling
import Conhost.Server.ScreenApi

/-!
# The cells of a screen buffer as a store

Three requests write cells and two read them. Some name a rectangle, some a place from which
they go on row by row. Both ways are reduced to the coordinates that a request visits, so that
what a read returns after a write is said about coordinates alone.
-/

namespace Conhost

namespace Coord

/-- The place of a coordinate in a grid that is stored row by row. -/
def place (size coord : Coord) : Nat := coord.y.toNat * size.x.toNat + coord.x.toNat

/-- The coordinate to the right, or the first one of the row below. -/
def next (size coord : Coord) : Coord :=
  if coord.x + 1 < size.x then ⟨coord.x + 1, coord.y⟩ else ⟨0, coord.y + 1⟩

/-- At most `count` coordinates from `coord` on, row by row, as far as the grid reaches. -/
def walk (size : Coord) : Nat → Coord → List Coord
  | 0, _ => []
  | count + 1, coord =>
      if coord.y < size.y then coord :: walk size count (next size coord) else []

/-- The coordinate is in a column of the grid, in one of its rows or below them. -/
structure InColumn (size coord : Coord) : Prop where
  x_nonneg : 0 ≤ coord.x
  x_lt : coord.x < size.x
  y_nonneg : 0 ≤ coord.y

variable {size coord other : Coord} {count step : Nat}

theorem Inside.inColumn (inside : coord.Inside size) : InColumn size coord :=
  ⟨inside.x_nonneg, inside.x_lt, inside.y_nonneg⟩

theorem InColumn.next (column : InColumn size coord) : InColumn size (next size coord) := by
  rcases column with ⟨left, right, above⟩
  unfold Coord.next
  split
  · rename_i further
    exact ⟨by simp only; omega, further, above⟩
  · exact ⟨by simp only; omega, by simp only; omega, by simp only; omega⟩

theorem InColumn.place_next (column : InColumn size coord) :
    place size (Coord.next size coord) = place size coord + 1 := by
  rcases column with ⟨left, right, above⟩
  unfold Coord.next place
  split
  · have column : (coord.x + 1).toNat = coord.x.toNat + 1 := by omega
    simp only [column]
    omega
  · have row : (coord.y + 1).toNat = coord.y.toNat + 1 := by omega
    have width : size.x.toNat = coord.x.toNat + 1 := by omega
    simp only [row, Nat.succ_mul, Int.toNat_zero]
    omega

theorem Inside.eq_of_place_eq (inside : coord.Inside size) (otherInside : other.Inside size)
    (same : place size coord = place size other) : coord = other :=
  inside.place_injective otherInside same

/-- A walk visits the coordinates that follow in the grid, in their order. -/
theorem getElem?_walk (column : InColumn size coord) :
    (walk size count coord)[step]? = some other ↔
      step < count ∧ other.Inside size ∧ place size other = place size coord + step := by
  induction count generalizing coord step with
  | zero => simp [walk]
  | succ count ih =>
      unfold walk
      split
      · rename_i inRow
        have inside : coord.Inside size :=
          ⟨column.x_nonneg, column.x_lt, column.y_nonneg, inRow⟩
        cases step with
        | zero =>
            rw [List.getElem?_cons_zero, Option.some.injEq]
            constructor
            · rintro rfl
              exact ⟨Nat.succ_pos count, inside, rfl⟩
            · rintro ⟨-, otherInside, same⟩
              exact inside.eq_of_place_eq otherInside same.symm
        | succ step =>
            rw [List.getElem?_cons_succ, ih column.next, column.place_next,
              Nat.succ_lt_succ_iff, Nat.add_right_comm, Nat.add_assoc]
      · rename_i below
        simp only [List.getElem?_nil, reduceCtorEq, false_iff]
        rintro ⟨-, otherInside, same⟩
        have short := otherInside.place_lt
        have far : size.x.toNat * size.y.toNat ≤ coord.y.toNat * size.x.toNat := by
          rw [Nat.mul_comm]
          exact Nat.mul_le_mul_right _ (by omega)
        unfold place at same
        omega

theorem mem_walk (column : InColumn size coord) :
    other ∈ walk size count coord ↔ other.Inside size ∧
      place size coord ≤ place size other ∧ place size other < place size coord + count := by
  rw [List.mem_iff_getElem?]
  simp only [getElem?_walk column]
  constructor
  · rintro ⟨step, short, inside, same⟩
    exact ⟨inside, by omega, by omega⟩
  · rintro ⟨inside, above, below⟩
    exact ⟨place size other - place size coord, by omega, inside, by omega⟩

/-- No coordinate is visited twice. -/
theorem nodup_walk (column : InColumn size coord) : (walk size count coord).Nodup := by
  rw [List.nodup_iff_getElem?_ne_getElem?]
  intro first second before inside same
  have visited := (List.getElem?_eq_getElem inside)
  have secondPlace := (getElem?_walk column).mp visited
  rw [visited] at same
  have firstPlace := (getElem?_walk column).mp same
  omega

/-- A walk is as long as asked for, or goes to the end of the grid. -/
theorem length_walk (inside : coord.Inside size) :
    (walk size count coord).length =
      min count (size.x.toNat * size.y.toNat - place size coord) := by
  have column := inside.inColumn
  have first := inside.place_lt
  apply Nat.le_antisymm
  · by_contra long
    have visited := List.getElem?_eq_getElem (by omega : min count
      (size.x.toNat * size.y.toNat - place size coord) < (walk size count coord).length)
    have ⟨short, otherInside, same⟩ := (getElem?_walk column).mp visited
    have last := otherInside.place_lt
    unfold place at *
    omega
  · by_contra short
    have missing := List.getElem?_eq_none (Nat.le_refl (walk size count coord).length)
    have reached : place size coord + (walk size count coord).length <
        size.x.toNat * size.y.toNat := by omega
    obtain ⟨other, otherInside, same⟩ := exists_place reached
    rw [(getElem?_walk column).mpr ⟨by omega, otherInside, same⟩] at missing
    cases missing

end Coord

/-- No coordinate of a rectangle is visited twice. -/
theorem SmallRect.nodup_coords (rect : SmallRect) : rect.coords.Nodup := by
  have offsets (count : Nat) : ((List.range count).map (Nat.cast : Nat → Int)).Nodup :=
    List.nodup_range.map Nat.cast_injective
  simp only [coords, bind_pure_comp, List.map_eq_map]
  rw [List.nodup_flatMap]
  constructor
  · intro row _
    apply (offsets _).map
    intro column other same
    simp only [Coord.mk.injEq, add_right_inj, and_true] at same
    exact same
  · apply (offsets _).imp
    intro row other distinct
    refine List.disjoint_left.mpr ?_
    intro coord first second
    rw [List.mem_map] at first second
    rcases first with ⟨column, -, rfl⟩
    rcases second with ⟨otherColumn, -, same⟩
    simp only [Coord.mk.injEq, add_right_inj] at same
    exact distinct same.2.symm

/-- An element in the plane of its kind; the other plane stays. -/
def paint (elementType : ScreenBuffer.ElementType) (element : UInt16) (cell : ScreenCell) :
    ScreenCell :=
  if elementType = .attributes then { cell with attributes := element }
  else { cell with character := element }

/-- A record in both planes. -/
def paintInfo (unicode : Bool) (info : ScreenCore.CharInfo) (_ : ScreenCell) : ScreenCell :=
  ⟨if unicode then info.char else info.char.toUInt8.toUInt16, info.attributes⟩

/-- Cells after changes at some coordinates. -/
def painted (changes : List (Coord × (ScreenCell → ScreenCell))) (cells : Coord → ScreenCell)
    (coord : Coord) : ScreenCell :=
  match changes.lookup coord with
  | some change => change (cells coord)
  | none => cells coord

section Painted

variable {coords : List Coord} {changes : List (ScreenCell → ScreenCell)}
  {cells : Coord → ScreenCell} {coord : Coord} {step : Nat}

theorem painted_of_getElem? {change : ScreenCell → ScreenCell} (distinct : coords.Nodup)
    (visited : coords[step]? = some coord) (chosen : changes[step]? = some change) :
    painted (coords.zip changes) cells coord = change (cells coord) := by
  suffices found : (coords.zip changes).lookup coord = some change by rw [painted, found]
  induction coords generalizing changes step with
  | nil => cases visited
  | cons first later ih =>
      rw [List.nodup_cons] at distinct
      cases changes with
      | nil => cases chosen
      | cons head rest =>
          cases step with
          | zero =>
              cases visited
              cases chosen
              exact List.lookup_cons_self
          | succ step =>
              have other : coord ≠ first := by
                rintro rfl
                exact distinct.1 (List.mem_of_getElem? visited)
              rw [List.zip_cons_cons, List.lookup_cons, beq_false_of_ne other]
              exact ih distinct.2 visited chosen

theorem painted_of_notMem (absent : coord ∉ coords) :
    painted (coords.zip changes) cells coord = cells coord := by
  have missing : (coords.zip changes).lookup coord = none := by
    rw [List.lookup_eq_none_iff]
    rintro ⟨other, change⟩ member
    have visited := (List.of_mem_zip member).1
    apply bne_iff_ne.mpr
    rintro rfl
    exact absent visited
  rw [painted, missing]

end Painted

namespace ScreenCore

variable {core : ScreenCore} {origin coord : Coord}

/-- A run of changes reaches the coordinates of a walk. -/
theorem WellFormed.cellAt_updateRun_walk (valid : core.WellFormed)
    (started : origin.Inside core.bufferSize) (inside : coord.Inside core.bufferSize)
    (changes : List (ScreenCell → ScreenCell)) (update : Nat → ScreenCell → ScreenCell)
    (same : ∀ step change, changes[step]? = some change → update step = change) :
    (core.updateRun origin changes.length update).core.cellAt coord =
      painted ((Coord.walk core.bufferSize changes.length origin).zip changes)
        core.cellAt coord := by
  have column := started.inColumn
  have distinct : (Coord.walk core.bufferSize changes.length origin).Nodup :=
    Coord.nodup_walk column
  rw [valid.cellAt_updateRun_steps started inside]
  by_cases covered : core.linearIndex origin ≤ core.linearIndex coord ∧
      core.linearIndex coord < core.linearIndex origin + changes.length
  · have step : core.linearIndex coord - core.linearIndex origin < changes.length := by omega
    have chosen := List.getElem?_eq_getElem step
    have visited := (Coord.getElem?_walk column).mpr ⟨step, inside, by
      change core.linearIndex coord = core.linearIndex origin + _
      omega⟩
    rw [if_pos covered, painted_of_getElem? distinct visited chosen, same _ _ chosen]
  · rw [if_neg covered, painted_of_notMem]
    intro member
    exact covered ((Coord.mem_walk column).mp member).2

/-- A run of cells is read along a walk. -/
theorem WellFormed.readRun_eq (valid : core.WellFormed) (started : origin.Inside core.bufferSize)
    (count : Nat) :
    core.readRun origin count =
      (Coord.walk core.bufferSize count origin).map core.cellAt := by
  have column := started.inColumn
  have read : core.readRun origin count =
      (core.cells.drop (core.linearIndex origin)).take count := by
    rw [readRun, valid.coordInRange_iff.mpr started, Bool.true_and]
    by_cases none : count = 0
    · rw [none, List.take_zero]
      rfl
    · rw [if_pos (by simp [none])]
  apply List.ext_getElem
  · rw [read, List.length_take, List.length_drop, List.length_map, Coord.length_walk started,
      valid.cells]
    rfl
  · intro step inside mapped
    have visited := List.getElem?_eq_getElem (by simpa using mapped)
    have ⟨short, otherInside, same⟩ := (Coord.getElem?_walk column).mp visited
    have stored := valid.getElem?_linearIndex otherInside
    change core.linearIndex _ = core.linearIndex origin + step at same
    rw [same] at stored
    apply Option.some.inj
    rw [← List.getElem?_eq_getElem inside, read, List.getElem?_take_of_lt short,
      List.getElem?_drop, stored, List.getElem_map]

/-- An operation has made changes at some coordinates, and has counted them. -/
structure Written (core : ScreenCore) (update : CoreUpdate Nat) (coords : List Coord)
    (changes : List (ScreenCell → ScreenCell)) : Prop where
  result : update.result = coords.length
  supplied : coords.length ≤ changes.length
  inside : ∀ coord ∈ coords, coord.Inside core.bufferSize
  distinct : coords.Nodup
  edits : update.EditsCells core
  cells : ∀ coord : Coord, coord.Inside core.bufferSize →
    update.core.cellAt coord = painted (coords.zip changes) core.cellAt coord

theorem WellFormed.updateRun_written (valid : core.WellFormed)
    (started : origin.Inside core.bufferSize) (changes : List (ScreenCell → ScreenCell))
    (update : Nat → ScreenCell → ScreenCell)
    (same : ∀ step change, changes[step]? = some change → update step = change) :
    core.Written (core.updateRun origin changes.length update)
      (Coord.walk core.bufferSize changes.length origin) changes := by
  have length : (Coord.walk core.bufferSize changes.length origin).length = _ :=
    Coord.length_walk started
  exact {
    result := by
      rw [length, updateRun, valid.coordInRange_iff.mpr started, Bool.true_and, valid.cells]
      by_cases none : changes.length = 0
      · rw [if_neg (by simp [none]), none, Nat.zero_min]
        rfl
      · rw [if_pos (by simp [none])]
        rfl
    supplied := length.le.trans (Nat.min_le_left _ _)
    inside := fun coord member => ((Coord.mem_walk started.inColumn).mp member).1
    distinct := Coord.nodup_walk started.inColumn
    edits := updateRun_editsCells ..
    cells := fun coord inside => valid.cellAt_updateRun_walk started inside changes update same }

/-- Writes to distinct coordinates, one after the other. -/
theorem gridCell_writes {size : Coord} {coords : List Coord} {records : List CharInfo}
    {cells : List ScreenCell} (distinct : coords.Nodup)
    (visited : ∀ coord ∈ coords, coord.Inside size) (inside : coord.Inside size)
    (length : cells.length = size.x.toNat * size.y.toNat) (unicode : Bool) :
    gridCell ((coords.zip records).foldl
        (fun cells (coord, info) => cells.set (Coord.place size coord)
          ⟨if unicode then info.char else info.char.toUInt8.toUInt16, info.attributes⟩) cells)
        size coord =
      painted (coords.zip (records.map (paintInfo unicode))) (gridCell cells size) coord := by
  induction coords generalizing records cells with
  | nil => rfl
  | cons first later ih =>
      cases records with
      | nil => rfl
      | cons info records =>
          rw [List.nodup_cons] at distinct
          have firstInside := visited first List.mem_cons_self
          have laterInside : ∀ coord ∈ later, coord.Inside size :=
            fun coord member => visited coord (List.mem_cons_of_mem first member)
          rw [List.zip_cons_cons, List.foldl_cons,
            ih distinct.2 laterInside (List.length_set.trans length)]
          by_cases here : coord = first
          · subst here
            rw [painted_of_notMem distinct.1, List.map_cons]
            have written : painted ((coord :: later).zip (paintInfo unicode info ::
                records.map (paintInfo unicode))) (gridCell cells size) coord =
                paintInfo unicode info (gridCell cells size coord) :=
              painted_of_getElem? (List.nodup_cons.mpr distinct) (List.getElem?_cons_zero)
                (List.getElem?_cons_zero)
            rw [written]
            apply gridCell_of_getElem?
            exact List.getElem?_set_self (length ▸ inside.place_lt)
          · have kept : gridCell (cells.set (Coord.place size first)
                ⟨if unicode then info.char else info.char.toUInt8.toUInt16, info.attributes⟩)
                size coord = gridCell cells size coord := by
              have apart : Coord.place size first ≠ Coord.place size coord :=
                fun same => here (inside.eq_of_place_eq firstInside same.symm)
              rw [gridCell, gridCell, List.getD_eq_getElem?_getD, List.getD_eq_getElem?_getD]
              exact congrArg (fun cell : Option ScreenCell => cell.getD {})
                (List.getElem?_set_ne apart)
            rw [List.map_cons, List.zip_cons_cons]
            simp only [painted, List.lookup_cons, beq_false_of_ne here, kept]

theorem WellFormed.inside_of_regionFits (valid : core.WellFormed) {rect : SmallRect} {count : Nat}
    (fits : core.regionFits rect count = true) :
    ∀ coord ∈ rect.coords, coord.Inside core.bufferSize := by
  simp only [regionFits, Bool.and_eq_true, decide_eq_true_eq] at fits
  intro coord member
  exact SmallRect.inside_of_contains (valid.coordInRange_iff.mp fits.1.1.2)
    (valid.coordInRange_iff.mp fits.1.2) (SmallRect.mem_coords.mp member)

theorem WellFormed.writeOutputCharInfoRect_written (valid : core.WellFormed) {rect : SmallRect}
    {records : List CharInfo} (fits : core.regionFits rect records.length = true)
    (unicode : Bool) :
    core.Written (core.writeOutputCharInfoRect rect records unicode) rect.coords
      (records.map (paintInfo unicode)) := by
  have visited := valid.inside_of_regionFits fits
  exact {
    result := by
      rw [writeOutputCharInfoRect, if_pos fits]
      rfl
    supplied := by
      rw [List.length_map]
      simp only [regionFits, Bool.and_eq_true, decide_eq_true_eq] at fits
      exact fits.2
    inside := visited
    distinct := rect.nodup_coords
    edits := writeOutputCharInfoRect_editsCells ..
    cells := by
      intro coord inside
      rw [writeOutputCharInfoRect, if_pos fits]
      exact gridCell_writes rect.nodup_coords visited inside valid.cells unicode }

end ScreenCore

theorem inside_of_originStatus {buffer : ScreenBuffer} {origin : Coord}
    (checked : buffer.originStatus origin = .success) : origin.Inside buffer.bufferSize := by
  simp only [ScreenBuffer.originStatus] at checked
  split at checked
  · cases checked
  · split at checked
    · cases checked
    · rename_i outside
      push Not at outside
      exact ⟨outside.1, outside.2.2.1, outside.2.1, outside.2.2.2⟩

/-- The requests that write cells. -/
inductive CellWrite where
  | fill (origin : Coord) (elementType : ScreenBuffer.ElementType) (element : UInt16) (length : Nat)
  | region (rect : SmallRect) (unicode : Bool) (input : List Byte)
  | string (origin : Coord) (stringType : ScreenBuffer.ElementType) (input : List Byte)

namespace CellWrite

/-- The request of the interface; a record count in it is an answer. -/
def request : CellWrite → ScreenApi
  | fill origin elementType element length => .fillConsoleOutput origin elementType element length
  | region rect unicode _ => .writeConsoleOutput rect unicode
  | string origin stringType _ => .writeConsoleOutputString origin stringType 0

/-- What the client sends with it. -/
def input : CellWrite → List Byte
  | fill _ _ _ _ => []
  | region _ _ input => input
  | string _ _ input => input

/-- The request with its record count filled in. -/
def answered : CellWrite → Nat → ScreenApi
  | fill origin elementType element _, count =>
      .fillConsoleOutput origin elementType element count
  | region rect unicode _, _ => .writeConsoleOutput rect unicode
  | string origin stringType _, count => .writeConsoleOutputString origin stringType count

/-- What is written, one change for each cell as far as the buffer reaches. -/
def changes : CellWrite → List (ScreenCell → ScreenCell)
  | fill _ elementType element length =>
      List.replicate length
        (paint elementType (if elementType = .ascii then element.toUInt8.toUInt16 else element))
  | region rect unicode input =>
      ((ScreenBuffer.charInfos (ScreenBuffer.words input)).take rect.coords.length).map
        (paintInfo unicode)
  | string _ stringType input =>
      (if stringType = .ascii then input.map fun byte => byte.toUInt16
        else ScreenBuffer.words input).map (paint stringType)

/-- The coordinates that are written. -/
def covered (write : CellWrite) (size : Coord) : List Coord :=
  match write with
  | fill origin _ _ _ => Coord.walk size write.changes.length origin
  | region rect _ _ => rect.coords
  | string origin _ _ => Coord.walk size write.changes.length origin

/-- What a coordinate shows after the write. -/
def shown (write : CellWrite) (buffer : ScreenBuffer) : Coord → ScreenCell :=
  painted ((write.covered buffer.bufferSize).zip write.changes) buffer.cellAt

/-- The buffer, the status and the count that the request reports. -/
def perform (write : CellWrite) (buffer : ScreenBuffer) : ScreenBuffer × Status × Nat :=
  match write with
  | fill origin elementType element length => buffer.requestFill origin elementType element length
  | region rect unicode input =>
      let written := buffer.requestWriteOutput rect unicode input
      (written.1, written.2, 0)
  | string origin stringType input => buffer.requestWriteOutputString origin stringType input

/-- What the branches of `dispatch_message` for these requests do. -/
theorem handle_eq (write : CellWrite) (server : ServerState) (index : Nat) (buffer : ScreenBuffer)
    (capacity : Nat) :
    ScreenApi.handle server index buffer write.input capacity write.request =
      (server.setScreenBuffer index (write.perform buffer).1,
        ScreenApi.reply (write.answered (write.perform buffer).2.2)
          (write.perform buffer).2.1) := by
  cases write <;> rfl

variable {buffer : ScreenBuffer} {write : CellWrite}

/-- What a successful write does. -/
structure Stores (write : CellWrite) (buffer : ScreenBuffer) (update : CoreUpdate Nat) : Prop where
  after : (write.perform buffer).1 = buffer.update update
  counted : write.answered (write.perform buffer).2.2 =
    write.answered (write.covered buffer.bufferSize).length
  written : buffer.toScreenCore.Written update (write.covered buffer.bufferSize) write.changes

/-- A write that goes on row by row. -/
theorem Stores.of_run (write : CellWrite) (valid : buffer.WellFormed) {origin : Coord}
    (started : origin.Inside buffer.bufferSize)
    (covers : write.covered buffer.bufferSize =
      Coord.walk buffer.bufferSize write.changes.length origin)
    {update : Nat → ScreenCell → ScreenCell} {count : Nat} (length : write.changes.length = count)
    (same : ∀ step change, write.changes[step]? = some change → update step = change)
    (performed : write.perform buffer =
      (buffer.update (buffer.updateRun origin count update), .success,
        (buffer.updateRun origin count update).result)) :
    ∃ update, write.Stores buffer update := by
  have written := valid.core.updateRun_written started write.changes update same
  rw [← covers, length] at written
  exact ⟨_, by rw [performed], by rw [performed, written.result], written⟩

theorem fill_stores (valid : buffer.WellFormed) {origin : Coord}
    {elementType : ScreenBuffer.ElementType} {element : UInt16} {length : Nat}
    (succeeds : ((fill origin elementType element length).perform buffer).2.1 = .success) :
    ∃ update, (fill origin elementType element length).Stores buffer update := by
  simp only [perform, ScreenBuffer.requestFill] at succeeds
  cases checked : buffer.originStatus origin with
  | success =>
      have started := inside_of_originStatus checked
      rw [checked] at succeeds
      have same {change : ScreenCell → ScreenCell} (step : Nat) (other : ScreenCell → ScreenCell)
          (chosen : (List.replicate length change)[step]? = some other) : change = other :=
        (List.eq_of_mem_replicate (List.mem_of_getElem? chosen)).symm
      cases elementType with
      | other => cases succeeds
      | _ =>
          apply Stores.of_run (fill origin _ element length) valid started rfl
            List.length_replicate same
          simp only [perform, ScreenBuffer.requestFill, checked]
          rfl
  | _ =>
      rw [checked] at succeeds
      cases succeeds

/-- Elements in a list are stored one after the other. -/
theorem paint_of_getElem? {stringType : ScreenBuffer.ElementType} {elements : List UInt16}
    {step : Nat} {change : ScreenCell → ScreenCell}
    (chosen : (elements.map (paint stringType))[step]? = some change) :
    change = fun cell =>
      if stringType = .attributes then
        { cell with attributes := elements.getD step cell.attributes }
      else { cell with character := elements.getD step cell.character } := by
  rw [List.getElem?_map, Option.map_eq_some_iff] at chosen
  rcases chosen with ⟨element, found, rfl⟩
  funext cell
  simp only [paint, List.getD_eq_getElem?_getD, found, Option.getD_some]

theorem string_stores (valid : buffer.WellFormed) {origin : Coord}
    {stringType : ScreenBuffer.ElementType} {input : List Byte}
    (succeeds : ((string origin stringType input).perform buffer).2.1 = .success) :
    ∃ update, (string origin stringType input).Stores buffer update := by
  simp only [perform, ScreenBuffer.requestWriteOutputString] at succeeds
  cases checked : buffer.originStatus origin with
  | success =>
      have started := inside_of_originStatus checked
      rw [checked] at succeeds
      cases stringType with
      | other => cases succeeds
      | ascii =>
          apply Stores.of_run (string origin .ascii input) valid started rfl (List.length_map _)
            fun step change chosen => (paint_of_getElem? chosen).symm
          simp only [perform, ScreenBuffer.requestWriteOutputString, checked]
          rfl
      | _ =>
          simp only at succeeds
          split at succeeds
          · cases succeeds
          · rename_i even
            apply Stores.of_run (string origin _ input) valid started rfl (List.length_map _)
              fun step change chosen => (paint_of_getElem? chosen).symm
            simp only [perform, ScreenBuffer.requestWriteOutputString, checked, if_neg even]
            rfl
  | _ =>
      rw [checked] at succeeds
      cases succeeds

theorem region_stores (valid : buffer.WellFormed) {rect : SmallRect} {unicode : Bool}
    {input : List Byte} (succeeds : ((region rect unicode input).perform buffer).2.1 = .success) :
    ∃ update, (region rect unicode input).Stores buffer update := by
  simp only [perform, ScreenBuffer.requestWriteOutput] at succeeds
  cases checked : buffer.regionStatus rect input.length with
  | success =>
      rw [checked] at succeeds
      simp only [ite_eq_left_iff, reduceCtorEq, imp_false, not_not] at succeeds
      have ordered : rect.left ≤ rect.right ∧ rect.top ≤ rect.bottom := by
        simp only [ScreenBuffer.regionStatus] at checked
        split at checked
        · cases checked
        · omega
      have fits : buffer.regionFits rect ((ScreenBuffer.charInfos (ScreenBuffer.words input)).take
          ((rect.right - rect.left + 1).toNat * (rect.bottom - rect.top + 1).toNat)).length =
          true := by
        by_contra misfit
        rw [ScreenCore.writeOutputCharInfoRect, if_neg misfit] at succeeds
        have positive := Nat.mul_pos (by omega : 0 < (rect.right - rect.left + 1).toNat)
          (by omega : 0 < (rect.bottom - rect.top + 1).toNat)
        rw [← succeeds] at positive
        exact Nat.lt_irrefl 0 positive
      have written := valid.core.writeOutputCharInfoRect_written fits unicode
      have count := written.result.symm.trans succeeds
      have performed : (region rect unicode input).perform buffer =
          (buffer.update (buffer.writeOutputCharInfoRect rect
            ((ScreenBuffer.charInfos (ScreenBuffer.words input)).take rect.coords.length)
            unicode), .success, 0) := by
        simp only [perform, ScreenBuffer.requestWriteOutput, checked, succeeds, if_true, count]
      rw [← count] at written
      exact ⟨_, by rw [performed], rfl, written⟩
  | _ =>
      rw [checked] at succeeds
      cases succeeds

theorem perform_stores (valid : buffer.WellFormed)
    (succeeds : (write.perform buffer).2.1 = .success) :
    ∃ update, write.Stores buffer update := by
  cases write with
  | fill origin elementType element length => exact fill_stores valid succeeds
  | region rect unicode input => exact region_stores valid succeeds
  | string origin stringType input => exact string_stores valid succeeds

end CellWrite

/-- The requests that read cells, with the size of the client's buffer. -/
inductive CellRead where
  | region (rect : SmallRect) (unicode : Bool) (capacity : Nat)
  | string (origin : Coord) (stringType : ScreenBuffer.ElementType) (capacity : Nat)

namespace CellRead

def request : CellRead → ScreenApi
  | region rect unicode _ => .readConsoleOutput rect unicode
  | string origin stringType _ => .readConsoleOutputString origin stringType 0

def capacity : CellRead → Nat
  | region _ _ capacity => capacity
  | string _ _ capacity => capacity

/-- The coordinates that are read. -/
def visited (read : CellRead) (size : Coord) : List Coord :=
  match read with
  | region rect _ _ => rect.coords
  | string origin stringType capacity =>
      Coord.walk size (if stringType = .ascii then capacity else capacity / 2) origin

/-- The record of a cell. -/
def record (read : CellRead) (cell : ScreenCell) : List Byte :=
  match read with
  | region _ unicode _ =>
      unitBytes [if unicode then cell.character else (ScreenCore.narrow cell.character).toUInt16,
        cell.attributes]
  | string _ stringType _ =>
      match stringType with
      | .attributes => unitBytes [cell.attributes]
      | .ascii => [ScreenCore.narrow cell.character]
      | _ => unitBytes [cell.character]

/-- The reply that returns some records. -/
def answer (read : CellRead) (records : List (List Byte)) : Reply :=
  match read with
  | region rect unicode _ =>
      { ScreenApi.reply (.readConsoleOutput rect unicode) .success with
        information := 4 * records.length
        output := records.flatten }
  | string origin stringType capacity =>
      { ScreenApi.reply (.readConsoleOutputString origin stringType records.length) .success with
        information := capacity
        output := records.flatten }

variable {buffer : ScreenBuffer} {read : CellRead}

theorem unitBytes_map (visited : List Coord) (units : Coord → List UInt16) :
    unitBytes (visited.flatMap units) =
      (visited.map fun coord => unitBytes (units coord)).flatten := by
  rw [unitBytes, List.flatMap_assoc, List.flatten_eq_flatMap, List.flatMap_map]
  rfl

/-- What a read returns of the cells of a buffer. -/
def records (read : CellRead) (buffer : ScreenBuffer) : List (List Byte) :=
  (read.visited buffer.bufferSize).map fun coord => read.record (buffer.cellAt coord)

theorem region_succeeds (valid : buffer.WellFormed) {rect : SmallRect} {unicode : Bool}
    {capacity : Nat}
    (succeeds : (ScreenApi.readConsoleOutputReply buffer rect unicode capacity).1 = .success) :
    (∀ coord ∈ rect.coords, coord.Inside buffer.bufferSize) ∧
    ∃ infos, ScreenApi.readConsoleOutputReply buffer rect unicode capacity = (.success, infos) ∧
      infos.length = ((region rect unicode capacity).records buffer).length ∧
      ScreenApi.charInfoBytes infos = ((region rect unicode capacity).records buffer).flatten := by
  simp only [ScreenApi.readConsoleOutputReply] at succeeds ⊢
  cases checked : buffer.regionStatus rect capacity with
  | success =>
      rw [checked] at succeeds
      simp only at succeeds ⊢
      split at succeeds
      · rename_i counted
        have ordered : rect.left ≤ rect.right ∧ rect.top ≤ rect.bottom := by
          simp only [ScreenBuffer.regionStatus] at checked
          split at checked
          · cases checked
          · omega
        have positive := Nat.mul_pos (by omega : 0 < (rect.right - rect.left + 1).toNat)
          (by omega : 0 < (rect.bottom - rect.top + 1).toNat)
        have fits : buffer.regionFits rect
            ((rect.right - rect.left + 1).toNat * (rect.bottom - rect.top + 1).toNat) = true := by
          by_contra misfit
          rw [ScreenCore.readOutputCharInfoRect, if_neg misfit, List.length_nil] at counted
          omega
        refine ⟨valid.core.inside_of_regionFits fits, _, by rw [if_pos counted], ?_⟩
        rw [ScreenCore.readOutputCharInfoRect, if_pos fits, List.length_map, records,
          List.length_map]
        refine ⟨rfl, ?_⟩
        rw [ScreenApi.charInfoBytes, List.flatMap_map]
        exact unitBytes_map rect.coords _
      · cases succeeds
  | _ =>
      rw [checked] at succeeds
      cases succeeds

theorem string_succeeds (valid : buffer.WellFormed) {origin : Coord}
    {stringType : ScreenBuffer.ElementType} {capacity : Nat}
    (succeeds : (ScreenApi.readConsoleOutputStringReply buffer origin stringType capacity).1 =
      .success) :
    origin.Inside buffer.bufferSize ∧
      ScreenApi.readConsoleOutputStringReply buffer origin stringType capacity =
        (.success, ((string origin stringType capacity).records buffer).length,
          ((string origin stringType capacity).records buffer).flatten) := by
  simp only [ScreenApi.readConsoleOutputStringReply] at succeeds ⊢
  cases checked : buffer.originStatus origin with
  | success =>
      have started := inside_of_originStatus checked
      have run := valid.core.readRun_eq started
      have bytes (count : Nat) (unit : Coord → UInt16) :
          unitBytes ((Coord.walk buffer.bufferSize count origin).map unit) =
            ((Coord.walk buffer.bufferSize count origin).map
              fun coord => unitBytes [unit coord]).flatten := by
        rw [List.map_eq_flatMap, unitBytes_map]
      rw [checked] at succeeds
      refine ⟨started, ?_⟩
      cases stringType with
      | other => cases succeeds
      | ascii =>
          simp only [records, visited, record, ScreenCore.readOutputAscii, run, List.length_map,
            List.map_map, if_true]
          rw [List.map_eq_flatMap, List.flatMap_def]
          rfl
      | _ =>
          simp only [records, visited, record, ScreenCore.readOutputAttributes,
            ScreenCore.readOutputCharacters, run, List.length_map, List.map_map]
          rw [bytes]
          rfl
  | _ =>
      rw [checked] at succeeds
      cases succeeds

/-- A read returns the records of the coordinates that it visits. -/
theorem handle_eq (valid : buffer.WellFormed) (server : ServerState) (index : Nat)
    (input : List Byte)
    (succeeds : (ScreenApi.handle server index buffer input read.capacity read.request).2.status =
      .success) :
    (ScreenApi.handle server index buffer input read.capacity read.request).2 =
        read.answer (read.records buffer) ∧
      (read.visited buffer.bufferSize).Nodup ∧
      ∀ coord ∈ read.visited buffer.bufferSize, coord.Inside buffer.bufferSize := by
  cases read with
  | region rect unicode capacity =>
      change (ScreenApi.readConsoleOutputReply buffer rect unicode capacity).1 =
        .success at succeeds
      obtain ⟨inside, infos, replied, counted, bytes⟩ := region_succeeds valid succeeds
      refine ⟨?_, rect.nodup_coords, inside⟩
      simp only [ScreenApi.handle, request, CellRead.capacity, replied, answer, counted, bytes]
  | string origin stringType capacity =>
      change (ScreenApi.readConsoleOutputStringReply buffer origin stringType capacity).1 =
        .success at succeeds
      obtain ⟨started, replied⟩ := string_succeeds valid succeeds
      refine ⟨?_, Coord.nodup_walk started.inColumn,
        fun coord member => ((Coord.mem_walk started.inColumn).mp member).1⟩
      simp only [ScreenApi.handle, request, CellRead.capacity, replied, answer, if_true]

end CellRead

/-- A write has been answered with the number of cells that it covers, and every read that
follows returns what was written where the write has covered a cell, and what was there before
elsewhere. -/
structure CellWrite.Observed (write : CellWrite) (buffer : ScreenBuffer) (index : Nat)
    (written : ServerState × Reply) : Prop where
  answer : written.2 =
    ScreenApi.reply (write.answered (write.covered buffer.bufferSize).length) .success
  inside : ∀ coord ∈ write.covered buffer.bufferSize, coord.Inside buffer.bufferSize
  distinct : (write.covered buffer.bufferSize).Nodup
  supplied : (write.covered buffer.bufferSize).length ≤ write.changes.length
  reads : ∃ after, written.1.screenBuffer index = some after ∧
    ∀ (read : CellRead) (input : List Byte),
      let answer := (ScreenApi.handle written.1 index after input read.capacity read.request).2
      answer.status = .success →
        answer = read.answer ((read.visited buffer.bufferSize).map fun coord =>
            read.record (write.shown buffer coord)) ∧
          (∀ coord ∈ read.visited buffer.bufferSize, coord.Inside buffer.bufferSize) ∧
          (read.visited buffer.bufferSize).Nodup

/-- A buffer is a store of cells, for both ways to name its places. -/
theorem CellWrite.handle_observed {server : ServerState} {index : Nat} {buffer : ScreenBuffer}
    (named : server.screenBuffer index = some buffer) (valid : buffer.WellFormed)
    (write : CellWrite) (capacity : Nat)
    (succeeds : (ScreenApi.handle server index buffer write.input capacity
      write.request).2.status = .success) :
    write.Observed buffer index
      (ScreenApi.handle server index buffer write.input capacity write.request) := by
  rw [write.handle_eq] at succeeds ⊢
  change (write.perform buffer).2.1 = .success at succeeds
  obtain ⟨update, performed, counted, written⟩ := perform_stores valid succeeds
  have sameSize : (buffer.update update).bufferSize = buffer.bufferSize := by
    rcases written.edits with ⟨cells, updated, -⟩
    change update.core.bufferSize = buffer.bufferSize
    rw [updated]
  have stored : (server.setScreenBuffer index (buffer.update update)).screenBuffer index =
      some (buffer.update update) :=
    List.getElem?_set_self (List.getElem?_eq_some_iff.mp named).1
  exact {
    answer := by rw [counted, succeeds]
    inside := written.inside
    distinct := written.distinct
    supplied := written.supplied
    reads := by
      rw [performed]
      refine ⟨_, stored, fun read input success => ?_⟩
      obtain ⟨replied, distinct, inside⟩ :=
        CellRead.handle_eq (valid.edit written.edits) _ index input success
      rw [sameSize] at distinct inside
      refine ⟨?_, inside, distinct⟩
      rw [replied, CellRead.records, sameSize]
      congr 1
      apply List.map_congr_left
      intro coord member
      exact congrArg read.record (written.cells coord (inside coord member)) }

/-- A server whose screen has two cells. -/
def smallServer : ServerState :=
  { ServerState.initial .utf8 with screenBuffers := [twoCells] }

/-- Two characters for the last cell, of which one finds room. -/
def lastCell : CellWrite := .string ⟨1, 0⟩ .realUnicode [0x41, 0, 0x42, 0]

theorem CellWrite.handle_observed_lastCell :
    lastCell.Observed twoCells 0
        (ScreenApi.handle smallServer 0 twoCells lastCell.input 0 lastCell.request) ∧
      lastCell.covered twoCells.bufferSize = [⟨1, 0⟩] :=
  ⟨CellWrite.handle_observed rfl twoCells_wellFormed lastCell 0 rfl, rfl⟩

end Conhost
