import Conhost.Screen.Rendition

/-!
# The numbers of a CSI sequence

The parser stops extending a parameter above a million, and `apply_csi` goes on to
subtract from it, to add it to coordinates and to narrow the result. No final character
tells the capped numbers from the exact ones: a count or a position above a million is
beyond every edge of a buffer. Nor does any of these computations leave the range of its
machine type.
-/

namespace Conhost

namespace VtCsiSequence

variable {csi exact : VtCsiSequence}

namespace StandsFor

theorem function (stands : csi.StandsFor exact) : csi.function = exact.function := by
  unfold VtCsiSequence.function
  rw [stands.final, stands.exclamationMarker]

theorem param (stands : csi.StandsFor exact) (index fallback : Nat) :
    Numeral.StandsFor paramLimit (csi.param index fallback) (exact.param index fallback) := by
  have getD {capped numbers : List Nat}
      (params : List.Forall₂ (Numeral.StandsFor paramLimit) capped numbers) (index : Nat) :
      Numeral.StandsFor paramLimit (capped.getD index fallback) (numbers.getD index fallback) := by
    induction params generalizing index with
    | nil => exact .refl _ _
    | cons head tail ih =>
        cases index with
        | zero => exact head
        | succ index => exact ih index
  exact getD stands.params index

theorem positive (stands : csi.StandsFor exact) (index : Nat) :
    Numeral.StandsFor paramLimit (csi.positive index) (exact.positive index) := by
  have value := stands.param index 1
  have zero := value.eq_iff (Nat.zero_le paramLimit)
  unfold VtCsiSequence.positive
  by_cases isZero : csi.param index 1 = 0
  · simp only [isZero, zero.mp isZero, if_true]
    exact .refl _ _
  · have notZero : exact.param index 1 ≠ 0 := fun other => isZero (zero.mpr other)
    simp only [isZero, notZero, if_false]
    exact value

theorem isEmpty (stands : csi.StandsFor exact) : csi.params.isEmpty = exact.params.isEmpty := by
  rw [Bool.eq_iff_iff, List.isEmpty_iff, List.isEmpty_iff]
  have params := stands.params
  constructor
  · intro none
    rw [none] at params
    exact List.forall₂_nil_left_iff.mp params
  · intro none
    rw [none] at params
    exact List.forall₂_nil_right_iff.mp params

end StandsFor

end VtCsiSequence

namespace OutputCall

open Numeral

variable {call : OutputCall} {state : OutputState} {csi exact : VtCsiSequence}
  {capped number : Nat}

/-- A value clamped from beyond the upper end. -/
theorem clampLong_above {value low high : Int} (ordered : low ≤ high) (above : high < value) :
    clampLong value low high = high := by
  unfold clampLong
  rw [if_neg (by omega), if_pos above]

/-- A value clamped from beyond the lower end. -/
theorem clampLong_below {value low high : Int} (below : value < low) :
    clampLong value low high = low :=
  if_pos below

/-- A count that moves a coordinate by a multiple of itself. -/
theorem clampRow_standsFor {rows : Int × Int}
    (bounds : 0 ≤ rows.1 ∧ rows.1 ≤ rows.2 ∧ rows.2 ≤ 32767)
    {start : Int} (near : -32768 ≤ start ∧ start ≤ 32768) (sign : Int)
    (stands : StandsFor paramLimit capped number) :
    clampRow (start + sign * capped) rows = clampRow (start + sign * number) rows := by
  have limit : paramLimit = 1000000 := rfl
  refine @StandsFor.congr _ _ _ _ (fun count : Nat => clampRow (start + sign * (count : Int)) rows)
    stands ?_
  intro first second firstLarge secondLarge
  rcases lt_trichotomy sign 0 with negative | rfl | positive
  · have far (count : Nat) (large : paramLimit < count) :
        start + sign * (count : Int) < rows.1 := by
      have scaled : sign * (count : Int) ≤ -1 * (count : Int) :=
        Int.mul_le_mul_of_nonneg_right (by omega) (Int.natCast_nonneg count)
      omega
    unfold clampRow
    rw [clampLong_below (far first firstLarge), clampLong_below (far second secondLarge)]
  · simp
  · have far (count : Nat) (large : paramLimit < count) :
        rows.2 < start + sign * (count : Int) := by
      have scaled : 1 * (count : Int) ≤ sign * (count : Int) :=
        Int.mul_le_mul_of_nonneg_right (by omega) (Int.natCast_nonneg count)
      omega
    unfold clampRow
    rw [clampLong_above bounds.2.1 (far first firstLarge),
      clampLong_above bounds.2.1 (far second secondLarge)]

theorem clampColumn_standsFor (invariant : call.Invariant state)
    (stands : StandsFor paramLimit capped number) :
    call.clampColumn ((capped : Int) - 1) = call.clampColumn ((number : Int) - 1) := by
  have positive := invariant.isSize.x_pos
  have bounded := invariant.isSize.x_le
  have shape (count : Nat) : (count : Int) - 1 = -1 + 1 * (count : Int) := by omega
  rw [shape, shape]
  exact @clampRow_standsFor _ _ (0, call.bufferSize.x - 1) ⟨by omega, by omega, by omega⟩ _
    ⟨by omega, by omega⟩ 1 stands

theorem absoluteRow_standsFor (invariant : call.Invariant state)
    (stands : StandsFor paramLimit capped number) :
    call.absoluteRow state.regs state.margins capped =
      call.absoluteRow state.regs state.margins number := by
  have region := invariant.region
  have rows := invariant.originRows_bounds state.regs
  have bounded := invariant.isSize.y_le
  have offsets : 0 ≤ (if state.regs.originMode then
        (call.resolveVerticalRegion state.margins).1 else 0) ∧
      (if state.regs.originMode then (call.resolveVerticalRegion state.margins).1 else 0) ≤
        32767 := by
    split <;> omega
  unfold absoluteRow
  generalize (if state.regs.originMode then (call.resolveVerticalRegion state.margins).1
    else 0) = offset at offsets
  have shape (count : Nat) :
      (count : Int) - 1 + offset = (offset - 1) + 1 * (count : Int) := by omega
  simp only [shape]
  exact clampRow_standsFor ⟨rows.1, rows.2.1, by omega⟩ ⟨by omega, by omega⟩ 1 stands

theorem movedRow_standsFor (invariant : call.Invariant state)
    (stands : StandsFor paramLimit capped number) (sign : Int) :
    clampRow (state.regs.cursor.y + sign * capped)
        (call.movementRows state.regs state.margins) =
      clampRow (state.regs.cursor.y + sign * number)
        (call.movementRows state.regs state.margins) := by
  have rows := invariant.movementRows_bounds state.regs
  have inside := invariant.cursor
  have := inside.y_nonneg
  have := inside.y_lt
  have := invariant.isSize.y_le
  exact clampRow_standsFor ⟨rows.1, rows.2.1, by omega⟩ ⟨by omega, by omega⟩ sign stands

theorem movedColumn_standsFor (invariant : call.Invariant state)
    (stands : StandsFor paramLimit capped number) (sign : Int) :
    call.clampColumn (state.regs.cursor.x + sign * capped) =
      call.clampColumn (state.regs.cursor.x + sign * number) := by
  have inside := invariant.cursor
  have := inside.x_nonneg
  have := inside.x_lt
  have := invariant.isSize.x_le
  exact @clampRow_standsFor _ _ (0, call.bufferSize.x - 1) ⟨by omega, by omega, by omega⟩ _
    ⟨by omega, by omega⟩ sign stands

theorem rowCount_standsFor (invariant : call.Invariant state) (stands : csi.StandsFor exact) :
    call.rowCount csi state = call.rowCount exact state := by
  have bounded := invariant.isSize.x_le
  have inside := invariant.cursor.x_nonneg
  have limit : paramLimit = 1000000 := rfl
  exact (stands.positive 0).min_eq (by omega)

/-- A count above the limit blanks the whole region. -/
theorem scrollRegion_large (invariant : call.Invariant state) (top bottom : Int) {count : Nat}
    (large : paramLimit < count) :
    let blanked := if call.regionScrolls top bottom then call.fillRows state top bottom else state
    call.scrollRegionUp state top bottom count = blanked ∧
      call.scrollRegionDown state top bottom count = blanked := by
  have bounded := invariant.isSize.y_le
  have limit : paramLimit = 1000000 := rfl
  have positive : (if count = 0 then 1 else count) = count := if_neg (by omega)
  unfold scrollRegionUp scrollRegionDown
  rw [positive]
  by_cases scrolls : call.regionScrolls top bottom = true
  · have fits : 0 ≤ top ∧ bottom < call.bufferSize.y := by
      simp only [regionScrolls, Bool.and_eq_true, decide_eq_true_eq] at scrolls
      omega
    have whole : bottom - top + 1 ≤ (count : Int) := by omega
    simp only [if_pos scrolls, if_pos whole, and_self]
  · simp only [if_neg scrolls, and_self]

theorem scroll_standsFor (invariant : call.Invariant state) (stands : csi.StandsFor exact)
    (up : Bool) : call.scroll csi up state = call.scroll exact up state := by
  unfold scroll
  have count := stands.positive 0
  generalize csi.positive 0 = capped, exact.positive 0 = number at count
  rcases count.eq_or_large with rfl | ⟨firstLarge, secondLarge⟩
  · rfl
  dsimp only
  have one := scrollRegion_large invariant (call.resolveVerticalRegion state.margins).1
    (call.resolveVerticalRegion state.margins).2 firstLarge
  have other := scrollRegion_large invariant (call.resolveVerticalRegion state.margins).1
    (call.resolveVerticalRegion state.margins).2 secondLarge
  rw [one.1, one.2, other.1, other.2]

theorem insertLine_standsFor (invariant : call.Invariant state) (stands : csi.StandsFor exact) :
    call.insertLine csi state = call.insertLine exact state := by
  have region := invariant.region
  have inside := invariant.cursor.y_nonneg
  have bounded := invariant.isSize.y_le
  have limit : paramLimit = 1000000 := rfl
  unfold insertLine
  have count := stands.positive 0
  generalize csi.positive 0 = capped, exact.positive 0 = number at count
  rcases count.eq_or_large with rfl | ⟨firstLarge, secondLarge⟩
  · rfl
  dsimp only
  split
  · rw [if_pos (by omega), if_pos (by omega)]
  · rfl

theorem deleteLine_standsFor (invariant : call.Invariant state) (stands : csi.StandsFor exact) :
    call.deleteLine csi state = call.deleteLine exact state := by
  have region := invariant.region
  have inside := invariant.cursor.y_nonneg
  have bounded := invariant.isSize.y_le
  have limit : paramLimit = 1000000 := rfl
  unfold deleteLine
  have count := stands.positive 0
  generalize csi.positive 0 = capped, exact.positive 0 = number at count
  rcases count.eq_or_large with rfl | ⟨firstLarge, secondLarge⟩
  · rfl
  dsimp only
  split
  · rw [if_pos (by omega), if_pos (by omega)]
  · rfl

theorem setMargins_standsFor (invariant : call.Invariant state) (stands : csi.StandsFor exact) :
    call.setMargins csi state = call.setMargins exact state := by
  have bounded := invariant.isSize.y_le
  have limit : paramLimit = 1000000 := rfl
  have first := stands.param 0 0
  have second := stands.param 1 0
  unfold setMargins
  generalize csi.param 0 0 = top, exact.param 0 0 = exactTop at first
  generalize csi.param 1 0 = bottom, exact.param 1 0 = exactBottom at second
  rcases second.eq_or_large with rfl | ⟨bottomLarge, exactLarge⟩
  · rcases first.eq_or_large with rfl | ⟨topLarge, exactLarge⟩
    · rfl
    · -- a top row above the limit is below no bottom row that fits
      have positive (count : Nat) (large : paramLimit < count) :
          (if count = 0 then 1 else count) = count := if_neg (by omega)
      simp only [positive top topLarge, positive exactTop exactLarge]
      rw [if_neg (by omega), if_neg (by omega)]
  · have positive (count : Nat) (large : paramLimit < count) :
        (if count = 0 then call.bufferSize.y.toNat else count) = count := if_neg (by omega)
    simp only [positive bottom bottomLarge, positive exactBottom exactLarge]
    rw [if_neg (by omega), if_neg (by omega)]

theorem eraseDisplay_standsFor (stands : csi.StandsFor exact) :
    call.eraseDisplay csi state = call.eraseDisplay exact state := by
  have limit : paramLimit = 1000000 := rfl
  unfold eraseDisplay
  have mode := stands.param 0 0
  generalize csi.param 0 0 = capped, exact.param 0 0 = number at mode
  rcases mode.eq_or_large with rfl | ⟨firstLarge, secondLarge⟩
  · rfl
  obtain ⟨more, rfl⟩ : ∃ more, capped = more + 4 := ⟨capped - 4, by omega⟩
  obtain ⟨others, rfl⟩ : ∃ others, number = others + 4 := ⟨number - 4, by omega⟩
  rfl

theorem eraseLine_standsFor (stands : csi.StandsFor exact) :
    call.eraseLine csi state = call.eraseLine exact state := by
  have limit : paramLimit = 1000000 := rfl
  unfold eraseLine
  have mode := stands.param 0 0
  generalize csi.param 0 0 = capped, exact.param 0 0 = number at mode
  rcases mode.eq_or_large with rfl | ⟨firstLarge, secondLarge⟩
  · rfl
  obtain ⟨more, rfl⟩ : ∃ more, capped = more + 3 := ⟨capped - 3, by omega⟩
  obtain ⟨others, rfl⟩ : ∃ others, number = others + 3 := ⟨number - 3, by omega⟩
  rfl

theorem deviceStatusReport_standsFor (stands : csi.StandsFor exact) :
    call.deviceStatusReport csi state = call.deviceStatusReport exact state := by
  have status := (stands.param 0 0).eq_iff (show 5 ≤ paramLimit by decide)
  have position := (stands.param 0 0).eq_iff (show 6 ≤ paramLimit by decide)
  unfold deviceStatusReport statusReport
  simp only [status, position, stands.privateMarker]

theorem setModeParam_standsFor (stands : StandsFor paramLimit capped number)
    (privateMarker enable : Bool) (state : OutputState) :
    call.setModeParam privateMarker enable state capped =
      call.setModeParam privateMarker enable state number := by
  unfold setModeParam
  simp only [stands.eq_iff (show 4 ≤ paramLimit by decide),
    stands.eq_iff (show 25 ≤ paramLimit by decide), stands.eq_iff (show 6 ≤ paramLimit by decide),
    stands.eq_iff (show 7 ≤ paramLimit by decide),
    stands.eq_iff (show 1049 ≤ paramLimit by decide)]

theorem setMode_standsFor {params numbers : List Nat}
    (stands : List.Forall₂ (StandsFor paramLimit) params numbers) (privateMarker enable : Bool)
    (state : OutputState) :
    params.foldl (call.setModeParam privateMarker enable) state =
      numbers.foldl (call.setModeParam privateMarker enable) state := by
  induction stands generalizing state with
  | nil => rfl
  | cons head tail ih =>
      rw [List.foldl_cons, List.foldl_cons, setModeParam_standsFor head]
      exact ih _

/-- No final character tells capped parameters from the exact ones. -/
theorem applyCsi_standsFor (invariant : call.Invariant state) (stands : csi.StandsFor exact) :
    call.applyCsi csi state = call.applyCsi exact state := by
  have function := stands.function
  have rowCount := rowCount_standsFor invariant stands
  unfold applyCsi
  rw [function]
  cases exact.function with
  | selectGraphicRendition => simp only [Sgr.apply_standsFor stands.params]
  | deviceStatusReport => exact deviceStatusReport_standsFor stands
  | cursorPosition =>
      simp only [cursorPosition, clampColumn_standsFor invariant (stands.positive 1),
        absoluteRow_standsFor invariant (stands.positive 0)]
  | cursorHorizontalAbsolute =>
      simp only [cursorHorizontalAbsolute, clampColumn_standsFor invariant (stands.positive 0)]
  | verticalPositionAbsolute =>
      simp only [verticalPositionAbsolute, absoluteRow_standsFor invariant (stands.positive 0)]
  | cursorLine down =>
      have moved := movedRow_standsFor invariant (stands.positive 0) (if down then 1 else -1)
      have signed (count : Nat) :
          (if down then (count : Int) else -count) = (if down then 1 else -1) * (count : Int) := by
        cases down <;> simp
      simp only [cursorLine, signed, moved]
  | cursorMove dx dy =>
      simp only [cursorMove, movedColumn_standsFor invariant (stands.positive 0),
        movedRow_standsFor invariant (stands.positive 0)]
  | insertCharacter => simp only [insertCharacter, rowCount]
  | deleteCharacter => simp only [deleteCharacter, rowCount]
  | eraseCharacter => simp only [eraseCharacter, rowCount]
  | setMargins => exact setMargins_standsFor invariant stands
  | scroll up => exact scroll_standsFor invariant stands up
  | insertLine => exact insertLine_standsFor invariant stands
  | deleteLine => exact deleteLine_standsFor invariant stands
  | eraseDisplay => exact eraseDisplay_standsFor stands
  | eraseLine => exact eraseLine_standsFor stands
  | saveCursor => simp only [stands.isEmpty]
  | setMode enable =>
      simp only [stands.privateMarker, setMode_standsFor stands.params]
  | softReset => rfl
  | restoreCursor => rfl
  | unsupported => rfl

end OutputCall

/-- A value the source computes in a machine type, as an exact integer. -/
inductive MachineValue where
  | unsigned (value : Int)
  | long (value : Int)
  | short (value : Int)
  | size (value : Int)
deriving DecidableEq, Repr

/-- The value is in the range of its type. -/
def MachineValue.Fits : MachineValue → Prop
  | unsigned value => 0 ≤ value ∧ value < 2 ^ 32
  | long value => -2 ^ 31 ≤ value ∧ value < 2 ^ 31
  | short value => -2 ^ 15 ≤ value ∧ value < 2 ^ 15
  | size value => 0 ≤ value ∧ value < 2 ^ 64

namespace Sgr

/-- The values computed from parameters that may be read as colors. -/
def machineValues (table : Vector ColorRef 16) (params : List Nat) : List MachineValue :=
  let distances (red green blue : Nat) : List MachineValue :=
    table.toList.map fun color => .unsigned (colorDistance color red green blue)
  (params.tails.flatMap fun
    | red :: green :: blue :: _ => distances (clampByte red) (clampByte green) (clampByte blue)
    | _ => []) ++
  params.flatMap fun index =>
    let (red, green, blue) := xterm256IndexToRgb index
    .unsigned red :: .unsigned green :: .unsigned blue :: distances red green blue

end Sgr

namespace OutputCall

section Values

variable (call : OutputCall)

/-- A coordinate that is clamped and narrowed. -/
def clampedValues (moved low high : Int) : List MachineValue :=
  [.long moved, .short (clampLong moved low high)]

/-- The column addressed by a one-based number. -/
def columnValues (column : Nat) : List MachineValue :=
  .unsigned ((column : Int) - 1) :: clampedValues ((column : Int) - 1) 0 (call.bufferSize.x - 1)

/-- The row addressed by a one-based number. -/
def rowValues (state : OutputState) (row : Nat) : List MachineValue :=
  let offset := if state.regs.originMode then (call.resolveVerticalRegion state.margins).1 else 0
  let rows := call.originRows state.regs state.margins
  .unsigned ((row : Int) - 1) :: clampedValues ((row : Int) - 1 + offset) rows.1 rows.2

/-- Rows that are blanked or moved by a number of lines. -/
def regionValues (top bottom : Int) (count : Nat) : List MachineValue :=
  .unsigned (bottom - top + 1) ::
    if bottom - top + 1 ≤ count then
      [.size (call.bufferSize.x * (bottom - top + 1))]
    else
      [.long count, .long (top + count), .short (top + count), .long (bottom - count),
        .short (bottom - count)]

/-- The cells of the cursor row that ICH, DCH and ECH address. -/
def lineValues (state : OutputState) (count : Nat) : List MachineValue :=
  let column := state.regs.cursor.x
  if call.cursorInside state then
    .unsigned (call.bufferSize.x - column) :: .long (column + count) ::
      .long (call.bufferSize.x - count) ::
      (List.range (call.bufferSize.x - column).toNat).map fun step : Nat =>
        MachineValue.short (column + (step : Int))
  else
    []

/-- The values `apply_csi` computes from its parameters and the state. -/
def machineValues (csi : VtCsiSequence) (state : OutputState) : List MachineValue :=
  let cursor := state.regs.cursor
  let (top, bottom) := call.resolveVerticalRegion state.margins
  let count := csi.positive 0
  match csi.function with
  | .selectGraphicRendition => Sgr.machineValues state.buffer.colorTable csi.params
  | .deviceStatusReport =>
      let window := state.buffer.windowRect
      let row := cursor.y - (if state.regs.originMode then top else window.top) + 1
      let column := cursor.x - window.left + 1
      [.long row, .unsigned (max 1 row), .long column, .unsigned (max 1 column)]
  | .cursorPosition => call.rowValues state count ++ call.columnValues (csi.positive 1)
  | .cursorHorizontalAbsolute => call.columnValues count
  | .verticalPositionAbsolute => call.rowValues state count
  | .cursorLine down =>
      let rows := call.movementRows state.regs state.margins
      .long count :: .long (-(count : Int)) ::
        clampedValues (cursor.y + (if down then (count : Int) else -count)) rows.1 rows.2
  | .cursorMove dx dy =>
      let rows := call.movementRows state.regs state.margins
      .long count :: clampedValues (cursor.x + dx * count) 0 (call.bufferSize.x - 1) ++
        clampedValues (cursor.y + dy * count) rows.1 rows.2
  | .insertCharacter | .deleteCharacter | .eraseCharacter =>
      call.lineValues state (call.rowCount csi state)
  | .setMargins =>
      let height := call.bufferSize.y.toNat
      let top := if csi.param 0 0 = 0 then 1 else csi.param 0 0
      let bottom := if csi.param 1 0 = 0 then height else csi.param 1 0
      if top < bottom ∧ bottom ≤ height then
        [.unsigned ((top : Int) - 1), .unsigned ((bottom : Int) - 1), .short ((top : Int) - 1),
          .short ((bottom : Int) - 1)]
      else
        []
  | .scroll _ =>
      if call.regionScrolls top bottom then call.regionValues top bottom count else []
  | .insertLine | .deleteLine =>
      if top ≤ cursor.y ∧ cursor.y ≤ bottom then call.regionValues cursor.y bottom count else []
  | .eraseDisplay =>
      [.size (call.bufferSize.x * call.bufferSize.y),
        .size (cursor.y * call.bufferSize.x + cursor.x + 1)]
  | .eraseLine => [.size (call.bufferSize.x - cursor.x), .size (cursor.x + 1)]
  | .softReset | .saveCursor | .restoreCursor | .setMode _ | .unsupported => []

end Values

variable {call : OutputCall} {state : OutputState} {csi : VtCsiSequence}

/-- A list of values that are all in range. -/
def AllFit (values : List MachineValue) : Prop := ∀ value ∈ values, value.Fits

theorem allFit_nil : AllFit [] := by
  intro value mem
  cases mem

theorem allFit_cons {value : MachineValue} {values : List MachineValue} (first : value.Fits)
    (rest : AllFit values) : AllFit (value :: values) := by
  intro other mem
  rcases List.mem_cons.mp mem with rfl | mem
  · exact first
  · exact rest other mem

theorem allFit_append {first second : List MachineValue} (before : AllFit first)
    (after : AllFit second) : AllFit (first ++ second) := by
  intro value mem
  rcases List.mem_append.mp mem with mem | mem
  · exact before value mem
  · exact after value mem

theorem clampedValues_fit {moved low high : Int} (near : -2 ^ 31 ≤ moved ∧ moved < 2 ^ 31)
    (bounds : 0 ≤ low ∧ low ≤ high ∧ high ≤ 32767) : AllFit (clampedValues moved low high) := by
  refine allFit_cons near (allFit_cons ?_ allFit_nil)
  have lower := le_clampLong moved bounds.2.1
  have upper := clampLong_le moved bounds.2.1
  simp only [MachineValue.Fits]
  omega

theorem positive_bounds (bounded : ∀ param ∈ csi.params, param ≤ paramBound) (index : Nat) :
    1 ≤ csi.positive index ∧ csi.positive index ≤ paramBound := by
  have value : csi.param index 1 ≤ paramBound := by
    unfold VtCsiSequence.param
    rw [List.getD_eq_getElem?_getD]
    cases found : csi.params[index]? with
    | none => decide
    | some param => exact bounded param (List.mem_of_getElem? found)
  unfold VtCsiSequence.positive
  dsimp only
  split
  · decide
  · omega

theorem columnValues_fit (invariant : call.Invariant state) {column : Nat}
    (bounds : 1 ≤ column ∧ column ≤ paramBound) : AllFit (call.columnValues column) := by
  have size := invariant.isSize
  have := size.x_pos
  have := size.x_le
  have bound : paramBound = 10000009 := rfl
  refine allFit_cons ?_ (clampedValues_fit ⟨by omega, by omega⟩ ⟨by omega, by omega, by omega⟩)
  simp only [MachineValue.Fits]
  omega

theorem rowValues_fit (invariant : call.Invariant state) {row : Nat}
    (bounds : 1 ≤ row ∧ row ≤ paramBound) : AllFit (call.rowValues state row) := by
  have region := invariant.region
  have rows := invariant.originRows_bounds state.regs
  have := invariant.isSize.y_le
  have bound : paramBound = 10000009 := rfl
  unfold rowValues
  refine allFit_cons ?_ (clampedValues_fit ?_ ⟨rows.1, rows.2.1, by omega⟩)
  · simp only [MachineValue.Fits]
    omega
  · split <;> omega

theorem regionValues_fit (invariant : call.Invariant state) {top bottom : Int} {count : Nat}
    (region : 0 ≤ top ∧ top ≤ bottom ∧ bottom < call.bufferSize.y) :
    AllFit (call.regionValues top bottom count) := by
  have size := invariant.isSize
  have := size.x_pos
  have := size.x_le
  have := size.y_le
  refine allFit_cons ?_ ?_
  · simp only [MachineValue.Fits]
    omega
  split
  · refine allFit_cons ?_ allFit_nil
    have area : call.bufferSize.x * (bottom - top + 1) ≤ 32767 * 32767 :=
      mul_le_mul (by omega) (by omega) (by omega) (by omega)
    have nonneg : 0 ≤ call.bufferSize.x * (bottom - top + 1) :=
      mul_nonneg (by omega) (by omega)
    simp only [MachineValue.Fits]
    omega
  · refine allFit_cons ?_ (allFit_cons ?_ (allFit_cons ?_ (allFit_cons ?_
      (allFit_cons ?_ allFit_nil)))) <;>
    · simp only [MachineValue.Fits]
      omega

theorem lineValues_fit (invariant : call.Invariant state) (csi : VtCsiSequence) :
    AllFit (call.lineValues state (call.rowCount csi state)) := by
  have size := invariant.isSize
  have := size.x_le
  have := invariant.cursor.x_nonneg
  have := invariant.cursor.x_lt
  have counted : (call.rowCount csi state : Int) ≤ call.bufferSize.x - state.regs.cursor.x := by
    unfold rowCount
    omega
  unfold lineValues
  dsimp only
  split
  · refine allFit_cons ?_ (allFit_cons ?_ (allFit_cons ?_ ?_))
    · simp only [MachineValue.Fits]
      omega
    · simp only [MachineValue.Fits]
      omega
    · simp only [MachineValue.Fits]
      omega
    · intro value mem
      obtain ⟨step, inside, rfl⟩ := List.mem_map.mp mem
      have := List.mem_range.mp inside
      simp only [MachineValue.Fits]
      omega
  · exact allFit_nil

theorem sgrValues_fit (table : Vector ColorRef 16) (params : List Nat) :
    AllFit (Sgr.machineValues table params) := by
  unfold Sgr.machineValues
  dsimp only
  have distances {red green blue : Nat} (redByte : red ≤ 255) (greenByte : green ≤ 255)
      (blueByte : blue ≤ 255) : AllFit (table.toList.map fun color =>
        .unsigned (Sgr.colorDistance color red green blue)) := by
    intro value mem
    obtain ⟨color, -, rfl⟩ := List.mem_map.mp mem
    have := Sgr.colorDistance_lt color redByte greenByte blueByte
    simp only [MachineValue.Fits]
    omega
  refine allFit_append ?_ ?_
  · intro value mem
    obtain ⟨tail, -, mem⟩ := List.mem_flatMap.mp mem
    split at mem
    · exact distances (Sgr.clampByte_le _) (Sgr.clampByte_le _) (Sgr.clampByte_le _) value mem
    · cases mem
  · intro value mem
    obtain ⟨index, -, mem⟩ := List.mem_flatMap.mp mem
    obtain ⟨red, green, blue⟩ := Sgr.xterm256IndexToRgb_le index
    have component {shade : Nat} (byte : shade ≤ 255) : (MachineValue.unsigned shade).Fits := by
      simp only [MachineValue.Fits]
      omega
    exact allFit_cons (component red) (allFit_cons (component green)
      (allFit_cons (component blue) (distances red green blue))) value mem

/-- A relative movement goes one cell for each count. -/
def UnitSteps : CsiFunction → Prop
  | .cursorMove dx dy => (-1 ≤ dx ∧ dx ≤ 1) ∧ (-1 ≤ dy ∧ dy ≤ 1)
  | _ => True

theorem unitSteps_ite {condition : Prop} [Decidable condition] {first second : CsiFunction}
    (left : UnitSteps first) (right : UnitSteps second) :
    UnitSteps (if condition then first else second) := by
  split
  · exact left
  · exact right

theorem unitSteps_function (csi : VtCsiSequence) : UnitSteps csi.function := by
  unfold VtCsiSequence.function
  repeat' refine unitSteps_ite ?_ ?_
  all_goals simp [UnitSteps]

/-- Every value computed from parameters the parser can read is in range. -/
theorem machineValues_fit (invariant : call.Invariant state)
    (bounded : ∀ param ∈ csi.params, param ≤ paramBound) :
    AllFit (call.machineValues csi state) := by
  have size := invariant.isSize
  have xPos := size.x_pos
  have xLe := size.x_le
  have yPos := size.y_pos
  have yLe := size.y_le
  have cursor := invariant.cursor
  have xNonneg := cursor.x_nonneg
  have xLt := cursor.x_lt
  have yNonneg := cursor.y_nonneg
  have yLt := cursor.y_lt
  have region := invariant.region
  have bound : paramBound = 10000009 := rfl
  have count := positive_bounds bounded 0
  unfold machineValues
  dsimp only
  generalize call.resolveVerticalRegion state.margins = rows at region
  obtain ⟨top, bottom⟩ := rows
  dsimp only at region ⊢
  cases function : csi.function with
  | selectGraphicRendition => exact sgrValues_fit _ _
  | deviceStatusReport =>
      obtain ⟨leftNonneg, leftLe, rightLt, topNonneg, topLe, bottomLt⟩ := invariant.buffer.window
      rw [invariant.size] at rightLt bottomLt
      have origin : 0 ≤ (if state.regs.originMode then top else state.buffer.windowRect.top) ∧
          (if state.regs.originMode then top else state.buffer.windowRect.top) ≤ 32767 := by
        split <;> omega
      generalize (if state.regs.originMode then top else state.buffer.windowRect.top) = start
        at origin
      refine allFit_cons ?_ (allFit_cons ?_ (allFit_cons ?_ (allFit_cons ?_ allFit_nil))) <;>
      · simp only [MachineValue.Fits]
        omega
  | cursorPosition =>
      exact allFit_append (rowValues_fit invariant count)
        (columnValues_fit invariant (positive_bounds bounded 1))
  | cursorHorizontalAbsolute => exact columnValues_fit invariant count
  | verticalPositionAbsolute => exact rowValues_fit invariant count
  | cursorLine down =>
      have rows := invariant.movementRows_bounds state.regs
      refine allFit_cons ?_ (allFit_cons ?_ (clampedValues_fit ?_ ⟨rows.1, rows.2.1, by omega⟩))
      · simp only [MachineValue.Fits]
        omega
      · simp only [MachineValue.Fits]
        omega
      · split <;> omega
  | cursorMove dx dy =>
      have rows := invariant.movementRows_bounds state.regs
      have directions := unitSteps_function csi
      rw [function] at directions
      have scaled {direction : Int} (unit : -1 ≤ direction ∧ direction ≤ 1) :
          -10000009 ≤ direction * (csi.positive 0 : Int) ∧
            direction * (csi.positive 0 : Int) ≤ 10000009 := by
        obtain rfl | rfl | rfl : direction = -1 ∨ direction = 0 ∨ direction = 1 := by omega
        all_goals omega
      have columns := scaled directions.1
      have lines := scaled directions.2
      refine allFit_cons ?_ (allFit_append
        (clampedValues_fit ⟨by omega, by omega⟩ ⟨by omega, by omega, by omega⟩)
        (clampedValues_fit ⟨by omega, by omega⟩ ⟨rows.1, rows.2.1, by omega⟩))
      simp only [MachineValue.Fits]
      omega
  | insertCharacter => exact lineValues_fit invariant csi
  | deleteCharacter => exact lineValues_fit invariant csi
  | eraseCharacter => exact lineValues_fit invariant csi
  | setMargins =>
      dsimp only
      have positive : 1 ≤ (if csi.param 0 0 = 0 then 1 else csi.param 0 0) := by
        split <;> omega
      generalize (if csi.param 0 0 = 0 then 1 else csi.param 0 0) = first at positive
      generalize (if csi.param 1 0 = 0 then call.bufferSize.y.toNat else csi.param 1 0) = last
      split
      · refine allFit_cons ?_ (allFit_cons ?_ (allFit_cons ?_ (allFit_cons ?_ allFit_nil))) <;>
        · simp only [MachineValue.Fits]
          omega
      · exact allFit_nil
  | scroll up =>
      dsimp only
      split
      · exact regionValues_fit invariant region
      · exact allFit_nil
  | insertLine =>
      dsimp only
      split
      · exact regionValues_fit invariant ⟨yNonneg, by omega, region.2.2⟩
      · exact allFit_nil
  | deleteLine =>
      dsimp only
      split
      · exact regionValues_fit invariant ⟨yNonneg, by omega, region.2.2⟩
      · exact allFit_nil
  | eraseDisplay =>
      have area : call.bufferSize.x * call.bufferSize.y ≤ 32767 * 32767 :=
        mul_le_mul xLe yLe (by omega) (by omega)
      have nonneg : 0 ≤ call.bufferSize.x * call.bufferSize.y := mul_nonneg (by omega) (by omega)
      have above : state.regs.cursor.y * call.bufferSize.x ≤ 32767 * 32767 :=
        mul_le_mul (by omega) xLe (by omega) (by omega)
      have aboveNonneg : 0 ≤ state.regs.cursor.y * call.bufferSize.x :=
        mul_nonneg yNonneg (by omega)
      refine allFit_cons ?_ (allFit_cons ?_ allFit_nil) <;>
      · simp only [MachineValue.Fits]
        omega
  | eraseLine =>
      refine allFit_cons ?_ (allFit_cons ?_ allFit_nil) <;>
      · simp only [MachineValue.Fits]
        omega
  | softReset => exact allFit_nil
  | saveCursor => exact allFit_nil
  | restoreCursor => exact allFit_nil
  | setMode enable => exact allFit_nil
  | unsupported => exact allFit_nil

/-- The accumulation of a digit in the `unsigned` of the source. -/
def appendDigit32 (value : UInt32) (character : WChar) : UInt32 :=
  if value ≤ 1000000 then value * 10 + (character - wc '0').toUInt32 else value

/-- The accumulation does not overflow, whatever was read before. -/
theorem appendDigit32_toNat (value : UInt32) {character : WChar}
    (digit : VtOutputParseState.isDigit character = true) :
    (appendDigit32 value character).toNat =
      VtOutputParseState.appendDigit value.toNat character := by
  have small := VtOutputParseState.digit_lt digit
  have limit : (1000000 : UInt32).toNat = 1000000 := rfl
  have ten : (10 : UInt32).toNat = 10 := rfl
  unfold appendDigit32 VtOutputParseState.appendDigit
  simp only [UInt32.le_iff_toNat_le, limit]
  split
  · rw [UInt32.toNat_add, UInt32.toNat_mul, UInt16.toNat_toUInt32, ten]
    omega
  · rfl

/-- The sequence that the parser dispatches for a body and a final character. -/
def dispatched (state : OutputState) (eightBit : Bool) (body : List WChar) (final : WChar) :
    VtCsiSequence :=
  (state.buffer.vtOutputParseState.run (csiIntroducer eightBit ++ body)).finishCsi final

/-- A sequence has the effect of the exact numbers its text spells, and no computation on
the way leaves the range of its type. -/
structure NumbersExact (call : OutputCall) (state : OutputState) (eightBit : Bool)
    (body : List WChar) (final : WChar) : Prop where
  effect : ∃ parser : VtOutputParseState, parser.phase = .ground ∧
    call.run state (csiText eightBit body final) =
      (call.applyCsi (VtCsiSequence.exact body final) state).withParser parser
  dispatches : ∃ parser : VtOutputParseState, parser.phase = .ground ∧
    call.run state (csiText eightBit body final) =
      (call.applyCsi (dispatched state eightBit body final) state).withParser parser
  digits : ∀ (value : UInt32) (character : WChar), VtOutputParseState.isDigit character = true →
    (appendDigit32 value character).toNat = VtOutputParseState.appendDigit value.toNat character
  computes : AllFit (call.machineValues (dispatched state eightBit body final) state)

theorem numbersExact (vt : call.mode.vtProcessing = true) (invariant : call.Invariant state)
    (phase : state.buffer.vtOutputParseState.phase = .ground) (eightBit : Bool)
    {body : List WChar} (short : body.length < 128)
    (plain : ∀ character ∈ body, ¬ VtCsiSequence.isFinal character) {final : WChar}
    (ends : VtCsiSequence.isFinal final) : NumbersExact call state eightBit body final := by
  obtain ⟨parser, stands, bounded, ground, ran⟩ := run_csiText vt phase eightBit short plain ends
  exact {
    effect := ⟨parser, ground, by rw [ran, applyCsi_standsFor invariant stands]⟩
    dispatches := ⟨parser, ground, ran⟩
    digits := fun value character digit => appendDigit32_toNat value digit
    computes := machineValues_fit invariant bounded }

theorem numbersExact_twoCells :
    NumbersExact (twoCells.outputCall ⟨7⟩ false) (twoCells.outputState ⟨7⟩ none) false
      [wc '0', wc '9', wc '9', wc '9', wc '9', wc '9', wc '9', wc '9', wc '9', wc '9', wc '9']
      (wc 'C') := by
  apply numbersExact (by decide) (twoCells_wellFormed.outputState ..) rfl false (by decide)
  · simp only [List.forall_mem_cons, List.not_mem_nil, false_imp_iff, implies_true, and_true]
    decide
  · decide

end OutputCall

end Conhost
