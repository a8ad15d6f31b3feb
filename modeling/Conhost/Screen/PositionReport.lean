import Conhost.Screen.CsiNumbers
import Conhost.Screen.CursorRoundTrip

/-!
# Position reports

The report of the cursor position is relative to the window, its row in origin mode to
the top margin. A cursor position command takes its numbers relative to the buffer, and
its row in origin mode relative to the top margin and clamped to the margins. Sending a
report back therefore moves the cursor by the corner of the window, and into the margins.
-/

namespace Conhost

open VtCsiSequence VtOutputParseState

/-- The decimal digits of a number as text. -/
def digitText (value : Nat) : List WChar := (Nat.toDigits 10 value).map wc

/-- The body of a cursor position command. -/
def positionBody (row column : Nat) : List WChar := digitText row ++ wc ';' :: digitText column

/-- The report of a cursor position. -/
def positionReport (row column : Nat) : List Byte :=
  [0x1b, bc '['] ++ OutputCall.decimal row ++ [bc ';'] ++ OutputCall.decimal column ++ [bc 'R']

theorem isDigit_digitChar {digit : Nat} (small : digit < 10) :
    isDigit (wc digit.digitChar) = true ∧ (wc digit.digitChar - wc '0').toNat = digit := by
  have all : ∀ digit < 10,
      isDigit (wc digit.digitChar) = true ∧ (wc digit.digitChar - wc '0').toNat = digit := by
    decide
  exact all digit small

theorem digitText_eq (value : Nat) :
    digitText value =
      if value < 10 then [wc value.digitChar]
      else digitText (value / 10) ++ [wc (value % 10).digitChar] := by
  unfold digitText
  conv_lhs => rw [Nat.toDigits_eq_if (by decide)]
  split <;> simp

/-- The text of a number consists of digits and spells the number. -/
theorem digitText_spells (value : Nat) :
    (∀ character ∈ digitText value, isDigit character = true) ∧
      fieldValue (digitText value) = value := by
  induction value using Nat.strongRecOn with
  | ind value ih =>
    rw [digitText_eq]
    split
    · rename_i small
      obtain ⟨digit, spelled⟩ := isDigit_digitChar small
      refine ⟨by simpa using digit, ?_⟩
      have read := @fieldValue_digit [] _ digit
      rw [List.nil_append, spelled] at read
      rw [read]
      simp [Numeral.shift, fieldValue, Numeral.value]
    · rename_i large
      obtain ⟨digit, spelled⟩ := isDigit_digitChar (Nat.mod_lt value (by decide : 0 < 10))
      obtain ⟨front, read⟩ := ih (value / 10) (by omega)
      constructor
      · intro character mem
        rcases List.mem_append.mp mem with mem | mem
        · exact front character mem
        · rw [List.mem_singleton.mp mem]
          exact digit
      · rw [fieldValue_digit digit, read, spelled, Numeral.shift]
        omega

theorem digitText_ne_nil (value : Nat) : digitText value ≠ [] := by
  unfold digitText
  simp [Nat.toDigits_ne_nil]

theorem digitText_length {value : Nat} (bounded : value < 10 ^ 5) :
    (digitText value).length ≤ 5 := by
  unfold digitText
  rw [List.length_map]
  exact (Nat.length_toDigits_le_iff (by decide) (by decide)).mpr bounded

theorem not_isFinal_of_isDigit {character : WChar} (digit : isDigit character = true) :
    ¬ isFinal character := by
  intro final
  simp only [isDigit, Bool.and_eq_true, decide_eq_true_eq, UInt16.le_iff_toNat_le] at digit
  have least := UInt16.le_iff_toNat_le.mp final.1
  have nine : (wc '9').toNat = 57 := rfl
  have at' : (0x40 : UInt16).toNat = 64 := rfl
  omega

/-- The numbers of a body of digits. -/
theorem bodyNumbers_digits {digits : List WChar} (nonempty : digits ≠ [])
    (all : ∀ character ∈ digits, isDigit character = true) :
    bodyNumbers digits = [fieldValue digits] := by
  obtain ⟨first, rest, rfl⟩ := List.exists_cons_of_ne_nil nonempty
  have none : ∀ character ∈ first :: rest, isSeparator character = false := by
    intro character mem
    have digit := all character mem
    by_contra separator
    have isSep : character = wc ';' := by simpa [isSeparator] using separator
    rw [isSep] at digit
    cases digit
  unfold bodyNumbers
  rw [if_pos (by simp [all first List.mem_cons_self]), List.splitOnP_eq_singleton none]
  rfl

theorem bodyNumbers_positionBody (row column : Nat) :
    bodyNumbers (positionBody row column) = [row, column] := by
  have numbers (value : Nat) : bodyNumbers (digitText value) = [value] := by
    obtain ⟨digits, spells⟩ := digitText_spells value
    rw [bodyNumbers_digits (digitText_ne_nil value) digits, spells]
  unfold positionBody
  rw [bodyNumbers_append (by rw [numbers]; simp) (by rw [numbers]; simp), numbers, numbers]
  rfl

theorem positionBody_plain (row column : Nat) :
    ∀ character ∈ positionBody row column, ¬ isFinal character := by
  intro character mem
  rcases List.mem_append.mp mem with mem | mem
  · exact not_isFinal_of_isDigit ((digitText_spells row).1 character mem)
  rcases List.mem_cons.mp mem with rfl | mem
  · decide
  · exact not_isFinal_of_isDigit ((digitText_spells column).1 character mem)

/-- A report holds the body of the command that replays it. -/
theorem positionReport_units (row column : Nat) :
    (positionReport row column).map UInt8.toUInt16 =
      [0x1b, wc '['] ++ positionBody row column ++ [wc 'R'] := by
  have digits (value : Nat) : (OutputCall.decimal value).map UInt8.toUInt16 = digitText value := by
    unfold OutputCall.decimal digitText
    rw [List.map_map]
    refine List.map_congr_left fun character mem => ?_
    have digit := Nat.isDigit_of_mem_toDigits (by decide) (by decide) mem
    simp only [Char.isDigit, Bool.and_eq_true, decide_eq_true_eq, ge_iff_le,
      UInt32.le_iff_toNat_le] at digit
    have small : character.toNat < 256 := Nat.lt_of_le_of_lt digit.2 (by decide)
    have fits : character.toNat < UInt16.size := Nat.lt_trans small (by decide)
    apply UInt16.toNat_inj.mp
    rw [Function.comp_apply, UInt8.toNat_toUInt16, UInt8.toNat_ofNat_of_lt' small,
      UInt16.toNat_ofNat_of_lt' fits]
  unfold positionReport positionBody
  simp only [List.map_append, List.map_cons, List.map_nil, digits]
  simp

theorem positionReport_injective {row column otherRow otherColumn : Nat}
    (same : positionReport row column = positionReport otherRow otherColumn) :
    row = otherRow ∧ column = otherColumn := by
  have units := congrArg (List.map UInt8.toUInt16) same
  rw [positionReport_units, positionReport_units] at units
  have bodies : positionBody row column = positionBody otherRow otherColumn := by
    simpa using units
  have numbers := congrArg bodyNumbers bodies
  rw [bodyNumbers_positionBody, bodyNumbers_positionBody] at numbers
  simpa using numbers

namespace OutputCall

variable {call : OutputCall} {state : OutputState}

/-- Where the cursor is after its report has been sent back. -/
def replayed (call : OutputCall) (state : OutputState) : Coord :=
  let cursor := state.regs.cursor
  let window := state.buffer.windowRect
  let (top, bottom) := call.resolveVerticalRegion state.margins
  ⟨max 0 (cursor.x - window.left),
    if state.regs.originMode then clampLong cursor.y top bottom
    else max 0 (cursor.y - window.top)⟩

/-- The line the report counts from. -/
def reportOrigin (call : OutputCall) (state : OutputState) : Int :=
  if state.regs.originMode then (call.resolveVerticalRegion state.margins).1
  else state.buffer.windowRect.top

/-- The reported row. -/
def reportedRow (call : OutputCall) (state : OutputState) : Nat :=
  (max 1 (state.regs.cursor.y - call.reportOrigin state + 1)).toNat

/-- The reported column. -/
def reportedColumn (state : OutputState) : Nat :=
  (max 1 (state.regs.cursor.x - state.buffer.windowRect.left + 1)).toNat

theorem reportOrigin_nonneg (invariant : call.Invariant state) : 0 ≤ call.reportOrigin state := by
  have region := invariant.region
  have above := invariant.buffer.window.top_nonneg
  unfold reportOrigin
  split
  · exact region.1
  · exact above

/-- Both reported numbers are positive and have at most five digits. -/
theorem reported_bounds (invariant : call.Invariant state) :
    (1 ≤ call.reportedRow state ∧ call.reportedRow state < 10 ^ 5) ∧
      1 ≤ reportedColumn state ∧ reportedColumn state < 10 ^ 5 := by
  have origin := reportOrigin_nonneg invariant
  have left := invariant.buffer.window.left_nonneg
  have size := invariant.isSize
  have wide := size.x_le
  have high := size.y_le
  have right := invariant.cursor.x_lt
  have below := invariant.cursor.y_lt
  unfold reportedRow reportedColumn
  omega

/-- The sequence of a report request. -/
theorem exact_request : VtCsiSequence.exact [wc '6'] (wc 'n') =
    { final := wc 'n', privateMarker := false, exclamationMarker := false, params := [6] } := by
  decide +kernel

theorem applyCsi_request (answers : call.answerQueries = true) :
    call.applyCsi (VtCsiSequence.exact [wc '6'] (wc 'n')) state =
      { state with
        replies :=
          state.replies ++ [positionReport (call.reportedRow state) (reportedColumn state)] } := by
  have report : call.applyCsi (VtCsiSequence.exact [wc '6'] (wc 'n')) state =
      call.deviceStatusReport (VtCsiSequence.exact [wc '6'] (wc 'n')) state := rfl
  rw [report, exact_request]
  unfold deviceStatusReport statusReport
  simp [VtCsiSequence.param, answers, positionReport, reportedRow, reportedColumn, reportOrigin]

theorem applyCsi_position {row column : Nat} (rowPositive : 1 ≤ row)
    (columnPositive : 1 ≤ column) :
    call.applyCsi (VtCsiSequence.exact (positionBody row column) (wc 'H')) state =
      { state with
        regs.cursor :=
          ⟨call.clampColumn ((column : Int) - 1),
            call.absoluteRow state.regs state.margins row⟩ } := by
  have position : call.applyCsi (VtCsiSequence.exact (positionBody row column) (wc 'H')) state =
      call.cursorPosition (VtCsiSequence.exact (positionBody row column) (wc 'H')) state := rfl
  have params : (VtCsiSequence.exact (positionBody row column) (wc 'H')).params =
      [row, column] := by
    simp only [VtCsiSequence.exact, bodyNumbers_positionBody]
    rfl
  rw [position]
  unfold cursorPosition VtCsiSequence.positive VtCsiSequence.param
  rw [params]
  simp only [List.getD_cons_zero, List.getD_cons_succ]
  rw [if_neg (by omega), if_neg (by omega)]

/-- The column the replayed command addresses. -/
theorem replayed_column (invariant : call.Invariant state) :
    call.clampColumn ((reportedColumn state : Int) - 1) = (call.replayed state).x := by
  have left := invariant.buffer.window.left_nonneg
  have right := invariant.cursor.x_lt
  have column : (reportedColumn state : Int) - 1 =
      max 0 (state.regs.cursor.x - state.buffer.windowRect.left) := by
    unfold reportedColumn
    omega
  rw [column, clampColumn_inside invariant.isSize (by omega)
    (by have := invariant.isSize.x_pos; omega)]
  rfl

/-- The row the replayed command addresses. -/
theorem replayed_row (invariant : call.Invariant state) :
    call.absoluteRow state.regs state.margins (call.reportedRow state) =
      (call.replayed state).y := by
  have region := invariant.region
  have size := invariant.isSize
  have high := size.y_le
  have tall := size.y_pos
  have below := invariant.cursor.y_lt
  have bounds := invariant.originRows_bounds state.regs
  unfold absoluteRow clampRow
  rw [toShort_clampLong (by omega) bounds.2.1 (by omega)]
  unfold originRows reportedRow reportOrigin replayed
  cases state.regs.originMode with
  | true =>
      simp only [if_true]
      generalize call.resolveVerticalRegion state.margins = rows at region
      unfold clampLong
      split_ifs <;> omega
  | false =>
      have above := invariant.buffer.window.top_nonneg
      simp only [Bool.false_eq_true, if_false]
      rw [clampLong_eq_self (by omega) (by omega)]
      omega

/-- The report and the command count the cursor from the same origin: the window starts
with the buffer or the cursor is at its edge, and in origin mode the cursor is inside the
margins. -/
def OriginsAgree (call : OutputCall) (state : OutputState) : Prop :=
  (state.buffer.windowRect.left = 0 ∨ state.regs.cursor.x = 0) ∧
    if state.regs.originMode then
      (call.resolveVerticalRegion state.margins).1 ≤ state.regs.cursor.y ∧
        state.regs.cursor.y ≤ (call.resolveVerticalRegion state.margins).2
    else state.buffer.windowRect.top = 0 ∨ state.regs.cursor.y = 0

theorem replayed_eq_iff (invariant : call.Invariant state) :
    call.replayed state = state.regs.cursor ↔ OriginsAgree call state := by
  have region := invariant.region
  have window := invariant.buffer.window
  have left := window.left_nonneg
  have top := window.top_nonneg
  have column := invariant.cursor.x_nonneg
  have row := invariant.cursor.y_nonneg
  have columns : max 0 (state.regs.cursor.x - state.buffer.windowRect.left) =
      state.regs.cursor.x ↔ state.buffer.windowRect.left = 0 ∨ state.regs.cursor.x = 0 := by
    omega
  have parts : call.replayed state = state.regs.cursor ↔
      (call.replayed state).x = state.regs.cursor.x ∧
        (call.replayed state).y = state.regs.cursor.y := by
    generalize call.replayed state = position, state.regs.cursor = cursor
    cases position
    cases cursor
    simp only [Coord.mk.injEq]
  rw [parts, replayed]
  refine and_congr columns ?_
  cases state.regs.originMode with
  | true =>
      simp only [if_true]
      generalize call.resolveVerticalRegion state.margins = rows at region
      unfold clampLong
      split_ifs <;> omega
  | false =>
      simp only [Bool.false_eq_true, if_false]
      omega

/-- Asking for the position and sending the answer back. -/
structure PositionReplay (call : OutputCall) (state : OutputState) : Prop where
  reports : ∀ eightBit : Bool, ∃ (row column : Nat) (parser : VtOutputParseState),
    parser.phase = .ground ∧ call.run state (csiText eightBit [wc '6'] (wc 'n')) =
      { state with replies := state.replies ++ [positionReport row column] }.withParser parser
  replays : ∀ (asked sent : Bool) (row column : Nat),
    (call.run state (csiText asked [wc '6'] (wc 'n'))).replies =
        state.replies ++ [positionReport row column] →
      ∃ parser : VtOutputParseState, parser.phase = .ground ∧
        call.run state (csiText sent (positionBody row column) (wc 'H')) =
          { state with regs.cursor := call.replayed state }.withParser parser
  restores : call.replayed state = state.regs.cursor ↔ OriginsAgree call state

/-- The request adds one report. -/
theorem run_request (vt : call.mode.vtProcessing = true) (answers : call.answerQueries = true)
    (invariant : call.Invariant state)
    (phase : state.buffer.vtOutputParseState.phase = .ground) (eightBit : Bool) :
    ∃ parser : VtOutputParseState, parser.phase = .ground ∧
      call.run state (csiText eightBit [wc '6'] (wc 'n')) =
        { state with
          replies :=
            state.replies ++
              [positionReport (call.reportedRow state) (reportedColumn state)] }.withParser
          parser := by
  obtain ⟨parser, stands, -, ground, ran⟩ :=
    run_csiText vt phase eightBit (show [wc '6'].length < 128 by decide)
      (List.forall_mem_singleton.mpr (by decide)) (show isFinal (wc 'n') by decide)
  rw [applyCsi_standsFor invariant stands, applyCsi_request answers] at ran
  exact ⟨parser, ground, ran⟩

/-- The command moves the cursor to the replayed position. -/
theorem run_replay (vt : call.mode.vtProcessing = true) (invariant : call.Invariant state)
    (phase : state.buffer.vtOutputParseState.phase = .ground) (eightBit : Bool) :
    ∃ parser : VtOutputParseState, parser.phase = .ground ∧
      call.run state (csiText eightBit
          (positionBody (call.reportedRow state) (reportedColumn state)) (wc 'H')) =
        { state with regs.cursor := call.replayed state }.withParser parser := by
  obtain ⟨⟨rowPositive, rowShort⟩, columnPositive, columnShort⟩ := reported_bounds invariant
  have short : (positionBody (call.reportedRow state) (reportedColumn state)).length < 128 := by
    have rowLength := digitText_length rowShort
    have columnLength := digitText_length columnShort
    unfold positionBody
    rw [List.length_append, List.length_cons]
    omega
  obtain ⟨parser, stands, -, ground, ran⟩ :=
    run_csiText vt phase eightBit short (positionBody_plain _ _) (show isFinal (wc 'H') by decide)
  rw [applyCsi_standsFor invariant stands, applyCsi_position rowPositive columnPositive,
    replayed_column invariant, replayed_row invariant] at ran
  exact ⟨parser, ground, ran⟩

theorem positionReplay (vt : call.mode.vtProcessing = true) (answers : call.answerQueries = true)
    (invariant : call.Invariant state)
    (phase : state.buffer.vtOutputParseState.phase = .ground) : PositionReplay call state where
  reports := by
    intro eightBit
    exact ⟨_, _, run_request vt answers invariant phase eightBit⟩
  replays := by
    intro asked sent row column reply
    obtain ⟨_, _, ran⟩ := run_request vt answers invariant phase asked
    rw [ran] at reply
    have reports : state.replies ++
        [positionReport (call.reportedRow state) (reportedColumn state)] =
          state.replies ++ [positionReport row column] := reply
    obtain ⟨rfl, rfl⟩ := positionReport_injective (by simpa using reports)
    exact run_replay vt invariant phase sent
  restores := replayed_eq_iff invariant

/-- Four rows of which the window shows two. -/
def fourRows : ScreenBuffer :=
  ScreenBuffer.create {
    bufferSize := ⟨2, 4⟩
    windowSize := ⟨2, 2⟩
    maximumWindowSize := ⟨2, 2⟩
    colorTable := ScreenBuffer.defaultColorTable }

/-- Three lines have scrolled the window by one row. The replayed report moves the cursor up by
that row, and in origin mode it leaves the cursor where it is. -/
theorem positionReplay_scrolled :
    let lines := [wc 'A', 0x0d, 0x0a, wc 'B', 0x0d, 0x0a, wc 'C']
    let buffer := (applyTextToScreenBuffer fourRows lines ⟨7⟩ none true).buffer
    let call := buffer.outputCall ⟨7⟩ true
    let start := buffer.outputState ⟨7⟩ none
    let origin := csiText false [wc '2', wc ';', wc '3'] (wc 'r') ++
      csiText false [wc '?', wc '6'] (wc 'h') ++ [0x0a, wc 'X']
    PositionReplay call start ∧ start.regs.cursor = ⟨1, 2⟩ ∧ call.replayed start = ⟨1, 1⟩ ∧
      PositionReplay call (call.run start origin) ∧
      (call.run start origin).regs.originMode = true ∧
      call.replayed (call.run start origin) = (call.run start origin).regs.cursor := by
  intro lines buffer call start origin
  have created : fourRows.WellFormed := by
    apply ScreenBuffer.create_wellFormed
    constructor <;> decide
  have valid : buffer.WellFormed := applyTextToScreenBuffer_wellFormed created lines ⟨7⟩ none true
  have invariant : call.Invariant start := valid.outputState ..
  refine ⟨?_, by decide +kernel, by decide +kernel, ?_, by decide +kernel, by decide +kernel⟩
  · exact positionReplay (by decide) rfl invariant (by decide +kernel)
  · exact positionReplay (by decide) rfl (invariant.run origin) (by decide +kernel)

/-- Sending the report back leaves the cursor where it was. -/
def Replayable (call : OutputCall) (state : OutputState) : Prop :=
  ∀ (asked sent : Bool) (row column : Nat),
    (call.run state (csiText asked [wc '6'] (wc 'n'))).replies =
        state.replies ++ [positionReport row column] →
      (call.run state (csiText sent (positionBody row column) (wc 'H'))).regs.cursor =
        state.regs.cursor

/-- Two cells of which the window shows the second one, with the cursor on it. -/
def secondCell : ScreenBuffer :=
  { twoCells with
    windowRect := ⟨1, 0, 1, 0⟩
    regs := { twoCells.regs with cursor := ⟨1, 0⟩ } }

/-- In a scrolled window the cursor is lost. -/
theorem not_replayable :
    ¬ ∀ (call : OutputCall) (state : OutputState), call.mode.vtProcessing = true →
      call.answerQueries = true → call.Invariant state →
      state.buffer.vtOutputParseState.phase = .ground → Replayable call state := by
  intro every
  have valid : secondCell.WellFormed :=
    ⟨twoCells_wellFormed.core, ⟨by decide, by decide, by decide, by decide⟩,
      ⟨by decide, by decide, by decide, by decide, by decide, by decide⟩⟩
  have kept := every (secondCell.outputCall ⟨7⟩ true) (secondCell.outputState ⟨7⟩ none)
    (by decide) rfl (valid.outputState ..) rfl false false 1 1 (by decide +kernel)
  have moved : ((secondCell.outputCall ⟨7⟩ true).run (secondCell.outputState ⟨7⟩ none)
      (csiText false (positionBody 1 1) (wc 'H'))).regs.cursor ≠ ⟨1, 0⟩ := by
    decide +kernel
  exact moved kept

end OutputCall

end Conhost
