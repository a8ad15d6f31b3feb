import Conhost.Screen.Cells
import Conhost.Screen.RedundantSwitch

/-!
# The hard reset

`ESC c` returns to the main screen, resets the local copies of the registers and
clears the cells. The call commits a mode only if it differs from its value at the
start of the call, and it knows the default attributes from there. The return to the
main screen changes both behind its back, so the reset is complete exactly if the
backup agrees with what the call has cached.
-/

namespace Conhost

theorem foldl_modify_all {α : Type} (change : α → α) (items : List α) :
    (List.range items.length).foldl (fun items step => items.modify (0 + step) change) items =
      items.map change := by
  apply List.ext_getElem?
  intro position
  rw [Grid.getElem?_foldl_modify, List.getElem?_map]
  split
  · rfl
  · rename_i outside
    rw [List.getElem?_eq_none (by omega)]
    rfl

namespace ScreenCore

variable {core : ScreenCore}

/-- A run over the whole grid changes every cell. -/
theorem WellFormed.updateRun_home (valid : core.WellFormed) (change : ScreenCell → ScreenCell) :
    (core.updateRun ⟨0, 0⟩ (core.bufferSize.x.toNat * core.bufferSize.y.toNat)
      fun _ => change).core = { core with cells := core.cells.map change } := by
  have home : core.coordInRange ⟨0, 0⟩ = true :=
    valid.coordInRange_iff.mpr ⟨le_rfl, valid.size.x_pos, le_rfl, valid.size.y_pos⟩
  have positive : core.cells.length ≠ 0 := by
    have nonempty := valid.cells_nonempty
    simpa using nonempty
  have index : core.linearIndex ⟨0, 0⟩ = 0 := by simp [linearIndex]
  rw [← valid.cells, updateRun, home, if_pos (by simpa using positive), index]
  simp only [withCells, Nat.sub_zero, Nat.min_self, foldl_modify_all]

end ScreenCore

/-- The pair of fills over the whole grid. -/
theorem OutputState.fill_home {state : OutputState} (valid : state.buffer.toScreenCore.WellFormed)
    (character : WChar) (attributes : Attributes) {size : Coord}
    (same : size = state.buffer.bufferSize) :
    (state.fill ⟨0, 0⟩ character attributes (size.x.toNat * size.y.toNat)).buffer.toScreenCore =
      { state.buffer.toScreenCore with
        cells := List.replicate (size.x.toNat * size.y.toNat) ⟨character, attributes⟩ } := by
  subst same
  have first := valid.updateRun_home fun cell => { cell with character := character }
  have still := valid.of_editsCells (ScreenCore.updateRun_editsCells ⟨0, 0⟩
    (state.buffer.bufferSize.x.toNat * state.buffer.bufferSize.y.toNat)
    fun _ cell => { cell with character := character })
  have second := still.updateRun_home fun cell => { cell with attributes := attributes }
  rw [first] at still second
  have filled : (state.fill ⟨0, 0⟩ character attributes
      (state.buffer.bufferSize.x.toNat * state.buffer.bufferSize.y.toNat)).buffer.toScreenCore =
      ((state.buffer.fillOutputCharacters ⟨0, 0⟩ character
        (state.buffer.bufferSize.x.toNat * state.buffer.bufferSize.y.toNat)).core.updateRun ⟨0, 0⟩
          (state.buffer.bufferSize.x.toNat * state.buffer.bufferSize.y.toNat)
          fun _ cell => { cell with attributes := attributes }).core := rfl
  rw [filled, ScreenCore.fillOutputCharacters, first, second]
  simp only [List.map_map]
  rw [← valid.cells]
  congr 1
  apply List.ext_getElem
  · simp
  · intro position _ _
    simp

/-- Committed modes that no action changes. -/
theorem kept_modes (call : OutputCall) (autowrap insertMode : Bool) :
    Kept call fun state =>
      state.buffer.regs.autowrap = autowrap ∧ state.buffer.regs.insertMode = insertMode where
  lockstep := .of_property (fun _ modes => modes) (fun _ modes => modes) (fun _ modes => modes)
    (fun _ modes => modes) fun _ _ _ _ modes => modes
  switchScreen := by
    intro state enable modes
    unfold OutputCall.switchScreen ScreenBuffer.setVtUsingAlternateScreenBuffer
    cases enable with
    | true =>
        cases state.buffer.vtMainBackup with
        | none => exact modes
        | some saved => exact modes
    | false =>
        cases state.buffer.vtMainBackup with
        | none => exact modes
        | some saved => exact modes
  leaveAlternateScreen := by
    intro state modes
    unfold OutputCall.leaveAlternateScreen ScreenBuffer.setVtUsingAlternateScreenBuffer
    split
    · cases state.buffer.vtMainBackup with
      | none => exact modes
      | some saved => exact modes
    · exact modes
  setTitle := fun _ modes => modes
  parse := fun _ modes => modes

/-- The default attributes of the main screen. -/
def ScreenBuffer.mainDefaults (buffer : ScreenBuffer) : Attributes :=
  match buffer.vtMainBackup with
  | some saved => saved.defaultTextAttributes
  | none => buffer.defaultTextAttributes

/-- The committed origin mode of the main screen. -/
def ScreenBuffer.mainOriginMode (buffer : ScreenBuffer) : Bool :=
  match buffer.vtMainBackup with
  | some saved => saved.vtOriginModeEnabled
  | none => buffer.regs.originMode

/-- What a hard reset has to reach: the main screen, blank, with everything at its default. -/
structure Pristine (core : ScreenCore) (regs : VtRegisters) : Prop where
  main : core.vtMainBackup = none
  cells : ∀ cell ∈ core.cells, cell = ⟨0x20, core.defaultTextAttributes⟩
  cursor : regs.cursor = ⟨0, 0⟩
  visible : core.cursorVisible = true
  attributes : regs.attributes = core.defaultTextAttributes
  margins : core.vtVerticalMargins = none
  delayedWrap : regs.delayedWrap = none
  originMode : regs.originMode = false
  autowrap : regs.autowrap = true
  insertMode : regs.insertMode = false
  saved : core.savedCursorState = some ⟨⟨0, 0⟩, core.defaultTextAttributes, false, false⟩
  colorTable : core.colorTable = ScreenBuffer.defaultColorTable

namespace OutputCall

variable {call : OutputCall} {state : OutputState}

/-- The registers a reset leaves in the local copies. -/
def resetRegs (call : OutputCall) : VtRegisters where
  cursor := ⟨0, 0⟩
  attributes := call.defaultAttributes

theorem leaveAlternateScreen_main :
    (leaveAlternateScreen state).buffer.vtMainBackup = none ∧
      (leaveAlternateScreen state).buffer.defaultTextAttributes = state.buffer.mainDefaults ∧
      (leaveAlternateScreen state).buffer.regs.originMode = state.buffer.mainOriginMode := by
  unfold leaveAlternateScreen ScreenBuffer.setVtUsingAlternateScreenBuffer
    ScreenBuffer.mainDefaults ScreenBuffer.mainOriginMode
  cases backup : state.buffer.vtMainBackup with
  | none => exact ⟨backup, rfl, rfl⟩
  | some saved => exact ⟨rfl, rfl, rfl⟩

theorem ScreenCore.saveCursorState_home {core : ScreenCore} (size : core.bufferSize.IsSize)
    (attributes : Attributes) :
    (core.saveCursorState ⟨0, 0⟩ attributes false false).core =
      { core with savedCursorState := some ⟨⟨0, 0⟩, attributes, false, false⟩ } := by
  have wide := size.x_pos
  have high := size.y_pos
  have column : clampLong 0 0 (core.bufferSize.x - 1) = 0 := by
    unfold clampLong
    rw [if_neg (by omega), if_neg (by omega)]
  have row : clampLong 0 0 (core.bufferSize.y - 1) = 0 := by
    unfold clampLong
    rw [if_neg (by omega), if_neg (by omega)]
  simp only [ScreenCore.saveCursorState, column, row]
  rw [if_neg (by omega)]
  rfl

/-- The buffer after a reset, apart from what the return to the main screen has brought. -/
theorem resetScreen_core (invariant : call.Invariant state) :
    (call.resetScreen state).buffer.toScreenCore =
      { state.buffer.toScreenCore with
        colorTable := ScreenBuffer.defaultColorTable
        cursorVisible := true
        savedCursorState := some ⟨⟨0, 0⟩, call.defaultAttributes, false, false⟩
        vtVerticalMargins := none
        cells := List.replicate (call.bufferSize.x.toNat * call.bufferSize.y.toNat)
          ⟨0x20, call.defaultAttributes⟩ } := by
  have shown := (invariant.setColorTable ScreenBuffer.defaultColorTable).setCursorInfo
    state.buffer.cursorSize true
  have saved := ScreenCore.saveCursorState_home shown.buffer.core.size call.defaultAttributes
  have reset := (shown.saveCursorState ⟨0, 0⟩ call.defaultAttributes false false).resetMargins
  have cleared := @Invariant.setRegs call _ reset call.resetRegs invariant.home
  unfold resetScreen
  dsimp only
  refine (OutputState.fill_home cleared.buffer.core _ _ cleared.size.symm).trans ?_
  simp only [OutputState.resetMargins, OutputState.update, ScreenBuffer.update,
    ScreenCore.setVtVerticalMargins] at saved ⊢
  rw [saved]
  simp [ScreenCore.setCursorInfo, ScreenCore.setColorTable]

theorem resetScreen_regs (state : OutputState) : (call.resetScreen state).regs = call.resetRegs :=
  rfl

theorem resetScreen_committed (state : OutputState) :
    (call.resetScreen state).buffer.regs = state.buffer.regs :=
  ((OutputState.Holds.lockstep call state.buffer.regs state.buffer.vtMainBackup
    state.buffer.bufferSize).resetScreen ⟨rfl, rfl, rfl, rfl⟩).2.committed

/-- The picture after a reset and the reset registers agree exactly if the call knows the default
attributes of the main screen. -/
theorem hardReset_pristine_iff (invariant : call.Invariant state) :
    Pristine (call.hardReset state).buffer.toScreenCore (call.hardReset state).regs ↔
      state.buffer.mainDefaults = call.defaultAttributes := by
  have core := resetScreen_core invariant.leaveAlternateScreen
  rcases @leaveAlternateScreen_main state with ⟨main, defaults, -⟩
  have cells : ∀ cell ∈ (call.hardReset state).buffer.cells,
      cell = ⟨0x20, call.defaultAttributes⟩ := by
    intro cell member
    rw [show (call.hardReset state).buffer.cells = _ from congrArg ScreenCore.cells core] at member
    exact List.eq_of_mem_replicate member
  have known : (call.hardReset state).buffer.defaultTextAttributes = state.buffer.mainDefaults :=
    (congrArg ScreenCore.defaultTextAttributes core).trans defaults
  constructor
  · intro pristine
    rw [← known]
    exact pristine.attributes.symm
  · intro same
    rw [same] at known
    exact
      { main := (congrArg ScreenCore.vtMainBackup core).trans main
        cells := by rw [known]; exact cells
        cursor := rfl
        visible := congrArg ScreenCore.cursorVisible core
        attributes := known.symm
        margins := congrArg ScreenCore.vtVerticalMargins core
        delayedWrap := rfl
        originMode := rfl
        autowrap := rfl
        insertMode := rfl
        saved := by
          rw [known]
          exact congrArg ScreenCore.savedCursorState core
        colorTable := congrArg ScreenCore.colorTable core }

end OutputCall

namespace Pristine

variable {core : ScreenCore} {regs : VtRegisters}

theorem withParser (pristine : Pristine core regs) (parser : VtOutputParseState) :
    Pristine { core with vtOutputParseState := parser } regs :=
  ⟨pristine.main, pristine.cells, pristine.cursor, pristine.visible, pristine.attributes,
    pristine.margins, pristine.delayedWrap, pristine.originMode, pristine.autowrap,
    pristine.insertMode, pristine.saved, pristine.colorTable⟩

theorem withParser_iff {parser : VtOutputParseState} :
    Pristine { core with vtOutputParseState := parser } regs ↔ Pristine core regs :=
  ⟨fun pristine => pristine.withParser core.vtOutputParseState,
    fun pristine => pristine.withParser parser⟩

end Pristine

/-- What a hard reset commits: the reset registers, but for the origin mode. -/
theorem commit_resetRegs {call : OutputCall} {state : OutputState} {original : VtRegisters}
    (regs : state.regs = call.resetRegs)
    (autowrap : state.buffer.regs.autowrap = original.autowrap)
    (insertMode : state.buffer.regs.insertMode = original.insertMode) :
    (state.commit original).regs =
      { call.resetRegs with
        originMode := !original.originMode && state.buffer.regs.originMode } := by
  rw [OutputState.commit_regs, regs, autowrap, insertMode]
  simp only [OutputCall.resetRegs, VtRegisters.mk.injEq, true_and]
  refine ⟨?_, ?_, ?_⟩
  · cases original.autowrap <;> rfl
  · cases original.originMode <;> rfl
  · cases original.insertMode <;> rfl

theorem hardReset_commit_iff {call : OutputCall} {state : OutputState} {original : VtRegisters}
    (invariant : call.Invariant state)
    (autowrap : state.buffer.regs.autowrap = original.autowrap)
    (insertMode : state.buffer.regs.insertMode = original.insertMode)
    (parser : VtOutputParseState) :
    let after := (call.hardReset state).withParser parser
    Pristine after.buffer.toScreenCore after.regs ∧
        Pristine (after.commit original).toScreenCore (after.commit original).regs ↔
      state.buffer.mainDefaults = call.defaultAttributes ∧
        (original.originMode = true ∨ state.buffer.mainOriginMode = false) := by
  have modes : (call.hardReset state).buffer.regs.autowrap = original.autowrap ∧
      (call.hardReset state).buffer.regs.insertMode = original.insertMode :=
    (kept_modes call original.autowrap original.insertMode).perform ⟨autowrap, insertMode⟩
      .hardReset
  have originMode : (call.hardReset state).buffer.regs.originMode =
      state.buffer.mainOriginMode := by
    rw [OutputCall.hardReset, OutputCall.resetScreen_committed]
    exact OutputCall.leaveAlternateScreen_main.2.2
  have regs : (call.hardReset state).regs = call.resetRegs := OutputCall.resetScreen_regs _
  have pristine_iff := OutputCall.hardReset_pristine_iff invariant
  generalize call.hardReset state = reset at modes originMode regs pristine_iff ⊢
  intro after
  have live : Pristine after.buffer.toScreenCore after.regs ↔
      state.buffer.mainDefaults = call.defaultAttributes :=
    Pristine.withParser_iff.trans pristine_iff
  have committed : (after.commit original).regs =
      { call.resetRegs with
        originMode := !original.originMode && state.buffer.mainOriginMode } := by
    rw [← originMode]
    exact commit_resetRegs regs modes.1 modes.2
  rw [live, OutputState.commit_toScreenCore]
  constructor
  · rintro ⟨same, pristine⟩
    refine ⟨same, ?_⟩
    have cleared := pristine.originMode
    rw [committed] at cleared
    cases known : original.originMode with
    | true => exact .inl rfl
    | false =>
        right
        simpa only [known, Bool.not_false, Bool.true_and] using cleared
  · rintro ⟨same, cleared⟩
    have off : (!original.originMode && state.buffer.mainOriginMode) = false := by
      rcases cleared with on | off
      · rw [on]
        rfl
      · rw [off, Bool.and_false]
    rw [off] at committed
    refine ⟨same, ?_⟩
    rw [committed, show { call.resetRegs with originMode := false } = after.regs from regs.symm]
    exact live.mpr same

/-- A hard reset is complete, in the running call and for the next one, exactly if the main screen
has the default attributes the call knows and no origin mode that the call would not clear. -/
theorem hardReset_complete_iff (buffer : ScreenBuffer) (mode : OutputMode)
    (title : Option TitleState) (answerQueries : Bool) (text : List WChar) (character : WChar)
    (valid : buffer.WellFormed) (vt : mode.vtProcessing = true)
    (dispatches : (buffer.loopState mode title answerQueries
      text).buffer.vtOutputParseState.action character = .hardReset) :
    let before := buffer.loopState mode title answerQueries text
    let after := buffer.loopState mode title answerQueries (text ++ [character])
    let committed := (applyTextToScreenBuffer buffer (text ++ [character]) mode title
      answerQueries).buffer
    Pristine after.buffer.toScreenCore after.regs ∧
        Pristine committed.toScreenCore committed.regs ↔
      before.buffer.mainDefaults = buffer.defaultTextAttributes ∧
        (buffer.regs.originMode = true ∨ before.buffer.mainOriginMode = false) := by
  have invariant : (buffer.outputCall mode answerQueries).Invariant
      (buffer.loopState mode title answerQueries text) :=
    (valid.outputState mode title answerQueries).run text
  have modes : (buffer.loopState mode title answerQueries text).buffer.regs.autowrap =
        buffer.regs.autowrap ∧
      (buffer.loopState mode title answerQueries text).buffer.regs.insertMode =
        buffer.regs.insertMode := by
    apply (kept_modes _ _ _).run vt
    unfold ScreenBuffer.outputState
    rw [if_pos vt]
    exact ⟨rfl, rfl⟩
  have step := buffer.loopState_append_singleton title answerQueries vt text character
  have committed : (applyTextToScreenBuffer buffer (text ++ [character]) mode title
      answerQueries).buffer =
        (buffer.loopState mode title answerQueries (text ++ [character])).commit
          buffer.regs := by
    have wide := valid.core.size.x_pos
    have high := valid.core.size.y_pos
    unfold applyTextToScreenBuffer
    rw [if_neg (by omega)]
    rfl
  dsimp only at step ⊢
  rw [committed, step, dispatches]
  exact hardReset_commit_iff invariant modes.1 modes.2 _

/-- The alternate screen is shown, and the call has written a red `Y` before the reset. -/
theorem hardReset_complete_iff_alternate :
    let alternate :=
      (applyTextToScreenBuffer twoCells ([wc 'X'] ++ enterText false) ⟨7⟩ none true).buffer
    let text := [0x1b, wc '[', wc '3', wc '1', wc 'm', wc 'Y', 0x1b]
    let after := alternate.loopState ⟨7⟩ none true (text ++ [wc 'c'])
    let committed := (applyTextToScreenBuffer alternate (text ++ [wc 'c']) ⟨7⟩ none true).buffer
    alternate.vtMainBackup.isSome = true ∧ Pristine after.buffer.toScreenCore after.regs ∧
      Pristine committed.toScreenCore committed.regs := by
  intro alternate text after committed
  have valid : alternate.WellFormed :=
    applyTextToScreenBuffer_wellFormed twoCells_wellFormed _ ⟨7⟩ none true
  refine ⟨by decide +kernel, ?_⟩
  apply (hardReset_complete_iff alternate ⟨7⟩ none true text (wc 'c') valid (by decide)
    (by decide +kernel)).mpr
  exact ⟨by decide +kernel, .inr (by decide +kernel)⟩

/-- The main screen is left in origin mode, which is then switched off on the alternate screen: the
reset in the call after that brings it back. -/
theorem hardReset_keeps_originMode :
    let origin (final : WChar) : List WChar := [0x1b, wc '[', wc '?', wc '6', final]
    let buffer := (applyCalls ⟨7⟩ true ⟨twoCells, none, []⟩
      [origin (wc 'h'), enterText false, origin (wc 'l')]).buffer
    let committed := (applyTextToScreenBuffer buffer [0x1b, wc 'c'] ⟨7⟩ none true).buffer
    buffer.vtOutputParseState.phase = .ground ∧ buffer.regs.originMode = false ∧
      committed.regs.originMode = true ∧ ¬Pristine committed.toScreenCore committed.regs := by
  intro origin buffer committed
  have kept : committed.regs.originMode = true := by decide +kernel
  refine ⟨by decide +kernel, by decide +kernel, kept, ?_⟩
  intro pristine
  rw [pristine.originMode] at kept
  cases kept

end Conhost
