import Conhost.Screen.AlternateScreen

/-!
# Switches to the screen that is already shown

`CSI ? 1049 h` on the alternate screen and `CSI ? 1049 l` on the main one leave the
buffer alone, but the call then reloads its local copies as after a switch. What it
has written since the last commit is lost from the cursor, the attributes and the
origin mode.

The module starts with the properties of the loop state that no action breaks, not
even a switch of screens or a hard reset.
-/

namespace Conhost

/-- A property of the loop state that the primitive changes, the switches of screens
and the parser keep. -/
structure Kept (call : OutputCall) (property : OutputState → Prop) : Prop where
  lockstep : Lockstep call fun left right => left = right ∧ property left
  switchScreen : ∀ {state} (enable : Bool), property state →
    property (OutputCall.switchScreen enable state)
  leaveAlternateScreen : ∀ {state}, property state →
    property (OutputCall.leaveAlternateScreen state)
  setTitle : ∀ {state} (title : Option TitleState), property state →
    property { state with title := title }
  parse : ∀ {state} (parser : VtOutputParseState), property state →
    property (state.withParser parser)

namespace Kept

variable {call : OutputCall} {property : OutputState → Prop} {state : OutputState}

theorem setModeParam (kept : Kept call property) (holds : property state)
    (privateMarker enable : Bool) (param : Nat) :
    property (call.setModeParam privateMarker enable state param) := by
  by_cases switches : param = 1049
  · subst switches
    unfold OutputCall.setModeParam
    rw [if_neg (by omega), if_neg (by omega), if_neg (by omega), if_neg (by omega), if_pos rfl]
    exact kept.switchScreen enable holds
  · exact (kept.lockstep.setModeParam ⟨rfl, holds⟩ privateMarker enable switches).2

theorem applyCsi (kept : Kept call property) (holds : property state) (csi : VtCsiSequence) :
    property (call.applyCsi csi state) := by
  by_cases modes : ∃ enable, csi.function = .setMode enable
  · rcases modes with ⟨enable, function⟩
    unfold OutputCall.applyCsi
    rw [function]
    dsimp only
    generalize csi.params = params
    induction params generalizing state with
    | nil => exact holds
    | cons param params ih => exact ih (kept.setModeParam holds csi.privateMarker enable param)
  · have other : ∀ enable, csi.function = .setMode enable → 1049 ∉ csi.params := by
      intro enable function
      exact absurd ⟨enable, function⟩ modes
    exact (kept.lockstep.applyCsi ⟨rfl, holds⟩ csi other).2

theorem perform (kept : Kept call property) (holds : property state) (action : VtAction) :
    property (call.perform state action) := by
  have same : state = state ∧ property state := ⟨rfl, holds⟩
  cases action with
  | nothing => exact holds
  | text character => exact (kept.lockstep.textCharacter same character).2
  | sequence csi => exact kept.applyCsi holds csi
  | saveCursor => exact (kept.lockstep.saveCursor same).2
  | restoreCursor => exact (kept.lockstep.restoreCursor same).2
  | lineFeed => exact (kept.lockstep.lineFeed same).2
  | reverseLineFeed => exact (kept.lockstep.reverseLineFeed same).2
  | advanceLine => exact (kept.lockstep.advanceLine same).2
  | hardReset =>
      exact (kept.lockstep.resetScreen ⟨rfl, kept.leaveAlternateScreen holds⟩).2
  | screenAlignment => exact (kept.lockstep.screenAlignment same).2
  | setTitle title => exact kept.setTitle _ holds

theorem run (kept : Kept call property) (vt : call.mode.vtProcessing = true)
    (holds : property state) (text : List WChar) : property (call.run state text) := by
  induction text generalizing state with
  | nil => exact holds
  | cons character text ih =>
      rw [OutputCall.run_cons, OutputCall.step_eq_perform vt]
      exact ih (kept.parse _ (kept.perform holds _))

end Kept

/-- The margins exist twice, and both copies are the same. -/
def OutputState.Mirrored (state : OutputState) : Prop :=
  state.margins = state.buffer.vtVerticalMargins

theorem kept_mirrored (call : OutputCall) : Kept call OutputState.Mirrored where
  lockstep := .of_property (fun _ mirrored => mirrored) (fun _ mirrored => mirrored)
    (fun draws mirrored => mirrored.trans (draws.frames _).margins.symm) (fun _ _ => rfl)
    fun _ _ _ _ mirrored => mirrored
  switchScreen := fun _ _ => rfl
  leaveAlternateScreen := by
    intro state mirrored
    unfold OutputCall.leaveAlternateScreen
    split
    · rfl
    · exact mirrored
  setTitle := fun _ mirrored => mirrored
  parse := fun _ mirrored => mirrored

/-- The state of the character loop after a text, on a buffer left by earlier calls. -/
def ScreenBuffer.loopState (buffer : ScreenBuffer) (mode : OutputMode) (title : Option TitleState)
    (answerQueries : Bool) (text : List WChar) : OutputState :=
  (buffer.outputCall mode answerQueries).run (buffer.outputState mode title) text

/-- Nothing but the parser and the delayed wrap has changed. -/
structure OutputState.Unharmed (before after : OutputState) : Prop where
  buffer : ∃ parser, after.buffer = { before.buffer with vtOutputParseState := parser }
  regs : after.regs = { before.regs with delayedWrap := none }
  margins : after.margins = before.margins
  title : after.title = before.title
  replies : after.replies = before.replies

namespace ScreenBuffer

variable (buffer : ScreenBuffer) {mode : OutputMode} (title : Option TitleState)
  (answerQueries : Bool)

theorem loopState_mirrored (vt : mode.vtProcessing = true) (text : List WChar) :
    (buffer.loopState mode title answerQueries text).Mirrored := by
  apply (kept_mirrored _).run vt
  unfold outputState
  rw [if_pos vt]
  rfl

theorem loopState_append_singleton (vt : mode.vtProcessing = true) (text : List WChar)
    (character : WChar) :
    let before := buffer.loopState mode title answerQueries text
    buffer.loopState mode title answerQueries (text ++ [character]) =
      ((buffer.outputCall mode answerQueries).perform before
          (before.buffer.vtOutputParseState.action character)).withParser
        (before.buffer.vtOutputParseState.next character) := by
  intro before
  unfold loopState
  rw [OutputCall.run_append, OutputCall.run_cons]
  exact OutputCall.step_eq_perform vt _ _

end ScreenBuffer

/-- A switch to the screen that is shown reloads the local copies and nothing else. -/
theorem switchScreen_redundant {state : OutputState} (mirrored : state.Mirrored) {enable : Bool}
    (shown : state.buffer.vtMainBackup.isSome = enable) :
    OutputCall.switchScreen enable state =
      { state with
        regs.cursor := state.buffer.regs.cursor
        regs.attributes := state.buffer.regs.attributes
        regs.originMode := state.buffer.regs.originMode
        regs.delayedWrap := none } := by
  have same : state.buffer.setVtUsingAlternateScreenBuffer enable 0x20 state.regs.attributes =
      state.buffer := by
    subst shown
    unfold ScreenBuffer.setVtUsingAlternateScreenBuffer
    cases backup : state.buffer.vtMainBackup with
    | none => rfl
    | some saved => rfl
  have margins : state.buffer.vtVerticalMargins = state.margins := mirrored.symm
  unfold OutputCall.switchScreen
  rw [same]
  dsimp only
  rw [margins]

/-- A switch to the screen that is already shown is harmless exactly if the cursor, the
attributes and the origin mode are those of the last commit. -/
theorem redundantSwitch_unharmed_iff (buffer : ScreenBuffer) (mode : OutputMode)
    (title : Option TitleState) (answerQueries : Bool) (text : List WChar) (character : WChar)
    (enable : Bool) (vt : mode.vtProcessing = true)
    (dispatches : (buffer.loopState mode title answerQueries
      text).buffer.vtOutputParseState.action character = .sequence (modeSequence enable))
    (shown : (buffer.loopState mode title answerQueries text).buffer.vtMainBackup.isSome =
      enable) :
    (buffer.loopState mode title answerQueries text).Unharmed
        (buffer.loopState mode title answerQueries (text ++ [character])) ↔
      (buffer.loopState mode title answerQueries text).buffer.regs.Settled
        (buffer.loopState mode title answerQueries text).regs := by
  have mirrored := buffer.loopState_mirrored title answerQueries vt text
  rw [buffer.loopState_append_singleton title answerQueries vt, dispatches, perform_modeSequence,
    switchScreen_redundant mirrored shown]
  generalize buffer.loopState mode title answerQueries text = state
  constructor
  · intro unharmed
    have cursor := congrArg VtRegisters.cursor unharmed.regs
    have attributes := congrArg VtRegisters.attributes unharmed.regs
    have originMode := congrArg VtRegisters.originMode unharmed.regs
    exact ⟨cursor, attributes, originMode⟩
  · rintro ⟨cursor, attributes, originMode⟩
    refine ⟨⟨_, rfl⟩, ?_, rfl, rfl, rfl⟩
    rw [cursor, attributes, originMode]
    rfl

/-- On the alternate screen an `X` is written, and the cursor returns to where it was committed
before the switch to the alternate screen comes once more. -/
theorem redundantSwitch_unharmed_iff_return :
    let alternate := (applyTextToScreenBuffer twoCells (enterText false) ⟨7⟩ none true).buffer
    let text := [wc 'X', 0x0d] ++ switchOpening false
    (alternate.loopState ⟨7⟩ none true text).Unharmed
        (alternate.loopState ⟨7⟩ none true (text ++ [wc 'h'])) := by
  intro alternate text
  apply (redundantSwitch_unharmed_iff alternate ⟨7⟩ none true text (wc 'h') true (by decide)
    (by decide +kernel) (by decide +kernel)).mpr
  constructor <;> decide +kernel

/-- On the main screen, a return to the main screen undoes the cursor movement of the `X` written
before it in the same call. -/
theorem redundantSwitch_moves_cursor :
    twoCells.vtMainBackup = none ∧
      (applyTextToScreenBuffer twoCells [wc 'X'] ⟨7⟩ none true).buffer.regs.cursor = ⟨1, 0⟩ ∧
      (applyTextToScreenBuffer twoCells ([wc 'X'] ++ leaveText false) ⟨7⟩ none
        true).buffer.regs.cursor = ⟨0, 0⟩ ∧
      ¬(twoCells.loopState ⟨7⟩ none true ([wc 'X'] ++ switchOpening false)).Unharmed
        (twoCells.loopState ⟨7⟩ none true ([wc 'X'] ++ switchOpening false ++ [wc 'l'])) := by
  refine ⟨by decide, by decide +kernel, by decide +kernel, ?_⟩
  intro unharmed
  exact absurd (congrArg VtRegisters.cursor unharmed.regs) (by decide +kernel)

end Conhost
