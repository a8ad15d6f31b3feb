import Conhost.Screen.Streaming

/-!
# The parser apart from the screen

While VT processing is on, the parser follows the characters alone, and what a
character does to the screen depends on the parser only through the action it
dispatches. `OutputCall.step_eq_perform` splits the loop body into these two
parts: `VtOutputParseState.next` and `VtOutputParseState.action`. Results about
texts of a certain form then speak about the parser, and results about the
screen about one action at a time.
-/

namespace Conhost

/-- What a character does to the screen or to the title. -/
inductive VtAction where
  | nothing
  | text (character : WChar)
  | sequence (csi : VtCsiSequence)
  | saveCursor
  | restoreCursor
  | lineFeed
  | reverseLineFeed
  | advanceLine
  | hardReset
  | screenAlignment
  | setTitle (title : List WChar)
deriving DecidableEq

namespace VtOutputParseState

variable (parser : VtOutputParseState)

def groundNext (character : WChar) : VtOutputParseState :=
  if character = 0x1b then { parser with phase := .escape }
  else if character = 0x9b then parser.restartCsi .csi
  else if character = 0x9d then parser.restartOsc .osc
  else if character = 0x9c then parser
  else if character = 0x90 ∨ character = 0x98 ∨ character = 0x9e ∨ character = 0x9f then
    { parser with phase := .string }
  else parser

def groundAction (character : WChar) : VtAction :=
  if character = 0x1b ∨ character = 0x9b ∨ character = 0x9d ∨ character = 0x9c ∨
      character = 0x90 ∨ character = 0x98 ∨ character = 0x9e ∨ character = 0x9f then
    .nothing
  else
    .text character

def escapeNext (character : WChar) : VtOutputParseState :=
  let parser := parser.restartEscape .ground
  if character = wc '[' then parser.restartCsi .csi
  else if character = wc ']' then parser.restartOsc .osc
  else if character = wc 'P' ∨ character = wc '^' ∨ character = wc '_' ∨ character = wc 'X' then
    { parser with phase := .string }
  else if 0x20 ≤ character ∧ character ≤ 0x2f then
    { parser with phase := .escDispatch, escIntermediates := [character], escLength := 1 }
  else parser

def escapeAction (character : WChar) : VtAction :=
  if character = wc '7' then .saveCursor
  else if character = wc '8' then .restoreCursor
  else if character = wc 'D' then .lineFeed
  else if character = wc 'M' then .reverseLineFeed
  else if character = wc 'E' then .advanceLine
  else if character = wc 'c' then .hardReset
  else .nothing

def oscNext (character : WChar) : VtOutputParseState :=
  if parser.oscInParam then parser.collectOscParam character
  else if character = 0x07 ∨ character = 0x9c then parser.restartOsc .ground
  else if character = 0x1b then { parser with phase := .oscEscape }
  else parser.collectOscPayload character

/-- The title an OSC sequence sets at its terminator. -/
def titleAction : VtAction :=
  if parser.oscCapturePayload ∧ (parser.oscAction = 0 ∨ parser.oscAction = 1 ∨
      parser.oscAction = 2 ∨ parser.oscAction = 21) then
    .setTitle parser.oscPayload
  else
    .nothing

def oscDispatch (character : WChar) : VtAction :=
  if parser.oscInParam = false ∧ (character = 0x07 ∨ character = 0x9c) then parser.titleAction
  else .nothing

def stringNext (character : WChar) : VtOutputParseState :=
  if character = 0x9c then { parser with phase := .ground }
  else if character = 0x1b then { parser with phase := .stringEscape }
  else parser

/-- The parser after a character. -/
def next (character : WChar) : VtOutputParseState :=
  match parser.phase with
  | .ground => parser.groundNext character
  | .escape => parser.escapeNext character
  | .escDispatch =>
      if 0x20 ≤ character ∧ character ≤ 0x2f then parser.pushIntermediate character
      else parser.restartEscape .ground
  | .csi =>
      if 128 ≤ parser.csiLength ∨ (0x40 ≤ character ∧ character ≤ 0x7e) then
        parser.restartCsi .ground
      else
        { parser.collectCsi character with csiLength := parser.csiLength + 1 }
  | .osc => parser.oscNext character
  | .oscEscape =>
      if character = wc '\\' then parser.restartOsc .ground
      else { parser with phase := .osc }.oscNext character
  | .string => parser.stringNext character
  | .stringEscape =>
      if character = wc '\\' then { parser with phase := .ground }
      else { parser with phase := .string }.stringNext character

/-- The action a character dispatches. -/
def action (character : WChar) : VtAction :=
  match parser.phase with
  | .ground => groundAction character
  | .escape => escapeAction character
  | .escDispatch =>
      if parser.escIntermediates = [wc '#'] ∧ character = wc '8' then .screenAlignment
      else .nothing
  | .csi =>
      if parser.csiLength < 128 ∧ 0x40 ≤ character ∧ character ≤ 0x7e then
        .sequence (parser.finishCsi character)
      else
        .nothing
  | .osc => parser.oscDispatch character
  | .oscEscape =>
      if character = wc '\\' then parser.titleAction else parser.oscDispatch character
  | .string | .stringEscape => .nothing

/-- The parser after a text. -/
def run (parser : VtOutputParseState) (text : List WChar) : VtOutputParseState :=
  text.foldl next parser

/-- The actions a text dispatches. -/
def actions : VtOutputParseState → List WChar → List VtAction
  | _, [] => []
  | parser, character :: text => parser.action character :: (parser.next character).actions text

theorem run_append (first second : List WChar) :
    parser.run (first ++ second) = (parser.run first).run second :=
  List.foldl_append

theorem actions_append (first second : List WChar) :
    parser.actions (first ++ second) =
      parser.actions first ++ (parser.run first).actions second := by
  induction first generalizing parser with
  | nil => rfl
  | cons character first ih =>
      simp only [List.cons_append, actions, ih]
      rfl

/-- The fields the current phase still uses. -/
def live : VtOutputParseState :=
  match parser.phase with
  | .escDispatch =>
      { phase := .escDispatch
        escIntermediates := parser.escIntermediates
        escLength := parser.escLength }
  | .csi =>
      { phase := .csi
        csi := parser.csi
        csiCurrent := parser.csiCurrent
        csiHaveDigits := parser.csiHaveDigits
        csiLastWasSeparator := parser.csiLastWasSeparator
        csiLength := parser.csiLength }
  | .osc | .oscEscape =>
      { phase := parser.phase
        oscParam := parser.oscParam
        oscParamHaveDigits := parser.oscParamHaveDigits
        oscInParam := parser.oscInParam
        oscAction := parser.oscAction
        oscCapturePayload := parser.oscCapturePayload
        oscPayload := parser.oscPayload }
  | .ground | .escape | .string | .stringEscape => { phase := parser.phase }

theorem live_phase : parser.live.phase = parser.phase := by
  unfold live
  cases phase : parser.phase <;> rfl

theorem finishCsi_live (phase : parser.phase = .csi) (character : WChar) :
    parser.live.finishCsi character = parser.finishCsi character := by
  simp only [live, phase, finishCsi, pushParam]
  split_ifs <;> rfl

/-- The action of a character depends on the live fields. -/
theorem action_live (character : WChar) :
    parser.live.action character = parser.action character := by
  unfold action
  rw [parser.live_phase]
  cases phase : parser.phase with
  | csi =>
      rw [parser.finishCsi_live phase]
      simp only [live, phase]
  | _ => simp only [live, phase] <;> rfl

theorem collectCsi_live (phase : parser.phase = .csi) (character : WChar) :
    { parser.live.collectCsi character with csiLength := parser.csiLength + 1 }.live =
      { parser.collectCsi character with csiLength := parser.csiLength + 1 }.live := by
  by_cases isDigit : isDigit character
  · simp only [collectCsi, if_pos isDigit, live, phase]
  by_cases isPrivate : character = wc '?'
  · simp only [collectCsi, if_neg isDigit, if_pos isPrivate, live, phase]
  by_cases isExclamation : character = wc '!'
  · simp only [collectCsi, if_neg isDigit, if_neg isPrivate, if_pos isExclamation, live, phase]
  by_cases isSeparator : character = wc ';'
  · simp only [collectCsi, if_neg isDigit, if_neg isPrivate, if_neg isExclamation,
      if_pos isSeparator, live, phase]
    by_cases room : parser.csi.params.length < 16
    · simp only [pushParam, if_pos room, phase]
    · simp only [pushParam, if_neg room, phase]
  · simp only [collectCsi, if_neg isDigit, if_neg isPrivate, if_neg isExclamation,
      if_neg isSeparator, live, phase]

theorem next_live_csi (phase : parser.phase = .csi) (character : WChar) :
    (if 128 ≤ parser.live.csiLength ∨ (0x40 ≤ character ∧ character ≤ 0x7e) then
        parser.live.restartCsi .ground
      else { parser.live.collectCsi character with csiLength := parser.live.csiLength + 1 }).live =
      (if 128 ≤ parser.csiLength ∨ (0x40 ≤ character ∧ character ≤ 0x7e) then
        parser.restartCsi .ground
      else { parser.collectCsi character with csiLength := parser.csiLength + 1 }).live := by
  have length : parser.live.csiLength = parser.csiLength := by simp only [live, phase]
  rw [length]
  split
  · rfl
  · exact parser.collectCsi_live phase character

theorem oscNext_live (phase : parser.phase = .osc) (character : WChar) :
    (parser.live.oscNext character).live = (parser.oscNext character).live := by
  have inParam : parser.live.oscInParam = parser.oscInParam := by simp only [live, phase]
  unfold oscNext
  rw [inParam]
  split
  · by_cases isDigit : isDigit character
    · simp only [collectOscParam, if_pos isDigit, live, phase]
    by_cases isSeparator : character = wc ';'
    · simp only [collectOscParam, if_neg isDigit, if_pos isSeparator, live, phase]
    · simp only [collectOscParam, if_neg isDigit, if_neg isSeparator, live, restartOsc]
  · split
    · rfl
    split
    · simp only [live, phase]
    · by_cases captures : parser.oscCapturePayload ∧ parser.oscPayload.length < 4096
      · simp only [collectOscPayload, live, phase, if_pos captures]
      · simp only [collectOscPayload, live, phase, if_neg captures]

/-- A character makes the same fields live from the live fields. -/
theorem next_live (character : WChar) :
    (parser.live.next character).live = (parser.next character).live := by
  unfold next
  rw [parser.live_phase]
  cases phase : parser.phase with
  | ground =>
      simp only [live, phase, groundNext]
      split_ifs <;> simp [restartCsi, restartOsc, phase]
  | escape =>
      simp only [live, phase, escapeNext, restartEscape]
      split_ifs <;> simp [restartCsi, restartOsc]
  | escDispatch =>
      simp only [live, phase, pushIntermediate]
      split_ifs <;> simp [restartEscape, phase]
  | csi => exact parser.next_live_csi phase character
  | osc => exact parser.oscNext_live phase character
  | oscEscape =>
      have resumed : { parser.live with phase := .osc } = { parser with phase := .osc }.live := by
        simp only [live, phase]
      dsimp only
      split
      · rfl
      · rw [resumed]
        exact oscNext_live { parser with phase := .osc } rfl character
  | string =>
      simp only [live, phase, stringNext]
      split_ifs <;> simp [phase]
  | stringEscape =>
      simp only [live, phase, stringNext]
      split_ifs <;> simp

/-- Parsers with the same live fields read a text alike. -/
theorem actions_of_live {first second : VtOutputParseState} (same : first.live = second.live)
    (text : List WChar) :
    first.actions text = second.actions text ∧
      (first.run text).live = (second.run text).live := by
  induction text generalizing first second with
  | nil => exact ⟨rfl, same⟩
  | cons character text ih =>
      have next : (first.next character).live = (second.next character).live := by
        rw [← next_live, same, next_live]
      obtain ⟨actions, live⟩ := ih next
      refine ⟨?_, live⟩
      simp only [VtOutputParseState.actions, actions]
      rw [← action_live, same, action_live]

theorem live_of_ground (phase : parser.phase = .ground) : parser.live = {} := by
  unfold live
  rw [phase]

end VtOutputParseState

namespace OutputCall

variable (call : OutputCall)

/-- The effect of an action. -/
def perform (state : OutputState) : VtAction → OutputState
  | .nothing => state
  | .text character => call.textCharacter state character
  | .sequence csi => call.applyCsi csi state
  | .saveCursor => saveCursor state
  | .restoreCursor => call.restoreCursor state
  | .lineFeed => call.lineFeed state
  | .reverseLineFeed => call.reverseLineFeed state
  | .advanceLine => call.advanceLine state
  | .hardReset => call.hardReset state
  | .screenAlignment => call.screenAlignment state
  | .setTitle title => { state with title := state.title.map (·.setTitle title) }

end OutputCall

namespace OutputState

/-- The state with another parser. -/
def withParser (state : OutputState) (parser : VtOutputParseState) : OutputState :=
  state.parse fun _ => parser

theorem withParser_lockstep (call : OutputCall) (parser : VtOutputParseState) :
    Lockstep call fun left right => right = left.withParser parser where
  regs := by rintro left right rfl; rfl
  margins := by rintro left right rfl; rfl
  colorTable := by rintro left right rfl; rfl
  saved := by rintro left right rfl; rfl
  setRegs := by rintro left right regs rfl; rfl
  deviceStatusReport := by
    rintro left right csi rfl
    unfold OutputCall.deviceStatusReport
    split <;> rfl
  update := by
    rintro left right α operation draws rfl
    have hidden := draws.hidden left.buffer.toScreenCore parser left.buffer.vtMainBackup
    have touched := draws.touched left.buffer.toScreenCore parser left.buffer.vtMainBackup
    have core : (operation (left.withParser parser).buffer.toScreenCore).core =
        { (operation left.buffer.toScreenCore).core with vtOutputParseState := parser } :=
      hidden.trans (by rw [← draws.backup left.buffer.toScreenCore]; rfl)
    have flag : (operation (left.withParser parser).buffer.toScreenCore).touched =
        (operation left.buffer.toScreenCore).touched := touched
    simp only [OutputState.update, ScreenBuffer.update, core, flag]
    rfl
  setVtVerticalMargins := by rintro left right margins rfl; rfl
  saveCursorState := by rintro left right position attributes delayed origin rfl; rfl

end OutputState

namespace OutputCall

variable {call : OutputCall}

theorem switchScreen_withParser (enable : Bool) (state : OutputState)
    (parser : VtOutputParseState) :
    switchScreen enable (state.withParser parser) =
      (switchScreen enable state).withParser parser := by
  unfold switchScreen ScreenBuffer.setVtUsingAlternateScreenBuffer
  cases backup : state.buffer.vtMainBackup <;> cases enable <;>
    simp [OutputState.withParser, OutputState.parse, backup, ScreenBuffer.touch]

theorem setModeParam_withParser (privateMarker enable : Bool) (state : OutputState)
    (parser : VtOutputParseState) (param : Nat) :
    call.setModeParam privateMarker enable (state.withParser parser) param =
      (call.setModeParam privateMarker enable state param).withParser parser := by
  by_cases switches : param = 1049
  · subst switches
    simpa [setModeParam] using switchScreen_withParser enable state parser
  · exact (OutputState.withParser_lockstep call parser).setModeParam rfl privateMarker enable
      switches

theorem setMode_withParser (privateMarker enable : Bool) (params : List Nat)
    (state : OutputState) (parser : VtOutputParseState) :
    params.foldl (call.setModeParam privateMarker enable) (state.withParser parser) =
      (params.foldl (call.setModeParam privateMarker enable) state).withParser parser := by
  induction params generalizing state with
  | nil => rfl
  | cons param params ih =>
      simp only [List.foldl_cons, setModeParam_withParser, ih]

theorem applyCsi_withParser (csi : VtCsiSequence) (state : OutputState)
    (parser : VtOutputParseState) :
    call.applyCsi csi (state.withParser parser) =
      (call.applyCsi csi state).withParser parser := by
  by_cases isMode : ∃ enable, csi.function = .setMode enable
  · obtain ⟨enable, function⟩ := isMode
    simp only [applyCsi, function, setMode_withParser]
  · exact (OutputState.withParser_lockstep call parser).applyCsi rfl csi
      (fun enable function => absurd ⟨enable, function⟩ isMode)

theorem leaveAlternateScreen_withParser (state : OutputState) (parser : VtOutputParseState) :
    leaveAlternateScreen (state.withParser parser) =
      (leaveAlternateScreen state).withParser parser := by
  unfold leaveAlternateScreen ScreenBuffer.setVtUsingAlternateScreenBuffer
  cases backup : state.buffer.vtMainBackup <;>
    simp [OutputState.withParser, OutputState.parse, backup, ScreenBuffer.touch]

/-- An action does not look at the parser. -/
theorem perform_withParser (call : OutputCall) (action : VtAction) (state : OutputState)
    (parser : VtOutputParseState) :
    call.perform (state.withParser parser) action =
      (call.perform state action).withParser parser := by
  have lock := OutputState.withParser_lockstep call parser
  cases action with
  | nothing => rfl
  | text character => exact lock.textCharacter rfl character
  | sequence csi => exact applyCsi_withParser csi state parser
  | saveCursor => exact lock.saveCursor rfl
  | restoreCursor => exact lock.restoreCursor rfl
  | lineFeed => exact lock.lineFeed rfl
  | reverseLineFeed => exact lock.reverseLineFeed rfl
  | advanceLine => exact lock.advanceLine rfl
  | hardReset =>
      simp only [perform, hardReset, leaveAlternateScreen_withParser]
      exact lock.resetScreen rfl
  | screenAlignment => exact lock.screenAlignment rfl
  | setTitle title => rfl

/-- An action does not change the parser. -/
theorem perform_parseState (state : OutputState) (action : VtAction) :
    (call.perform state action).buffer.vtOutputParseState = state.buffer.vtOutputParseState := by
  have same := perform_withParser call action state state.buffer.vtOutputParseState
  have self : state.withParser state.buffer.vtOutputParseState = state := rfl
  rw [self] at same
  rw [same]
  rfl

theorem perform_parse (call : OutputCall) (state : OutputState) (action : VtAction)
    (change : VtOutputParseState → VtOutputParseState) :
    (call.perform state action).parse change =
      (call.perform state action).withParser (change state.buffer.vtOutputParseState) := by
  rw [← perform_parseState state action]
  rfl

theorem escapeFinal_eq (call : OutputCall) (state : OutputState) (character : WChar) :
    call.escapeFinal state character =
      (call.perform state (VtOutputParseState.escapeAction character)).withParser
        (state.buffer.vtOutputParseState.escapeNext character) := by
  let ended := state.buffer.vtOutputParseState.restartEscape .ground
  have performed (action : VtAction) :
      call.perform (state.parse (·.restartEscape .ground)) action =
        (call.perform state action).withParser ended :=
    perform_withParser call action state ended
  by_cases isBracket : character = wc '['
  · subst isBracket; rfl
  by_cases isOsc : character = wc ']'
  · subst isOsc; rfl
  by_cases isString :
      character = wc 'P' ∨ character = wc '^' ∨ character = wc '_' ∨ character = wc 'X'
  · rcases isString with rfl | rfl | rfl | rfl <;> rfl
  by_cases isSave : character = wc '7'
  · subst isSave; exact performed .saveCursor
  by_cases isRestore : character = wc '8'
  · subst isRestore; exact performed .restoreCursor
  by_cases isIndex : character = wc 'D'
  · subst isIndex; exact performed .lineFeed
  by_cases isReverse : character = wc 'M'
  · subst isReverse; exact performed .reverseLineFeed
  by_cases isNextLine : character = wc 'E'
  · subst isNextLine; exact performed .advanceLine
  by_cases isReset : character = wc 'c'
  · subst isReset; exact performed .hardReset
  simp only [escapeFinal, VtOutputParseState.escapeNext, VtOutputParseState.escapeAction,
    if_neg isBracket, if_neg isOsc, if_neg isString, if_neg isSave, if_neg isRestore,
    if_neg isIndex, if_neg isReverse, if_neg isNextLine, if_neg isReset]
  split <;> rfl

theorem escapeDispatch_eq (call : OutputCall) (state : OutputState) (character : WChar)
    (phase : state.buffer.vtOutputParseState.phase = .escDispatch) :
    call.escapeDispatch state character =
      (call.perform state (state.buffer.vtOutputParseState.action character)).withParser
        (state.buffer.vtOutputParseState.next character) := by
  unfold escapeDispatch VtOutputParseState.action VtOutputParseState.next
  simp only [phase]
  by_cases intermediate : 0x20 ≤ character ∧ character ≤ 0x2f
  · have other : character ≠ wc '8' := by
      rintro rfl
      exact absurd intermediate (by decide)
    simp only [if_pos intermediate, other, and_false, if_false]
    rfl
  · simp only [if_neg intermediate]
    split
    · exact perform_parse call state .screenAlignment (·.restartEscape .ground)
    · rfl

theorem csiCharacter_eq (call : OutputCall) (state : OutputState) (character : WChar)
    (phase : state.buffer.vtOutputParseState.phase = .csi) :
    call.csiCharacter state character =
      (call.perform state (state.buffer.vtOutputParseState.action character)).withParser
        (state.buffer.vtOutputParseState.next character) := by
  unfold csiCharacter VtOutputParseState.action VtOutputParseState.next
  simp only [phase]
  by_cases tooLong : 128 ≤ state.buffer.vtOutputParseState.csiLength
  · simp only [not_lt.mpr tooLong, false_and, if_false, tooLong, true_or, if_true]
    rfl
  · simp only [not_le.mp tooLong, true_and, tooLong, false_or, if_false]
    by_cases final : 0x40 ≤ character ∧ character ≤ 0x7e
    · simp only [if_pos final]
      exact perform_parse call state
        (.sequence (state.buffer.vtOutputParseState.finishCsi character)) (·.restartCsi .ground)
    · simp only [if_neg final]
      rfl

theorem finishOsc_eq (call : OutputCall) (state : OutputState) :
    finishOsc state =
      (call.perform state state.buffer.vtOutputParseState.titleAction).withParser
        (state.buffer.vtOutputParseState.restartOsc .ground) := by
  unfold finishOsc VtOutputParseState.titleAction
  dsimp only
  split <;> rfl

theorem oscCharacter_eq (call : OutputCall) (state : OutputState) (character : WChar) :
    oscCharacter state character =
      (call.perform state (state.buffer.vtOutputParseState.oscDispatch character)).withParser
        (state.buffer.vtOutputParseState.oscNext character) := by
  unfold oscCharacter VtOutputParseState.oscDispatch VtOutputParseState.oscNext
  by_cases inParam : state.buffer.vtOutputParseState.oscInParam = true
  · simp only [inParam, if_true, Bool.true_eq_false, false_and, if_false]
    rfl
  · have payload : state.buffer.vtOutputParseState.oscInParam = false := by simpa using inParam
    by_cases terminator : character = 0x07 ∨ character = 0x9c
    · simp only [if_neg inParam, if_pos terminator, if_pos (And.intro payload terminator)]
      exact finishOsc_eq call state
    · simp only [if_neg inParam, terminator, and_false, if_false]
      split <;> rfl

theorem groundStep_eq (call : OutputCall) (state : OutputState) (character : WChar) :
    call.groundStep state character =
      (call.perform state (VtOutputParseState.groundAction character)).withParser
        (state.buffer.vtOutputParseState.groundNext character) := by
  unfold groundStep groundCharacter VtOutputParseState.groundAction VtOutputParseState.groundNext
  by_cases isText : character = 0x1b ∨ character = 0x9b ∨ character = 0x9d ∨ character = 0x9c ∨
      character = 0x90 ∨ character = 0x98 ∨ character = 0x9e ∨ character = 0x9f
  · rcases isText with rfl | rfl | rfl | rfl | rfl | rfl | rfl | rfl <;> rfl
  · simp only [if_neg isText]
    simp only [not_or] at isText
    simp only [isText, if_false, or_false]
    exact perform_parse call state (.text character) id

/-- The loop body is an action on the screen and a step of the parser. -/
theorem step_eq_perform {call : OutputCall} (vt : call.mode.vtProcessing = true)
    (state : OutputState) (character : WChar) :
    call.step state character =
      (call.perform state (state.buffer.vtOutputParseState.action character)).withParser
        (state.buffer.vtOutputParseState.next character) := by
  rw [step_of_vtProcessing vt]
  cases phase : state.buffer.vtOutputParseState.phase with
  | ground =>
      simp only [VtOutputParseState.action, VtOutputParseState.next, phase]
      exact groundStep_eq call state character
  | escape =>
      simp only [VtOutputParseState.action, VtOutputParseState.next, phase]
      exact escapeFinal_eq call state character
  | escDispatch => exact escapeDispatch_eq call state character phase
  | csi => exact csiCharacter_eq call state character phase
  | osc =>
      simp only [VtOutputParseState.action, VtOutputParseState.next, phase]
      exact oscCharacter_eq call state character
  | oscEscape =>
      simp only [VtOutputParseState.action, VtOutputParseState.next, phase]
      split
      · exact finishOsc_eq call state
      · let resumed : VtOutputParseState :=
          { state.buffer.vtOutputParseState with phase := .osc }
        have performed := perform_withParser call (resumed.oscDispatch character) state resumed
        refine (oscCharacter_eq call (state.withParser resumed) character).trans ?_
        exact congrArg (·.withParser (resumed.oscNext character)) performed
  | string =>
      simp only [VtOutputParseState.action, VtOutputParseState.next, phase]
      unfold stringCharacter VtOutputParseState.stringNext
      split_ifs <;> rfl
  | stringEscape =>
      simp only [VtOutputParseState.action, VtOutputParseState.next, phase]
      unfold stringCharacter VtOutputParseState.stringNext
      split_ifs <;> rfl

end OutputCall

end Conhost
