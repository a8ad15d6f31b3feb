import Conhost.Screen.ControlString

/-!
# The round trip through the alternate screen

`CSI ? 1049 h` saves the main screen and `CSI ? 1049 l` restores it. The cells, the
margins, the saved cursor and the shape of the cursor are saved as they are at that
moment, but the cursor position, the text attributes and the origin mode are those
of the last commit: what the same call has written before the switch is not in them.
So the round trip restores the main screen exactly when that part of the text left
these three registers as it found them.
-/

namespace Conhost

namespace VtAction

/-- A sequence that switches screens. -/
def Switches : VtAction → Prop
  | .sequence csi => (∃ enable, csi.function = .setMode enable) ∧ 1049 ∈ csi.params
  | _ => False

/-- An action that leaves the backup of the main screen alone. -/
def KeepsScreen (action : VtAction) : Prop :=
  ¬ action.Switches ∧ action ≠ .hardReset

end VtAction

/-- What no drawing operation changes. -/
structure OutputState.Holds (committed : VtRegisters) (backup : Option VtAlternateBufferBackup)
    (size : Coord) (state : OutputState) : Prop where
  committed : state.buffer.regs = committed
  backup : state.buffer.vtMainBackup = backup
  size : state.buffer.bufferSize = size

namespace OutputState.Holds

variable {call : OutputCall} {committed : VtRegisters} {backup : Option VtAlternateBufferBackup}
  {size : Coord} {state : OutputState}

theorem lockstep (call : OutputCall) (committed : VtRegisters)
    (backup : Option VtAlternateBufferBackup) (size : Coord) :
    Lockstep call fun left right => left = right ∧ left.Holds committed backup size := by
  apply Lockstep.of_property
  · exact fun _ holds => ⟨holds.committed, holds.backup, holds.size⟩
  · exact fun _ holds => ⟨holds.committed, holds.backup, holds.size⟩
  · intro state α operation draws holds
    exact ⟨holds.committed, (draws.backup _).trans holds.backup,
      (draws.frames _).size.trans holds.size⟩
  · exact fun _ holds => ⟨holds.committed, holds.backup, holds.size⟩
  · exact fun _ _ _ _ holds => ⟨holds.committed, holds.backup, holds.size⟩

theorem withParser (holds : state.Holds committed backup size) (parser : VtOutputParseState) :
    (state.withParser parser).Holds committed backup size :=
  ⟨holds.committed, holds.backup, holds.size⟩

/-- An action that does not switch screens. RIS returns to the main screen, so it
must find itself there. -/
theorem perform (holds : state.Holds committed backup size) {action : VtAction}
    (noSwitch : ¬ action.Switches) (onMain : action = .hardReset → backup = none) :
    (call.perform state action).Holds committed backup size := by
  have lock := lockstep call committed backup size
  have same : state = state ∧ state.Holds committed backup size := ⟨rfl, holds⟩
  cases action with
  | nothing => exact holds
  | text character => exact (lock.textCharacter same character).2
  | sequence csi =>
      refine (lock.applyCsi same csi ?_).2
      intro enable function member
      exact noSwitch ⟨⟨enable, function⟩, member⟩
  | saveCursor => exact (lock.saveCursor same).2
  | restoreCursor => exact (lock.restoreCursor same).2
  | lineFeed => exact (lock.lineFeed same).2
  | reverseLineFeed => exact (lock.reverseLineFeed same).2
  | advanceLine => exact (lock.advanceLine same).2
  | hardReset =>
      have main : OutputCall.leaveAlternateScreen state = state := by
        unfold OutputCall.leaveAlternateScreen
        rw [holds.backup, onMain rfl]
        rfl
      simp only [OutputCall.perform, OutputCall.hardReset, main]
      exact (lock.resetScreen same).2
  | screenAlignment => exact (lock.screenAlignment same).2
  | setTitle title => exact ⟨holds.committed, holds.backup, holds.size⟩

theorem run (vt : call.mode.vtProcessing = true) {text : List WChar}
    (holds : state.Holds committed backup size)
    (keeps : ∀ action ∈ state.buffer.vtOutputParseState.actions text,
      ¬ action.Switches ∧ (action = .hardReset → backup = none)) :
    (call.run state text).Holds committed backup size := by
  induction text generalizing state with
  | nil => exact holds
  | cons character text ih =>
      obtain ⟨noSwitch, onMain⟩ := keeps _ List.mem_cons_self
      rw [OutputCall.run_cons, OutputCall.step_eq_perform vt]
      apply ih ((holds.perform noSwitch onMain).withParser _)
      intro action mem
      exact keeps action (List.mem_cons_of_mem _ mem)

end OutputState.Holds

theorem else_of_ne {α : Type} {condition : Prop} [Decidable condition] {first second chosen : α}
    (choice : (if condition then first else second) = chosen) (differs : first ≠ chosen) :
    second = chosen := by
  split at choice
  · exact absurd choice differs
  · exact choice

theorem VtCsiSequence.final_of_setMode {csi : VtCsiSequence} {enable : Bool}
    (function : csi.function = .setMode enable) : csi.final = wc 'h' ∨ csi.final = wc 'l' := by
  by_contra neither
  rw [not_or] at neither
  unfold VtCsiSequence.function at function
  rw [if_neg neither.1, if_neg neither.2] at function
  iterate 24 replace function := else_of_ne function nofun
  cases function

theorem VtOutputParseState.finishCsi_final (parser : VtOutputParseState) (character : WChar) :
    (parser.finishCsi character).final = character := by
  simp only [VtOutputParseState.finishCsi]
  split_ifs <;> rfl

theorem OutputState.switches_of_switchAt {state : OutputState} {character : WChar}
    {enable : Bool} (switches : state.switchAt character = some enable) :
    (state.buffer.vtOutputParseState.action character).Switches := by
  unfold OutputState.switchAt at switches
  dsimp only at switches
  split at switches
  · rename_i dispatches
    split at switches
    · rename_i direction function
      split at switches
      · rename_i member
        have final := VtCsiSequence.final_of_setMode function
        rw [VtOutputParseState.finishCsi_final] at final
        have range : 0x40 ≤ character ∧ character ≤ 0x7e := by
          rcases final with rfl | rfl <;> decide
        simp only [VtOutputParseState.action, dispatches.1, dispatches.2, range, and_self, if_true]
        exact ⟨⟨direction, function⟩, member⟩
      · cases switches
    · cases switches
  · cases switches

namespace Terminal

variable {mode : OutputMode} (answerQueries : Bool)

theorem action_of_resetsAt {state : OutputState} {character : WChar}
    (resets : state.resetsAt character) :
    state.buffer.vtOutputParseState.action character = .hardReset := by
  rcases resets with ⟨phase, rfl⟩
  simp only [VtOutputParseState.action, phase]
  rfl

theorem coherentRun_of_keeps {call : OutputCall} (vt : call.mode.vtProcessing = true)
    {text : List WChar} {committed : VtRegisters} {backup : Option VtAlternateBufferBackup}
    {size : Coord} {state : OutputState} (holds : state.Holds committed backup size)
    (keeps : ∀ action ∈ state.buffer.vtOutputParseState.actions text,
      ¬ action.Switches ∧ (action = .hardReset → backup = none)) :
    call.CoherentRun state text := by
  induction text generalizing state with
  | nil => trivial
  | cons character text ih =>
      obtain ⟨noSwitch, onMain⟩ := keeps _ List.mem_cons_self
      refine ⟨⟨?_, ?_⟩, ?_⟩
      · intro enable switches
        exact absurd (OutputState.switches_of_switchAt switches) noSwitch
      · rintro (switches | resets) saved mem
        · exact absurd (OutputState.switches_of_switchAt switches) noSwitch
        · rw [holds.backup, onMain (action_of_resetsAt resets)] at mem
          cases mem
      · rw [OutputCall.step_eq_perform vt]
        apply ih ((holds.perform noSwitch onMain).withParser _)
        intro action mem
        exact keeps action (List.mem_cons_of_mem _ mem)

/-- A call that stays on its screen refines the terminal. -/
theorem refines_of_keeps {buffer : ScreenBuffer} {text : List WChar} (title : Option TitleState)
    (nonempty : 0 < buffer.bufferSize.x ∧ 0 < buffer.bufferSize.y)
    (vt : mode.vtProcessing = true)
    (keeps : ∀ action ∈ buffer.vtOutputParseState.actions text,
      ¬ action.Switches ∧ (action = .hardReset → buffer.vtMainBackup = none)) :
    let result := applyTextToScreenBuffer buffer text mode title answerQueries
    result.terminal = (Terminal.mk buffer.toScreenCore buffer.regs title).run mode answerQueries
        text ∧
      result.buffer.bufferSize = buffer.bufferSize ∧
      result.buffer.vtMainBackup = buffer.vtMainBackup ∧
      result.buffer.vtOutputParseState = buffer.vtOutputParseState.run text := by
  have started := ScreenBuffer.Parallel.outputState_parseState vt buffer title
  let call := buffer.outputCall mode answerQueries
  have start : (buffer.outputState mode title).Holds buffer.regs buffer.vtMainBackup
      buffer.bufferSize := by
    constructor <;> rw [started]
  have keeps' : ∀ action ∈ (buffer.outputState mode title).buffer.vtOutputParseState.actions text,
      ¬ action.Switches ∧ (action = .hardReset → buffer.vtMainBackup = none) := by
    rw [started]
    exact keeps
  have ran : (call.run (buffer.outputState mode title) text).Holds buffer.regs
      buffer.vtMainBackup buffer.bufferSize := start.run vt keeps'
  have coherent : CoherentCall buffer text mode title answerQueries := by
    refine ⟨coherentRun_of_keeps vt start keeps', ?_⟩
    intro _ _
    rw [ran.committed]
  obtain ⟨terminal, size⟩ := applyTextToScreenBuffer_refines nonempty vt coherent
  refine ⟨terminal, size, ?_⟩
  unfold applyTextToScreenBuffer
  rw [if_neg (by omega)]
  dsimp only
  rw [OutputState.commit_toScreenCore]
  refine ⟨ran.backup, ?_⟩
  rw [OutputCall.run_parseState vt, started]

/-- Calls that stay on their screen refine the terminal. -/
theorem applyCalls_refines (start : OutputResult) (pieces : List (List WChar))
    (nonempty : 0 < start.buffer.bufferSize.x ∧ 0 < start.buffer.bufferSize.y)
    (vt : mode.vtProcessing = true)
    (keeps : ∀ action ∈ start.buffer.vtOutputParseState.actions pieces.flatten,
      ¬ action.Switches ∧ (action = .hardReset → start.buffer.vtMainBackup = none)) :
    let result := applyCalls mode answerQueries start pieces
    result.terminal = start.terminal.run mode answerQueries pieces.flatten ∧
      result.buffer.bufferSize = start.buffer.bufferSize ∧
      result.buffer.vtMainBackup = start.buffer.vtMainBackup ∧
      result.buffer.vtOutputParseState =
        start.buffer.vtOutputParseState.run pieces.flatten := by
  induction pieces generalizing start with
  | nil => exact ⟨rfl, rfl, rfl, rfl⟩
  | cons piece pieces ih =>
      rw [List.flatten_cons, VtOutputParseState.actions_append] at keeps
      obtain ⟨terminal, size, still, parser⟩ := refines_of_keeps answerQueries
        start.title nonempty vt fun action mem => keeps action (List.mem_append_left _ mem)
      let next := applyTextToScreenBuffer start.buffer piece mode start.title answerQueries
      have rest := ih { next with replies := start.replies ++ next.replies }
        (by rw [size]; exact nonempty) (by
          rw [parser, still]
          exact fun action mem => keeps action (List.mem_append_right _ mem))
      obtain ⟨finalTerminal, finalSize, finalBackup, finalParser⟩ := rest
      refine ⟨finalTerminal.trans ?_, finalSize.trans size, finalBackup.trans still,
        finalParser.trans ?_⟩
      · rw [List.flatten_cons]
        exact (congrArg (run mode answerQueries · pieces.flatten) terminal).trans
          List.foldl_append.symm
      · rw [List.flatten_cons, VtOutputParseState.run_append, parser]

theorem step_silent (vt : mode.vtProcessing = true) (terminal : Terminal) {character : WChar}
    (silent : (terminal.core.vtOutputParseState.action character).Silent) :
    (terminal.step mode answerQueries character).core =
        { terminal.core with
          vtOutputParseState := terminal.core.vtOutputParseState.next character } ∧
      (terminal.step mode answerQueries character).regs = terminal.regs := by
  let call := terminal.call mode answerQueries
  have same : (call.perform terminal.state
      (terminal.state.buffer.vtOutputParseState.action character)).SamePicture terminal.state :=
    OutputCall.perform_silent call silent terminal.state
  have step : call.step terminal.state character = _ :=
    OutputCall.step_eq_perform vt terminal.state character
  obtain ⟨parser, core⟩ := same.buffer.core
  unfold Terminal.step
  dsimp only
  rw [step]
  refine ⟨?_, same.regs⟩
  simp only [OutputState.withParser, OutputState.parse, core]
  rfl

theorem run_silent (vt : mode.vtProcessing = true) {terminal : Terminal} {text : List WChar}
    (silent : terminal.core.vtOutputParseState.Silent text) :
    (terminal.run mode answerQueries text).core =
        { terminal.core with
          vtOutputParseState := terminal.core.vtOutputParseState.run text } ∧
      (terminal.run mode answerQueries text).regs = terminal.regs := by
  induction text generalizing terminal with
  | nil => exact ⟨rfl, rfl⟩
  | cons character text ih =>
      obtain ⟨core, regs⟩ := step_silent answerQueries vt terminal
        (silent _ List.mem_cons_self)
      have rest : (terminal.step mode answerQueries character).core.vtOutputParseState.Silent
          text := by
        rw [core]
        exact fun action mem => silent action (List.mem_cons_of_mem _ mem)
      refine ⟨(ih rest).1.trans ?_, (ih rest).2.trans regs⟩
      rw [core]
      rfl

theorem run_append (terminal : Terminal) (first second : List WChar) :
    terminal.run mode answerQueries (first ++ second) =
      (terminal.run mode answerQueries first).run mode answerQueries second :=
  List.foldl_append

theorem run_parseState (vt : mode.vtProcessing = true) (terminal : Terminal) (text : List WChar) :
    (terminal.run mode answerQueries text).core.vtOutputParseState =
      terminal.core.vtOutputParseState.run text := by
  induction text generalizing terminal with
  | nil => rfl
  | cons character text ih =>
      have step : (terminal.step mode answerQueries character).core.vtOutputParseState =
          terminal.core.vtOutputParseState.next character := by
        unfold Terminal.step
        dsimp only
        rw [OutputCall.step_eq_perform vt]
        rfl
      refine (ih (terminal.step mode answerQueries character)).trans ?_
      rw [step]
      rfl

end Terminal

/-- What the switch to the alternate screen saves: the picture as it is and the
registers of the last commit. -/
def ScreenCore.snapshot (core : ScreenCore) (committed : VtRegisters) :
    VtAlternateBufferBackup where
  cells := core.cells
  cursorPosition := committed.cursor
  textAttributes := committed.attributes
  defaultTextAttributes := core.defaultTextAttributes
  cursorSize := core.cursorSize
  cursorVisible := core.cursorVisible
  savedCursorState := core.savedCursorState
  vtVerticalMargins := core.vtVerticalMargins
  vtDelayedWrapPosition := committed.delayedWrap
  vtOriginModeEnabled := committed.originMode

/-- `CSI ? 1049` with the final character `h` or `l`. -/
def modeSequence (enable : Bool) : VtCsiSequence where
  final := if enable then wc 'h' else wc 'l'
  params := [1049]
  privateMarker := true

theorem perform_modeSequence (call : OutputCall) (enable : Bool) (state : OutputState) :
    call.perform state (.sequence (modeSequence enable)) =
      OutputCall.switchScreen enable state := by
  cases enable <;> rfl

/-- The buffer shows what was saved. -/
structure RestoredFrom (backup : VtAlternateBufferBackup) (buffer : ScreenBuffer) : Prop where
  cells : buffer.cells = backup.cells
  cursor : buffer.regs.cursor = backup.cursorPosition
  attributes : buffer.regs.attributes = backup.textAttributes
  defaults : buffer.defaultTextAttributes = backup.defaultTextAttributes
  cursorSize : buffer.cursorSize = backup.cursorSize
  cursorVisible : buffer.cursorVisible = backup.cursorVisible
  saved : buffer.savedCursorState = backup.savedCursorState
  margins : buffer.vtVerticalMargins = backup.vtVerticalMargins
  originMode : buffer.regs.originMode = backup.vtOriginModeEnabled

namespace RestoredFrom

variable {backup : VtAlternateBufferBackup}

theorem of_samePicture {left right : ScreenBuffer} (restored : RestoredFrom backup right)
    (same : left.SamePicture right) : RestoredFrom backup left := by
  obtain ⟨_, core⟩ := same.core
  constructor
  · rw [core]; exact restored.cells
  · rw [same.regs]; exact restored.cursor
  · rw [same.regs]; exact restored.attributes
  · rw [core]; exact restored.defaults
  · rw [core]; exact restored.cursorSize
  · rw [core]; exact restored.cursorVisible
  · rw [core]; exact restored.saved
  · rw [core]; exact restored.margins
  · rw [same.regs]; exact restored.originMode

/-- The return to the main screen, committed. -/
theorem of_switch {state : OutputState} (alternate : state.buffer.vtMainBackup = some backup)
    (parser : VtOutputParseState) (original : VtRegisters) :
    RestoredFrom backup
      (((OutputCall.switchScreen false state).withParser parser).commit original) := by
  constructor <;>
    simp only [OutputState.commit_toScreenCore, OutputState.commit_regs, OutputState.withParser,
      OutputState.parse, OutputCall.switchScreen, ScreenBuffer.setVtUsingAlternateScreenBuffer,
      alternate, ScreenBuffer.touch, ite_self]

/-- Calls with nothing to write keep what was restored. -/
theorem applyCalls_idle {mode : OutputMode} (answerQueries : Bool)
    (vt : mode.vtProcessing = true) {start : OutputResult} (restored : RestoredFrom backup
      start.buffer) {pieces : List (List WChar)} (idle : pieces.flatten = []) :
    RestoredFrom backup (applyCalls mode answerQueries start pieces).buffer := by
  by_cases empty : start.buffer.bufferSize.x ≤ 0 ∨ start.buffer.bufferSize.y ≤ 0
  · rw [applyCalls_empty answerQueries empty]
    exact restored
  · have silent : start.buffer.vtOutputParseState.Silent pieces.flatten := by
      rw [idle]
      exact VtOutputParseState.silent_nil
    exact restored.of_samePicture (applyCalls_silent answerQueries start pieces empty vt silent).1

end RestoredFrom

/-- A text that stays on the alternate screen up to its last character, which returns
to the main one. -/
def Leaving (parser : VtOutputParseState) (text : List WChar) : Prop :=
  ∃ tail, text = tail ++ [wc 'l'] ∧ (∀ action ∈ parser.actions tail, action.KeepsScreen) ∧
    (parser.run tail).action (wc 'l') = .sequence (modeSequence false)

theorem Leaving.drop {parser : VtOutputParseState} {first second : List WChar}
    (leaving : Leaving parser (first ++ second)) (nonempty : second ≠ []) :
    (∀ action ∈ parser.actions first, action.KeepsScreen) ∧ Leaving (parser.run first) second := by
  obtain ⟨tail, split, keeps, final⟩ := leaving
  obtain ⟨rest, last, rfl⟩ := List.eq_nil_or_concat second |>.resolve_left nonempty
  rw [List.concat_eq_append, ← List.append_assoc] at split
  obtain ⟨rfl, lastEq⟩ := List.append_inj' split rfl
  rw [VtOutputParseState.actions_append] at keeps
  rw [VtOutputParseState.run_append] at final
  refine ⟨fun action mem => keeps action (List.mem_append_left _ mem), rest, ?_, ?_, final⟩
  · rw [List.concat_eq_append, lastEq]
  · exact fun action mem => keeps action (List.mem_append_right _ mem)

/-- Running a leaving text on the alternate screen and committing restores the main
screen. -/
theorem Leaving.commit {call : OutputCall} (vt : call.mode.vtProcessing = true)
    {state : OutputState} {backup : VtAlternateBufferBackup}
    (alternate : state.buffer.vtMainBackup = some backup) {text : List WChar}
    (leaving : Leaving state.buffer.vtOutputParseState text) (original : VtRegisters) :
    RestoredFrom backup ((call.run state text).commit original) := by
  obtain ⟨tail, rfl, keeps, final⟩ := leaving
  have start : state.Holds state.buffer.regs (some backup) state.buffer.bufferSize :=
    ⟨rfl, alternate, rfl⟩
  have ran : (call.run state tail).Holds state.buffer.regs (some backup)
      state.buffer.bufferSize := by
    apply start.run vt
    intro action mem
    exact ⟨(keeps action mem).1, fun isReset => absurd isReset (keeps action mem).2⟩
  rw [OutputCall.run_append, OutputCall.run_cons, OutputCall.step_eq_perform vt,
    OutputCall.run_parseState vt, final, perform_modeSequence]
  exact RestoredFrom.of_switch ran.backup _ original

/-- The calls that write the rest of a leaving text restore the main screen. -/
theorem Leaving.applyCalls {mode : OutputMode} (answerQueries : Bool)
    (vtMode : mode.vtProcessing = true) (after : List (List WChar)) {call : OutputCall}
    (vt : call.mode.vtProcessing = true) {state : OutputState} {backup : VtAlternateBufferBackup}
    (alternate : state.buffer.vtMainBackup = some backup)
    (nonempty : ¬ (state.buffer.bufferSize.x ≤ 0 ∨ state.buffer.bufferSize.y ≤ 0))
    {text : List WChar}
    (leaving : Leaving state.buffer.vtOutputParseState (text ++ after.flatten))
    (original : VtRegisters) (title : Option TitleState) (replies : List (List Byte)) :
    RestoredFrom backup (applyCalls mode answerQueries
      ⟨(call.run state text).commit original, title, replies⟩ after).buffer := by
  induction after generalizing call state text original title replies with
  | nil =>
      rw [List.flatten_nil, List.append_nil] at leaving
      exact leaving.commit vt alternate original
  | cons piece after ih =>
      by_cases done : (piece :: after).flatten = []
      · rw [done, List.append_nil] at leaving
        have restored := leaving.commit vt alternate original
        exact restored.applyCalls_idle answerQueries vtMode done
      · obtain ⟨keeps, later⟩ := leaving.drop done
        have start : state.Holds state.buffer.regs (some backup) state.buffer.bufferSize :=
          ⟨rfl, alternate, rfl⟩
        have ran : (call.run state text).Holds state.buffer.regs (some backup)
            state.buffer.bufferSize := by
          apply start.run vt
          intro action mem
          exact ⟨(keeps action mem).1, fun isReset => absurd isReset (keeps action mem).2⟩
        have parser := OutputCall.run_parseState vt state text
        generalize call.run state text = middle at ran parser ⊢
        have core : (middle.commit original).toScreenCore = middle.buffer.toScreenCore :=
          middle.commit_toScreenCore
        generalize middle.commit original = committed at core ⊢
        have size : committed.bufferSize = state.buffer.bufferSize := by
          rw [core]
          exact ran.size
        have started := ScreenBuffer.Parallel.outputState_parseState vtMode committed title
        rw [applyCalls_cons]
        unfold applyTextToScreenBuffer
        rw [size, if_neg nonempty]
        apply ih
        · exact vtMode
        · rw [started, core]
          exact ran.backup
        · rw [started, size]
          exact nonempty
        · rw [started, core, parser]
          exact later

theorem switchScreen_true {state : OutputState} (main : state.buffer.vtMainBackup = none) :
    (OutputCall.switchScreen true state).buffer.vtMainBackup =
        some (state.buffer.toScreenCore.snapshot state.buffer.regs) ∧
      (OutputCall.switchScreen true state).buffer.bufferSize = state.buffer.bufferSize := by
  simp only [OutputCall.switchScreen, ScreenBuffer.setVtUsingAlternateScreenBuffer, main,
    ScreenBuffer.touch]
  exact ⟨rfl, trivial⟩

/-- The character that enters the alternate screen, in a call that started on the main
one. -/
theorem enter_alternate {buffer : ScreenBuffer} {mode : OutputMode} (answerQueries : Bool)
    {text : List WChar} (title : Option TitleState)
    (nonempty : 0 < buffer.bufferSize.x ∧ 0 < buffer.bufferSize.y)
    (vt : mode.vtProcessing = true) (main : buffer.vtMainBackup = none)
    (free : ∀ action ∈ buffer.vtOutputParseState.actions text, ¬ action.Switches)
    (enters : (buffer.vtOutputParseState.run text).action (wc 'h') =
      .sequence (modeSequence true)) :
    let state := (buffer.outputCall mode answerQueries).run (buffer.outputState mode title)
      (text ++ [wc 'h'])
    state.buffer.vtMainBackup = some (((Terminal.mk buffer.toScreenCore buffer.regs title).run mode
        answerQueries text).core.snapshot buffer.regs) ∧
      state.buffer.bufferSize = buffer.bufferSize ∧
      state.buffer.vtOutputParseState = buffer.vtOutputParseState.run (text ++ [wc 'h']) := by
  have started := ScreenBuffer.Parallel.outputState_parseState vt buffer title
  have vtCall : (buffer.outputCall mode answerQueries).mode.vtProcessing = true := vt
  have start : (buffer.outputState mode title).Holds buffer.regs none buffer.bufferSize := by
    constructor <;> rw [started]
    exact main
  have ran : ((buffer.outputCall mode answerQueries).run (buffer.outputState mode title)
      text).Holds buffer.regs none buffer.bufferSize := by
    apply start.run vtCall
    rw [started]
    exact fun action mem => ⟨free action mem, fun _ => rfl⟩
  have core : ((buffer.outputCall mode answerQueries).run (buffer.outputState mode title)
      text).buffer.toScreenCore =
        ((Terminal.mk buffer.toScreenCore buffer.regs title).run mode answerQueries
          text).core := by
    rw [← (Terminal.refines_of_keeps answerQueries title nonempty vt
      fun action mem => ⟨free action mem, fun _ => main⟩).1]
    unfold OutputResult.terminal applyTextToScreenBuffer
    rw [if_neg (by omega)]
    exact OutputState.commit_toScreenCore.symm
  have parser := OutputCall.run_parseState vtCall (buffer.outputState mode title) text
  rw [started] at parser
  obtain ⟨backup, size⟩ := switchScreen_true ran.backup
  dsimp only
  rw [OutputCall.run_append, OutputCall.run_cons, OutputCall.step_eq_perform vtCall, parser,
    enters, perform_modeSequence, VtOutputParseState.run_append]
  refine ⟨backup.trans ?_, size.trans ran.size, rfl⟩
  rw [core, ran.committed]

/-- `CSI ? 1049` without its final character. -/
def switchOpening (eightBit : Bool) : List WChar :=
  (if eightBit then [0x9b] else [0x1b, wc '[']) ++ [wc '?', wc '1', wc '0', wc '4', wc '9']

/-- `CSI ? 1049 h`, with CSI in either form. -/
def enterText (eightBit : Bool) : List WChar := switchOpening eightBit ++ [wc 'h']

/-- `CSI ? 1049 l`, with CSI in either form. -/
def leaveText (eightBit : Bool) : List WChar := switchOpening eightBit ++ [wc 'l']

/-- A text for the main screen: it switches no screens and ends in ground phase. -/
structure MainText (text : List WChar) : Prop where
  noSwitch : ∀ action ∈ VtOutputParseState.actions {} text, ¬ action.Switches
  ground : (VtOutputParseState.run {} text).phase = .ground

/-- A text for the alternate screen: it contains no switch of screens and no RIS, and
it ends in ground phase. -/
structure AlternateText (text : List WChar) : Prop where
  keeps : ∀ action ∈ VtOutputParseState.actions {} text, action.KeepsScreen
  ground : (VtOutputParseState.run {} text).phase = .ground

/-- Everything the round trip has to bring back. -/
structure Restored (after main : ScreenBuffer) : Prop where
  cells : after.cells = main.cells
  cursor : after.regs.cursor = main.regs.cursor
  attributes : after.regs.attributes = main.regs.attributes
  defaults : after.defaultTextAttributes = main.defaultTextAttributes
  cursorSize : after.cursorSize = main.cursorSize
  cursorVisible : after.cursorVisible = main.cursorVisible
  saved : after.savedCursorState = main.savedCursorState
  margins : after.vtVerticalMargins = main.vtVerticalMargins
  originMode : after.regs.originMode = main.regs.originMode

/-- The call that writes the character at a position of the text starts at `start`. -/
def Carries (pieces : List (List WChar)) (position start : Nat) : Prop :=
  ∃ before piece after, pieces = before ++ piece :: after ∧ before.flatten.length = start ∧
    start ≤ position ∧ position < start + piece.length

/-- The registers a switch takes from the last commit. -/
def VtRegisters.Settled (committed live : VtRegisters) : Prop :=
  committed.cursor = live.cursor ∧ committed.attributes = live.attributes ∧
    committed.originMode = live.originMode

namespace VtOutputParseState

variable {parser : VtOutputParseState}

theorem actions_of_ground (phase : parser.phase = .ground) (text : List WChar) :
    parser.actions text = VtOutputParseState.actions {} text ∧
      (parser.run text).live = (VtOutputParseState.run {} text).live :=
  actions_of_live (parser.live_of_ground phase) text

theorem silent_switchOpening (phase : parser.phase = .ground) (eightBit : Bool) :
    parser.Silent (switchOpening eightBit) := by
  have nothing : ∀ action ∈ VtOutputParseState.actions {} (switchOpening eightBit),
      action = .nothing := by
    cases eightBit <;> decide
  intro action mem
  rw [(actions_of_ground phase _).1] at mem
  rw [nothing action mem]
  trivial

theorem action_switchOpening (phase : parser.phase = .ground) (eightBit enable : Bool) :
    (parser.run (switchOpening eightBit)).action (if enable then wc 'h' else wc 'l') =
      .sequence (modeSequence enable) := by
  rw [← action_live, (actions_of_ground phase _).2, action_live]
  cases eightBit <;> cases enable <;> rfl

end VtOutputParseState

/-- Every position of the text is carried by some call. -/
theorem exists_carries {pieces : List (List WChar)} {position : Nat}
    (inside : position < pieces.flatten.length) : ∃ start, Carries pieces position start := by
  induction pieces generalizing position with
  | nil => simp at inside
  | cons piece pieces ih =>
      by_cases here : position < piece.length
      · exact ⟨0, [], piece, pieces, rfl, rfl, Nat.zero_le _, by omega⟩
      · rw [List.flatten_cons, List.length_append] at inside
        obtain ⟨start, before, call, after, rfl, rfl, lower, upper⟩ :=
          @ih (position - piece.length) (by omega)
        refine ⟨piece.length + before.flatten.length, piece :: before, call, after, rfl, ?_, ?_, ?_⟩
        · rw [List.flatten_cons, List.length_append]
        · omega
        · omega

/-- How the call that carries a character lies in the text. -/
theorem Carries.split {pieces : List (List WChar)} {front rest : List WChar} {character : WChar}
    {start : Nat} (carries : Carries pieces front.length start)
    (text : pieces.flatten = front ++ character :: rest) :
    ∃ before first second after, pieces = before ++ (first ++ character :: second) :: after ∧
      before.flatten.length = start ∧ front = before.flatten ++ first ∧
      rest = second ++ after.flatten := by
  obtain ⟨before, piece, after, rfl, startEq, lower, upper⟩ := carries
  rw [List.flatten_append, List.flatten_cons, ← List.take_append_drop start front,
    List.append_assoc] at text
  obtain ⟨beforeEq, tail⟩ := List.append_inj text (by
    rw [startEq, List.length_take]
    omega)
  have short : (front.drop start).length < piece.length := by
    rw [List.length_drop]
    omega
  rcases List.append_eq_append_iff.mp tail with ⟨second, firstEq, _⟩ | ⟨second, pieceEq, afterEq⟩
  · rw [firstEq, List.length_append] at short
    omega
  · cases second with
    | nil =>
        rw [pieceEq, List.append_nil] at short
        omega
    | cons head second =>
        obtain ⟨rfl, restEq⟩ := List.cons.inj afterEq
        refine ⟨before, front.drop start, second, after, by rw [← pieceEq], startEq, ?_, restEq⟩
        rw [beforeEq, List.take_append_drop]

section RoundTrip

variable {buffer : ScreenBuffer} {mode : OutputMode} {main alternate : List WChar}
  {enterEight leaveEight : Bool}

theorem run_ground {parser : VtOutputParseState} (ground : parser.phase = .ground)
    {text : List WChar} (ends : (VtOutputParseState.run {} text).phase = .ground) :
    (parser.run text).phase = .ground := by
  rw [← VtOutputParseState.live_phase, (VtOutputParseState.actions_of_ground ground text).2,
    VtOutputParseState.live_phase]
  exact ends

theorem VtAction.Silent.keepsScreen {action : VtAction} (silent : action.Silent) :
    action.KeepsScreen := by
  cases action with
  | nothing => exact ⟨id, nofun⟩
  | setTitle title => exact ⟨id, nofun⟩
  | _ => exact silent.elim

theorem MainText.free (text : MainText main) (eightBit : Bool)
    (ground : buffer.vtOutputParseState.phase = .ground) :
    ∀ action ∈ buffer.vtOutputParseState.actions (main ++ switchOpening eightBit),
      ¬ action.Switches := by
  intro action mem
  rw [VtOutputParseState.actions_append] at mem
  rcases List.mem_append.mp mem with mem | mem
  · rw [(VtOutputParseState.actions_of_ground ground main).1] at mem
    exact text.noSwitch action mem
  · have silent := VtOutputParseState.silent_switchOpening (run_ground ground text.ground) eightBit
    exact (silent action mem).keepsScreen.1

theorem AlternateText.leaving (text : AlternateText alternate) (leaveEight : Bool)
    {parser : VtOutputParseState} (ground : parser.phase = .ground) :
    Leaving parser (alternate ++ leaveText leaveEight) := by
  have ended := run_ground ground text.ground
  refine ⟨alternate ++ switchOpening leaveEight, ?_, ?_, ?_⟩
  · simp only [leaveText, List.append_assoc]
  · intro action mem
    rw [VtOutputParseState.actions_append] at mem
    rcases List.mem_append.mp mem with mem | mem
    · rw [(VtOutputParseState.actions_of_ground ground alternate).1] at mem
      exact text.keeps action mem
    · exact (VtOutputParseState.silent_switchOpening ended leaveEight action mem).keepsScreen
  · rw [VtOutputParseState.run_append]
    exact VtOutputParseState.action_switchOpening ended leaveEight false

/-- The calls of a round trip, with the call that carries the switch apart: they
restore the picture at the switch and the registers at the start of that call. -/
theorem roundTrip_restores (title : Option TitleState) (answerQueries : Bool)
    (nonempty : 0 < buffer.bufferSize.x ∧ 0 < buffer.bufferSize.y)
    (vt : mode.vtProcessing = true) (onMain : buffer.vtMainBackup = none)
    (ground : buffer.vtOutputParseState.phase = .ground) (mainText : MainText main)
    (alternateText : AlternateText alternate) {before after : List (List WChar)}
    {first second : List WChar} (front : main ++ switchOpening enterEight = before.flatten ++ first)
    (rest : alternate ++ leaveText leaveEight = second ++ after.flatten) :
    let terminal := Terminal.mk buffer.toScreenCore buffer.regs title
    RestoredFrom
      ((terminal.run mode answerQueries (main ++ switchOpening enterEight)).core.snapshot
        (terminal.run mode answerQueries before.flatten).regs)
      (applyCalls mode answerQueries ⟨buffer, title, []⟩
        (before ++ (first ++ wc 'h' :: second) :: after)).buffer := by
  intro terminal
  have ended := run_ground ground mainText.ground
  have free := mainText.free enterEight ground
  have enters := VtOutputParseState.action_switchOpening ended enterEight true
  have entered : (buffer.vtOutputParseState.run
      (main ++ switchOpening enterEight ++ [wc 'h'])).phase = .ground := by
    rw [List.append_assoc, VtOutputParseState.run_append]
    exact run_ground ended (by cases enterEight <;> decide)
  rw [← VtOutputParseState.run_append] at enters
  rw [front] at free enters entered ⊢
  rw [VtOutputParseState.actions_append] at free
  obtain ⟨refines, size, stillMain, parser⟩ := Terminal.applyCalls_refines answerQueries
    ⟨buffer, title, []⟩ before nonempty vt
    fun action mem => ⟨free action (List.mem_append_left _ mem), fun _ => onMain⟩
  replace stillMain := stillMain.trans onMain
  have leaving := alternateText.leaving leaveEight entered
  rw [rest] at leaving
  rw [applyCalls_append]
  generalize applyCalls mode answerQueries ⟨buffer, title, []⟩ before = middle at *
  have positive : ¬ (middle.buffer.bufferSize.x ≤ 0 ∨ middle.buffer.bufferSize.y ≤ 0) := by
    rw [size]
    dsimp only
    omega
  rw [VtOutputParseState.run_append, ← parser] at enters
  obtain ⟨backup, innerSize, innerParser⟩ := enter_alternate answerQueries middle.title
    (by rw [size]; exact nonempty) vt stillMain (by
      rw [parser]
      exact fun action mem => free action (List.mem_append_right _ mem)) enters
  have runs : terminal.run mode answerQueries (before.flatten ++ first) =
      middle.terminal.run mode answerQueries first := by
    rw [refines]
    exact List.foldl_append
  have committed : (terminal.run mode answerQueries before.flatten).regs = middle.buffer.regs := by
    rw [← show middle.terminal = terminal.run mode answerQueries before.flatten from refines]
    rfl
  rw [runs, committed, applyCalls_cons]
  unfold applyTextToScreenBuffer
  rw [if_neg positive]
  dsimp only
  rw [show first ++ wc 'h' :: second = (first ++ [wc 'h']) ++ second by simp,
    OutputCall.run_append]
  apply Leaving.applyCalls answerQueries vt after
  · exact vt
  · exact backup
  · rw [innerSize]
    exact positive
  · rw [innerParser, parser, ← VtOutputParseState.run_append, ← List.append_assoc]
    exact leaving

/-- The opening of the switch changes nothing but the parser. -/
theorem run_switchOpening (title : Option TitleState) (answerQueries : Bool)
    (vt : mode.vtProcessing = true) (ground : buffer.vtOutputParseState.phase = .ground)
    (mainText : MainText main) {part rest : List WChar}
    (opening : switchOpening enterEight = part ++ rest) :
    let terminal := Terminal.mk buffer.toScreenCore buffer.regs title
    (terminal.run mode answerQueries (main ++ part)).core =
        { (terminal.run mode answerQueries main).core with
          vtOutputParseState := buffer.vtOutputParseState.run (main ++ part) } ∧
      (terminal.run mode answerQueries (main ++ part)).regs =
        (terminal.run mode answerQueries main).regs := by
  intro terminal
  have parser := terminal.run_parseState answerQueries vt main
  have silent := VtOutputParseState.silent_switchOpening (run_ground ground mainText.ground)
    enterEight
  rw [opening] at silent
  have part := (VtOutputParseState.silent_of_append silent).1
  rw [← show _ = buffer.vtOutputParseState.run main from parser] at part
  obtain ⟨core, regs⟩ := Terminal.run_silent answerQueries vt part
  rw [Terminal.run_append, VtOutputParseState.run_append]
  refine ⟨core.trans ?_, regs⟩
  rw [parser]

/-- The registers at the start of the call that carries the switch. -/
theorem regs_at_start (title : Option TitleState) (enterEight answerQueries : Bool)
    (vt : mode.vtProcessing = true) (ground : buffer.vtOutputParseState.phase = .ground)
    (mainText : MainText main) (start : Nat) :
    let terminal := Terminal.mk buffer.toScreenCore buffer.regs title
    (terminal.run mode answerQueries ((main ++ switchOpening enterEight).take start)).regs =
      (terminal.run mode answerQueries (main.take start)).regs := by
  by_cases inside : start ≤ main.length
  · rw [List.take_append_of_le_length inside]
  · have opening : switchOpening enterEight =
        (switchOpening enterEight).take (start - main.length) ++
          (switchOpening enterEight).drop (start - main.length) := by
      rw [List.take_append_drop]
    rw [List.take_append, List.take_of_length_le (by omega : main.length ≤ start)]
    exact (run_switchOpening title answerQueries vt ground mainText opening).2

/-- The round trip restores everything but three registers, and these are the ones at
the start of the call that carries the switch. -/
theorem restored_iff_of_carries (title : Option TitleState) (answerQueries : Bool)
    (nonempty : 0 < buffer.bufferSize.x ∧ 0 < buffer.bufferSize.y)
    (vt : mode.vtProcessing = true) (onMain : buffer.vtMainBackup = none)
    (ground : buffer.vtOutputParseState.phase = .ground) (mainText : MainText main)
    (alternateText : AlternateText alternate) {pieces : List (List WChar)} {start : Nat}
    (cut : pieces.flatten = (main ++ switchOpening enterEight) ++ wc 'h' ::
      (alternate ++ leaveText leaveEight))
    (carries : Carries pieces (main ++ switchOpening enterEight).length start) :
    Restored (applyCalls mode answerQueries ⟨buffer, title, []⟩ pieces).buffer
        (applyTextToScreenBuffer buffer main mode title answerQueries).buffer ↔
      (applyTextToScreenBuffer buffer (main.take start) mode title
          answerQueries).buffer.regs.Settled
        (applyTextToScreenBuffer buffer main mode title answerQueries).buffer.regs := by
  have free := mainText.free enterEight ground
  rw [VtOutputParseState.actions_append] at free
  have mainFree := fun action mem => free action (List.mem_append_left _ mem)
  have takeFree : ∀ action ∈ buffer.vtOutputParseState.actions (main.take start),
      ¬ action.Switches := by
    intro action mem
    apply mainFree action
    rw [← List.take_append_drop start main, VtOutputParseState.actions_append]
    exact List.mem_append_left _ mem
  have mainRuns := (Terminal.refines_of_keeps answerQueries title nonempty vt
    fun action mem => ⟨mainFree action mem, fun _ => onMain⟩).1
  have takeRuns := (Terminal.refines_of_keeps answerQueries title nonempty vt
    fun action mem => ⟨takeFree action mem, fun _ => onMain⟩).1
  obtain ⟨before, first, second, after, rfl, startEq, front, rest⟩ := carries.split cut
  have restored := roundTrip_restores title answerQueries nonempty vt onMain ground mainText
    alternateText front rest
  have beforeEq : before.flatten = (main ++ switchOpening enterEight).take start := by
    rw [front, ← startEq, List.take_left']
    rfl
  have opened := (run_switchOpening title answerQueries vt ground mainText
    (List.append_nil (switchOpening enterEight)).symm).1
  have picture (committed : VtRegisters) :
      ((Terminal.mk buffer.toScreenCore buffer.regs title).run mode answerQueries
        (main ++ switchOpening enterEight)).core.snapshot committed =
      (applyTextToScreenBuffer buffer main mode title
        answerQueries).buffer.toScreenCore.snapshot committed := by
    rw [opened, ← mainRuns]
    rfl
  have committed : ((Terminal.mk buffer.toScreenCore buffer.regs title).run mode answerQueries
        before.flatten).regs =
      (applyTextToScreenBuffer buffer (main.take start) mode title answerQueries).buffer.regs := by
    rw [beforeEq]
    refine (regs_at_start title enterEight answerQueries vt ground mainText start).trans ?_
    rw [← takeRuns]
    rfl
  dsimp only at restored
  rw [picture, committed] at restored
  constructor
  · intro whole
    exact ⟨restored.cursor.symm.trans whole.cursor, restored.attributes.symm.trans whole.attributes,
      restored.originMode.symm.trans whole.originMode⟩
  · rintro ⟨cursor, attributes, originMode⟩
    exact ⟨restored.cells, restored.cursor.trans cursor, restored.attributes.trans attributes,
      restored.defaults, restored.cursorSize, restored.cursorVisible, restored.saved,
      restored.margins, restored.originMode.trans originMode⟩

/-- A round trip through the alternate screen restores the main screen if and only
if what the call with the switch has written before it leaves the cursor, the
attributes and the origin mode as they were when the call started. -/
theorem roundTrip_restored_iff (buffer : ScreenBuffer) (mode : OutputMode)
    (title : Option TitleState) (answerQueries : Bool) (main alternate : List WChar)
    (enterEight leaveEight : Bool) (pieces : List (List WChar))
    (vt : mode.vtProcessing = true) (onMain : buffer.vtMainBackup = none)
    (ground : buffer.vtOutputParseState.phase = .ground) (mainText : MainText main)
    (alternateText : AlternateText alternate)
    (cut : pieces.flatten =
      main ++ enterText enterEight ++ alternate ++ leaveText leaveEight) :
    Restored (applyCalls mode answerQueries ⟨buffer, title, []⟩ pieces).buffer
        (applyTextToScreenBuffer buffer main mode title answerQueries).buffer ↔
      ∀ start, Carries pieces (main ++ switchOpening enterEight).length start →
        (applyTextToScreenBuffer buffer (main.take start) mode title
            answerQueries).buffer.regs.Settled
          (applyTextToScreenBuffer buffer main mode title answerQueries).buffer.regs := by
  by_cases nonempty : 0 < buffer.bufferSize.x ∧ 0 < buffer.bufferSize.y
  · have text : pieces.flatten = (main ++ switchOpening enterEight) ++ wc 'h' ::
        (alternate ++ leaveText leaveEight) := by
      rw [cut]
      simp [enterText]
    have inside : (main ++ switchOpening enterEight).length < pieces.flatten.length := by
      rw [text]
      simp
    obtain ⟨start, carries⟩ := exists_carries inside
    constructor
    · intro restored other otherCarries
      exact (restored_iff_of_carries title answerQueries nonempty vt onMain ground mainText
        alternateText text otherCarries).mp restored
    · intro settled
      exact (restored_iff_of_carries title answerQueries nonempty vt onMain ground mainText
        alternateText text carries).mpr (settled start carries)
  · have unchanged (text : List WChar) :
        (applyTextToScreenBuffer buffer text mode title answerQueries).buffer = buffer := by
      unfold applyTextToScreenBuffer
      rw [if_pos (by omega)]
    rw [applyCalls_empty answerQueries (by dsimp only; omega)]
    simp only [unchanged]
    exact ⟨fun _ _ _ => ⟨rfl, rfl, rfl⟩, fun _ => ⟨rfl, rfl, rfl, rfl, rfl, rfl, rfl, rfl, rfl⟩⟩

theorem mainText_letter : MainText [wc 'X'] := by
  refine ⟨?_, by decide⟩
  intro action mem
  rw [List.mem_singleton.mp mem]
  exact id

/-- The `X` is written in a call of its own, so the switch saves the cursor after it. -/
theorem roundTrip_restored_separate :
    Restored (applyCalls ⟨7⟩ true ⟨twoCells, none, []⟩
        [[wc 'X'], enterText false ++ leaveText true]).buffer
      (applyTextToScreenBuffer twoCells [wc 'X'] ⟨7⟩ none true).buffer := by
  apply (roundTrip_restored_iff twoCells ⟨7⟩ none true [wc 'X'] [] false true _ (by decide)
    (by decide) (by decide) mainText_letter ⟨nofun, rfl⟩ rfl).mpr
  rintro start ⟨before, piece, after, pieces, startEq, lower, upper⟩
  cases before with
  | nil =>
      obtain ⟨rfl, _⟩ := List.cons.inj pieces
      rw [← startEq] at upper
      exact absurd upper (by decide)
  | cons head before =>
      obtain ⟨rfl, _⟩ := List.cons.inj pieces
      have past : 1 ≤ start := by
        rw [← startEq, List.flatten_cons, List.length_append, List.length_singleton]
        omega
      rw [List.take_of_length_le past]
      exact ⟨rfl, rfl, rfl⟩

/-- Written in one call with the switch, the `X` is restored but not the cursor after
it. -/
theorem not_restored_single :
    ¬ ∀ (buffer : ScreenBuffer) (mode : OutputMode) (title : Option TitleState)
      (answerQueries : Bool) (main alternate : List WChar) (enterEight leaveEight : Bool)
      (pieces : List (List WChar)), mode.vtProcessing = true → buffer.vtMainBackup = none →
      buffer.vtOutputParseState.phase = .ground → MainText main → AlternateText alternate →
      pieces.flatten = main ++ enterText enterEight ++ alternate ++ leaveText leaveEight →
      Restored (applyCalls mode answerQueries ⟨buffer, title, []⟩ pieces).buffer
        (applyTextToScreenBuffer buffer main mode title answerQueries).buffer := by
  intro every
  have restored := every twoCells ⟨7⟩ none true [wc 'X'] [] false false
    [[wc 'X'] ++ enterText false ++ leaveText false] (by decide) (by decide) (by decide)
    mainText_letter ⟨nofun, rfl⟩ (by decide)
  exact absurd restored.cursor (by decide +kernel)

end RoundTrip

end Conhost
