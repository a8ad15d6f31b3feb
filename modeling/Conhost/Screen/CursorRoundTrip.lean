import Conhost.Screen.HardReset

/-!
# Saving and restoring the cursor

`ESC 7` or `CSI s` saves the cursor with the attributes, the origin mode and the
delayed wrap; `ESC 8` or `CSI u` restores them. No other operation but a reset or a
switch of screens looks at what is saved, so whatever is written in between the
cursor comes back. Only the row is clamped again if the origin mode was on.
-/

namespace Conhost

/-- An action that overwrites the saved cursor. -/
def VtAction.ReplacesSaved : VtAction → Prop
  | .saveCursor => True
  | .hardReset => True
  | .sequence csi => csi.SavesCursor
  | _ => False

/-- The cursor saved in the buffer. -/
structure OutputState.Remembers (saved : Option SavedCursorState) (size : Coord)
    (state : OutputState) : Prop where
  saved : state.buffer.savedCursorState = saved
  size : state.buffer.bufferSize = size

namespace OutputState.Remembers

variable {call : OutputCall} {saved : Option SavedCursorState} {size : Coord}
  {state : OutputState}

theorem lockstep (call : OutputCall) (saved : Option SavedCursorState) (size : Coord) :
    DrawLockstep call fun left right => left = right ∧ left.Remembers saved size := by
  apply DrawLockstep.of_property
  · exact fun _ remembers => ⟨remembers.saved, remembers.size⟩
  · exact fun _ remembers => ⟨remembers.saved, remembers.size⟩
  · intro state α operation draws remembers
    exact ⟨(draws.frames _).saved.trans remembers.saved,
      (draws.frames _).size.trans remembers.size⟩
  · exact fun _ remembers => ⟨remembers.saved, remembers.size⟩

theorem perform (remembers : state.Remembers saved size) {action : VtAction}
    (noSwitch : ¬ action.Switches) (keeps : ¬ action.ReplacesSaved) :
    (call.perform state action).Remembers saved size := by
  have lock := lockstep call saved size
  have same : state = state ∧ state.Remembers saved size := ⟨rfl, remembers⟩
  cases action with
  | nothing => exact remembers
  | text character => exact (lock.textCharacter same character).2
  | sequence csi =>
      refine (lock.applyCsi same csi ?_ ?_).2
      · intro enable function member
        exact noSwitch ⟨⟨enable, function⟩, member⟩
      · intro saves
        exact absurd saves keeps
  | saveCursor => exact absurd trivial keeps
  | restoreCursor => exact (lock.restoreCursor same).2
  | lineFeed => exact (lock.lineFeed same).2
  | reverseLineFeed => exact (lock.reverseLineFeed same).2
  | advanceLine => exact (lock.advanceLine same).2
  | hardReset => exact absurd trivial keeps
  | screenAlignment => exact (lock.screenAlignment same).2
  | setTitle title => exact ⟨remembers.saved, remembers.size⟩

end OutputState.Remembers

namespace Terminal

variable {mode : OutputMode} (answerQueries : Bool)

theorem step_eq_perform (vt : mode.vtProcessing = true) (terminal : Terminal)
    (character : WChar) :
    let next := (terminal.call mode answerQueries).perform terminal.state
      (terminal.core.vtOutputParseState.action character)
    terminal.step mode answerQueries character =
      ⟨{ next.buffer.toScreenCore with
          vtOutputParseState := terminal.core.vtOutputParseState.next character },
        next.regs, next.title⟩ := by
  have step : (terminal.call mode answerQueries).step terminal.state character = _ :=
    OutputCall.step_eq_perform vt terminal.state character
  unfold Terminal.step
  rw [step]
  rfl

/-- A text that overwrites no saved cursor keeps the one there is. -/
theorem run_remembers (vt : mode.vtProcessing = true) {terminal : Terminal} {text : List WChar}
    (keeps : ∀ action ∈ terminal.core.vtOutputParseState.actions text,
      ¬ action.Switches ∧ ¬ action.ReplacesSaved) :
    (terminal.run mode answerQueries text).core.savedCursorState =
        terminal.core.savedCursorState ∧
      (terminal.run mode answerQueries text).core.bufferSize = terminal.core.bufferSize := by
  induction text generalizing terminal with
  | nil => exact ⟨rfl, rfl⟩
  | cons character text ih =>
      have here := keeps _ List.mem_cons_self
      have start : terminal.state.Remembers terminal.core.savedCursorState
          terminal.core.bufferSize := ⟨rfl, rfl⟩
      have performed : ((terminal.call mode answerQueries).perform terminal.state
          (terminal.core.vtOutputParseState.action character)).Remembers
            terminal.core.savedCursorState terminal.core.bufferSize :=
        start.perform here.1 here.2
      have step := step_eq_perform answerQueries vt terminal character
      have later := @ih (terminal.step mode answerQueries character) (by
        rw [step]
        exact fun action mem => keeps action (List.mem_cons_of_mem _ mem))
      have saved : (terminal.step mode answerQueries character).core.savedCursorState =
          terminal.core.savedCursorState := by
        rw [step]
        exact performed.saved
      have size : (terminal.step mode answerQueries character).core.bufferSize =
          terminal.core.bufferSize := by
        rw [step]
        exact performed.size
      exact ⟨later.1.trans saved, later.2.trans size⟩

end Terminal

/-- `ESC 7` and `ESC 8`, or `CSI s` and `CSI u` with CSI in either form. -/
inductive CursorForm where
  | escape
  | sequence (eightBit : Bool)
deriving DecidableEq

namespace CursorForm

/-- Everything but the final character. -/
def opening : CursorForm → List WChar
  | .escape => [0x1b]
  | .sequence eightBit => if eightBit then [0x9b] else [0x1b, wc '[']

def final (save : Bool) : CursorForm → WChar
  | .escape => if save then wc '7' else wc '8'
  | .sequence _ => if save then wc 's' else wc 'u'

def action (save : Bool) : CursorForm → VtAction
  | .escape => if save then .saveCursor else .restoreCursor
  | .sequence _ => .sequence { final := if save then wc 's' else wc 'u' }

/-- The text that saves or restores the cursor. -/
def text (form : CursorForm) (save : Bool) : List WChar := form.opening ++ [form.final save]

theorem silent_opening {parser : VtOutputParseState} (ground : parser.phase = .ground)
    (form : CursorForm) : parser.Silent form.opening := by
  have nothing : ∀ action ∈ VtOutputParseState.actions {} form.opening, action = .nothing := by
    cases form with
    | escape => decide
    | sequence eightBit => cases eightBit <;> decide
  intro action mem
  rw [(VtOutputParseState.actions_of_ground ground _).1] at mem
  rw [nothing action mem]
  trivial

theorem action_final {parser : VtOutputParseState} (ground : parser.phase = .ground)
    (form : CursorForm) (save : Bool) :
    (parser.run form.opening).action (form.final save) = form.action save := by
  rw [← VtOutputParseState.action_live, (VtOutputParseState.actions_of_ground ground _).2,
    VtOutputParseState.action_live]
  cases form with
  | escape => cases save <;> rfl
  | sequence eightBit =>
      cases eightBit
      · cases save <;> rfl
      · cases save <;> rfl

theorem ground_text {parser : VtOutputParseState} (ground : parser.phase = .ground)
    (form : CursorForm) (save : Bool) : (parser.run (form.text save)).phase = .ground := by
  apply run_ground ground
  cases form with
  | escape => cases save <;> decide
  | sequence eightBit =>
      cases eightBit
      · cases save <;> decide
      · cases save <;> decide

theorem actions_text {parser : VtOutputParseState} (ground : parser.phase = .ground)
    (form : CursorForm) (save : Bool) :
    ∀ action ∈ parser.actions (form.text save),
      ¬ action.Switches ∧ (action ≠ .hardReset) := by
  intro action mem
  rw [text, VtOutputParseState.actions_append] at mem
  rcases List.mem_append.mp mem with mem | mem
  · exact (form.silent_opening ground action mem).keepsScreen
  · rw [VtOutputParseState.actions, VtOutputParseState.actions, form.action_final ground,
      List.mem_singleton] at mem
    subst mem
    cases form with
    | escape => cases save <;> exact ⟨id, by simp [CursorForm.action]⟩
    | sequence eightBit =>
        refine ⟨?_, by simp [CursorForm.action]⟩
        rintro ⟨-, member⟩
        cases member

theorem perform_save (form : CursorForm) (call : OutputCall) (state : OutputState) :
    call.perform state (form.action true) = OutputCall.saveCursor state := by
  cases form <;> rfl

theorem perform_restore (form : CursorForm) (call : OutputCall) (state : OutputState) :
    call.perform state (form.action false) = call.restoreCursor state := by
  cases form <;> rfl

end CursorForm

/-- A text that ends in ground phase and contains no further save, no reset and no switch of
screens. -/
structure KeepsSaved (text : List WChar) : Prop where
  keeps : ∀ action ∈ VtOutputParseState.actions {} text,
    ¬ action.Switches ∧ ¬ action.ReplacesSaved
  ground : (VtOutputParseState.run {} text).phase = .ground

/-- The row a restored cursor is clamped to in origin mode. -/
def rowWithin (margins : Option VtVerticalMargins) (row : Int) : Int :=
  match margins with
  | some ⟨top, bottom⟩ => clampLong row top bottom
  | none => row

/-- What the restore brings back. -/
structure CursorRestored (before : VtRegisters) (margins : Option VtVerticalMargins)
    (after : VtRegisters) : Prop where
  attributes : after.attributes = before.attributes
  originMode : after.originMode = before.originMode
  column : after.cursor.x = before.cursor.x
  row : after.cursor.y =
    if before.originMode then rowWithin margins before.cursor.y else before.cursor.y
  pending : after.delayedWrap = some after.cursor ↔ before.delayedWrap = some before.cursor

theorem clampLong_eq_self {value low high : Int} (lower : low ≤ value) (upper : value ≤ high) :
    clampLong value low high = value := by
  unfold clampLong
  rw [if_neg (by omega), if_neg (by omega)]

namespace OutputCall

variable {call : OutputCall} {state : OutputState}

/-- What is saved of a cursor inside the buffer. -/
def savedCursor (regs : VtRegisters) : SavedCursorState where
  position := regs.cursor
  attributes := regs.attributes
  delayedEolWrap := decide (regs.delayedWrap = some regs.cursor)
  originModeEnabled := regs.originMode

theorem saveCursor_saved (size : state.buffer.bufferSize.IsSize)
    (inside : state.regs.cursor.Inside state.buffer.bufferSize) :
    (saveCursor state).buffer.savedCursorState = some (savedCursor state.regs) := by
  have wide := size.x_pos
  have high := size.y_pos
  have right := inside.x_lt
  have below := inside.y_lt
  have column := clampLong_eq_self inside.x_nonneg
    (by omega : state.regs.cursor.x ≤ state.buffer.bufferSize.x - 1)
  have row := clampLong_eq_self inside.y_nonneg
    (by omega : state.regs.cursor.y ≤ state.buffer.bufferSize.y - 1)
  unfold saveCursor
  simp only [OutputState.update, ScreenBuffer.update, ScreenCore.saveCursorState, column, row]
  rw [if_neg (by omega)]
  simp [savedCursor]

theorem restoreCursorState_saved {core : ScreenCore} {saved : SavedCursorState}
    (inside : saved.position.Inside core.bufferSize)
    (stored : core.savedCursorState = some saved) : core.restoreCursorState = some saved := by
  have left := inside.x_nonneg
  have right := inside.x_lt
  have above := inside.y_nonneg
  have below := inside.y_lt
  have column := clampLong_eq_self left
    (by omega : saved.position.x ≤ core.bufferSize.x - 1)
  have row := clampLong_eq_self above (by omega : saved.position.y ≤ core.bufferSize.y - 1)
  rw [ScreenCore.restoreCursorState, stored, Option.map_some, if_neg (by omega), column, row]

theorem clampColumn_inside (size : call.bufferSize.IsSize) {column : Int} (left : 0 ≤ column)
    (right : column < call.bufferSize.x) : call.clampColumn column = column := by
  have narrow := size.x_le
  rw [clampColumn, clampLong_eq_self left (by omega), toShort_eq_self (by omega) (by omega)]

/-- The row of a restored cursor. -/
theorem clampRow_originRows (invariant : call.Invariant state) {row : Int} (above : 0 ≤ row)
    (below : row < call.bufferSize.y) (regs : VtRegisters) :
    clampRow row (call.originRows regs state.margins) =
      if regs.originMode then rowWithin state.buffer.vtVerticalMargins row else row := by
  have low := invariant.isSize.y_le
  have bounds := invariant.originRows_bounds regs
  rw [clampRow, toShort_clampLong (by omega) bounds.2.1 (by omega)]
  unfold originRows
  split
  · rename_i origin
    have valid := invariant.marginsValid
    rw [← invariant.margins]
    unfold resolveVerticalRegion rowWithin
    rw [invariant.toShort_lastRow]
    cases margins : state.margins with
    | none => exact clampLong_eq_self above (Int.le_sub_one_of_lt below)
    | some region =>
        have inside := valid region (by rw [margins]; rfl)
        have top := inside.top_nonneg
        have ordered := inside.top_lt
        have bottom := inside.bottom_lt
        simp only
        rw [if_pos (by omega)]
  · exact clampLong_eq_self above (Int.le_sub_one_of_lt below)

/-- The restored registers, for a cursor that was saved inside the buffer. -/
theorem restoreCursor_restored (invariant : call.Invariant state) {before : VtRegisters}
    (inside : before.cursor.Inside call.bufferSize)
    (saved : state.buffer.savedCursorState = some (savedCursor before)) :
    CursorRestored before state.buffer.vtVerticalMargins (call.restoreCursor state).regs := by
  have stored := restoreCursorState_saved (by rw [invariant.size]; exact inside) saved
  have column := clampColumn_inside invariant.isSize inside.x_nonneg inside.x_lt
  have row := clampRow_originRows invariant inside.y_nonneg inside.y_lt
    { state.regs with attributes := before.attributes, originMode := before.originMode }
  unfold restoreCursor
  rw [stored]
  refine ⟨rfl, rfl, column, row, ?_⟩
  dsimp only [savedCursor]
  by_cases pending : before.delayedWrap = some before.cursor
  · simp [pending]
  · simp [pending]

end OutputCall

namespace Terminal

variable {mode : OutputMode} (answerQueries : Bool)

/-- A terminal on a well-formed screen. -/
structure WellFormed (terminal : Terminal) : Prop where
  core : terminal.core.WellFormed
  cursor : terminal.regs.cursor.Inside terminal.core.bufferSize

theorem WellFormed.invariant {terminal : Terminal} (valid : terminal.WellFormed)
    (mode : OutputMode) : (terminal.call mode answerQueries).Invariant terminal.state := by
  have wide := valid.core.size.x_pos
  have high := valid.core.size.y_pos
  have window : (⟨0, 0, 0, 0⟩ : SmallRect).IsWindow terminal.core.bufferSize :=
    ⟨le_rfl, le_rfl, wide, le_rfl, le_rfl, high⟩
  exact ⟨⟨valid.core, valid.cursor, window⟩, rfl, rfl, valid.cursor⟩

theorem WellFormed.step {terminal : Terminal} (valid : terminal.WellFormed)
    (mode : OutputMode) (character : WChar) :
    (terminal.step mode answerQueries character).WellFormed := by
  have next := (valid.invariant answerQueries mode).step character
  refine ⟨next.buffer.core, ?_⟩
  have inside := next.cursor
  rw [← next.size] at inside
  exact inside

theorem WellFormed.run {terminal : Terminal} (valid : terminal.WellFormed) (mode : OutputMode)
    (text : List WChar) : (terminal.run mode answerQueries text).WellFormed := by
  induction text generalizing terminal with
  | nil => exact valid
  | cons character text ih => exact ih (valid.step answerQueries mode character)

theorem run_append_singleton (terminal : Terminal) (text : List WChar) (character : WChar) :
    terminal.run mode answerQueries (text ++ [character]) =
      (terminal.run mode answerQueries text).step mode answerQueries character :=
  run_append answerQueries terminal text [character]

/-- The opening only moves the parser; the final character performs the action. -/
theorem run_form (vt : mode.vtProcessing = true) {terminal : Terminal}
    (valid : terminal.WellFormed) (ground : terminal.core.vtOutputParseState.phase = .ground)
    (form : CursorForm) (save : Bool) :
    ∃ opened : Terminal, ∃ first last : VtOutputParseState, opened.WellFormed ∧
      opened.core = { terminal.core with vtOutputParseState := first } ∧
      opened.regs = terminal.regs ∧
      (terminal.run mode answerQueries (form.text save)).core =
        { ((opened.call mode answerQueries).perform opened.state
            (form.action save)).buffer.toScreenCore with vtOutputParseState := last } ∧
      (terminal.run mode answerQueries (form.text save)).regs =
        ((opened.call mode answerQueries).perform opened.state (form.action save)).regs := by
  rcases run_silent answerQueries vt (form.silent_opening ground) with ⟨core, regs⟩
  have still := valid.run answerQueries mode form.opening
  have step := step_eq_perform answerQueries vt (terminal.run mode answerQueries form.opening)
    (form.final save)
  have parser := run_parseState answerQueries vt terminal form.opening
  rw [parser, form.action_final ground] at step
  refine ⟨terminal.run mode answerQueries form.opening, _,
    (terminal.core.vtOutputParseState.run form.opening).next (form.final save), still, core, regs,
    ?_, ?_⟩
  · rw [CursorForm.text, run_append_singleton, step]
  · rw [CursorForm.text, run_append_singleton, step]

/-- A save on a terminal in ground phase. -/
theorem run_save (vt : mode.vtProcessing = true) {terminal : Terminal}
    (valid : terminal.WellFormed) (ground : terminal.core.vtOutputParseState.phase = .ground)
    (form : CursorForm) :
    (terminal.run mode answerQueries (form.text true)).core.savedCursorState =
        some (OutputCall.savedCursor terminal.regs) ∧
      (terminal.run mode answerQueries (form.text true)).core.bufferSize =
        terminal.core.bufferSize := by
  rcases run_form answerQueries vt valid ground form true with
    ⟨opened, first, last, still, core, regs, savedCore, -⟩
  have saved := @OutputCall.saveCursor_saved opened.state still.core.size still.cursor
  rw [form.perform_save] at savedCore
  have size : opened.core.bufferSize = terminal.core.bufferSize := by rw [core]
  rw [savedCore]
  refine ⟨saved.trans ?_, size⟩
  rw [← regs]
  rfl

/-- A restore on a terminal in ground phase. -/
theorem run_restore (vt : mode.vtProcessing = true) {terminal : Terminal}
    (valid : terminal.WellFormed) (ground : terminal.core.vtOutputParseState.phase = .ground)
    (form : CursorForm) {before : VtRegisters}
    (inside : before.cursor.Inside terminal.core.bufferSize)
    (saved : terminal.core.savedCursorState = some (OutputCall.savedCursor before)) :
    let restored := terminal.run mode answerQueries (form.text false)
    CursorRestored before restored.core.vtVerticalMargins restored.regs := by
  rcases run_form answerQueries vt valid ground form false with
    ⟨opened, first, last, still, core, -, restoredCore, restoredRegs⟩
  have size : opened.core.bufferSize = terminal.core.bufferSize := by rw [core]
  have stored : opened.core.savedCursorState = some (OutputCall.savedCursor before) := by
    rw [← saved, core]
  have restores := OutputCall.restoreCursor_restored (still.invariant answerQueries mode)
    (by rw [← size] at inside; exact inside) stored
  have margins : ((opened.call mode answerQueries).restoreCursor
      opened.state).buffer.vtVerticalMargins = opened.state.buffer.vtVerticalMargins := by
    unfold OutputCall.restoreCursor
    split
    · rfl
    · rfl
  rw [form.perform_restore] at restoredCore restoredRegs
  intro restored
  rw [restoredCore, restoredRegs]
  rw [← margins] at restores
  exact restores

end Terminal

/-- Whatever is written between a save and a restore, the restore brings the saved cursor back. -/
theorem saveRestore_restored (buffer : ScreenBuffer) (mode : OutputMode)
    (title : Option TitleState) (answerQueries : Bool) (saveForm restoreForm : CursorForm)
    (text : List WChar) (pieces : List (List WChar)) (valid : buffer.WellFormed)
    (vt : mode.vtProcessing = true) (ground : buffer.vtOutputParseState.phase = .ground)
    (keeps : KeepsSaved text)
    (cut : pieces.flatten = saveForm.text true ++ text ++ restoreForm.text false) :
    let final := (applyCalls mode answerQueries ⟨buffer, title, []⟩ pieces).buffer
    CursorRestored buffer.regs final.vtVerticalMargins final.regs := by
  have first := saveForm.ground_text ground true
  have second := run_ground first keeps.ground
  have stays : ∀ action ∈ buffer.vtOutputParseState.actions pieces.flatten,
      ¬ action.Switches ∧ (action = .hardReset → buffer.vtMainBackup = none) := by
    intro action mem
    rw [cut, VtOutputParseState.actions_append, VtOutputParseState.actions_append,
      VtOutputParseState.run_append] at mem
    rcases List.mem_append.mp mem with mem | mem
    · rcases List.mem_append.mp mem with mem | mem
      · have kept := saveForm.actions_text ground true action mem
        exact ⟨kept.1, fun isReset => absurd isReset kept.2⟩
      · rw [(VtOutputParseState.actions_of_ground first text).1] at mem
        have kept := keeps.keeps action mem
        refine ⟨kept.1, ?_⟩
        rintro rfl
        exact absurd trivial kept.2
    · have kept := restoreForm.actions_text second false action mem
      exact ⟨kept.1, fun isReset => absurd isReset kept.2⟩
  have nonempty : 0 < buffer.bufferSize.x ∧ 0 < buffer.bufferSize.y :=
    ⟨valid.core.size.x_pos, valid.core.size.y_pos⟩
  have refines := (Terminal.applyCalls_refines answerQueries ⟨buffer, title, []⟩ pieces nonempty
    vt stays).1
  -- from here on the calls are one run of the terminal
  have started : Terminal.WellFormed ⟨buffer.toScreenCore, buffer.regs, title⟩ :=
    ⟨valid.core, valid.cursor⟩
  have saves := Terminal.run_save answerQueries vt started ground saveForm
  have saved := started.run answerQueries mode (saveForm.text true)
  have savedParser := Terminal.run_parseState answerQueries vt
    ⟨buffer.toScreenCore, buffer.regs, title⟩ (saveForm.text true)
  generalize named : Terminal.run mode answerQueries ⟨buffer.toScreenCore, buffer.regs, title⟩
    (saveForm.text true) = afterSave at saves saved savedParser
  have remembers := @Terminal.run_remembers mode answerQueries vt afterSave text (by
    rw [savedParser, (VtOutputParseState.actions_of_ground first text).1]
    exact keeps.keeps)
  have written := saved.run answerQueries mode text
  have parser := Terminal.run_parseState answerQueries vt afterSave text
  have restores := Terminal.run_restore answerQueries vt written
    (by rw [parser, savedParser]; exact second) restoreForm
    (by rw [remembers.2, saves.2]; exact valid.cursor) (remembers.1.trans saves.1)
  rw [cut] at refines
  have runs : (OutputResult.mk buffer title []).terminal.run mode answerQueries
      (saveForm.text true ++ text ++ restoreForm.text false) =
        (afterSave.run mode answerQueries text).run mode answerQueries
          (restoreForm.text false) := by
    rw [Terminal.run_append, Terminal.run_append, ← named]
    rfl
  rw [runs] at refines
  intro final
  rw [← refines] at restores
  exact restores

/-- A letter between `ESC 7` and `CSI u`, cut into two writes inside the second. -/
theorem saveRestore_restored_letter :
    let final := (applyCalls ⟨7⟩ true ⟨twoCells, none, []⟩
      [[0x1b, wc '7', wc 'X', 0x1b], [wc '[', wc 'u']]).buffer
    CursorRestored twoCells.regs final.vtVerticalMargins final.regs := by
  apply saveRestore_restored twoCells ⟨7⟩ none true .escape (.sequence false) [wc 'X'] _
    twoCells_wellFormed (by decide) (by decide) ⟨?_, by decide⟩ (by decide)
  intro action mem
  rw [List.mem_singleton.mp mem]
  exact ⟨id, id⟩

end Conhost
