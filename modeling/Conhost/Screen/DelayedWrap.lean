import Conhost.Lib.Since
import Conhost.Screen.CursorRoundTrip
import Conhost.Screen.Glyphs

/-!
# Where a delayed wrap is performed

A glyph in the last column leaves the cursor there and records the position; the next
glyph wraps if the cursor is at the recorded position. Nothing but that comparison
tells whether the cursor has been elsewhere in between, and a restored cursor brings
its wrap along whatever the width of the buffer is by then. Where neither happens, the
wrap is performed in the last column and in place.
-/

namespace Conhost

/-- An action that restores a saved cursor. -/
def VtAction.Restores : VtAction → Prop
  | .restoreCursor => True
  | .sequence csi => csi.function = .restoreCursor
  | _ => False

namespace OutputCall

variable {call : OutputCall} {state : OutputState}

/-- A wrap is pending where the cursor is, so that the next glyph performs it. -/
def Wraps (call : OutputCall) (state : OutputState) : Prop :=
  call.mode.vtProcessing = true ∧ state.regs.autowrap = true ∧
    state.regs.delayedWrap = some state.regs.cursor

instance : Decidable (call.Wraps state) := inferInstanceAs (Decidable (_ ∧ _ ∧ _))

/-- The wrap is performed if it is due, and forgotten in any case. -/
theorem maybeApplyDelayedWrap_eq (vt : call.mode.vtProcessing = true) :
    call.maybeApplyDelayedWrap state =
      { (if call.Wraps state then call.advanceLine state else state) with
        regs.delayedWrap := none } := by
  unfold maybeApplyDelayedWrap Wraps
  simp only [vt, if_true, true_and]
  cases pending : state.regs.delayedWrap with
  | none =>
      rw [if_neg (by simp)]
      have same : { state with regs.delayedWrap := state.regs.delayedWrap } = state := rfl
      rw [pending] at same
      exact same.symm
  | some position => simp

theorem storePrintable_regs (value : WChar) :
    (call.storePrintable state value).regs = state.regs := by
  simp only [storePrintable]
  split <;> rfl

/-- What a glyph leaves of the recorded position. -/
theorem writePrintable_pending (invariant : call.Invariant state)
    (vt : call.mode.vtProcessing = true) (value : WChar) :
    let next := (call.writePrintable state value).regs
    next.delayedWrap = none ∨
      (next.delayedWrap = some next.cursor ∧ next.cursor.x = call.bufferSize.x - 1) := by
  have last := invariant.toShort_lastColumn
  have cleared : (call.storePrintable (call.maybeApplyDelayedWrap state) value).regs.delayedWrap =
      none := by
    rw [storePrintable_regs, maybeApplyDelayedWrap_eq vt]
  unfold writePrintable
  simp only [vt, if_true]
  generalize call.storePrintable (call.maybeApplyDelayedWrap state) value = written at cleared
  unfold advanceVt
  simp only
  split
  · cases autowrap : written.regs.autowrap with
    | true => exact .inr ⟨rfl, last⟩
    | false => exact .inl cleared
  · exact .inl cleared

/-- What a restored cursor leaves of the recorded position. -/
theorem restoreCursor_pending (invariant : call.Invariant state)
    (fits : ∀ saved ∈ state.buffer.savedCursorState, saved.delayedEolWrap = true →
      call.bufferSize.x - 1 ≤ saved.position.x) :
    let next := call.restoreCursor state
    next.regs.delayedWrap = none ∨ next = state ∨
      (next.regs.delayedWrap = some next.regs.cursor ∧
        next.regs.cursor.x = call.bufferSize.x - 1) := by
  have size := invariant.isSize
  have wide := size.x_pos
  have narrow := size.x_le
  have high := size.y_pos
  unfold restoreCursor ScreenCore.restoreCursorState
  cases stored : state.buffer.savedCursorState with
  | none => exact .inr (.inl rfl)
  | some saved =>
      rw [Option.map_some, if_neg (by rw [invariant.size]; omega)]
      cases wraps : saved.delayedEolWrap with
      | false => exact .inl (by simp)
      | true =>
          have column := fits saved stored wraps
          have clamped : call.clampColumn
              (clampLong saved.position.x 0 (state.buffer.bufferSize.x - 1)) =
                call.bufferSize.x - 1 := by
            have limit : clampLong saved.position.x 0 (call.bufferSize.x - 1) =
                call.bufferSize.x - 1 := by
              unfold clampLong
              split_ifs <;> omega
            rw [invariant.size, limit]
            exact clampColumn_inside size (by omega) (by omega)
          exact .inr (.inr ⟨by simp, clamped⟩)

theorem scrollRegionDown_regs (top bottom : Int) (count : Nat) :
    (call.scrollRegionDown state top bottom count).regs = state.regs := by
  simp only [scrollRegionDown]
  split_ifs <;> rfl

theorem reverseLineFeed_pending :
    (call.reverseLineFeed state).regs.delayedWrap = state.regs.delayedWrap := by
  simp only [reverseLineFeed]
  split_ifs
  · rw [scrollRegionDown_regs]
  · rfl
  · rfl
  · rw [scrollRegionDown_regs]

theorem setModeParam_pending (privateMarker enable : Bool) (state : OutputState) (param : Nat) :
    let next := call.setModeParam privateMarker enable state param
    next.regs.delayedWrap = none ∨ next.regs.delayedWrap = state.regs.delayedWrap := by
  simp only [setModeParam]
  split
  · exact .inr rfl
  split
  · exact .inr rfl
  split
  · exact .inl rfl
  split
  · exact .inl rfl
  split
  · exact .inl rfl
  · exact .inr rfl

theorem setMode_pending (privateMarker enable : Bool) (params : List Nat) (state : OutputState) :
    let next := params.foldl (call.setModeParam privateMarker enable) state
    next.regs.delayedWrap = none ∨ next.regs.delayedWrap = state.regs.delayedWrap := by
  induction params generalizing state with
  | nil => exact .inr rfl
  | cons param params ih =>
      rw [List.foldl_cons]
      rcases ih (call.setModeParam privateMarker enable state param) with dropped | kept
      · exact .inl dropped
      · rcases setModeParam_pending privateMarker enable state param with dropped | same
        · exact .inl (kept.trans dropped)
        · exact .inr (kept.trans same)

theorem applyCsi_pending (csi : VtCsiSequence) (moves : csi.function ≠ .restoreCursor) :
    let next := call.applyCsi csi state
    next.regs.delayedWrap = none ∨ next.regs.delayedWrap = state.regs.delayedWrap := by
  simp only [applyCsi]
  cases function : csi.function with
  | selectGraphicRendition => exact .inr rfl
  | deviceStatusReport =>
      simp only [deviceStatusReport]
      split <;> exact .inr rfl
  | cursorPosition => exact .inr rfl
  | softReset => exact .inl rfl
  | cursorHorizontalAbsolute => exact .inr rfl
  | verticalPositionAbsolute => exact .inr rfl
  | cursorLine down => exact .inr rfl
  | cursorMove dx dy => exact .inr rfl
  | insertCharacter => exact .inl rfl
  | deleteCharacter => exact .inl rfl
  | eraseCharacter => exact .inl rfl
  | setMargins =>
      simp only [setMargins]
      split_ifs <;> exact .inr rfl
  | scroll up =>
      simp only [scroll]
      split
      · exact .inr (by rw [scrollRegionUp_regs])
      · exact .inr (by rw [scrollRegionDown_regs])
  | insertLine =>
      simp only [insertLine]
      split_ifs <;> exact .inr rfl
  | deleteLine =>
      simp only [deleteLine]
      split_ifs <;> exact .inr rfl
  | eraseDisplay => exact .inl rfl
  | eraseLine => exact .inl rfl
  | saveCursor =>
      simp only
      split <;> exact .inr rfl
  | restoreCursor => exact absurd function moves
  | setMode enable => exact setMode_pending csi.privateMarker enable csi.params state
  | unsupported => exact .inr rfl

/-- An action that neither prints nor restores a cursor keeps the recorded position or
drops it. -/
theorem perform_pending (action : VtAction) (silent : ∀ character, action ≠ .text character)
    (moves : ¬ action.Restores) :
    let next := call.perform state action
    next.regs.delayedWrap = none ∨ next.regs.delayedWrap = state.regs.delayedWrap := by
  cases action with
  | nothing => exact .inr rfl
  | text character => exact absurd rfl (silent character)
  | sequence csi => exact applyCsi_pending csi moves
  | saveCursor => exact .inr rfl
  | restoreCursor => exact absurd trivial moves
  | lineFeed => exact .inr (lineFeed_delayedWrap state)
  | reverseLineFeed => exact .inr reverseLineFeed_pending
  | advanceLine => exact .inr (lineFeed_delayedWrap _)
  | hardReset => exact .inl rfl
  | screenAlignment => exact .inl rfl
  | setTitle title => exact .inr rfl

/-- A control character of plain text keeps the recorded position. -/
theorem textCharacter_pending {character : WChar} (text : call.isText state character = true)
    (silent : call.glyphs state character = none) :
    (call.textCharacter state character).regs.delayedWrap = state.regs.delayedWrap := by
  unfold glyphs at silent
  unfold textCharacter
  rw [if_neg (by simp [text])] at silent
  split_ifs at silent with processed moves
  rw [if_pos processed]
  rcases moves with rfl | rfl | rfl
  · rfl
  · rw [if_neg (by decide), if_pos rfl, lineFeed_delayedWrap]
    split <;> rfl
  · rw [if_neg (by decide), if_neg (by decide), if_pos rfl]
    split <;> rfl

/-- What a character that prints nothing leaves of the recorded position. -/
theorem step_pending {character : WChar} (invariant : call.Invariant state)
    (vt : call.mode.vtProcessing = true) (silent : call.glyphs state character = none)
    (fits : (state.buffer.vtOutputParseState.action character).Restores →
      ∀ saved ∈ state.buffer.savedCursorState, saved.delayedEolWrap = true →
        call.bufferSize.x - 1 ≤ saved.position.x) :
    let next := (call.step state character).regs
    let restores := (state.buffer.vtOutputParseState.action character).Restores
    next.delayedWrap = none ∨
      (next.delayedWrap = state.regs.delayedWrap ∧ (restores → next.cursor = state.regs.cursor)) ∨
      (restores ∧ next.delayedWrap = some next.cursor ∧
        next.cursor.x = call.bufferSize.x - 1) := by
  cases text : call.isText state character with
  | true =>
      rw [step_of_isText text]
      refine .inr (.inl ⟨textCharacter_pending text silent, ?_⟩)
      intro restores
      simp only [isText, vt, Bool.not_true, Bool.false_or, decide_eq_true_eq] at text
      rw [text] at restores
      cases restores
  | false =>
      simp only [isText, vt, Bool.not_true, Bool.false_or, decide_eq_false_iff_not] at text
      have performed : (call.step state character).regs =
          (call.perform state (state.buffer.vtOutputParseState.action character)).regs := by
        rw [step_eq_perform vt]
        rfl
      rw [performed]
      generalize dispatched : state.buffer.vtOutputParseState.action character = action at *
      by_cases restores : action.Restores
      · have restored : call.perform state action = call.restoreCursor state := by
          cases action with
          | restoreCursor => rfl
          | sequence csi =>
              have function : csi.function = .restoreCursor := restores
              simp only [perform, applyCsi, function]
          | _ => cases restores
        rw [restored]
        rcases restoreCursor_pending invariant (fits restores) with dropped | same | recorded
        · exact .inl dropped
        · rw [same]
          exact .inr (.inl ⟨rfl, fun _ => rfl⟩)
        · exact .inr (.inr ⟨restores, recorded⟩)
      · have other : ∀ value, action ≠ .text value := by
          rintro value rfl
          rw [(VtOutputParseState.next_of_text dispatched).1] at text
          exact text rfl
        rcases @perform_pending call state action other restores with
          dropped | kept
        · exact .inl dropped
        · exact .inr (.inl ⟨kept, fun again => absurd again restores⟩)

end OutputCall

namespace ScreenBuffer

/-- The recorded position is dropped, or kept together with the size of the buffer. -/
def KeepsWrap (before after : ScreenBuffer) : Prop :=
  after.regs.delayedWrap = none ∨
    (after.regs.delayedWrap = before.regs.delayedWrap ∧ after.bufferSize = before.bufferSize)

namespace KeepsWrap

variable {buffer before middle after : ScreenBuffer}

theorem refl (buffer : ScreenBuffer) : buffer.KeepsWrap buffer := .inr ⟨rfl, rfl⟩

theorem trans (first : before.KeepsWrap middle) (second : middle.KeepsWrap after) :
    before.KeepsWrap after := by
  rcases second with dropped | ⟨kept, size⟩
  · exact .inl dropped
  · rcases first with dropped | ⟨same, sameSize⟩
    · exact .inl (kept.trans dropped)
    · exact .inr ⟨kept.trans same, size.trans sameSize⟩

theorem edit {α : Type} {update : CoreUpdate α} (edits : update.EditsCells buffer.toScreenCore) :
    buffer.KeepsWrap (buffer.update update) := by
  rcases edits with ⟨cells, updated, -⟩
  have size : update.core.bufferSize = buffer.bufferSize := by rw [updated]
  exact .inr ⟨rfl, size⟩

theorem setWindowRect (rect : SmallRect) : buffer.KeepsWrap (buffer.setWindowRect rect).1 := by
  unfold ScreenBuffer.setWindowRect
  split_ifs <;> exact .inr ⟨rfl, rfl⟩

theorem placed (rect : SmallRect) :
    buffer.KeepsWrap
      (match buffer.setWindowRect rect with
        | (moved, true) => (moved, Status.success)
        | (unmoved, false) => (unmoved, Status.invalidParameter)).1 := by
  have kept := @setWindowRect buffer rect
  split
  · rename_i moved outcome
    rw [outcome] at kept
    exact kept
  · rename_i unmoved outcome
    rw [outcome] at kept
    exact kept

theorem setScreenBufferSize (size : Coord) :
    buffer.KeepsWrap (buffer.setScreenBufferSize size).1 := by
  unfold ScreenBuffer.setScreenBufferSize
  split
  · exact .refl buffer
  · refine .inl ?_
    simp only
    rw [snapWindowToCursor_regs]
    rfl

theorem requestSetScreenBufferInfo (body : InfoBody) :
    buffer.KeepsWrap (buffer.requestSetScreenBufferInfo body).1 := by
  have sized := @setScreenBufferSize buffer body.size.val
  unfold ScreenBuffer.requestSetScreenBufferInfo
  dsimp only
  split
  · exact .refl buffer
  · split
    · rename_i unsized outcome
      rw [outcome] at sized
      exact sized
    · rename_i resized outcome
      rw [outcome] at sized
      split
      · exact sized
      · apply sized.trans
        unfold ScreenBuffer.requestInfoWindow
        dsimp only
        split
        · exact .inr ⟨rfl, rfl⟩
        · split
          · exact .inr ⟨rfl, rfl⟩
          · split
            · exact .inr ⟨rfl, rfl⟩
            · exact trans (.inr ⟨rfl, rfl⟩) (placed _)

theorem requestSetScreenBufferSize (size : ShortCoord) :
    buffer.KeepsWrap (buffer.requestSetScreenBufferSize size).1 := by
  have sized := @setScreenBufferSize buffer size.val
  unfold ScreenBuffer.requestSetScreenBufferSize
  split
  · exact .refl buffer
  · split
    · rename_i resized outcome
      rw [outcome] at sized
      exact sized
    · rename_i unsized outcome
      rw [outcome] at sized
      exact sized

theorem requestSetCursorPosition (position : Coord) :
    buffer.KeepsWrap (buffer.requestSetCursorPosition position).1 := by
  unfold ScreenBuffer.requestSetCursorPosition
  split
  · exact .refl buffer
  · refine .inr ⟨?_, ?_⟩
    · simp only
      rw [snapWindowToCursor_regs]
      rfl
    · simp only
      rw [snapWindowToCursor_toScreenCore]
      rfl

theorem requestScroll (body : ScrollBody) :
    buffer.KeepsWrap (buffer.requestScroll body).1 := by
  unfold ScreenBuffer.requestScroll
  dsimp only
  split
  · exact .refl buffer
  · split
    · exact .refl buffer
    · split
      · exact .refl buffer
      · split
        · exact .refl buffer
        · split
          · exact .refl buffer
          · exact .edit (ScreenCore.scrollScreenBuffer_editsCells ..)

theorem requestSetWindowInfo (absolute : Bool) (window : SmallRect) :
    buffer.KeepsWrap (buffer.requestSetWindowInfo absolute window).1 := by
  unfold ScreenBuffer.requestSetWindowInfo
  dsimp only
  split
  · exact placed _
  · split
    · exact .refl buffer
    · split
      · exact .refl buffer
      · exact placed _

theorem requestFill (origin : Coord) (elementType : ElementType) (element : UInt16)
    (length : Nat) : buffer.KeepsWrap (buffer.requestFill origin elementType element length).1 := by
  unfold ScreenBuffer.requestFill
  dsimp only
  split
  · cases elementType with
    | other => exact .refl buffer
    | attributes | realUnicode | falseUnicode | ascii =>
        exact .edit (ScreenCore.updateRun_editsCells ..)
  · exact .refl buffer

theorem requestWriteOutput (region : SmallRect) (unicode : Bool) (input : List Byte) :
    buffer.KeepsWrap (buffer.requestWriteOutput region unicode input).1 := by
  unfold ScreenBuffer.requestWriteOutput
  split
  · exact .edit (ScreenCore.writeOutputCharInfoRect_editsCells ..)
  · exact .refl buffer

theorem requestWriteOutputString (origin : Coord) (stringType : ElementType)
    (input : List Byte) :
    buffer.KeepsWrap (buffer.requestWriteOutputString origin stringType input).1 := by
  unfold ScreenBuffer.requestWriteOutputString
  dsimp only
  split
  · cases stringType with
    | other => exact .refl buffer
    | ascii => exact .edit (ScreenCore.updateRun_editsCells ..)
    | attributes | realUnicode | falseUnicode =>
        dsimp only
        split
        · exact .refl buffer
        · exact .edit (ScreenCore.updateRun_editsCells ..)
  · exact .refl buffer

end KeepsWrap

end ScreenBuffer

/-- No request but a write records a position. -/
theorem ScreenRequest.apply_keepsWrap {request : ScreenRequest} (quiet : request.isWrite = false)
    (buffer : ScreenBuffer) : buffer.KeepsWrap (request.apply buffer) := by
  cases request with
  | writeText => cases quiet
  | setCursorInfo size visible =>
      simp only [ScreenRequest.apply, ScreenBuffer.requestSetCursorInfo]
      split_ifs
      · exact .refl buffer
      · exact .inr ⟨rfl, rfl⟩
  | setScreenBufferInfo body => exact .requestSetScreenBufferInfo body
  | setScreenBufferSize size => exact .requestSetScreenBufferSize size
  | setCursorPosition position => exact .requestSetCursorPosition position
  | scroll body => exact .requestScroll body
  | setTextAttribute attributes => exact .inr ⟨rfl, rfl⟩
  | setWindowInfo absolute window => exact .requestSetWindowInfo absolute window
  | fill origin elementType element length =>
      exact .requestFill origin elementType element length
  | writeOutput region unicode input => exact .requestWriteOutput region unicode input
  | writeOutputString origin stringType input =>
      exact .requestWriteOutputString origin stringType input

namespace Session

/-- A glyph printed now goes to the next row first. -/
def Wraps : Session → Prop
  | .idle _ => False
  | .writing call _ state => call.Wraps state

/-- The event restores a saved cursor. -/
def Restores : Session → ScreenEvent → Prop
  | .writing call _ state, .control character =>
      call.mode.vtProcessing = true ∧
        (state.buffer.vtOutputParseState.action character).Restores
  | _, _ => False

/-- The events that may record a position: a glyph, and restoring a saved cursor. -/
def Records (session : Session) (event : ScreenEvent) : Prop :=
  (∃ value, event = .glyph value) ∨ session.Restores event

/-- An event that does not move the cursor back to a recorded position it has left, and
that restores a pending wrap only to the last column. -/
structure Harmless (session : Session) (event : ScreenEvent) : Prop where
  stays : ¬ session.Records event → ∀ position, session.pending = some position →
    session.cursor ≠ position → (session.step event).cursor = position →
      (session.step event).pending ≠ some position
  restores : session.Restores event → ∀ saved ∈ session.buffer.savedCursorState,
    saved.delayedEolWrap = true → session.lastColumn ≤ saved.position.x

/-- The cursor has been at a pending wrap. -/
def Due (position : Coord) (session : Session) : Prop :=
  session.pending = some position ∧ session.cursor = position

/-- The cursor is in the last column, and has been there since a glyph or a restored cursor
recorded the position. -/
structure InPlace (start : Session) (events : List ScreenEvent) (now : Nat) : Prop where
  edge : (History.after step start events now).cursor.x =
    (History.after step start events now).lastColumn
  since : History.Since step start (Due (History.after step start events now).cursor) Records
    events now

/-- Every glyph that performs a delayed wrap performs it in place. -/
def WrapsInPlace (start : Session) (events : List ScreenEvent) : Prop :=
  ∀ now value, events[now]? = some (.glyph value) →
    (History.after step start events now).Wraps → InPlace start events now

/-- Every event is harmless where it happens. -/
def AllHarmless (start : Session) (events : List ScreenEvent) : Prop :=
  ∀ count, ∀ event ∈ events[count]?, (History.after step start events count).Harmless event

/-- The buffer is well formed, and only a write with VT processing has a pending wrap. -/
def Valid : Session → Prop
  | .idle buffer => buffer.WellFormed
  | .writing call _ state =>
      call.Invariant state ∧ (call.mode.vtProcessing = false → state.regs.delayedWrap = none)

/-- If the cursor is at a pending wrap, it is in the last column. -/
def AtEdge (session : Session) : Prop :=
  session.pending = some session.cursor → session.cursor.x = session.lastColumn

variable {session : Session} {event : ScreenEvent}

theorem Valid.step (valid : session.Valid) (event : ScreenEvent) :
    (session.step event).Valid := by
  cases session with
  | idle buffer =>
      cases event with
      | beginWrite mode title answerQueries =>
          refine ⟨valid.outputState mode title answerQueries, ?_⟩
          intro plain
          have off : mode.vtProcessing = false := plain
          simp [ScreenBuffer.outputState, off]
      | request request quiet => exact request.apply_wellFormed valid
      | glyph value => exact valid
      | control character => exact valid
      | endWrite => exact valid
  | writing call original state =>
      cases event with
      | glyph value =>
          refine ⟨valid.1.writePrintable value, ?_⟩
          intro plain
          exact (OutputCall.writePrintable_delayedWrap plain state value).trans (valid.2 plain)
      | control character =>
          refine ⟨.ite (valid.1.step character) valid.1, ?_⟩
          intro plain
          split
          · rw [OutputCall.step_plain plain]
            exact (OutputCall.textCharacter_delayedWrap plain state character).trans
              (valid.2 plain)
          · exact valid.2 plain
      | endWrite => exact OutputState.commit_wellFormed valid.1
      | beginWrite mode title answerQueries => exact valid
      | request request quiet => exact valid

/-- What an event leaves of the recorded position. -/
inductive Effect (session : Session) (event : ScreenEvent) : Prop where
  | dropped (none : (session.step event).pending = none)
  | kept (same : (session.step event).pending = session.pending)
      (width : (session.step event).lastColumn = session.lastColumn)
      (still : session.Records event → (session.step event).cursor = session.cursor)
  | recorded (records : session.Records event)
      (here : (session.step event).pending = some (session.step event).cursor)
      (edge : (session.step event).cursor.x = (session.step event).lastColumn)

theorem effect (valid : session.Valid)
    (fits : session.Restores event → ∀ saved ∈ session.buffer.savedCursorState,
      saved.delayedEolWrap = true → session.lastColumn ≤ saved.position.x) :
    session.Effect event := by
  have next := valid.step event
  cases session with
  | idle buffer =>
      cases event with
      | beginWrite mode title answerQueries =>
          cases vt : mode.vtProcessing with
          | false => exact .dropped (by simp [step, pending, regs, ScreenBuffer.outputState, vt])
          | true =>
              have started : buffer.outputState mode title =
                  { buffer := buffer, regs := buffer.regs, margins := buffer.vtVerticalMargins,
                    title := title } := by simp [ScreenBuffer.outputState, vt]
              refine .kept ?_ ?_ fun _ => ?_
              · simp only [step, started]
                rfl
              · simp only [step, started]
                rfl
              · simp only [step, started]
                rfl
      | request request quiet =>
          rcases request.apply_keepsWrap quiet buffer with dropped | ⟨same, size⟩
          · exact .dropped dropped
          · refine .kept same (congrArg (fun size : Coord => size.x - 1) size) ?_
            rintro (⟨value, printed⟩ | restores)
            · cases printed
            · exact restores.elim
      | glyph value => exact .kept rfl rfl fun _ => rfl
      | control character => exact .kept rfl rfl fun _ => rfl
      | endWrite => exact .kept rfl rfl fun _ => rfl
  | writing call original state =>
      have sameWidth : (Session.writing call original state).lastColumn =
          call.bufferSize.x - 1 := congrArg (fun size : Coord => size.x - 1) valid.1.size
      cases event with
      | glyph value =>
          have nextWidth := congrArg (fun size : Coord => size.x - 1) next.1.size
          cases vt : call.mode.vtProcessing with
          | false => exact .dropped (next.2 vt)
          | true =>
              rcases OutputCall.writePrintable_pending valid.1 vt value with dropped | recorded
              · exact .dropped dropped
              · exact .recorded (.inl ⟨value, rfl⟩) recorded.1 (recorded.2.trans nextWidth.symm)
      | control character =>
          have nextWidth := congrArg (fun size : Coord => size.x - 1) next.1.size
          cases vt : call.mode.vtProcessing with
          | false => exact .dropped (next.2 vt)
          | true =>
              cases silent : call.glyphs state character with
              | some glyphs =>
                  have idle : (Session.writing call original state).step (.control character) =
                      .writing call original state := by simp [step, silent]
                  refine .kept ?_ ?_ fun _ => ?_
                  all_goals rw [idle]
              | none =>
                  have stepped : (Session.writing call original state).step (.control character) =
                      .writing call original (call.step state character) := by simp [step, silent]
                  have width : ((Session.writing call original state).step
                      (.control character)).lastColumn = call.bufferSize.x - 1 := nextWidth
                  rcases OutputCall.step_pending valid.1 vt silent
                    (fun restores => by rw [← sameWidth]; exact fits ⟨vt, restores⟩) with
                    dropped | ⟨kept, still⟩ | ⟨restores, recorded, edge⟩
                  · exact .dropped (by rw [stepped]; exact dropped)
                  · refine .kept (by rw [stepped]; exact kept) (width.trans sameWidth.symm) ?_
                    rintro (⟨value, printed⟩ | restores)
                    · cases printed
                    · rw [stepped]
                      exact still restores.2
                  · refine .recorded (.inr ⟨vt, restores⟩) ?_ ?_
                    · rw [stepped]
                      exact recorded
                    · rw [width, stepped]
                      exact edge
      | endWrite =>
          refine .kept ?_ ?_ fun _ => ?_
          · simp only [step, pending, regs, OutputState.commit_regs]
          · simp only [step, lastColumn, buffer, OutputState.commit_toScreenCore]
          · simp only [step, cursor, regs, OutputState.commit_regs]
      | beginWrite mode title answerQueries => exact .kept rfl rfl fun _ => rfl
      | request request quiet => exact .kept rfl rfl fun _ => rfl

theorem Harmless.due (harmless : session.Harmless event) (valid : session.Valid)
    {position : Coord} (due : Due position (session.step event)) :
    session.Records event ∨ Due position session := by
  rcases effect valid harmless.restores with dropped | ⟨same, -, still⟩ | ⟨records, -, -⟩
  · exact absurd (dropped.symm.trans due.1) (by simp)
  · by_cases records : session.Records event
    · exact .inl records
    · refine .inr ⟨same.symm.trans due.1, ?_⟩
      by_contra elsewhere
      exact harmless.stays records position (same.symm.trans due.1) elsewhere due.2 due.1
  · exact .inl records

theorem Harmless.atEdge (harmless : session.Harmless event) (valid : session.Valid)
    (edge : session.AtEdge) : (session.step event).AtEdge := by
  intro due
  rcases effect valid harmless.restores with dropped | ⟨same, width, still⟩ | ⟨-, -, atEdge⟩
  · exact absurd (dropped.symm.trans due) (by simp)
  · have stays : session.cursor = (session.step event).cursor := by
      by_cases records : session.Records event
      · exact (still records).symm
      · by_contra elsewhere
        exact harmless.stays records _ (same.symm.trans due) elsewhere rfl due
    rw [width, ← stays]
    exact edge (same.symm.trans (due.trans (congrArg some stays.symm)))
  · exact atEdge

/-- A harmless run performs every delayed wrap in the last column, where the cursor has been
since the position was recorded. -/
theorem AllHarmless.wrapsInPlace {start : Session} {events : List ScreenEvent}
    (harmless : AllHarmless start events) (valid : start.Valid) (fresh : start.pending = none) :
    WrapsInPlace start events := by
  intro now value printed wraps
  have within : now ≤ events.length := (List.getElem?_eq_some_iff.mp printed).1.le
  have base : start.AtEdge := by
    intro pending
    rw [fresh] at pending
    cases pending
  have throughout : ∀ count ≤ events.length, (History.after step start events count).Valid ∧
      (History.after step start events count).AtEdge := by
    apply @History.invariant _ _ step start events
      (fun session => session.Valid ∧ session.AtEdge) ⟨valid, base⟩
    intro count event next before
    exact ⟨before.1.step event, (harmless count event next).atEdge before.1 before.2⟩
  have due : Due (History.after step start events now).cursor
      (History.after step start events now) := by
    cases session : History.after step start events now with
    | idle buffer =>
        rw [session] at wraps
        exact wraps.elim
    | writing call original state =>
        rw [session] at wraps
        exact ⟨wraps.2.2, rfl⟩
  refine ⟨(throughout now within).2 due.1, ?_⟩
  apply History.since_of_step ?_ ?_ now within due
  · rintro ⟨pending, -⟩
    rw [fresh] at pending
    cases pending
  · intro count event next stepped
    have inside : count ≤ events.length := (List.getElem?_eq_some_iff.mp next).1.le
    exact (harmless count event next).due (throughout count inside).1 stepped

end Session

namespace Session

variable {session : Session}

theorem harmless_glyph (value : WChar) : session.Harmless (.glyph value) where
  stays silent := absurd (.inl ⟨value, rfl⟩) silent
  restores restores := by cases session <;> exact restores.elim

theorem Harmless.of_still {event : ScreenEvent}
    (still : (session.step event).cursor = session.cursor)
    (silent : ¬ session.Restores event) : session.Harmless event where
  stays := by
    intro _ position _ elsewhere back
    exact absurd (still.symm.trans back) elsewhere
  restores restores := absurd restores silent

theorem harmless_beginWrite (mode : OutputMode) (title : Option TitleState)
    (answerQueries : Bool) : session.Harmless (.beginWrite mode title answerQueries) := by
  cases session with
  | writing call original state => exact .of_still rfl id
  | idle buffer =>
      refine .of_still ?_ id
      simp only [step, cursor, regs, ScreenBuffer.outputState]
      split <;> rfl

theorem harmless_endWrite : session.Harmless .endWrite := by
  cases session with
  | idle buffer => exact .of_still rfl id
  | writing call original state =>
      refine .of_still ?_ id
      simp only [step, cursor, regs, OutputState.commit_regs]

end Session

theorem ScreenBuffer.create_delayedWrap (settings : ScreenBuffer.Settings) :
    (ScreenBuffer.create settings).regs.delayedWrap = none := by
  unfold ScreenBuffer.create
  dsimp only
  split <;> rfl

/-- Over every history of a buffer in which nothing moves the cursor back to a recorded
position it has left, and no wrap is restored to another column than the last, a delayed
wrap is performed in the last column only, and only where the cursor has stayed since it was
recorded. -/
theorem delayedWrap_inPlace (settings : ScreenBuffer.Settings)
    (isSize : settings.bufferSize.IsSize) (requests : List ScreenRequest)
    (harmless : Session.AllHarmless (.idle (ScreenBuffer.create settings))
      (ScreenRequest.history (ScreenBuffer.create settings) requests)) :
    Session.WrapsInPlace (.idle (ScreenBuffer.create settings))
      (ScreenRequest.history (ScreenBuffer.create settings) requests) :=
  harmless.wrapsInPlace (ScreenBuffer.create_wellFormed isSize)
    (ScreenBuffer.create_delayedWrap settings)

/-- Three letters on a row of two cells. -/
theorem delayedWrap_inPlace_letters :
    Session.WrapsInPlace (.idle twoCells)
      (ScreenRequest.history twoCells
        [.writeText [wc 'a', wc 'b', wc 'c'] ⟨7⟩ none false]) := by
  have letters : ScreenRequest.history twoCells
      [.writeText [wc 'a', wc 'b', wc 'c'] ⟨7⟩ none false] =
        [.beginWrite ⟨7⟩ none false, .glyph (wc 'a'), .glyph (wc 'b'), .glyph (wc 'c'),
          .endWrite] := rfl
  apply delayedWrap_inPlace _ (by constructor <;> decide)
  intro count event next
  have member := List.mem_of_getElem? next
  change event ∈ ScreenRequest.history twoCells _ at member
  rw [letters] at member
  simp only [List.mem_cons, List.not_mem_nil, or_false] at member
  rcases member with rfl | rfl | rfl | rfl | rfl
  · exact Session.harmless_beginWrite _ _ _
  · exact Session.harmless_glyph _
  · exact Session.harmless_glyph _
  · exact Session.harmless_glyph _
  · exact Session.harmless_endWrite

/-- After two letters the cursor goes left and right again; the third letter still wraps. -/
def leavesAndReturns : List ScreenRequest :=
  [.writeText [wc 'a', wc 'b', 0x1b, wc '[', wc 'D', 0x1b, wc '[', wc 'C', wc 'c'] ⟨7⟩ none false]

/-- A pending wrap is saved in a narrow buffer and restored in a wide one. -/
def restoresInWideBuffer : List ScreenRequest :=
  [.writeText [wc 'a', wc 'b', 0x1b, wc '7'] ⟨7⟩ none false,
    .setScreenBufferSize ⟨⟨3, 1⟩, by constructor <;> decide⟩,
    .writeText [0x1b, wc '8', wc 'c'] ⟨7⟩ none false]

theorem not_wrapsInPlace_return :
    ¬ Session.WrapsInPlace (.idle twoCells)
      (ScreenRequest.history twoCells leavesAndReturns) := by
  intro wrapsInPlace
  have place := wrapsInPlace 9 (wc 'c') rfl ⟨rfl, rfl, rfl⟩
  rcases place.since with ⟨count, event, member, before, records, throughout⟩
  have late : count = 8 := by
    by_contra other
    have still := (throughout 8 (by omega) (by omega)).2
    exact absurd still (by decide +kernel)
  subst late
  have forward : event = .control (wc 'C') := Option.some.inj (member.symm.trans rfl)
  subst forward
  rcases records with ⟨value, printed⟩ | restores
  · cases printed
  · have function : ({ final := wc 'C' } : VtCsiSequence).function = .restoreCursor :=
      And.right (a := true = true) restores
    exact absurd function (by decide)

theorem not_wrapsInPlace_resize :
    ¬ Session.WrapsInPlace (.idle twoCells)
      (ScreenRequest.history twoCells restoresInWideBuffer) := by
  intro wrapsInPlace
  have place := wrapsInPlace 10 (wc 'c') rfl ⟨rfl, rfl, rfl⟩
  exact absurd place.edge (by decide +kernel)

end Conhost
