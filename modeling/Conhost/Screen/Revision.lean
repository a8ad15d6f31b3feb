import Conhost.Screen.Parser
import Conhost.Screen.Requests

/-!
# The revision counter

A window asks for the revision of a screen buffer to learn whether it has to
paint. That is sound if an operation on the buffer that changes anything that
is painted also counts. Most operations count whenever they do something; a few
change only what is not painted and do not count at all.
-/

namespace Conhost

/-- What is painted of a screen buffer. -/
structure Appearance where
  cells : List ScreenCell
  bufferSize : Coord
  cursorPosition : Coord
  cursorSize : UInt32
  cursorVisible : Bool
  windowRect : SmallRect
  defaultTextAttributes : Attributes
  colorTable : Vector ColorRef 16
deriving DecidableEq

namespace ScreenBuffer

def appearance (buffer : ScreenBuffer) : Appearance where
  cells := buffer.cells
  bufferSize := buffer.bufferSize
  cursorPosition := buffer.regs.cursor
  cursorSize := buffer.cursorSize
  cursorVisible := buffer.cursorVisible
  windowRect := buffer.windowRect
  defaultTextAttributes := buffer.defaultTextAttributes
  colorTable := buffer.colorTable

/-- `ScreenBuffer::set_window_size` -/
def setWindowSize (buffer : ScreenBuffer) (size : Coord) : ScreenBuffer × Bool :=
  let right := buffer.windowRect.left + size.x - 1
  let bottom := buffer.windowRect.top + size.y - 1
  if buffer.bufferSize.x ≤ 0 ∨ buffer.bufferSize.y ≤ 0 then
    (buffer, false)
  else if size.x ≤ 0 ∨ size.y ≤ 0 then
    (buffer, false)
  else if buffer.bufferSize.x < size.x ∨ buffer.bufferSize.y < size.y then
    (buffer, false)
  else if buffer.windowRect.left < 0 ∨ buffer.windowRect.top < 0 then
    (buffer, false)
  else if buffer.bufferSize.x ≤ right ∨ buffer.bufferSize.y ≤ bottom then
    (buffer, false)
  else
    ({ buffer with
        windowRect := windowAt buffer.windowRect.left buffer.windowRect.top size.x size.y }.touch,
      true)

/-- The operations of `ScreenBuffer` that are not `const`. -/
inductive Operation where
  | setScreenBufferSize (size : Coord)
  | setCursorPosition (position : Coord)
  | setWindowRect (rect : SmallRect)
  | setWindowSize (size : Coord)
  | snapWindowToCursor
  | setTextAttributes (attributes : Attributes)
  | setDefaultTextAttributes (attributes : Attributes)
  | setCursorInfo (size : UInt32) (visible : Bool)
  | saveCursorState (position : Coord) (attributes : Attributes)
      (delayedEolWrap originModeEnabled : Bool)
  | setVtAutowrapEnabled (enabled : Bool)
  | setVtDelayedWrapPosition (position : Option Coord)
  | setVtOriginModeEnabled (enabled : Bool)
  | setVtInsertModeEnabled (enabled : Bool)
  | setColorTable (table : Vector ColorRef 16)
  | setVtVerticalMargins (margins : Option VtVerticalMargins)
  | setVtUsingAlternateScreenBuffer (enable : Bool) (fillCharacter : WChar)
      (fillAttributes : Attributes)
  | writeCell (coord : Coord) (character : WChar) (attributes : Attributes)
  | insertCell (coord : Coord) (character : WChar) (attributes : Attributes)
  | fillOutputCharacters (origin : Coord) (value : WChar) (length : Nat)
  | fillOutputAttributes (origin : Coord) (value : Attributes) (length : Nat)
  | writeOutputCharacters (origin : Coord) (text : List WChar)
  | writeOutputAttributes (origin : Coord) (attributes : List Attributes)
  | writeOutputAscii (origin : Coord) (bytes : List Byte)
  | writeOutputCharInfoRect (region : SmallRect) (records : List ScreenCore.CharInfo)
      (unicode : Bool)
  | scrollScreenBuffer (scroll clip : SmallRect) (destination : Coord) (fillCharacter : WChar)
      (fillAttributes : Attributes)

/-- The buffer after an operation. -/
def Operation.apply (buffer : ScreenBuffer) : Operation → ScreenBuffer
  | .setScreenBufferSize size => (buffer.setScreenBufferSize size).1
  | .setCursorPosition position => buffer.setCursorPosition position
  | .setWindowRect rect => (buffer.setWindowRect rect).1
  | .setWindowSize size => (buffer.setWindowSize size).1
  | .snapWindowToCursor => buffer.snapWindowToCursor
  | .setTextAttributes attributes => buffer.setTextAttributes attributes
  | .setDefaultTextAttributes attributes =>
      buffer.update (buffer.setDefaultTextAttributes attributes)
  | .setCursorInfo size visible => buffer.update (buffer.setCursorInfo size visible)
  | .saveCursorState position attributes delayedEolWrap originModeEnabled =>
      buffer.update (buffer.saveCursorState position attributes delayedEolWrap originModeEnabled)
  | .setVtAutowrapEnabled enabled => buffer.setVtAutowrapEnabled enabled
  | .setVtDelayedWrapPosition position => buffer.setVtDelayedWrapPosition position
  | .setVtOriginModeEnabled enabled => buffer.setVtOriginModeEnabled enabled
  | .setVtInsertModeEnabled enabled => buffer.setVtInsertModeEnabled enabled
  | .setColorTable table => buffer.update (buffer.setColorTable table)
  | .setVtVerticalMargins margins => buffer.update (buffer.setVtVerticalMargins margins)
  | .setVtUsingAlternateScreenBuffer enable fillCharacter fillAttributes =>
      buffer.setVtUsingAlternateScreenBuffer enable fillCharacter fillAttributes
  | .writeCell coord character attributes =>
      buffer.update (buffer.writeCell coord character attributes)
  | .insertCell coord character attributes =>
      buffer.update (buffer.insertCell coord character attributes)
  | .fillOutputCharacters origin value length =>
      buffer.update (buffer.fillOutputCharacters origin value length)
  | .fillOutputAttributes origin value length =>
      buffer.update (buffer.fillOutputAttributes origin value length)
  | .writeOutputCharacters origin text => buffer.update (buffer.writeOutputCharacters origin text)
  | .writeOutputAttributes origin attributes =>
      buffer.update (buffer.writeOutputAttributes origin attributes)
  | .writeOutputAscii origin bytes => buffer.update (buffer.writeOutputAscii origin bytes)
  | .writeOutputCharInfoRect region records unicode =>
      buffer.update (buffer.writeOutputCharInfoRect region records unicode)
  | .scrollScreenBuffer scroll clip destination fillCharacter fillAttributes =>
      buffer.update
        (buffer.scrollScreenBuffer scroll clip destination fillCharacter fillAttributes)

/-- The counter does not go back, and where it stands still the buffer looks the same. -/
structure Counts (before after : ScreenBuffer) : Prop where
  le : before.revision ≤ after.revision
  same : after.revision = before.revision → after.appearance = before.appearance

namespace Counts

variable {before middle after buffer : ScreenBuffer}

theorem refl (buffer : ScreenBuffer) : buffer.Counts buffer := ⟨Nat.le_refl _, fun _ => rfl⟩

theorem of_lt (counted : before.revision < after.revision) : before.Counts after := by
  refine ⟨Nat.le_of_lt counted, ?_⟩
  intro still
  omega

theorem trans (first : before.Counts middle) (second : middle.Counts after) :
    before.Counts after := by
  refine ⟨first.le.trans second.le, ?_⟩
  intro still
  have start := first.le
  have finish := second.le
  rw [second.same (by omega), first.same (by omega)]

/-- A change that can be seen is counted. -/
theorem lt_of_ne (counts : before.Counts after) (changed : after.appearance ≠ before.appearance) :
    before.revision < after.revision := by
  rcases Nat.lt_or_eq_of_le counts.le with counted | still
  · exact counted
  · exact absurd (counts.same still.symm) changed

theorem touch (buffer changed : ScreenBuffer) (kept : changed.revision = buffer.revision) :
    buffer.Counts changed.touch := by
  apply of_lt
  simp [ScreenBuffer.touch, kept]

end Counts

end ScreenBuffer

/-- An update of the core that counts, or changes nothing. -/
def CoreUpdate.Counted {α : Type} (core : ScreenCore) (update : CoreUpdate α) : Prop :=
  update.touched = true ∨ update.core = core

namespace ScreenCore

variable {core : ScreenCore}

theorem untouched_counted {α : Type} (result : α) : (core.untouched result).Counted core := .inr rfl

theorem withCells_counted {α : Type} (cells : List ScreenCell) (result : α) :
    (core.withCells cells result).Counted core := .inl rfl

theorem writeCell_counted (coord : Coord) (character : WChar) (attributes : Attributes) :
    (core.writeCell coord character attributes).Counted core := by
  unfold writeCell
  split
  · exact withCells_counted _ _
  · exact untouched_counted _

theorem insertCell_counted (coord : Coord) (character : WChar) (attributes : Attributes) :
    (core.insertCell coord character attributes).Counted core := by
  unfold insertCell
  split
  · split
    · exact writeCell_counted _ _ _
    · exact withCells_counted _ _
  · exact untouched_counted _

theorem updateRun_counted (origin : Coord) (count : Nat)
    (update : Nat → ScreenCell → ScreenCell) :
    (core.updateRun origin count update).Counted core := by
  unfold updateRun
  split
  · exact withCells_counted _ _
  · exact untouched_counted _

theorem writeOutputCharInfoRect_counted (region : SmallRect) (records : List CharInfo)
    (unicode : Bool) : (core.writeOutputCharInfoRect region records unicode).Counted core := by
  unfold writeOutputCharInfoRect
  split
  · exact withCells_counted _ _
  · exact untouched_counted _

theorem scrollScreenBuffer_counted (scroll clip : SmallRect) (destination : Coord)
    (fillCharacter : WChar) (fillAttributes : Attributes) :
    (core.scrollScreenBuffer scroll clip destination fillCharacter fillAttributes).Counted
      core := by
  unfold scrollScreenBuffer
  split
  · exact untouched_counted _
  · split
    · exact untouched_counted _
    · split
      · exact withCells_counted _ _
      · exact untouched_counted _

end ScreenCore

namespace ScreenBuffer

variable (buffer : ScreenBuffer)

theorem counts_update {α : Type} {update : CoreUpdate α}
    (counted : update.Counted buffer.toScreenCore) : buffer.Counts (buffer.update update) := by
  rcases counted with touched | unchanged
  · apply Counts.of_lt
    simp [ScreenBuffer.update, touched]
  · constructor
    · simp only [ScreenBuffer.update]
      split <;> omega
    · intro _
      simp [ScreenBuffer.update, appearance, unchanged]

theorem counts_setWindowRect (rect : SmallRect) : buffer.Counts (buffer.setWindowRect rect).1 := by
  unfold setWindowRect
  split_ifs
  all_goals first | exact .refl _ | exact .touch _ _ rfl

theorem counts_of_setWindowRect {rect : SmallRect} {result : ScreenBuffer × Bool}
    (placed : buffer.setWindowRect rect = result) : buffer.Counts result.1 := by
  rw [← placed]
  exact buffer.counts_setWindowRect rect

theorem counts_setWindowSize (size : Coord) : buffer.Counts (buffer.setWindowSize size).1 := by
  unfold setWindowSize
  dsimp only
  split_ifs
  all_goals first | exact .refl _ | exact .touch _ _ rfl

theorem counts_snapWindowToCursor : buffer.Counts buffer.snapWindowToCursor := by
  unfold snapWindowToCursor
  dsimp only
  split_ifs
  · exact .refl _
  · exact .refl _
  · exact .touch _ _ rfl

theorem counts_setScreenBufferSize (size : Coord) :
    buffer.Counts (buffer.setScreenBufferSize size).1 := by
  unfold setScreenBufferSize
  split_ifs
  · exact .refl _
  · refine Counts.trans ?_ (counts_snapWindowToCursor _)
    exact .touch _ _ rfl

theorem counts_of_setScreenBufferSize {size : Coord} {result : ScreenBuffer × Bool}
    (sized : buffer.setScreenBufferSize size = result) : buffer.Counts result.1 := by
  rw [← sized]
  exact buffer.counts_setScreenBufferSize size

theorem counts_setVtInsertModeEnabled (enabled : Bool) :
    buffer.Counts (buffer.setVtInsertModeEnabled enabled) := by
  unfold setVtInsertModeEnabled
  split_ifs
  · exact .refl _
  · exact .touch _ _ rfl

theorem counts_setVtUsingAlternateScreenBuffer (enable : Bool) (fillCharacter : WChar)
    (fillAttributes : Attributes) :
    buffer.Counts
      (buffer.setVtUsingAlternateScreenBuffer enable fillCharacter fillAttributes) := by
  unfold setVtUsingAlternateScreenBuffer
  split
  · exact .refl _
  · exact .touch _ _ rfl
  · exact .refl _
  · exact .touch _ _ rfl

theorem counts_apply (operation : Operation) : buffer.Counts (operation.apply buffer) := by
  cases operation with
  | setScreenBufferSize size => exact buffer.counts_setScreenBufferSize size
  | setWindowRect rect => exact buffer.counts_setWindowRect rect
  | setWindowSize size => exact buffer.counts_setWindowSize size
  | snapWindowToCursor => exact buffer.counts_snapWindowToCursor
  | setVtInsertModeEnabled enabled => exact buffer.counts_setVtInsertModeEnabled enabled
  | setVtUsingAlternateScreenBuffer enable fillCharacter fillAttributes =>
      exact buffer.counts_setVtUsingAlternateScreenBuffer enable fillCharacter fillAttributes
  | setVtDelayedWrapPosition position => exact ⟨Nat.le_refl _, fun _ => rfl⟩
  | setCursorPosition | setTextAttributes | setVtAutowrapEnabled | setVtOriginModeEnabled =>
      exact .touch _ _ rfl
  | setDefaultTextAttributes | setCursorInfo | saveCursorState | setColorTable
  | setVtVerticalMargins => exact buffer.counts_update (.inl rfl)
  | writeCell => exact buffer.counts_update (ScreenCore.writeCell_counted _ _ _)
  | insertCell => exact buffer.counts_update (ScreenCore.insertCell_counted _ _ _)
  | fillOutputCharacters | fillOutputAttributes | writeOutputCharacters | writeOutputAttributes
  | writeOutputAscii => exact buffer.counts_update (ScreenCore.updateRun_counted _ _ _)
  | writeOutputCharInfoRect =>
      exact buffer.counts_update (ScreenCore.writeOutputCharInfoRect_counted _ _ _)
  | scrollScreenBuffer =>
      exact buffer.counts_update (ScreenCore.scrollScreenBuffer_counted _ _ _ _ _)

theorem counts_if (condition : Prop) [Decidable condition] (operation : Operation) :
    buffer.Counts (if condition then operation.apply buffer else buffer) := by
  split
  · exact buffer.counts_apply operation
  · exact .refl _

end ScreenBuffer

namespace OutputCall

variable {call : OutputCall} {count : Nat} {state : OutputState}

theorem lockstep_revision (call : OutputCall) (count : Nat) :
    Lockstep call fun left right => left = right ∧ count ≤ left.buffer.revision := by
  apply Lockstep.of_property
  · exact fun _ counted => counted
  · exact fun _ counted => counted
  · intro state α operation draws counted
    simp only [OutputState.update, ScreenBuffer.update]
    split <;> omega
  · intro state margins counted
    exact counted.trans (state.buffer.counts_apply (.setVtVerticalMargins margins)).le
  · intro state position attributes delayed origin counted
    simp only [OutputState.update, ScreenBuffer.update]
    split <;> omega

theorem switchScreen_revision (counted : count ≤ state.buffer.revision) (enable : Bool) :
    count ≤ (switchScreen enable state).buffer.revision :=
  counted.trans
    (state.buffer.counts_setVtUsingAlternateScreenBuffer enable 0x20 state.regs.attributes).le

theorem setMode_revision (counted : count ≤ state.buffer.revision) (privateMarker enable : Bool)
    (params : List Nat) :
    count ≤ (params.foldl (call.setModeParam privateMarker enable) state).buffer.revision := by
  induction params generalizing state with
  | nil => exact counted
  | cons param later hypothesis =>
      apply hypothesis
      by_cases switches : param = 1049
      · subst switches
        simpa [setModeParam] using switchScreen_revision counted enable
      · exact ((lockstep_revision call count).setModeParam ⟨rfl, counted⟩ privateMarker enable
          switches).2

theorem applyCsi_revision (counted : count ≤ state.buffer.revision) (csi : VtCsiSequence) :
    count ≤ (call.applyCsi csi state).buffer.revision := by
  by_cases switches : ∃ enable, csi.function = .setMode enable
  · obtain ⟨enable, function⟩ := switches
    simp only [applyCsi, function]
    exact setMode_revision counted csi.privateMarker enable csi.params
  · refine ((lockstep_revision call count).applyCsi ⟨rfl, counted⟩ csi ?_).2
    intro enable function
    exact absurd ⟨enable, function⟩ switches

theorem leaveAlternateScreen_revision (counted : count ≤ state.buffer.revision) :
    count ≤ (leaveAlternateScreen state).buffer.revision := by
  unfold leaveAlternateScreen
  split
  · exact counted.trans
      (state.buffer.counts_setVtUsingAlternateScreenBuffer false 0x20 state.regs.attributes).le
  · exact counted

theorem perform_revision (counted : count ≤ state.buffer.revision) (action : VtAction) :
    count ≤ (call.perform state action).buffer.revision := by
  have lock := lockstep_revision call count
  have same : state = state ∧ count ≤ state.buffer.revision := ⟨rfl, counted⟩
  cases action with
  | nothing | setTitle => exact counted
  | text character => exact (lock.textCharacter same character).2
  | sequence csi => exact applyCsi_revision counted csi
  | saveCursor => exact (lock.saveCursor same).2
  | restoreCursor => exact (lock.restoreCursor same).2
  | lineFeed => exact (lock.lineFeed same).2
  | reverseLineFeed => exact (lock.reverseLineFeed same).2
  | advanceLine => exact (lock.advanceLine same).2
  | hardReset => exact (lock.resetScreen ⟨rfl, leaveAlternateScreen_revision counted⟩).2
  | screenAlignment => exact (lock.screenAlignment same).2

theorem step_revision (counted : count ≤ state.buffer.revision) (character : WChar) :
    count ≤ (call.step state character).buffer.revision := by
  cases vt : call.mode.vtProcessing with
  | true =>
      rw [step_eq_perform vt]
      exact perform_revision counted _
  | false =>
      simp only [step, vt]
      exact ((lockstep_revision call count).textCharacter ⟨rfl, counted⟩ character).2

theorem run_revision (counted : count ≤ state.buffer.revision) (text : List WChar) :
    count ≤ (call.run state text).buffer.revision := by
  induction text generalizing state with
  | nil => exact counted
  | cons character later hypothesis => exact hypothesis (step_revision counted character)

end OutputCall

/-- The end of a call counts, whatever it writes back. -/
theorem OutputState.commit_revision (state : OutputState) (original : VtRegisters) :
    state.buffer.revision < (state.commit original).revision := by
  have modes := ((state.buffer.counts_if (state.regs.autowrap ≠ original.autowrap)
    (.setVtAutowrapEnabled state.regs.autowrap)).trans
      (ScreenBuffer.counts_if _ (state.regs.originMode ≠ original.originMode)
        (.setVtOriginModeEnabled state.regs.originMode))).trans
      (ScreenBuffer.counts_if _ (state.regs.insertMode ≠ original.insertMode)
        (.setVtInsertModeEnabled state.regs.insertMode))
  refine Nat.lt_of_lt_of_le ?_ (ScreenBuffer.counts_snapWindowToCursor _).le
  exact Nat.lt_of_le_of_lt modes.le (Nat.lt_add_of_pos_right (Nat.succ_pos 1))

theorem applyTextToScreenBuffer_counts (buffer : ScreenBuffer) (text : List WChar)
    (mode : OutputMode) (title : Option TitleState) (answerQueries : Bool) :
    buffer.Counts (applyTextToScreenBuffer buffer text mode title answerQueries).buffer := by
  unfold applyTextToScreenBuffer
  split
  · exact .refl _
  · apply ScreenBuffer.Counts.of_lt
    have started : buffer.revision ≤ (buffer.outputState mode title).buffer.revision := by
      unfold ScreenBuffer.outputState
      split <;> exact Nat.le_refl _
    exact Nat.lt_of_le_of_lt (OutputCall.run_revision started text)
      (OutputState.commit_revision _ _)

namespace ScreenBuffer

variable (buffer : ScreenBuffer)

theorem counts_requestInfoWindow (body : InfoBody) :
    buffer.Counts (buffer.requestInfoWindow body).1 := by
  unfold requestInfoWindow
  dsimp only
  split
  · exact .refl _
  · split
    · exact .refl _
    · split
      · exact .refl _
      · split
        all_goals
          rename_i placed
          exact buffer.counts_of_setWindowRect placed

theorem counts_requestSetScreenBufferInfo (body : InfoBody) :
    buffer.Counts (buffer.requestSetScreenBufferInfo body).1 := by
  unfold requestSetScreenBufferInfo
  dsimp only
  split
  · exact .refl _
  · split
    · rename_i sized
      exact buffer.counts_of_setScreenBufferSize sized
    · rename_i resized sized
      have counts := buffer.counts_of_setScreenBufferSize sized
      split
      · exact counts
      · apply counts.trans
        apply (resized.counts_apply (.setCursorPosition body.cursorPosition)).trans
        apply (counts_apply _ (.setTextAttributes body.attributes)).trans
        apply (counts_apply _ (.setDefaultTextAttributes body.attributes)).trans
        apply (counts_apply _ (.setColorTable body.colorTable)).trans
        exact counts_requestInfoWindow _ body

theorem counts_requestSetScreenBufferSize (size : ShortCoord) :
    buffer.Counts (buffer.requestSetScreenBufferSize size).1 := by
  unfold requestSetScreenBufferSize
  split
  · exact .refl _
  · split
    all_goals
      rename_i sized
      exact buffer.counts_of_setScreenBufferSize sized

theorem counts_requestScroll (body : ScrollBody) :
    buffer.Counts (buffer.requestScroll body).1 := by
  unfold requestScroll
  dsimp only
  split_ifs
  all_goals
    first
      | exact .refl _
      | exact buffer.counts_update (ScreenCore.scrollScreenBuffer_counted _ _ _ _ _)

theorem counts_requestSetWindowInfo (absolute : Bool) (window : SmallRect) :
    buffer.Counts (buffer.requestSetWindowInfo absolute window).1 := by
  unfold requestSetWindowInfo
  dsimp only
  split_ifs
  · split
    all_goals
      rename_i placed
      exact buffer.counts_of_setWindowRect placed
  · exact .refl _
  · exact .refl _
  · split
    all_goals
      rename_i placed
      exact buffer.counts_of_setWindowRect placed

theorem counts_requestFill (origin : Coord) (elementType : ElementType) (element : UInt16)
    (length : Nat) :
    buffer.Counts (buffer.requestFill origin elementType element length).1 := by
  have filled : ∀ update, buffer.Counts
      (buffer.update (buffer.toScreenCore.updateRun origin length update)) :=
    fun update => buffer.counts_update (ScreenCore.updateRun_counted _ _ _)
  unfold requestFill
  split
  · cases elementType with
    | attributes | realUnicode | falseUnicode | ascii => exact filled _
    | other => exact .refl _
  · exact .refl _

theorem counts_requestWriteOutput (region : SmallRect) (unicode : Bool) (input : List Byte) :
    buffer.Counts (buffer.requestWriteOutput region unicode input).1 := by
  unfold requestWriteOutput
  split
  · exact buffer.counts_update (ScreenCore.writeOutputCharInfoRect_counted _ _ _)
  · exact .refl _

theorem counts_requestWriteOutputString (origin : Coord) (stringType : ElementType)
    (input : List Byte) :
    buffer.Counts (buffer.requestWriteOutputString origin stringType input).1 := by
  have written : ∀ count update, buffer.Counts
      (buffer.update (buffer.toScreenCore.updateRun origin count update)) :=
    fun count update => buffer.counts_update (ScreenCore.updateRun_counted _ _ _)
  unfold requestWriteOutputString
  dsimp only
  split
  · cases stringType with
    | attributes | realUnicode | falseUnicode =>
        dsimp only
        split
        · exact .refl _
        · exact written _ _
    | ascii => exact written _ _
    | other => exact .refl _
  · exact .refl _

end ScreenBuffer

/-- No request changes what is painted without a count. -/
theorem ScreenRequest.apply_counts (buffer : ScreenBuffer) (request : ScreenRequest) :
    buffer.Counts (request.apply buffer) := by
  cases request with
  | writeText text mode title answerQueries =>
      exact applyTextToScreenBuffer_counts buffer text mode title answerQueries
  | setCursorInfo size visible =>
      simp only [apply, ScreenBuffer.requestSetCursorInfo]
      split
      · exact .refl _
      · exact buffer.counts_apply (.setCursorInfo size visible)
  | setScreenBufferInfo body => exact buffer.counts_requestSetScreenBufferInfo body
  | setScreenBufferSize size => exact buffer.counts_requestSetScreenBufferSize size
  | setCursorPosition position =>
      simp only [apply, ScreenBuffer.requestSetCursorPosition]
      split
      · exact .refl _
      · exact (buffer.counts_apply (.setCursorPosition position)).trans
          (ScreenBuffer.counts_snapWindowToCursor _)
  | scroll body => exact buffer.counts_requestScroll body
  | setTextAttribute attributes => exact buffer.counts_apply (.setTextAttributes attributes)
  | setWindowInfo absolute window => exact buffer.counts_requestSetWindowInfo absolute window
  | fill origin elementType element length =>
      exact buffer.counts_requestFill origin elementType element length
  | writeOutput region unicode input => exact buffer.counts_requestWriteOutput region unicode input
  | writeOutputString origin stringType input =>
      exact buffer.counts_requestWriteOutputString origin stringType input

end Conhost
