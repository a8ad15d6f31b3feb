import Conhost.Screen.Parser

/-!
# Sequences of calls

An application writes a text in pieces, one call for each. `applyCalls` runs such
a sequence. Two buffers that show the same picture keep doing so under the same
calls, whatever their parsers have left in fields that are no longer used.
-/

namespace Conhost

/-- Successive calls that write the pieces of a text. -/
def applyCalls (mode : OutputMode) (answerQueries : Bool) (start : OutputResult)
    (pieces : List (List WChar)) : OutputResult :=
  pieces.foldl
    (fun result piece =>
      let next := applyTextToScreenBuffer result.buffer piece mode result.title answerQueries
      { next with replies := result.replies ++ next.replies })
    start

theorem applyCalls_cons (mode : OutputMode) (answerQueries : Bool) (start : OutputResult)
    (piece : List WChar) (pieces : List (List WChar)) :
    applyCalls mode answerQueries start (piece :: pieces) =
      let next := applyTextToScreenBuffer start.buffer piece mode start.title answerQueries
      applyCalls mode answerQueries { next with replies := start.replies ++ next.replies }
        pieces :=
  rfl

theorem applyCalls_append (mode : OutputMode) (answerQueries : Bool) (start : OutputResult)
    (first second : List (List WChar)) :
    applyCalls mode answerQueries start (first ++ second) =
      applyCalls mode answerQueries (applyCalls mode answerQueries start first) second :=
  List.foldl_append

namespace OutputCall

variable {call : OutputCall}

theorem run_cons (state : OutputState) (character : WChar) (text : List WChar) :
    call.run state (character :: text) = call.run (call.step state character) text :=
  rfl

theorem run_append (state : OutputState) (first second : List WChar) :
    call.run state (first ++ second) = call.run (call.run state first) second :=
  List.foldl_append

/-- The parser follows the characters alone. -/
theorem run_parseState (vt : call.mode.vtProcessing = true) (state : OutputState)
    (text : List WChar) :
    (call.run state text).buffer.vtOutputParseState =
      state.buffer.vtOutputParseState.run text := by
  induction text generalizing state with
  | nil => rfl
  | cons character text ih =>
      rw [run_cons, ih, step_eq_perform vt]
      rfl

end OutputCall

/-- Two buffers that differ at most in their parsers, their windows and their
revisions. -/
structure ScreenBuffer.SamePicture (left right : ScreenBuffer) : Prop where
  core : ∃ parser, left.toScreenCore = right.toScreenCore.withHidden parser right.vtMainBackup
  regs : left.regs = right.regs

theorem ScreenBuffer.SamePicture.trans {left middle right : ScreenBuffer}
    (first : left.SamePicture middle) (second : middle.SamePicture right) :
    left.SamePicture right := by
  obtain ⟨parser, leftCore⟩ := first.core
  obtain ⟨_, middleCore⟩ := second.core
  refine ⟨⟨parser, ?_⟩, first.regs.trans second.regs⟩
  rw [leftCore, middleCore]
  rfl

/-- Two states of the character loop on the same picture. -/
structure OutputState.SamePicture (left right : OutputState) : Prop where
  buffer : left.buffer.SamePicture right.buffer
  regs : left.regs = right.regs
  margins : left.margins = right.margins

namespace OutputState.SamePicture

variable {call : OutputCall} {left right : OutputState}

theorem lockstep (call : OutputCall) : Lockstep call SamePicture where
  regs same := same.regs
  margins same := same.margins
  colorTable same := by
    obtain ⟨parser, core⟩ := same.buffer.core
    rw [core]
    rfl
  saved same := by
    obtain ⟨parser, core⟩ := same.buffer.core
    rw [core]
    rfl
  setRegs regs same := ⟨same.buffer, rfl, same.margins⟩
  deviceStatusReport csi same := by
    unfold OutputCall.deviceStatusReport
    split
    · exact ⟨same.buffer, same.regs, same.margins⟩
    · exact same
  update := by
    intro left right α operation draws same
    obtain ⟨parser, core⟩ := same.buffer.core
    refine ⟨⟨⟨parser, ?_⟩, same.buffer.regs⟩, same.regs, same.margins⟩
    simp only [OutputState.update, ScreenBuffer.update]
    rw [draws.backup right.buffer.toScreenCore, ← draws.hidden, ← core]
  setVtVerticalMargins margins same := by
    obtain ⟨parser, core⟩ := same.buffer.core
    refine ⟨⟨⟨parser, ?_⟩, same.buffer.regs⟩, same.regs, rfl⟩
    simp only [OutputState.update, ScreenBuffer.update]
    rw [core]
    rfl
  saveCursorState position attributes delayed origin same := by
    obtain ⟨parser, core⟩ := same.buffer.core
    refine ⟨⟨⟨parser, ?_⟩, same.buffer.regs⟩, same.regs, same.margins⟩
    simp only [OutputState.update, ScreenBuffer.update]
    rw [core]
    rfl

theorem setVtUsingAlternateScreenBuffer {first second : ScreenBuffer}
    (same : first.SamePicture second) (enable : Bool) (character : WChar)
    (attributes : Attributes) :
    (first.setVtUsingAlternateScreenBuffer enable character attributes).SamePicture
      (second.setVtUsingAlternateScreenBuffer enable character attributes) := by
  obtain ⟨core, regs, window, revision⟩ := first
  obtain ⟨⟨parser, rfl⟩, rfl⟩ := same
  unfold ScreenBuffer.setVtUsingAlternateScreenBuffer
  simp only [ScreenCore.withHidden]
  cases saved : second.vtMainBackup with
  | none =>
      cases enable with
      | true => exact ⟨⟨parser, rfl⟩, rfl⟩
      | false => exact ⟨⟨parser, by rw [saved]; rfl⟩, rfl⟩
  | some main =>
      cases enable with
      | true => exact ⟨⟨parser, by rw [saved]; rfl⟩, rfl⟩
      | false => exact ⟨⟨parser, rfl⟩, rfl⟩

theorem switchScreen (same : left.SamePicture right) (enable : Bool) :
    (OutputCall.switchScreen enable left).SamePicture (OutputCall.switchScreen enable right) := by
  have switched := setVtUsingAlternateScreenBuffer same.buffer enable 0x20 right.regs.attributes
  obtain ⟨parser, core⟩ := switched.core
  unfold OutputCall.switchScreen
  rw [same.regs]
  refine ⟨switched, ?_, ?_⟩
  · simp only [switched.regs]
  · simp only [core]
    rfl

theorem applyCsi (same : left.SamePicture right) (csi : VtCsiSequence) :
    (call.applyCsi csi left).SamePicture (call.applyCsi csi right) := by
  by_cases isMode : ∃ enable, csi.function = .setMode enable
  · obtain ⟨enable, function⟩ := isMode
    simp only [OutputCall.applyCsi, function]
    refine (lockstep call).foldl ?_ _ same
    intro left right param same
    by_cases switches : param = 1049
    · subst switches
      simpa [OutputCall.setModeParam] using same.switchScreen enable
    · exact (lockstep call).setModeParam same _ enable switches
  · exact (lockstep call).applyCsi same csi
      (fun enable function => absurd ⟨enable, function⟩ isMode)

theorem leaveAlternateScreen (same : left.SamePicture right) :
    (OutputCall.leaveAlternateScreen left).SamePicture
      (OutputCall.leaveAlternateScreen right) := by
  have switched := setVtUsingAlternateScreenBuffer same.buffer false 0x20 right.regs.attributes
  obtain ⟨parser, core⟩ := switched.core
  obtain ⟨_, sameCore⟩ := same.buffer.core
  have backup : left.buffer.vtMainBackup = right.buffer.vtMainBackup := by
    rw [sameCore]
    rfl
  unfold OutputCall.leaveAlternateScreen
  rw [backup, same.regs]
  split
  · refine ⟨switched, ?_, ?_⟩
    · simp only [switched.regs]
    · simp only [core]
      rfl
  · exact same

/-- The same action keeps two states on the same picture. -/
theorem perform (same : left.SamePicture right) (action : VtAction) :
    (call.perform left action).SamePicture (call.perform right action) := by
  cases action with
  | nothing => exact same
  | text character => exact (lockstep call).textCharacter same character
  | sequence csi => exact same.applyCsi csi
  | saveCursor => exact (lockstep call).saveCursor same
  | restoreCursor => exact (lockstep call).restoreCursor same
  | lineFeed => exact (lockstep call).lineFeed same
  | reverseLineFeed => exact (lockstep call).reverseLineFeed same
  | advanceLine => exact (lockstep call).advanceLine same
  | hardReset => exact (lockstep call).resetScreen same.leaveAlternateScreen
  | screenAlignment => exact (lockstep call).screenAlignment same
  | setTitle title => exact ⟨same.buffer, same.regs, same.margins⟩

theorem withParser (same : left.SamePicture right) (first second : VtOutputParseState) :
    (left.withParser first).SamePicture (right.withParser second) := by
  obtain ⟨parser, core⟩ := same.buffer.core
  refine ⟨⟨⟨first, ?_⟩, same.buffer.regs⟩, same.regs, same.margins⟩
  simp only [OutputState.withParser, OutputState.parse, core]
  rfl

theorem refl (state : OutputState) : state.SamePicture state :=
  ⟨⟨⟨state.buffer.vtOutputParseState, rfl⟩, rfl⟩, rfl, rfl⟩

theorem withParser_left (same : left.SamePicture right) (parser : VtOutputParseState) :
    (left.withParser parser).SamePicture right :=
  same.withParser parser right.buffer.vtOutputParseState

theorem trans {middle : OutputState} (first : left.SamePicture middle)
    (second : middle.SamePicture right) : left.SamePicture right :=
  ⟨first.buffer.trans second.buffer, first.regs.trans second.regs,
    first.margins.trans second.margins⟩

theorem commit (same : left.SamePicture right) (original : VtRegisters) :
    (left.commit original).SamePicture (right.commit original) := by
  refine ⟨?_, ?_⟩
  · have core := same.buffer.core
    simp only [OutputState.commit_toScreenCore]
    exact core
  · rw [OutputState.commit_regs, OutputState.commit_regs, same.regs, same.buffer.regs]

/-- A commit of the registers the call started with. -/
theorem commit_self {buffer : ScreenBuffer} {mode : OutputMode} {title : Option TitleState}
    (vt : mode.vtProcessing = true) (same : left.SamePicture (buffer.outputState mode title)) :
    (left.commit buffer.regs).SamePicture buffer := by
  have started : buffer.outputState mode title =
      { buffer := buffer, regs := buffer.regs, margins := buffer.vtVerticalMargins,
        title := title } := if_pos vt
  rw [started] at same
  refine ⟨?_, ?_⟩
  · have core := same.buffer.core
    simp only [OutputState.commit_toScreenCore]
    exact core
  · rw [OutputState.commit_regs, same.regs, same.buffer.regs]
    simp only [ne_eq, not_true_eq_false, if_false]

end OutputState.SamePicture

/-- Two states on the same picture whose parsers are in the same situation. -/
structure OutputState.Parallel (left right : OutputState) : Prop where
  picture : left.SamePicture right
  parser : left.buffer.vtOutputParseState.live = right.buffer.vtOutputParseState.live

namespace OutputState.Parallel

variable {call : OutputCall} {left right : OutputState}

theorem step (vt : call.mode.vtProcessing = true) (states : left.Parallel right)
    (character : WChar) :
    (call.step left character).Parallel (call.step right character) := by
  have action : left.buffer.vtOutputParseState.action character =
      right.buffer.vtOutputParseState.action character := by
    rw [← VtOutputParseState.action_live, states.parser, VtOutputParseState.action_live]
  have next : (left.buffer.vtOutputParseState.next character).live =
      (right.buffer.vtOutputParseState.next character).live := by
    rw [← VtOutputParseState.next_live, states.parser, VtOutputParseState.next_live]
  rw [OutputCall.step_eq_perform vt, OutputCall.step_eq_perform vt, action]
  exact ⟨(states.picture.perform _).withParser _ _, next⟩

theorem run (call : OutputCall) (vt : call.mode.vtProcessing = true)
    (states : left.Parallel right) (text : List WChar) :
    (call.run left text).Parallel (call.run right text) := by
  induction text generalizing left right with
  | nil => exact states
  | cons character text ih => exact ih (states.step vt character)

end OutputState.Parallel

/-- Two buffers on the same picture whose parsers are in the same situation. -/
structure ScreenBuffer.Parallel (left right : ScreenBuffer) : Prop where
  picture : left.SamePicture right
  parser : left.vtOutputParseState.live = right.vtOutputParseState.live

namespace ScreenBuffer.Parallel

variable {left right : ScreenBuffer} {mode : OutputMode} {answerQueries : Bool}

theorem cells (buffers : left.Parallel right) : left.cells = right.cells := by
  obtain ⟨_, core⟩ := buffers.picture.core
  rw [core]
  rfl

theorem trans {middle : ScreenBuffer} (first : left.Parallel middle)
    (second : middle.Parallel right) : left.Parallel right :=
  ⟨first.picture.trans second.picture, first.parser.trans second.parser⟩

theorem outputCall (same : left.SamePicture right) :
    left.outputCall mode answerQueries = right.outputCall mode answerQueries := by
  obtain ⟨parser, core⟩ := same.core
  unfold ScreenBuffer.outputCall
  rw [core]
  rfl

theorem outputState (vt : mode.vtProcessing = true) (same : left.SamePicture right)
    (first second : Option TitleState) :
    (left.outputState mode first).SamePicture (right.outputState mode second) := by
  obtain ⟨parser, core⟩ := same.core
  unfold ScreenBuffer.outputState
  rw [if_pos vt, if_pos vt]
  refine ⟨same, same.regs, ?_⟩
  simp only [core]
  rfl

theorem outputState_parseState (vt : mode.vtProcessing = true) (buffer : ScreenBuffer)
    (title : Option TitleState) :
    (buffer.outputState mode title).buffer = buffer := by
  unfold ScreenBuffer.outputState
  rw [if_pos vt]

/-- A call keeps two buffers on the same picture, whatever the titles are. -/
theorem apply (vt : mode.vtProcessing = true) (buffers : left.Parallel right)
    (text : List WChar) (first second : Option TitleState) :
    (applyTextToScreenBuffer left text mode first answerQueries).buffer.Parallel
      (applyTextToScreenBuffer right text mode second answerQueries).buffer := by
  obtain ⟨parser, core⟩ := buffers.picture.core
  have size : left.bufferSize = right.bufferSize := by
    rw [core]
    rfl
  unfold applyTextToScreenBuffer
  rw [size, outputCall buffers.picture, buffers.picture.regs]
  split
  · exact buffers
  · have started : (left.outputState mode first).Parallel (right.outputState mode second) := by
      refine ⟨outputState vt buffers.picture first second, ?_⟩
      rw [outputState_parseState vt, outputState_parseState vt]
      exact buffers.parser
    have ran := started.run (right.outputCall mode answerQueries) vt text
    refine ⟨ran.picture.commit right.regs, ?_⟩
    rw [OutputState.commit_toScreenCore, OutputState.commit_toScreenCore]
    exact ran.parser

theorem applyCalls {first second : OutputResult} (vt : mode.vtProcessing = true)
    (buffers : first.buffer.Parallel second.buffer) (pieces : List (List WChar)) :
    (applyCalls mode answerQueries first pieces).buffer.Parallel
      (applyCalls mode answerQueries second pieces).buffer := by
  induction pieces generalizing first second with
  | nil => exact buffers
  | cons piece pieces ih => exact ih (buffers.apply vt piece _ _)

end ScreenBuffer.Parallel

end Conhost
