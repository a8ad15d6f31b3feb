import Conhost.Screen.Calls
import Conhost.Screen.Streaming

/-!
# A text in pieces

A text that is written in pieces leaves the screen that one call with the whole
text leaves. With VT processing this needs coherent calls. Without it a call
starts by resetting the parser and the delayed wrap, and never sets them again.
-/

namespace Conhost

namespace OutputCall

variable {call : OutputCall} {state : OutputState}

theorem title_lockstep (call : OutputCall) (title : Option TitleState) :
    Lockstep call fun left right => left = right ∧ left.title = title :=
  .of_property (fun _ kept => kept) (fun _ kept => kept) (fun _ kept => kept)
    (fun _ kept => kept) fun _ _ _ _ kept => kept

theorem setModeParam_title (privateMarker enable : Bool) (state : OutputState) (param : Nat) :
    (call.setModeParam privateMarker enable state param).title = state.title := by
  by_cases switches : param = 1049
  · subst switches
    simp [setModeParam, switchScreen]
  · exact ((title_lockstep call state.title).setModeParam ⟨rfl, rfl⟩ _ _ switches).2

theorem applyCsi_title (csi : VtCsiSequence) (state : OutputState) :
    (call.applyCsi csi state).title = state.title := by
  by_cases isMode : ∃ enable, csi.function = .setMode enable
  · obtain ⟨enable, function⟩ := isMode
    simp only [applyCsi, function]
    generalize csi.params = params
    induction params generalizing state with
    | nil => rfl
    | cons param params ih =>
        rw [List.foldl_cons, ih]
        exact setModeParam_title _ _ _ _
  · exact ((title_lockstep call state.title).applyCsi ⟨rfl, rfl⟩ csi
      (fun enable function => absurd ⟨enable, function⟩ isMode)).2

theorem perform_title (state : OutputState) (action : VtAction) :
    (call.perform state action).title.isSome = state.title.isSome := by
  have lock := title_lockstep call state.title
  have start : state = state ∧ state.title = state.title := ⟨rfl, rfl⟩
  cases action with
  | nothing => rfl
  | text character => exact congrArg _ (lock.textCharacter start character).2
  | sequence csi => exact congrArg _ (applyCsi_title csi state)
  | saveCursor => exact congrArg _ (lock.saveCursor start).2
  | restoreCursor => exact congrArg _ (lock.restoreCursor start).2
  | lineFeed => exact congrArg _ (lock.lineFeed start).2
  | reverseLineFeed => exact congrArg _ (lock.reverseLineFeed start).2
  | advanceLine => exact congrArg _ (lock.advanceLine start).2
  | hardReset =>
      have main : (leaveAlternateScreen state).title = state.title := by
        unfold leaveAlternateScreen
        split <;> rfl
      have reset := ((title_lockstep call state.title).resetScreen ⟨rfl, main⟩).2
      exact congrArg _ reset
  | screenAlignment => exact congrArg _ (lock.screenAlignment start).2
  | setTitle title => simp [perform]

theorem step_title (state : OutputState) (character : WChar) :
    (call.step state character).title.isSome = state.title.isSome := by
  by_cases vt : call.mode.vtProcessing = true
  · rw [step_eq_perform vt]
    exact perform_title state _
  · unfold step
    rw [if_neg vt]
    exact congrArg _ ((title_lockstep call state.title).textCharacter ⟨rfl, rfl⟩ character).2

theorem run_title (state : OutputState) (text : List WChar) :
    (call.run state text).title.isSome = state.title.isSome := by
  induction text generalizing state with
  | nil => rfl
  | cons character text ih => rw [run_cons, ih, step_title]

/-- What a call without VT processing finds at every character: the parser and the delayed wrap
are reset, and the committed registers are those from its start. -/
structure Plain (committed : VtRegisters) (state : OutputState) : Prop where
  parser : state.buffer.vtOutputParseState = {}
  delayedWrap : state.regs.delayedWrap = none
  committed : state.buffer.regs = committed

theorem hidden_lockstep (call : OutputCall) (parser : VtOutputParseState)
    (committed : VtRegisters) :
    Lockstep call fun left right => left = right ∧
      left.buffer.vtOutputParseState = parser ∧ left.buffer.regs = committed :=
  .of_property (fun _ kept => kept) (fun _ kept => kept)
    (fun draws kept => ⟨(draws.parser _).trans kept.1, kept.2⟩) (fun _ kept => kept)
    fun _ _ _ _ kept => kept

theorem lineFeed_delayedWrap (state : OutputState) :
    (call.lineFeed state).regs.delayedWrap = state.regs.delayedWrap := by
  simp only [lineFeed]
  split
  · split
    · rw [scrollRegionUp_regs]
    · rfl
  · split
    · rw [scrollRegionUp_regs]
    · rfl

theorem writePrintable_delayedWrap (plain : call.mode.vtProcessing = false) (state : OutputState)
    (value : WChar) :
    (call.writePrintable state value).regs.delayedWrap = state.regs.delayedWrap := by
  simp only [writePrintable, plain, maybeApplyDelayedWrap, storePrintable, advancePlain,
    Bool.false_eq_true, if_false, Bool.false_and]
  split
  · split
    · exact lineFeed_delayedWrap _
    · rfl
  · rfl

theorem textCharacter_delayedWrap (plain : call.mode.vtProcessing = false) (state : OutputState)
    (character : WChar) :
    (call.textCharacter state character).regs.delayedWrap = state.regs.delayedWrap := by
  have spaces (columns : List Nat) (state : OutputState) :
      (columns.foldl (fun state _ => call.writePrintable state 0x20) state).regs.delayedWrap =
        state.regs.delayedWrap := by
    induction columns generalizing state with
    | nil => rfl
    | cons column columns ih => rw [List.foldl_cons, ih, writePrintable_delayedWrap plain]
  simp only [textCharacter]
  split
  · split
    · rfl
    · split
      · rw [lineFeed_delayedWrap]
        split <;> rfl
      · split
        · split <;> rfl
        · split
          · exact spaces _ _
          · exact writePrintable_delayedWrap plain _ _
  · exact writePrintable_delayedWrap plain _ _

theorem step_plain (plain : call.mode.vtProcessing = false) (state : OutputState)
    (character : WChar) : call.step state character = call.textCharacter state character := by
  simp [step, plain]

theorem Plain.step {committed : VtRegisters} (call : OutputCall)
    (off : call.mode.vtProcessing = false) (plain : Plain committed state) (character : WChar) :
    Plain committed (call.step state character) := by
  rw [step_plain off]
  obtain ⟨-, parser, same⟩ := (hidden_lockstep call {} committed).textCharacter
    ⟨rfl, plain.parser, plain.committed⟩ character
  exact ⟨parser, (textCharacter_delayedWrap off state character).trans plain.delayedWrap, same⟩

theorem Plain.run {committed : VtRegisters} (call : OutputCall)
    (off : call.mode.vtProcessing = false) (plain : Plain committed state) (text : List WChar) :
    Plain committed (call.run state text) := by
  induction text generalizing state with
  | nil => exact plain
  | cons character text ih => exact ih (plain.step call off character)

end OutputCall

namespace Terminal

variable {mode : OutputMode} {answerQueries : Bool}

/-- The terminal on which a call without VT processing starts. -/
def plain (terminal : Terminal) : Terminal where
  core := { terminal.core with vtOutputParseState := {} }
  regs := { terminal.regs with delayedWrap := none }
  title := terminal.title

theorem run_plain (off : mode.vtProcessing = false) (terminal : Terminal) (text : List WChar) :
    (terminal.plain.run mode answerQueries text).plain =
      terminal.plain.run mode answerQueries text := by
  have reset (terminal : Terminal) (parser : terminal.core.vtOutputParseState = {})
      (delayedWrap : terminal.regs.delayedWrap = none) : terminal.plain = terminal := by
    obtain ⟨core, regs, title⟩ := terminal
    simp only at parser delayedWrap
    simp [plain, ← parser, ← delayedWrap]
  have kept (terminal : Terminal) (parser : terminal.core.vtOutputParseState = {})
      (delayedWrap : terminal.regs.delayedWrap = none) :
      (terminal.run mode answerQueries text).core.vtOutputParseState = {} ∧
        (terminal.run mode answerQueries text).regs.delayedWrap = none := by
    induction text generalizing terminal with
    | nil => exact ⟨parser, delayedWrap⟩
    | cons character text ih =>
        have start : OutputCall.Plain terminal.regs terminal.state := ⟨parser, delayedWrap, rfl⟩
        have next := start.step (terminal.call mode answerQueries) off character
        exact ih _ next.parser next.delayedWrap
  obtain ⟨parser, delayedWrap⟩ := kept terminal.plain rfl rfl
  exact reset _ parser delayedWrap

/-- A text of a call without VT processing refines a run of the terminal. -/
theorem agrees_run_plain {original : VtRegisters} (off : mode.vtProcessing = false)
    (text : List WChar) {terminal : Terminal} {loop : OutputState}
    (agree : (terminal.call mode answerQueries).Agrees original loop terminal.state) :
    (terminal.call mode answerQueries).Agrees original
      ((terminal.call mode answerQueries).run loop text)
      (terminal.run mode answerQueries text).state := by
  induction text generalizing terminal loop with
  | nil => exact agree
  | cons character text ih =>
      have here := OutputCall.Agrees.lockstep.textCharacter agree character
      rw [← OutputCall.step_plain off, ← OutputCall.step_plain off] at here
      obtain ⟨next, sameCall⟩ := agrees_next here
      rw [← sameCall] at next
      have rest := ih next
      rw [sameCall] at rest
      exact rest

end Terminal

/-- A call without VT processing refines a run of the terminal, and keeps the size of the
buffer. -/
theorem applyTextToScreenBuffer_refines_plain {buffer : ScreenBuffer} {mode : OutputMode}
    (nonempty : 0 < buffer.bufferSize.x ∧ 0 < buffer.bufferSize.y)
    (off : mode.vtProcessing = false) (text : List WChar) (title : Option TitleState)
    (answerQueries : Bool) :
    (applyTextToScreenBuffer buffer text mode title answerQueries).terminal =
        (Terminal.mk buffer.toScreenCore buffer.regs title).plain.run mode answerQueries text ∧
      (applyTextToScreenBuffer buffer text mode title answerQueries).buffer.bufferSize =
        buffer.bufferSize := by
  let terminal := (Terminal.mk buffer.toScreenCore buffer.regs title).plain
  have started : buffer.outputState mode title =
      { buffer := { buffer with vtOutputParseState := {} }
        regs := { buffer.regs with delayedWrap := none }
        margins := buffer.vtVerticalMargins
        title := title } := by
    simp [ScreenBuffer.outputState, off, OutputState.parse]
  have start : (terminal.call mode answerQueries).Agrees buffer.regs
      (buffer.outputState mode title) terminal.state := by
    rw [started]
    exact ⟨rfl, rfl, rfl, rfl, rfl, rfl, rfl, rfl, rfl⟩
  have plain : OutputCall.Plain buffer.regs (buffer.outputState mode title) := by
    rw [started]
    exact ⟨rfl, rfl, rfl⟩
  have final := Terminal.agrees_run_plain off text start
  have last := plain.run (terminal.call mode answerQueries) off text
  unfold applyTextToScreenBuffer OutputResult.terminal
  rw [if_neg (by omega)]
  dsimp only
  have committed := final.committed fun _ => by rw [last.committed]
  rw [OutputState.commit_toScreenCore]
  constructor
  · exact Terminal.ext final.core (committed.trans final.regs) final.title
  · exact (congrArg ScreenCore.bufferSize final.core).trans final.size

theorem applyTextToScreenBuffer_degenerate {buffer : ScreenBuffer}
    (degenerate : buffer.bufferSize.x ≤ 0 ∨ buffer.bufferSize.y ≤ 0) (text : List WChar)
    (mode : OutputMode) (title : Option TitleState) (answerQueries : Bool) :
    applyTextToScreenBuffer buffer text mode title answerQueries = ⟨buffer, title, []⟩ :=
  if_pos degenerate

theorem applyTextToScreenBuffer_title (buffer : ScreenBuffer) (text : List WChar)
    (mode : OutputMode) (title : Option TitleState) (answerQueries : Bool) :
    (applyTextToScreenBuffer buffer text mode title answerQueries).title.isSome =
      title.isSome := by
  unfold applyTextToScreenBuffer
  split
  · rfl
  · dsimp only
    rw [OutputCall.run_title]
    unfold ScreenBuffer.outputState
    dsimp only
    split <;> rfl

/-- Every call of a sequence is coherent. -/
def CoherentCalls (mode : OutputMode) (answerQueries : Bool) :
    OutputResult → List (List WChar) → Prop
  | _, [] => True
  | start, piece :: pieces =>
      CoherentCall start.buffer piece mode start.title answerQueries ∧
        CoherentCalls mode answerQueries (applyCalls mode answerQueries start [piece]) pieces

variable {mode : OutputMode} {answerQueries : Bool}

theorem applyCalls_degenerate {start : OutputResult}
    (degenerate : start.buffer.bufferSize.x ≤ 0 ∨ start.buffer.bufferSize.y ≤ 0)
    (pieces : List (List WChar)) :
    (applyCalls mode answerQueries start pieces).terminal = start.terminal := by
  induction pieces generalizing start with
  | nil => rfl
  | cons piece pieces ih =>
      rw [applyCalls_cons, applyTextToScreenBuffer_degenerate degenerate]
      exact ih degenerate

theorem applyCalls_terminal {start : OutputResult}
    (nonempty : 0 < start.buffer.bufferSize.x ∧ 0 < start.buffer.bufferSize.y)
    (vt : mode.vtProcessing = true) {pieces : List (List WChar)}
    (coherent : CoherentCalls mode answerQueries start pieces) :
    (applyCalls mode answerQueries start pieces).terminal =
      start.terminal.run mode answerQueries pieces.flatten := by
  induction pieces generalizing start with
  | nil => rfl
  | cons piece pieces ih =>
      obtain ⟨here, later⟩ := coherent
      obtain ⟨refines, size⟩ := applyTextToScreenBuffer_refines nonempty vt here
      have rest := @ih (applyCalls mode answerQueries start [piece])
        (by simpa [applyCalls, size] using nonempty) later
      rw [← List.singleton_append, applyCalls_append, rest]
      have next : (applyCalls mode answerQueries start [piece]).terminal =
          start.terminal.run mode answerQueries piece := refines
      rw [next, Terminal.run, Terminal.run, Terminal.run, ← List.foldl_append]
      simp

theorem coherentCalls_empty {pieces : List (List WChar)} (empty : ∀ piece ∈ pieces, piece = [])
    (start : OutputResult) : CoherentCalls mode answerQueries start pieces := by
  induction pieces generalizing start with
  | nil => trivial
  | cons piece pieces ih =>
      have nothing : piece = [] := empty piece List.mem_cons_self
      subst nothing
      refine ⟨⟨trivial, ?_⟩, ih (fun piece mem => empty piece (List.mem_cons_of_mem _ mem)) _⟩
      intro last _
      change (start.buffer.outputState mode start.title).buffer.regs.originMode = _
      simp only [ScreenBuffer.outputState]
      split
      · rfl
      · rfl

/-- Calls that write nothing change nothing while VT sequences are processed. -/
theorem applyCalls_terminal_empty (vt : mode.vtProcessing = true) {pieces : List (List WChar)}
    (empty : ∀ piece ∈ pieces, piece = []) (start : OutputResult) :
    (applyCalls mode answerQueries start pieces).terminal = start.terminal := by
  by_cases nonempty : 0 < start.buffer.bufferSize.x ∧ 0 < start.buffer.bufferSize.y
  · rw [applyCalls_terminal nonempty vt (coherentCalls_empty empty start),
      List.flatten_eq_nil_iff.mpr empty]
    rfl
  · have degenerate : start.buffer.bufferSize.x ≤ 0 ∨ start.buffer.bufferSize.y ≤ 0 := by omega
    exact applyCalls_degenerate degenerate pieces

theorem applyCalls_terminal_plain {start : OutputResult}
    (nonempty : 0 < start.buffer.bufferSize.x ∧ 0 < start.buffer.bufferSize.y)
    (off : mode.vtProcessing = false) (piece : List WChar) (pieces : List (List WChar)) :
    (applyCalls mode answerQueries start (piece :: pieces)).terminal =
      start.terminal.plain.run mode answerQueries (piece :: pieces).flatten := by
  induction pieces generalizing start piece with
  | nil =>
      obtain ⟨refines, -⟩ := applyTextToScreenBuffer_refines_plain nonempty off piece
        start.title answerQueries
      rw [List.flatten_singleton]
      exact refines
  | cons second pieces ih =>
      obtain ⟨refines, size⟩ := applyTextToScreenBuffer_refines_plain nonempty off piece
        start.title answerQueries
      have rest := @ih (applyCalls mode answerQueries start [piece])
        (by simpa [applyCalls, size] using nonempty) second
      have next : (applyCalls mode answerQueries start [piece]).terminal =
          start.terminal.plain.run mode answerQueries piece := refines
      rw [← List.singleton_append, applyCalls_append, rest, next, Terminal.run_plain off,
        Terminal.run, Terminal.run, Terminal.run, ← List.foldl_append]
      simp

/-- The calls that write the pieces of a text leave the screen of the call that writes it whole. -/
theorem applyCalls_flatten {start : OutputResult} {pieces : List (List WChar)}
    (written : pieces ≠ [])
    (coherent : mode.vtProcessing = true → CoherentCalls mode answerQueries start pieces ∧
      CoherentCalls mode answerQueries start [pieces.flatten]) :
    (applyCalls mode answerQueries start pieces).terminal =
      (applyCalls mode answerQueries start [pieces.flatten]).terminal := by
  by_cases nonempty : 0 < start.buffer.bufferSize.x ∧ 0 < start.buffer.bufferSize.y
  · cases vt : mode.vtProcessing with
    | true =>
        obtain ⟨parts, whole⟩ := coherent vt
        rw [applyCalls_terminal nonempty vt parts, applyCalls_terminal nonempty vt whole,
          List.flatten_singleton]
    | false =>
        obtain ⟨piece, pieces, rfl⟩ := List.exists_cons_of_ne_nil written
        rw [applyCalls_terminal_plain nonempty vt, applyCalls_terminal_plain nonempty vt,
          List.flatten_singleton]
  · have degenerate : start.buffer.bufferSize.x ≤ 0 ∨ start.buffer.bufferSize.y ≤ 0 := by omega
    rw [applyCalls_degenerate degenerate, applyCalls_degenerate degenerate]

end Conhost
