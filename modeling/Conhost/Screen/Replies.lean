import Conhost.Screen.VtOutput

/-!
# Answers to terminal queries

A call that is not asked to answer queries injects nothing into the input, nor
does one with VT processing off. Only the status report adds a reply; every
other operation leaves the replies alone.
-/

namespace Conhost

namespace OutputState

variable (state : OutputState)

@[simp]
theorem replies_update {α : Type} (update : CoreUpdate α) :
    (state.update update).replies = state.replies := rfl

@[simp]
theorem replies_parse (change : VtOutputParseState → VtOutputParseState) :
    (state.parse change).replies = state.replies := rfl

@[simp]
theorem replies_fill (origin : Coord) (character : WChar) (attributes : Attributes)
    (length : Nat) : (state.fill origin character attributes length).replies = state.replies := by
  simp only [fill, replies_update]

@[simp]
theorem replies_resetMargins : state.resetMargins.replies = state.replies := rfl

theorem replies_foldl {β : Type} {action : OutputState → β → OutputState}
    (keeps : ∀ state item, (action state item).replies = state.replies) (items : List β) :
    (items.foldl action state).replies = state.replies := by
  induction items generalizing state with
  | nil => rfl
  | cons item items hypothesis =>
      rw [List.foldl_cons, hypothesis, keeps]

end OutputState

namespace OutputCall

variable (call : OutputCall) (state : OutputState) (csi : VtCsiSequence)

@[simp]
theorem replies_scrollRegionUp (top bottom : Int) (count : Nat) :
    (call.scrollRegionUp state top bottom count).replies = state.replies := by
  simp only [scrollRegionUp]
  repeat' split
  all_goals rfl

@[simp]
theorem replies_scrollRegionDown (top bottom : Int) (count : Nat) :
    (call.scrollRegionDown state top bottom count).replies = state.replies := by
  simp only [scrollRegionDown]
  repeat' split
  all_goals rfl

@[simp]
theorem replies_lineFeed : (call.lineFeed state).replies = state.replies := by
  simp only [lineFeed]
  repeat' split
  all_goals simp

@[simp]
theorem replies_reverseLineFeed : (call.reverseLineFeed state).replies = state.replies := by
  simp only [reverseLineFeed]
  repeat' split
  all_goals simp

@[simp]
theorem replies_advanceLine : (call.advanceLine state).replies = state.replies := by
  simp [advanceLine]

@[simp]
theorem replies_maybeApplyDelayedWrap :
    (call.maybeApplyDelayedWrap state).replies = state.replies := by
  simp only [maybeApplyDelayedWrap]
  repeat' split
  all_goals simp

@[simp]
theorem replies_storePrintable (value : WChar) :
    (call.storePrintable state value).replies = state.replies := by
  simp only [storePrintable]
  split <;> rfl

@[simp]
theorem replies_advanceVt : (call.advanceVt state).replies = state.replies := by
  simp only [advanceVt]
  split <;> rfl

@[simp]
theorem replies_advancePlain : (call.advancePlain state).replies = state.replies := by
  simp only [advancePlain]
  repeat' split
  all_goals simp

@[simp]
theorem replies_writePrintable (value : WChar) :
    (call.writePrintable state value).replies = state.replies := by
  simp only [writePrintable]
  split <;> simp

theorem replies_textCharacter (character : WChar) :
    (call.textCharacter state character).replies = state.replies := by
  simp only [textCharacter]
  repeat' split
  all_goals simp [OutputState.replies_foldl]

@[simp]
theorem replies_eraseCells (start : Int) (count : Nat) :
    (eraseCells state start count).replies = state.replies := by
  rw [eraseCells]
  apply OutputState.replies_foldl
  intro state step
  rfl

@[simp]
theorem replies_shiftCells (columns : List Int) (offset : Int) :
    (shiftCells state columns offset).replies = state.replies := by
  rw [shiftCells]
  apply OutputState.replies_foldl
  intro state column
  rfl

@[simp]
theorem replies_eraseFrom (origin : Coord) (length : Nat) :
    (eraseFrom state origin length).replies = state.replies := by
  simp only [eraseFrom]
  split <;> rfl

theorem replies_setModeParam (privateMarker enable : Bool) (param : Nat) :
    (call.setModeParam privateMarker enable state param).replies = state.replies := by
  simp only [setModeParam]
  repeat' split
  all_goals rfl

@[simp]
theorem replies_restoreCursor : (call.restoreCursor state).replies = state.replies := by
  simp only [restoreCursor]
  split <;> rfl

/-- Of the CSI functions only the status report replies. -/
theorem replies_applyCsi (quiet : call.answerQueries = false) :
    (call.applyCsi csi state).replies = state.replies := by
  simp only [applyCsi]
  split
  all_goals try rfl
  · simp [deviceStatusReport, quiet]
  · simp only [insertCharacter]
    split <;> simp
  · simp only [deleteCharacter]
    split <;> simp
  · simp only [eraseCharacter]
    split <;> simp
  · simp only [setMargins]
    repeat' split
    all_goals rfl
  · simp only [scroll]
    split <;> simp
  · simp only [insertLine]
    repeat' split
    all_goals rfl
  · simp only [deleteLine]
    repeat' split
    all_goals rfl
  · simp only [eraseDisplay]
    split <;> simp
  · simp only [eraseLine]
    repeat' split
    all_goals simp
  · split <;> rfl
  · simp
  · exact OutputState.replies_foldl _ (fun _ _ => call.replies_setModeParam _ _ _ _) _

@[simp]
theorem replies_hardReset : (call.hardReset state).replies = state.replies := by
  simp only [hardReset, leaveAlternateScreen]
  split <;> rfl

@[simp]
theorem replies_finishOsc : (finishOsc state).replies = state.replies := by
  simp only [finishOsc]
  split <;> rfl

theorem replies_ite {condition : Prop} [Decidable condition] {first second : OutputState}
    (whenTrue : first.replies = state.replies) (whenFalse : second.replies = state.replies) :
    (if condition then first else second).replies = state.replies := by
  split
  · exact whenTrue
  · exact whenFalse

theorem replies_escapeFinal (character : WChar) :
    (call.escapeFinal state character).replies = state.replies := by
  simp only [escapeFinal]
  refine replies_ite _ rfl (replies_ite _ rfl (replies_ite _ rfl (replies_ite _ rfl
    (replies_ite _ ?_ (replies_ite _ ?_ (replies_ite _ ?_ (replies_ite _ ?_ (replies_ite _ ?_
      (replies_ite _ rfl rfl)))))))))
  all_goals simp

/-- The state a parser pass goes on with. -/
def VtOutcomeKeeps (state : OutputState) : VtOutcome → Prop
  | .consumed next => next.replies = state.replies
  | .again next => next.replies = state.replies
  | .text => True

theorem vtPass_keeps (quiet : call.answerQueries = false) (character : WChar) :
    VtOutcomeKeeps state (call.vtPass state character) := by
  simp only [vtPass]
  split
  · exact call.replies_escapeFinal state character
  · simp only [VtOutcomeKeeps, escapeDispatch]
    repeat' split
    all_goals rfl
  · simp only [VtOutcomeKeeps, csiCharacter]
    split
    · rfl
    · split
      · exact call.replies_applyCsi state _ quiet
      · rfl
  · simp only [VtOutcomeKeeps, oscCharacter]
    repeat' split
    all_goals simp
  · split
    · exact replies_finishOsc state
    · rfl
  · simp only [VtOutcomeKeeps, stringCharacter]
    repeat' split
    all_goals rfl
  · split <;> rfl
  · simp only [groundCharacter]
    repeat' split
    all_goals first | rfl | trivial

theorem replies_step (quiet : call.answerQueries = false ∨ call.mode.vtProcessing = false)
    (character : WChar) : (call.step state character).replies = state.replies := by
  simp only [step]
  split
  · rename_i processing
    have silent : call.answerQueries = false := by simpa [processing] using quiet
    have first := call.vtPass_keeps state silent character
    split
    · rename_i next pass
      rwa [pass] at first
    · rename_i next pass
      rw [pass] at first
      have second := call.vtPass_keeps next silent character
      split
      · rename_i final pass'
        rw [pass'] at second
        exact second.trans first
      · rename_i final pass'
        rw [pass'] at second
        exact second.trans first
      · rw [replies_textCharacter]
        exact first
    · exact call.replies_textCharacter state character
  · exact call.replies_textCharacter state character

end OutputCall

/-- A call that does not answer queries, or does not interpret them, injects nothing. -/
theorem applyTextToScreenBuffer_replies (buffer : ScreenBuffer) (text : List WChar)
    (mode : OutputMode) (title : Option TitleState) {answerQueries : Bool}
    (quiet : answerQueries = false ∨ mode.vtProcessing = false) :
    (applyTextToScreenBuffer buffer text mode title answerQueries).replies = [] := by
  simp only [applyTextToScreenBuffer]
  split
  · rfl
  · have kept : ∀ state : OutputState, ((buffer.outputCall mode answerQueries).run state
        text).replies = state.replies := by
      intro state
      exact state.replies_foldl
        (fun state character => OutputCall.replies_step _ state quiet character) text
    rw [kept, ScreenBuffer.outputState]
    split <;> rfl

end Conhost
