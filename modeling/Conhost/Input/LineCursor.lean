import Conhost.Input.Lines
import Conhost.Input.Waiting

/-!
# The cursor of a line in progress

The line and the cursor of a handle after every unit and every key that a line-input read
processes. A read places the cursor before it takes its first token, and every edit places it
again, so nothing that happens to the handle between two reads is seen in it.
-/

namespace Conhost

namespace EditLine

/-- The line after each of the units that are handled -/
def unitEdits (processed controlZ : Bool) : List WChar → EditLine → List EditLine
  | [], _ => []
  | value :: later, edit =>
      let effect := edit.handleSingleUnit processed controlZ value
      effect.edit ::
        match effect.outcome with
        | .proceed => unitEdits processed controlZ later effect.edit
        | _ => []

/-- The line after each repetition of an edit -/
def repeatEdits (step : EditLine → Option Edit) : Nat → EditLine → List EditLine
  | 0, _ => []
  | count + 1, edit =>
      match step edit with
      | none => []
      | some (next, _) => next :: repeatEdits step count next

/-- The line after a key, or after each of its repetitions if it moves or deletes -/
def keyEdits (edit : EditLine) (virtualKey : UInt16) (ctrl : Bool) (count : Nat)
    (last : EditLine) : List EditLine :=
  if virtualKey = VtInput.vkLeft then repeatEdits (leftStep ctrl) count edit
  else if virtualKey = VtInput.vkRight then repeatEdits (rightStep ctrl) count edit
  else if virtualKey = VtInput.vkDelete then repeatEdits deleteStep count edit
  else [last]

/-- The line after every unit or key of a token -/
def tokenEdits (processed controlZ : Bool) (edit : EditLine) : Token → List EditLine
  | .ignoredSequence => [edit]
  | .textUnits chars => unitEdits processed controlZ chars edit
  | .keyEvent key =>
      if !key.keyDown then [edit]
      else if processed && key.matchesCtrlBreak then [edit]
      else if processed && key.matchesCtrlC then [edit]
      else
        let count := max 1 key.repeatCount.toNat
        let ctrl := key.controlKeyState &&& 0x000c != 0
        match edit.editKey key.virtualKeyCode ctrl count with
        | some (last, _) => edit.keyEdits key.virtualKeyCode ctrl count last
        | none =>
            if key.unicodeChar = 0 then [edit]
            else unitEdits processed controlZ (List.replicate count key.unicodeChar) edit

variable {processed controlZ : Bool} {edit : EditLine}

theorem unitEdits_normalized (values : List WChar) :
    ∀ after ∈ edit.unitEdits processed controlZ values, after.Normalized := by
  induction values generalizing edit with
  | nil =>
      intro _ member
      cases member
  | cons value later ih =>
      have first := handleSingleUnit_normalized processed controlZ edit value
      intro after member
      simp only [unitEdits] at member
      rcases List.mem_cons.mp member with rfl | member
      · exact first
      · split at member
        · exact ih after member
        · cases member

theorem repeatEdits_normalized {step : EditLine → Option Edit}
    (keeps : ∀ edit next, step edit = some next → next.1.Normalized) (count : Nat) :
    ∀ after ∈ repeatEdits step count edit, after.Normalized := by
  induction count generalizing edit with
  | zero =>
      intro _ member
      cases member
  | succ count ih =>
      intro after member
      simp only [repeatEdits] at member
      split at member
      · cases member
      · rename_i next echoes stepped
        rcases List.mem_cons.mp member with rfl | member
        · exact keeps edit _ stepped
        · exact ih after member

theorem keyEdits_normalized {virtualKey : UInt16} {ctrl : Bool} {count : Nat} {last : EditLine}
    (normalized : last.Normalized) :
    ∀ after ∈ edit.keyEdits virtualKey ctrl count last, after.Normalized := by
  unfold keyEdits
  split
  · exact repeatEdits_normalized (fun _ _ stepped => step_normalized stepped) count
  · split
    · exact repeatEdits_normalized (fun _ _ stepped => step_normalized stepped) count
    · split
      · exact repeatEdits_normalized (fun _ _ stepped => step_normalized stepped) count
      · exact List.forall_mem_singleton.mpr normalized

/-- Within a token the cursor is well placed after every unit and every key. -/
theorem Normalized.tokenEdits (normalized : edit.Normalized) (token : Token) :
    ∀ after ∈ edit.tokenEdits processed controlZ token, after.Normalized := by
  have same : ∀ after ∈ [edit], after.Normalized := List.forall_mem_singleton.mpr normalized
  cases token with
  | ignoredSequence => exact same
  | textUnits chars => exact unitEdits_normalized chars
  | keyEvent key =>
      simp only [EditLine.tokenEdits]
      split
      · exact same
      split
      · exact same
      split
      · exact same
      split
      · rename_i last echoes edited
        exact keyEdits_normalized (editKey_normalized normalized edited)
      · split
        · exact same
        · exact unitEdits_normalized _

theorem getLast?_unitEdits (values : List WChar) :
    ((edit.unitEdits processed controlZ values).getLast?).getD edit =
      (edit.handleUnits processed controlZ values).edit := by
  induction values generalizing edit with
  | nil => rfl
  | cons value later ih =>
      simp only [unitEdits, handleUnits, List.getLast?_cons, Option.getD_some]
      cases (edit.handleSingleUnit processed controlZ value).outcome with
      | proceed => exact ih
      | endOfFile | ctrlC | ctrlBreak | newline => rfl

theorem getLast?_repeatEdits (step : EditLine → Option Edit) (count : Nat) :
    ((repeatEdits step count edit).getLast?).getD edit = (repeatEdit step count edit).1 := by
  induction count generalizing edit with
  | zero => rfl
  | succ count ih =>
      simp only [repeatEdits, repeatEdit]
      cases step edit with
      | none => rfl
      | some stepped =>
          simp only [List.getLast?_cons, Option.getD_some]
          exact ih

theorem getLast?_keyEdits {virtualKey : UInt16} {ctrl : Bool} {count : Nat} {edited : Edit}
    (applies : edit.editKey virtualKey ctrl count = some edited) :
    ((edit.keyEdits virtualKey ctrl count edited.1).getLast?).getD edit = edited.1 := by
  unfold keyEdits
  by_cases isLeft : virtualKey = VtInput.vkLeft
  · subst isLeft
    cases applies
    rw [if_pos rfl]
    exact getLast?_repeatEdits _ count
  by_cases isRight : virtualKey = VtInput.vkRight
  · subst isRight
    cases applies
    rw [if_neg (by decide), if_pos rfl]
    exact getLast?_repeatEdits _ count
  by_cases isDelete : virtualKey = VtInput.vkDelete
  · subst isDelete
    cases applies
    rw [if_neg (by decide), if_neg (by decide), if_pos rfl]
    exact getLast?_repeatEdits _ count
  rw [if_neg isLeft, if_neg isRight, if_neg isDelete]
  rfl

end EditLine

namespace Cooked

open EditLine (Normalized)

variable (platform : Platform)

/-- The line after every unit or key that an iteration of the loop processes -/
def passEdits (call : CookedCall) (state : CookedState) : List EditLine :=
  if state.read.exhausted then []
  else
    match platform.decodeOneInputToken call.codePage state.read.peekHead with
    | .needMore => []
    | .token token _ =>
        (editLine state.read.handle).tokenEdits call.mode.processedInput call.processControlZ token

/-- The line after every unit, every key and every iteration of the loop -/
def loopEdits (device : Device) (call : CookedCall) : (fuel : Nat) → CookedState → List EditLine
  | 0, _ => []
  | fuel + 1, state =>
      passEdits platform call state ++
        match body platform device call state with
        | .next next => editLine next.read.handle :: loopEdits device call fuel next
        | .leave (final, _) => [editLine final.read.handle]

/-- What happens to a handle: a dispatch of a line-input read that goes through its loop at most
`fuel` times, or any other request -/
inductive HandleEvent where
  | read (device : Device) (call : CookedCall) (fuel : Nat)
  | other (request : CookedState → CookedState)

/-- The line from the start of a read on, after everything it processes -/
def HandleEvent.edits (state : CookedState) : HandleEvent → List EditLine
  | .read device call fuel =>
      if call.capacity = 0 then []
      else if state.read.handle.cookedReadPending ≠ [] then [editLine (start state).read.handle]
      else editLine (start state).read.handle :: loopEdits platform device call fuel (start state)
  | .other _ => []

/-- The state after an event, if a read is answered or waits -/
def HandleEvent.after (state : CookedState) : HandleEvent → Option CookedState
  | .read device call fuel => (readConsole platform device call fuel state).map (·.1)
  | .other request => some (request state)

/-- The line after everything the reads among the events process -/
def visitedEdits : List HandleEvent → CookedState → List EditLine
  | [], _ => []
  | event :: later, state =>
      event.edits platform state ++
        match event.after platform state with
        | some next => visitedEdits later next
        | none => []

variable {platform} {device : Device} {call : CookedCall} {state : CookedState}

theorem start_normalized (state : CookedState) :
    (editLine (start state).read.handle).Normalized :=
  EditLine.normalizeCursor_normalized _

theorem empty_normalized (insertMode : Bool) : (⟨[], 0, insertMode⟩ : EditLine).Normalized :=
  EditLine.normalized_atEnd [] insertMode

theorem idle_normalized (normalized : (editLine state.read.handle).Normalized) :
    (editLine (idle state).1.read.handle).Normalized := by
  unfold idle
  split
  · exact empty_normalized _
  · exact normalized

/-- What follows the edits of a token keeps the line or empties it. -/
theorem conclude_normalized (normalized : (editLine state.read.handle).Normalized)
    (outcome : EditLine.Outcome) :
    (conclude platform device call state outcome).Meets
      (fun next => (editLine next.read.handle).Normalized)
      (fun result => (editLine result.1.read.handle).Normalized) := by
  cases outcome with
  | proceed | endOfFile | ctrlC => exact normalized
  | ctrlBreak => exact empty_normalized _
  | newline carriageReturn =>
      let skipped : CookedState :=
        if carriageReturn then { state with read := skipLf platform call state.read } else state
      have kept : editLine skipped.read.handle = editLine state.read.handle := by
        cases carriageReturn with
        | true => exact (kept_skipLf platform call state.read).2.2
        | false => rfl
      have handle := echoText_handle platform device call (newlineSuffix call) skipped
      simp only [conclude]
      split
      · rename_i final fault echoed
        change echoText platform device call (newlineSuffix call) skipped = _ at echoed
        rw [echoed] at handle
        change (editLine final.read.handle).Normalized
        rwa [handle, kept]
      · exact empty_normalized _

/-- An iteration keeps the cursor well placed, whether it goes on or leaves the loop. -/
theorem body_normalized (normalized : (editLine state.read.handle).Normalized) :
    (body platform device call state).Meets
      (fun next => (editLine next.read.handle).Normalized)
      (fun result => (editLine result.1.read.handle).Normalized) := by
  simp only [body]
  split
  · exact idle_normalized normalized
  · split
    · refine idle_normalized ?_
      change (editLine (state.read.drain _).handle).Normalized
      rwa [(editLine_drain state.read _).1]
    · rename_i token length decoded
      have edited := normalized.handleToken call.mode.processedInput call.processControlZ token
      have handle := echoTexts_handle platform device call
        ((editLine state.read.handle).handleToken call.mode.processedInput
          call.processControlZ token).echoes
        (setEdit { state with read := state.read.consume length }
          ((editLine state.read.handle).handleToken call.mode.processedInput
            call.processControlZ token).edit)
      have shown {next : CookedState} {result : Except Fault Unit}
          (echoed : echoTexts platform device call
            ((editLine state.read.handle).handleToken call.mode.processedInput
              call.processControlZ token).echoes
            (setEdit { state with read := state.read.consume length }
              ((editLine state.read.handle).handleToken call.mode.processedInput
                call.processControlZ token).edit) = (next, result)) :
          (editLine next.read.handle).Normalized := by
        rw [echoed] at handle
        rw [handle]
        exact edited
      simp only [handleToken]
      split
      · rename_i final fault echoed
        exact shown echoed
      · rename_i final echoed
        exact conclude_normalized (shown echoed) _

theorem passEdits_normalized (normalized : (editLine state.read.handle).Normalized) :
    ∀ edit ∈ passEdits platform call state, edit.Normalized := by
  unfold passEdits
  split
  · intro _ member
    cases member
  · split
    · intro _ member
      cases member
    · exact normalized.tokenEdits _

theorem loopEdits_normalized (fuel : Nat) (normalized : (editLine state.read.handle).Normalized) :
    ∀ edit ∈ loopEdits platform device call fuel state, edit.Normalized := by
  induction fuel generalizing state with
  | zero =>
      intro _ member
      cases member
  | succ fuel ih =>
      have meets : (body platform device call state).Meets _ _ := body_normalized normalized
      intro edit member
      rw [loopEdits] at member
      rcases List.mem_append.mp member with member | member
      · exact passEdits_normalized normalized edit member
      · split at member
        · rename_i next pass
          rw [pass] at meets
          rcases List.mem_cons.mp member with rfl | member
          · exact meets
          · exact ih meets edit member
        · rename_i final reply pass
          rw [pass] at meets
          rw [List.mem_singleton.mp member]
          exact meets

theorem HandleEvent.edits_normalized (event : HandleEvent) (state : CookedState) :
    ∀ edit ∈ event.edits platform state, edit.Normalized := by
  have started := start_normalized state
  cases event with
  | other request =>
      intro _ member
      cases member
  | read device call fuel =>
      simp only [HandleEvent.edits]
      split
      · intro _ member
        cases member
      · split
        · exact List.forall_mem_singleton.mpr started
        · intro edit member
          rcases List.mem_cons.mp member with rfl | member
          · exact started
          · exact loopEdits_normalized fuel started edit member

/-- Whatever line-input reads process, and whatever happens to the handle between them, the cursor
is in the line and not inside a surrogate pair. -/
theorem cursor_wellPlaced (platform : Platform) (events : List HandleEvent) (state : CookedState) :
    ∀ edit ∈ visitedEdits platform events state, edit.Normalized := by
  induction events generalizing state with
  | nil =>
      intro _ member
      cases member
  | cons event later ih =>
      intro edit member
      rw [visitedEdits] at member
      rcases List.mem_append.mp member with member | member
      · exact event.edits_normalized state edit member
      · split at member
        · exact ih _ edit member
        · cases member

/-- A handle with `a` typed, the cursor behind it and nothing left to read -/
def typedState : CookedState where
  read.handle := { kind := .input, cookedLineInProgress := [0x61], cookedLineCursor := 1 }

/-- A request empties the line and leaves the cursor, and a read follows. -/
def emptiedThenRead : List HandleEvent :=
  [.other fun state => setHandle state fun handle => { handle with cookedLineInProgress := [] },
    .read ⟨fun _ _ => false⟩ { capacity := 8 } 1]

theorem cursor_wellPlaced_emptied :
    ⟨[], 0, true⟩ ∈ visitedEdits .utf8 emptiedThenRead typedState ∧
      (⟨[], 0, true⟩ : EditLine).Normalized := by
  have visited : ⟨[], 0, true⟩ ∈ visitedEdits .utf8 emptiedThenRead typedState := by decide
  exact ⟨visited, cursor_wellPlaced .utf8 emptiedThenRead typedState _ visited⟩

end Cooked

end Conhost
