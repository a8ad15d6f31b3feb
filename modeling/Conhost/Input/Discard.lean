import Mathlib.Data.List.Perm.Subperm
import Conhost.Input.Lines
import Conhost.Input.Waiting

/-!
# Lines after an interrupt

The units of a completed line are units of the tokens that were read since the
line was begun, each used once. Ctrl+C ends a line-input read but leaves the
line in the handle, so the next line begins with what was typed before.
-/

namespace Conhost

open Relation (ReflTransGen)

/-- The units a token types. -/
def Token.typed : Token → List WChar
  | .ignoredSequence => []
  | .textUnits chars => chars
  | .keyEvent key =>
      if key.keyDown then List.replicate (max 1 key.repeatCount.toNat) key.unicodeChar else []

namespace EditLine

variable {edit : EditLine}

@[simp]
theorem line_normalizeCursor (edit : EditLine) : edit.normalizeCursor.line = edit.line := by
  simp only [normalizeCursor]
  split <;> rfl

theorem erase_sublist (edit : EditLine) (start count : Nat) :
    (edit.erase start count).line.Sublist edit.line := by
  have whole := List.take_append_drop start edit.line
  have tail : (edit.line.drop (start + count)).Sublist (edit.line.drop start) := by
    rw [← List.drop_drop]
    exact List.drop_sublist _ _
  have kept := (List.Sublist.refl (edit.line.take start)).append tail
  rwa [whole] at kept

theorem repeatEdit_sublist {step : EditLine → Option Edit}
    (shrinks : ∀ {edit next}, step edit = some next → next.1.line.Sublist edit.line) (count : Nat)
    (edit : EditLine) : (repeatEdit step count edit).1.line.Sublist edit.line := by
  induction count generalizing edit with
  | zero => exact .refl _
  | succ count hypothesis =>
      simp only [repeatEdit]
      split
      · exact .refl _
      · rename_i next echoes stepped
        exact (hypothesis next).trans (shrinks stepped)

theorem leftStep_sublist {ctrl : Bool} {next : Edit} (stepped : leftStep ctrl edit = some next) :
    next.1.line.Sublist edit.line := by
  simp only [leftStep] at stepped
  split at stepped
  · cases stepped
  · cases stepped
    simp [moveTo]

theorem rightStep_sublist {ctrl : Bool} {next : Edit} (stepped : rightStep ctrl edit = some next) :
    next.1.line.Sublist edit.line := by
  simp only [rightStep] at stepped
  split at stepped
  · cases stepped
  · cases stepped
    simp [moveTo]

theorem deleteStep_sublist {next : Edit} (stepped : deleteStep edit = some next) :
    next.1.line.Sublist edit.line := by
  simp only [deleteStep] at stepped
  split at stepped
  · cases stepped
  · cases stepped
    simpa using edit.erase_sublist _ _

/-- No editing key adds to the line. -/
theorem editKey_sublist {virtualKey : UInt16} {ctrl : Bool} {count : Nat} {next : Edit}
    (edited : edit.editKey virtualKey ctrl count = some next) :
    next.1.line.Sublist edit.line := by
  simp only [editKey] at edited
  split at edited
  · cases edited
    split <;> exact .refl _
  · split at edited
    · cases edited
      simp only [escapeKey]
      split
      · exact .refl _
      · simp
    · split at edited
      · cases edited
        simp only [homeKey]
        split
        · exact .refl _
        · split
          · simpa [moveTo] using edit.erase_sublist 0 edit.cursor
          · simp [moveTo]
      · split at edited
        · cases edited
          simp only [endKey]
          split
          · exact .refl _
          · split
            · simpa using edit.erase_sublist _ _
            · simp [moveTo]
        · split at edited
          · cases edited
            exact repeatEdit_sublist leftStep_sublist _ _
          · split at edited
            · cases edited
              exact repeatEdit_sublist rightStep_sublist _ _
            · split at edited
              · cases edited
                exact repeatEdit_sublist deleteStep_sublist _ _
              · cases edited

theorem insertUnit_subperm (edit : EditLine) (value : WChar) :
    (edit.insertUnit value).edit.line.Subperm (edit.line ++ [value]) := by
  simp only [insertUnit, line_normalizeCursor]
  generalize (if !edit.insertMode && edit.cursor < edit.line.length then
    edit.nextIndex edit.cursor - edit.cursor else 0) = removed
  have kept : (edit.line.take edit.cursor ++ edit.line.drop (edit.cursor + removed)).Subperm
      edit.line :=
    (edit.erase_sublist edit.cursor removed).subperm
  have moved : (edit.line.take edit.cursor ++ value :: edit.line.drop (edit.cursor + removed)).Perm
      (edit.line.take edit.cursor ++ edit.line.drop (edit.cursor + removed) ++ [value]) :=
    List.perm_middle.trans (List.perm_append_singleton _ _).symm
  exact moved.subperm.trans ((List.subperm_append_right _).mpr kept)

theorem handleSingleUnit_subperm (processed controlZ : Bool) (edit : EditLine) (value : WChar) :
    (edit.handleSingleUnit processed controlZ value).edit.line.Subperm (edit.line ++ [value]) := by
  have more : edit.line.Subperm (edit.line ++ [value]) := (List.sublist_append_left _ _).subperm
  simp only [handleSingleUnit]
  split
  · simpa using more
  · split
    · simpa using more
    · split
      · simp only [backspace]
        split
        · simpa using more
        · have erased := edit.normalizeCursor.erase_sublist
            (edit.normalizeCursor.prevIndex edit.normalizeCursor.cursor)
            (edit.normalizeCursor.cursor -
              edit.normalizeCursor.prevIndex edit.normalizeCursor.cursor)
          rw [line_normalizeCursor edit] at erased
          simp only [line_normalizeCursor, moveTo]
          exact erased.subperm.trans more
      · split
        · simpa [moveTo] using more
        · simpa using edit.normalizeCursor.insertUnit_subperm value

theorem handleUnits_subperm (processed controlZ : Bool) (values : List WChar) (edit : EditLine) :
    (edit.handleUnits processed controlZ values).edit.line.Subperm (edit.line ++ values) := by
  induction values generalizing edit with
  | nil => simpa [handleUnits] using List.Subperm.refl edit.line
  | cons value later hypothesis =>
      have first := edit.handleSingleUnit_subperm processed controlZ value
      have whole : edit.line ++ value :: later = edit.line ++ [value] ++ later := by simp
      rw [whole]
      simp only [handleUnits]
      split
      · exact (hypothesis _).trans ((List.subperm_append_right later).mpr first)
      · exact first.trans (List.sublist_append_left _ _).subperm

/-- A token adds to the line nothing but what it types. -/
theorem handleToken_subperm (processed controlZ : Bool) (edit : EditLine) (token : Token) :
    (edit.handleToken processed controlZ token).edit.line.Subperm (edit.line ++ token.typed) := by
  have kept (typed : List WChar) : edit.line.Subperm (edit.line ++ typed) :=
    (List.sublist_append_left _ _).subperm
  cases token with
  | ignoredSequence => exact kept _
  | textUnits chars => exact handleUnits_subperm _ _ chars edit
  | keyEvent key =>
      simp only [handleToken]
      split
      · exact kept _
      · rename_i down
        split
        · exact kept _
        · split
          · exact kept _
          · split
            · rename_i next echoes edited
              exact (editKey_sublist edited).subperm.trans (kept _)
            · split
              · exact kept _
              · have typed : (Token.keyEvent key).typed =
                    List.replicate (max 1 key.repeatCount.toNat) key.unicodeChar := by
                  simp only [Bool.not_eq_true', Bool.not_eq_false] at down
                  simp [Token.typed, down]
                rw [typed]
                exact handleUnits_subperm _ _ _ edit

end EditLine

namespace Cooked

variable (platform : Platform) (device : Device)

abbrev lineOf (state : CookedState) : List WChar := state.read.handle.cookedLineInProgress

/-- The units of the token a pass reads. -/
def passUnits (call : CookedCall) (state : CookedState) : List WChar :=
  match platform.decodeOneInputToken call.codePage state.read.peekHead with
  | .needMore => []
  | .token token _ => token.typed

/-- The units of the tokens the loop of a dispatch reads. -/
def loopUnits (call : CookedCall) : (fuel : Nat) → CookedState → List WChar
  | 0, _ => []
  | fuel + 1, state =>
      passUnits platform call state ++
        match body platform device call state with
        | .leave _ => []
        | .next next => loopUnits call fuel next

/-- The units of the tokens a dispatch reads. -/
def readUnits (call : CookedCall) (fuel : Nat) (state : CookedState) : List WChar :=
  if call.capacity = 0 ∨ state.read.handle.cookedReadPending ≠ [] then []
  else loopUnits platform device call fuel (start state)

/-- The next line that is completed on a handle, however the input goes on and whatever line-input
reads are dispatched, with the units that are read from now on. -/
inductive NextLine : CookedState → (typed line : List WChar) → Prop where
  | arrive {state : CookedState} {typed line : List WChar} (bytes : List Byte)
      (later : NextLine (arrive state bytes) typed line) : NextLine state typed line
  | reads {state final : CookedState} {call : CookedCall} {fuel : Nat} {reply : ReadReply Byte}
      {typed line : List WChar}
      (read : readConsole platform device call fuel { state with completed := none } =
        some (final, .ok reply))
      (unfinished : final.completed = none) (later : NextLine final typed line) :
      NextLine state (readUnits platform device call fuel state ++ typed) line
  | completes {state final : CookedState} {call : CookedCall} {fuel : Nat} {reply : ReadReply Byte}
      {line : List WChar}
      (read : readConsole platform device call fuel { state with completed := none } =
        some (final, .ok reply))
      (finished : final.completed = some line) :
      NextLine state (readUnits platform device call fuel state) line

variable {platform device} {call : CookedCall} {state : CookedState}

theorem echoText_completed (platform : Platform) (device : Device) (call : CookedCall)
    (text : List WChar) (state : CookedState) :
    (echoText platform device call text state).1.completed = state.completed := by
  have shown : (showText call text state).completed = state.completed := by
    simp only [showText]
    split <;> rfl
  simp only [echoText]
  split
  · rfl
  · split
    · exact shown
    · split <;> exact shown

theorem echoTexts_completed (platform : Platform) (device : Device) (call : CookedCall)
    (texts : List (List WChar)) (state : CookedState) :
    (echoTexts platform device call texts state).1.completed = state.completed := by
  induction texts generalizing state with
  | nil => rfl
  | cons text later hypothesis =>
      have first := echoText_completed platform device call text state
      simp only [echoTexts]
      split
      · rename_i next echoed
        rw [echoed] at first
        rw [hypothesis, first]
      · exact first

/-- The line after a pass, in progress or completed, is made of units of `source`. -/
def Supplied (completed : Option (List WChar)) (source : List WChar) (state : CookedState) : Prop :=
  (state.completed = completed ∧ (lineOf state).Subperm source) ∨
    ∃ line, state.completed = some line ∧ line.Subperm source

theorem idle_supplied {source : List WChar} (within : (lineOf state).Subperm source) :
    Supplied state.completed source (idle state).1 := by
  simp only [idle]
  split
  · exact .inl ⟨rfl, List.nil_subperm⟩
  · exact .inl ⟨rfl, within⟩

theorem lineOf_skipLf (platform : Platform) (call : CookedCall) (state : CookedState)
    (carriageReturn : Bool) :
    lineOf (if carriageReturn then { state with read := skipLf platform call state.read }
      else state) = lineOf state := by
  split
  · simp only [lineOf, skipLf]
    split
    · rfl
    · split <;> rfl
  · rfl

theorem conclude_supplied (platform : Platform) (device : Device) (call : CookedCall)
    {source : List WChar} (outcome : EditLine.Outcome) (within : (lineOf state).Subperm source) :
    (conclude platform device call state outcome).Meets
      (fun next => next.completed = state.completed ∧ (lineOf next).Subperm source)
      (fun result => ∀ reply, result.2 = .ok reply →
        Supplied state.completed source result.1) := by
  cases outcome with
  | proceed => exact ⟨rfl, within⟩
  | endOfFile => exact fun _ _ => .inl ⟨rfl, within⟩
  | ctrlC => exact fun _ _ => .inl ⟨rfl, within⟩
  | ctrlBreak => exact fun _ _ => .inl ⟨rfl, List.nil_subperm⟩
  | newline carriageReturn =>
      simp only [conclude]
      have same := lineOf_skipLf platform call state carriageReturn
      generalize (if carriageReturn then
        { state with read := skipLf platform call state.read } else state) = ended at same
      have echoed := echoText_handle platform device call (newlineSuffix call) ended
      split
      · intro reply failed
        cases failed
      · rename_i shown found
        rw [found] at echoed
        intro reply _
        refine .inr ⟨_, rfl, ?_⟩
        rw [echoed]
        change (lineOf ended).Subperm source
        rwa [same]

/-- A pass adds to the line nothing but what its token types. -/
theorem body_supplied (platform : Platform) (device : Device) (call : CookedCall)
    (state : CookedState) :
    (body platform device call state).Meets
      (fun next => next.completed = state.completed ∧
        (lineOf next).Subperm (lineOf state ++ passUnits platform call state))
      (fun result => ∀ reply, result.2 = .ok reply →
        Supplied state.completed (lineOf state ++ passUnits platform call state) result.1) := by
  have kept (units : List WChar) : (lineOf state).Subperm (lineOf state ++ units) :=
    (List.sublist_append_left _ _).subperm
  simp only [body]
  split
  · intro _ _
    exact idle_supplied (kept _)
  · split
    · intro _ _
      refine idle_supplied ?_
      simp only [lineOf, ReadState.drain]
      split <;> exact kept _
    · rename_i token length decoded
      have units : passUnits platform call state = token.typed := by
        simp only [passUnits, decoded]
      rw [units]
      simp only [handleToken]
      have edited := (editLine state.read.handle).handleToken_subperm
        call.mode.processedInput call.processControlZ token
      change (EditLine.handleToken call.mode.processedInput call.processControlZ
        (editLine (state.read.consume length).handle) token).edit.line.Subperm
          (lineOf state ++ token.typed) at edited
      generalize EditLine.handleToken call.mode.processedInput call.processControlZ
        (editLine (state.read.consume length).handle) token = effect at edited
      have handle := echoTexts_handle platform device call effect.echoes
        (setEdit { state with read := state.read.consume length } effect.edit)
      have completed := echoTexts_completed platform device call effect.echoes
        (setEdit { state with read := state.read.consume length } effect.edit)
      split
      · intro reply failed
        cases failed
      · rename_i shown found
        rw [found] at handle completed
        have within : (lineOf shown).Subperm (lineOf state ++ token.typed) := by
          rw [lineOf, handle]
          exact edited
        have concluded := conclude_supplied platform device call effect.outcome within
        rw [show shown.completed = state.completed from completed] at concluded
        exact concluded

theorem iterate_supplied {fuel : Nat} {final : CookedState} {reply : ReadReply Byte}
    (result : iterate (body platform device call) fuel state = some (final, .ok reply)) :
    Supplied state.completed (lineOf state ++ loopUnits platform device call fuel state) final := by
  induction fuel generalizing state with
  | zero => cases result
  | succ fuel hypothesis =>
      have supplied := body_supplied platform device call state
      rw [iterate] at result
      rw [loopUnits]
      split at result
      · rename_i left pass
        cases result
        rw [pass] at supplied
        simpa [pass] using supplied reply rfl
      · rename_i next pass
        rw [pass] at supplied
        rcases supplied with ⟨completed, within⟩
        have later := hypothesis result
        rw [completed] at later
        have more : (lineOf next ++ loopUnits platform device call fuel next).Subperm
            (lineOf state ++ (passUnits platform call state ++
              loopUnits platform device call fuel next)) := by
          rw [← List.append_assoc]
          exact (List.subperm_append_right _).mpr within
        simp only [pass]
        rcases later with ⟨same, line⟩ | ⟨line, finished, made⟩
        · exact .inl ⟨same, line.trans more⟩
        · exact .inr ⟨line, finished, made.trans more⟩

theorem readConsole_supplied {fuel : Nat} {final : CookedState} {reply : ReadReply Byte}
    (read : readConsole platform device call fuel { state with completed := none } =
      some (final, .ok reply)) :
    Supplied none (lineOf state ++ readUnits platform device call fuel state) final := by
  have kept (units : List WChar) : (lineOf state).Subperm (lineOf state ++ units) :=
    (List.sublist_append_left _ _).subperm
  by_cases room : call.capacity = 0
  · rw [readConsole, if_pos room] at read
    cases read
    exact .inl ⟨rfl, kept _⟩
  · by_cases empty : state.read.handle.cookedReadPending = []
    · have began : lineOf (start state) = lineOf state := EditLine.line_normalizeCursor _
      rw [readConsole_iterate room (by exact empty)] at read
      have supplied := iterate_supplied read
      change Supplied none (lineOf (start state) ++
        loopUnits platform device call fuel (start state)) final at supplied
      rw [began] at supplied
      rwa [readUnits, if_neg (by simp [room, empty])]
    · rw [readConsole_deliver room (by exact empty)] at read
      cases read
      refine .inl ⟨rfl, ?_⟩
      have began : lineOf (start state) = lineOf state := EditLine.line_normalizeCursor _
      change (lineOf (start state)).Subperm _
      rw [began]
      exact kept _

/-- The next line is made of the line in progress and of units that are read from now on. -/
theorem NextLine.subperm {typed line : List WChar}
    (next : NextLine platform device state typed line) :
    line.Subperm (lineOf state ++ typed) := by
  induction next with
  | arrive bytes _ hypothesis => exact hypothesis
  | @reads state final call fuel reply typed line read unfinished _ hypothesis =>
      rcases readConsole_supplied read with ⟨-, within⟩ | ⟨other, finished, -⟩
      · rw [← List.append_assoc]
        exact hypothesis.trans ((List.subperm_append_right typed).mpr within)
      · rw [unfinished] at finished
        cases finished
  | completes read finished =>
      rcases readConsole_supplied read with ⟨unfinished, -⟩ | ⟨other, finished', made⟩
      · rw [finished] at unfinished
        cases unfinished
      · cases finished.symm.trans finished'
        exact made

/-- The token `token`, read in the state `last`, ends a line-input read as Ctrl+C. -/
structure InterruptedBy (platform : Platform) (device : Device) (call : CookedCall)
    (state last : CookedState) (token : Token) : Prop where
  room : call.capacity ≠ 0
  empty : state.read.handle.cookedReadPending = []
  path : ReflTransGen (Continues (body platform device call)) (start state) last
  decoded : ∃ length, platform.decodeOneInputToken call.codePage last.read.peekHead =
    .token token length
  ctrlC : (effect call (editLine last.read.handle) token).outcome = .ctrlC

/-- The state with other input still to be read. -/
def withUnread (state : CookedState) (bytes : PendingInputBytes) (queue : List Byte) :
    CookedState :=
  { state with read := (state.read.setPrefix bytes).setQueue queue }

theorem path_pending {last : CookedState}
    (path : ReflTransGen (Continues (body platform device call)) state last) :
    last.read.handle.cookedReadPending = state.read.handle.cookedReadPending := by
  induction path with
  | refl => rfl
  | tail _ pass hypothesis => exact (body_pending pass).1.trans hypothesis

theorem InterruptedBy.after {last after : CookedState} {token : Token} {fuel : Nat}
    {reply : ReadReply Byte} (interrupted : InterruptedBy platform device call state last token)
    (read : readConsole platform device call fuel state = some (after, .ok reply)) :
    lineOf after = (effect call (editLine last.read.handle) token).edit.line ∧
      after.read.handle.cookedReadPending = [] := by
  rcases interrupted with ⟨room, empty, path, ⟨length, decoded⟩, ctrlC⟩
  have pending : last.read.handle.cookedReadPending = [] := (path_pending path).trans empty
  have unread := ReadState.exhausted_eq_false_of_token decoded
  rw [readConsole_iterate room empty] at read
  have pass : body platform device call last =
      handleToken platform device call { last with read := last.read.consume length } token := by
    simp only [body, unread, decoded]
    rfl
  have same : editLine (last.read.consume length).handle = editLine last.read.handle := rfl
  simp only [handleToken, same] at pass
  have handle := echoTexts_handle platform device call
    (effect call (editLine last.read.handle) token).echoes
    (setEdit { last with read := last.read.consume length }
      (effect call (editLine last.read.handle) token).edit)
  split at pass
  · cases iterate_of_path path pass read
  · rename_i shown echoed
    rw [echoed] at handle
    rw [ctrlC] at pass
    cases iterate_of_path path pass read
    change shown.read.handle.cookedLineInProgress = _ ∧ shown.read.handle.cookedReadPending = []
    rw [handle]
    exact ⟨rfl, pending⟩

theorem conclude_newline_silent (platform : Platform) (device : Device)
    (silent : call.mode.echoInput = false) (state : CookedState) (carriageReturn : Bool) :
    ∃ final reply, conclude platform device call state (.newline carriageReturn) =
      .leave (final, .ok reply) ∧ final.completed = some (lineOf state) := by
  have same := lineOf_skipLf platform call state carriageReturn
  simp only [conclude]
  generalize (if carriageReturn then { state with read := skipLf platform call state.read }
    else state) = ended at same
  have shown : echoText platform device call (newlineSuffix call) ended = (ended, .ok ()) := by
    simp [echoText, silent]
  rw [shown]
  exact ⟨_, _, rfl, congrArg some same⟩

/-- What a key that types a carriage return or a line feed does to the line. -/
theorem handleToken_newline (edit : EditLine) {value : WChar} (newline : value = 13 ∨ value = 10) :
    edit.handleToken false false (.keyEvent { unicodeChar := value }) =
      { edit := edit.normalizeCursor.moveTo edit.normalizeCursor.line.length
        echoes := edit.normalizeCursor.echoRange edit.normalizeCursor.cursor
          edit.normalizeCursor.line.length
        outcome := .newline (value == 13) } := by
  rcases newline with rfl | rfl <;>
    simp [EditLine.handleToken, EditLine.editKey, VtInput.vkInsert, VtInput.vkHome, VtInput.vkEnd,
      VtInput.vkLeft, VtInput.vkRight, VtInput.vkDelete, EditLine.handleUnits,
      EditLine.handleSingleUnit]

/-- Such a key completes the line in progress. -/
theorem nextLine_of_newline (platform : Platform) (device : Device) {value : WChar}
    {bytes : List Byte} (newline : value = 13 ∨ value = 10) (short : bytes.length ≤ 64)
    (decoded : VtInput.tryDecodeVt bytes =
      .produced (.keyEvent { unicodeChar := value }) bytes.length)
    (empty : state.read.handle.cookedReadPending = []) :
    NextLine platform device (withUnread state .clear bytes) [value] (lineOf state) := by
  let call : CookedCall := { capacity := 1 }
  let resumed := start (withUnread state .clear bytes)
  have head : resumed.read.peekHead = bytes := by
    rw [peekHead_start]
    exact List.take_of_length_le short
  have token : platform.decodeOneInputToken call.codePage resumed.read.peekHead =
      .token (.keyEvent { unicodeChar := value }) bytes.length := by
    rw [head]
    simp only [Platform.decodeOneInputToken, decoded]
  have unread := ReadState.exhausted_eq_false_of_token token
  have effected := handleToken_newline (editLine resumed.read.handle) newline
  have line : (editLine resumed.read.handle).normalizeCursor.line = lineOf state := by
    rw [EditLine.line_normalizeCursor]
    exact EditLine.line_normalizeCursor _
  have pass : ∃ final reply, body platform device call resumed = .leave (final, .ok reply) ∧
      final.completed = some (lineOf state) := by
    have silent : call.mode.echoInput = false := by decide
    have same : editLine (resumed.read.consume bytes.length).handle =
        editLine resumed.read.handle := rfl
    have raw : call.mode.processedInput = false := by decide
    have unchecked : call.processControlZ = false := rfl
    simp only [body, unread, token, handleToken, same, raw, unchecked, effected,
      echoTexts_quiet silent, Bool.false_eq_true, if_false]
    rw [← line]
    exact conclude_newline_silent platform device silent _ _
  rcases pass with ⟨final, reply, pass, finished⟩
  have read : readConsole platform device call 1
      { withUnread state .clear bytes with completed := none } = some (final, .ok reply) := by
    have first : body platform device call
        (start { withUnread state .clear bytes with completed := none }) =
          .leave (final, .ok reply) := pass
    rw [readConsole_iterate Nat.one_ne_zero (by exact empty), iterate, first]
  have units : readUnits platform device call 1 (withUnread state .clear bytes) = [value] := by
    have first : loopUnits platform device call 1 resumed = [value] := by
      simp [loopUnits, passUnits, token, pass, Token.typed]
    have reads : ¬(call.capacity = 0 ∨
        (withUnread state .clear bytes).read.handle.cookedReadPending ≠ []) := by
      rintro (none | waiting)
      · cases none
      · exact waiting empty
    rw [readUnits, if_neg reads]
    exact first
  rw [← units]
  exact .completes read finished

/-- The keys that type a carriage return and a line feed. -/
def returnKeyBytes : List Byte :=
  [0x1b, bc '[', bc '0', bc ';', bc '0', bc ';', bc '1', bc '3', bc ';', bc '1', bc ';', bc '0',
    bc ';', bc '1', bc '_']

def lineFeedKeyBytes : List Byte :=
  [0x1b, bc '[', bc '0', bc ';', bc '0', bc ';', bc '1', bc '0', bc ';', bc '1', bc ';', bc '0',
    bc ';', bc '1', bc '_']

theorem tryDecodeVt_returnKey : VtInput.tryDecodeVt returnKeyBytes =
    .produced (.keyEvent { unicodeChar := 13 }) returnKeyBytes.length := by decide +kernel

theorem tryDecodeVt_lineFeedKey : VtInput.tryDecodeVt lineFeedKeyBytes =
    .produced (.keyEvent { unicodeChar := 10 }) lineFeedKeyBytes.length := by decide +kernel

/-- After a Ctrl+C the next line, whatever input is still to come, has only units that are read
from then on exactly if the Ctrl+C found no line in progress. -/
theorem readConsole_discards_iff (platform : Platform) (device : Device) (call : CookedCall)
    (state last after : CookedState) (token : Token) (fuel : Nat)
    (interrupted : InterruptedBy platform device call state last token)
    (read : readConsole platform device call fuel state =
      some (after, .ok (.complete .alerted []))) :
    (∀ bytes queue typed line, NextLine platform device (withUnread after bytes queue) typed line →
        line.Subperm typed) ↔
      (effect call (editLine last.read.handle) token).edit.line = [] := by
  rcases interrupted.after read with ⟨line, empty⟩
  rw [← line]
  constructor
  · intro discards
    have first := discards _ _ _ _
      (nextLine_of_newline platform device (.inl rfl) (by decide) tryDecodeVt_returnKey empty)
    have second := discards _ _ _ _
      (nextLine_of_newline platform device (.inr rfl) (by decide) tryDecodeVt_lineFeedKey empty)
    rw [List.eq_nil_iff_forall_not_mem]
    intro unit member
    have carriage := List.mem_singleton.mp (first.subset member)
    have feed := List.mem_singleton.mp (second.subset member)
    rw [carriage] at feed
    cases feed
  · intro discarded bytes queue typed line next
    have made := next.subperm
    change line.Subperm (lineOf after ++ typed) at made
    rwa [discarded] at made

/-- The byte 03 at the head of the stream ends a line-input read in processed mode. -/
theorem readConsole_ctrlC (platform : Platform) (device : Device) (call : CookedCall)
    (state : CookedState) (length : Nat) (processed : call.mode.processedInput = true)
    (room : call.capacity ≠ 0) (empty : state.read.handle.cookedReadPending = [])
    (decoded : platform.decodeOneInputToken call.codePage (start state).read.peekHead =
      .token (.textUnits [3]) length) :
    InterruptedBy platform device call state (start state) (.textUnits [3]) ∧
      ∃ after, readConsole platform device call 1 state =
        some (after, .ok (.complete .alerted [])) := by
  have effected (edit : EditLine) : effect call edit (.textUnits [3]) =
      { edit := edit.normalizeCursor, outcome := .ctrlC } := by
    simp [effect, EditLine.handleToken, EditLine.handleUnits, EditLine.handleSingleUnit, processed]
  refine ⟨⟨room, empty, .refl, ⟨length, decoded⟩, by rw [effected]⟩, ?_⟩
  have unread := ReadState.exhausted_eq_false_of_token decoded
  have pass : ∃ after, body platform device call (start state) =
      .leave (after, .ok (.complete .alerted [])) := by
    simp only [body, unread, decoded, handleToken, effected]
    exact ⟨_, rfl⟩
  rcases pass with ⟨after, pass⟩
  exact ⟨after, by rw [readConsole_iterate room empty, iterate, pass]⟩

/-- A line-input read in processed mode that finds a Ctrl+C behind a line in progress. -/
def ctrlCState (line : List WChar) : CookedState :=
  { read :=
      { handle := { cookedLineInProgress := line, cookedLineCursor := line.length }
        host := { inputQueue := [3] } } }

theorem readConsole_discards_iff_emptyLine :
    let call : CookedCall := { capacity := 16, mode := ⟨3⟩ }
    let device : Device := ⟨fun _ _ => false⟩
    InterruptedBy .utf8 device call (ctrlCState []) (start (ctrlCState [])) (.textUnits [3]) ∧
      ∃ after, readConsole .utf8 device call 1 (ctrlCState []) =
          some (after, .ok (.complete .alerted [])) ∧
        ∀ bytes queue typed line,
          NextLine .utf8 device (withUnread after bytes queue) typed line → line.Subperm typed := by
  intro call device
  rcases readConsole_ctrlC .utf8 device call (ctrlCState []) 1 (by decide) (by decide) rfl
    (by decide) with ⟨interrupted, after, read⟩
  exact ⟨interrupted, after, read,
    (readConsole_discards_iff .utf8 device call _ _ _ _ 1 interrupted read).mpr (by decide)⟩

/-- After `ab` and Ctrl+C the next carriage return completes the line `ab`. -/
theorem readConsole_keeps_line :
    let call : CookedCall := { capacity := 16, mode := ⟨3⟩ }
    let device : Device := ⟨fun _ _ => false⟩
    let typed : CookedState := ctrlCState [wc 'a', wc 'b']
    InterruptedBy .utf8 device call typed (start typed) (.textUnits [3]) ∧
      ∃ after, readConsole .utf8 device call 1 typed =
          some (after, .ok (.complete .alerted [])) ∧
        NextLine .utf8 device (withUnread after .clear returnKeyBytes) [13] [wc 'a', wc 'b'] ∧
        ¬[wc 'a', wc 'b'].Subperm [13] := by
  intro call device typed
  rcases readConsole_ctrlC .utf8 device call typed 1 (by decide) (by decide) rfl
    (by decide) with ⟨interrupted, after, read⟩
  rcases interrupted.after read with ⟨line, empty⟩
  have next := nextLine_of_newline .utf8 device (.inl rfl) (by decide) tryDecodeVt_returnKey empty
  have kept : lineOf after = [wc 'a', wc 'b'] := line.trans (by decide)
  rw [kept] at next
  refine ⟨interrupted, after, read, next, ?_⟩
  intro within
  exact absurd within.length_le (by decide)

end Cooked

end Conhost
