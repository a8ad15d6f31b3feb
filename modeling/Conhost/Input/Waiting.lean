import Conhost.Input.Progress

/-!
# Reads that wait

A read that is left pending has taken the front of an unfinished token into
its handle, or has found nothing at all. Either way it has to wait again if it
is dispatched with the same handle while the queue is empty, whatever has
happened to the queue in the meantime.
-/

namespace Conhost

/-- What only line-input reads, and requests that flush, change in a handle. -/
def ObjectHandle.steady (handle : ObjectHandle) : ObjectKind × Nat × Bool :=
  (handle.kind, handle.cookedLineCursor, handle.cookedInsertMode)

namespace ReadState

variable {state : ReadState}

theorem pendingPrefix_of_exhausted (exhausted : state.exhausted = true) :
    state.pendingPrefix = [] := by
  simp only [ReadState.exhausted, Bool.and_eq_true, List.isEmpty_iff] at exhausted
  exact exhausted.2

theorem exhausted_eq_false_of_token {platform : Platform} {codePage : CodePage} {token : Token}
    {length : Nat}
    (decoded : platform.decodeOneInputToken codePage state.peekHead = .token token length) :
    state.exhausted = false := by
  rw [exhausted_eq_false_iff]
  intro empty
  rw [peekHead_eq, empty] at decoded
  cases decoded

@[simp]
theorem steady_drain (state : ReadState) (peeked : Nat) :
    (state.drain peeked).handle.steady = state.handle.steady := by
  simp only [drain]
  split <;> rfl

theorem kind_drain (state : ReadState) (peeked : Nat) :
    (state.drain peeked).handle.kind = state.handle.kind :=
  congrArg Prod.fst (steady_drain state peeked)

end ReadState

variable {platform : Platform}

namespace ByteRead

variable {call : ReadCall} {controlZ : Bool} {state : ReadState} {loop : LoopState}
  {value : ReadState × ReadReply Byte}

/-- The handle of a byte read that waits. -/
def Parked (capacity : Nat) (state : ReadState) : Prop :=
  state.pendingPrefix = [] ∨
    (0 < capacity ∧ headOutcome state.pendingPrefix = .needMoreData)

theorem finish_parked {capacity : Nat} (pends : (finish loop).2 = .pending) :
    Parked capacity (finish loop).1 := by
  simp only [finish] at pends ⊢
  split at pends
  · rename_i idle
    simp only [Bool.and_eq_true] at idle
    rw [if_pos (by simp [idle])]
    exact .inl (ReadState.pendingPrefix_of_exhausted idle.2)
  · cases pends

theorem keyCharacter_parked {character : WChar} {bytesConsumed capacity : Nat}
    (pass : keyCharacter platform call loop character bytesConsumed = .leave value)
    (pends : value.2 = .pending) : Parked capacity value.1 := by
  simp only [keyCharacter] at pass
  split at pass
  · cases pass
    cases pends
  · split at pass
    · cases pass
      exact finish_parked pends
    · split at pass
      · cases pass
        cases pends
      · cases pass

theorem keyEvent_parked {key : KeyEvent} {bytesConsumed capacity : Nat}
    (pass : keyEvent platform call controlZ loop key bytesConsumed = .leave value)
    (pends : value.2 = .pending) : Parked capacity value.1 := by
  simp only [keyEvent, skip] at pass
  split at pass
  · cases pass
    cases pends
  · split at pass
    · cases pass
    · split at pass
      · cases pass
      · split at pass
        · cases pass
        · split at pass
          · cases pass
            cases pends
          · exact keyCharacter_parked pass pends

theorem plainByte_parked {byte : Byte} {capacity : Nat}
    (pass : plainByte call controlZ loop byte = .leave value) (pends : value.2 = .pending) :
    Parked capacity value.1 := by
  simp only [plainByte] at pass
  split at pass
  · cases pass
  · split at pass
    · cases pass
      cases pends
    · cases pass

theorem body_parked (pass : body platform call controlZ loop = .leave value)
    (pends : value.2 = .pending) : Parked call.capacity value.1 := by
  simp only [body] at pass
  split at pass
  · cases pass
    exact finish_parked pends
  · rename_i room
    split at pass
    · cases pass
      exact finish_parked pends
    · rename_i first rest head
      split at pass
      · rename_i waiting
        cases pass
        simp only [unfinished] at pends ⊢
        split
        · rename_i written
          rw [if_pos written] at pends
          exact finish_parked pends
        · refine .inr ⟨Nat.lt_of_le_of_lt (Nat.zero_le _) (Nat.not_le.mp room), ?_⟩
          rw [ReadState.wait, ReadState.pendingPrefix_drain, head]
          exact waiting
      · exact keyEvent_parked pass pends
      · cases pass
      · exact plainByte_parked pass pends

theorem readLoop_parked (loop : LoopState)
    (pends : ((readLoop platform call controlZ).run loop).2 = .pending) :
    Parked call.capacity ((readLoop platform call controlZ).run loop).1 := by
  revert pends
  let Holds (_ : LoopState) (value : ReadState × ReadReply Byte) : Prop :=
    value.2 = .pending → Parked call.capacity value.1
  change Holds loop _
  apply (readLoop platform call controlZ).run_induction
  · intro loop value pass pends
    exact body_parked pass pends
  · intro loop next value _ holds
    exact holds

section Again

variable (queue : state.host.inputQueue = []) (connected : state.host.inputDisconnected = false)
include queue connected

end Again

variable (loop) in
/-- A pass keeps the kind of the handle, its line cursor and its insert mode. -/
abbrev KeepsSteady : Pass LoopState (ReadState × ReadReply Byte) → Prop :=
  Pass.Keeps (fun loop => loop.state.handle.steady) (fun value => value.1.handle.steady)
    loop.state.handle.steady

theorem finish_keepsSteady : KeepsSteady loop (.leave (finish loop)) := by
  simp only [finish, Pass.Keeps]
  split <;> rfl

theorem keyCharacter_keepsSteady (character : WChar) (bytesConsumed : Nat) :
    KeepsSteady loop (keyCharacter platform call loop character bytesConsumed) := by
  simp only [keyCharacter]
  split
  · rfl
  · split
    · exact finish_keepsSteady
    · split <;> rfl

theorem keyEvent_keepsSteady (key : KeyEvent) (bytesConsumed : Nat) :
    KeepsSteady loop (keyEvent platform call controlZ loop key bytesConsumed) := by
  simp only [keyEvent]
  split
  · rfl
  · split
    · rfl
    · split
      · rfl
      · split
        · rfl
        · split
          · rfl
          · exact keyCharacter_keepsSteady _ _

theorem plainByte_keepsSteady (byte : Byte) :
    KeepsSteady loop (plainByte call controlZ loop byte) := by
  simp only [plainByte]
  split
  · rfl
  · split <;> rfl

theorem body_keepsSteady : KeepsSteady loop (body platform call controlZ loop) := by
  simp only [body]
  split
  · exact finish_keepsSteady
  · split
    · exact finish_keepsSteady
    · split
      · simp only [unfinished]
        split
        · exact finish_keepsSteady
        · simp [Pass.Keeps, ReadState.wait]
      · exact keyEvent_keepsSteady _ _
      · rfl
      · exact plainByte_keepsSteady _

theorem readLoop_steady (platform : Platform) (call : ReadCall) (controlZ : Bool)
    (loop : LoopState) :
    ((readLoop platform call controlZ).run loop).1.handle.steady = loop.state.handle.steady :=
  (readLoop platform call controlZ).run_unchanged (fun _ => body_keepsSteady) loop

theorem rawAnsiRead_steady (platform : Platform) (call : ReadCall) (state : ReadState) :
    (rawAnsiRead platform call state).1.handle.steady = state.handle.steady := by
  have prepared : (if call.mode.processedInput then state.stripCtrlC call.processes
      else state).handle.steady = state.handle.steady := by
    split <;> rfl
  simp only [rawAnsiRead]
  generalize (if call.mode.processedInput then state.stripCtrlC call.processes else state) =
    current at prepared
  split
  · rfl
  · split
    · exact prepared
    · split
      · exact prepared
      · rw [readLoop_steady]
        exact prepared

theorem rawAnsiRead_parked (pends : (rawAnsiRead platform call state).2 = .pending) :
    call.capacity ≠ 0 ∧ Parked call.capacity (rawAnsiRead platform call state).1 := by
  simp only [rawAnsiRead] at pends ⊢
  generalize (if call.mode.processedInput then state.stripCtrlC call.processes else state) =
    prepared at pends ⊢
  split at pends
  · cases pends
  · rename_i room
    refine ⟨room, ?_⟩
    rw [if_neg room]
    split at pends
    · rename_i idle
      rw [if_pos idle]
      exact .inl (ReadState.pendingPrefix_of_exhausted idle)
    · rename_i busy
      rw [if_neg busy]
      split at pends
      · cases pends
      · rename_i noControlZ
        rw [if_neg noControlZ]
        exact readLoop_parked _ pends

end ByteRead

namespace UnicodeRead

variable {call : ReadCall} {state : ReadState} {loop : LoopState}
  {value : ReadState × ReadReply WChar}

/-- The handle of a Unicode read that waits. -/
def Parked (platform : Platform) (call : ReadCall) (state : ReadState) : Prop :=
  state.handle.decodedInputPending = none ∧
    (state.pendingPrefix = [] ∨ (0 < maxUnits call ∧
      platform.decodeOneInputToken call.codePage state.pendingPrefix = .needMore))

theorem keyEvent_held {key : KeyEvent} {next : LoopState}
    (pass : keyEvent call loop key = .next next)
    (empty : loop.state.handle.decodedInputPending = none) :
    next.state.handle.decodedInputPending = none := by
  simp only [keyEvent] at pass
  repeat' split at pass
  all_goals cases pass
  all_goals exact empty

theorem textUnits_held {chars : List WChar} {split : Bool} {next : LoopState}
    (pass : textUnits call loop chars split = .next next)
    (empty : loop.state.handle.decodedInputPending = none) :
    next.state.handle.decodedInputPending = none := by
  simp only [textUnits] at pass
  repeat' split at pass
  all_goals cases pass
  all_goals exact empty

theorem body_held {next : LoopState} (pass : body platform call loop = .next next)
    (empty : loop.state.handle.decodedInputPending = none) :
    next.state.handle.decodedInputPending = none := by
  simp only [body] at pass
  split at pass
  · cases pass
  · split at pass
    · cases pass
    · split at pass
      · cases pass
      · cases pass
        exact empty
      · exact keyEvent_held pass empty
      · split at pass
        · cases pass
        · exact textUnits_held pass empty

theorem body_parked (pass : body platform call loop = .leave value) (pends : value.2 = .pending)
    (empty : loop.state.handle.decodedInputPending = none) :
    Parked platform call value.1 := by
  simp only [body] at pass
  split at pass
  · cases pass
    cases pends
  · rename_i room
    have room : 0 < maxUnits call := by omega
    split at pass
    · rename_i idle
      cases pass
      split at pends
      · cases pends
      · rename_i nothing
        rw [if_neg nothing]
        exact ⟨empty, .inl (ReadState.pendingPrefix_of_exhausted idle)⟩
    · split at pass
      · rename_i waiting
        cases pass
        split at pends
        · cases pends
        · rename_i nothing
          rw [if_neg nothing]
          refine ⟨by simpa [ReadState.wait] using empty, .inr ⟨room, ?_⟩⟩
          rw [ReadState.wait, ReadState.pendingPrefix_drain]
          exact waiting
      · cases pass
      · simp only [keyEvent] at pass
        repeat' split at pass
        all_goals cases pass
        cases pends
      · split at pass
        · cases pass
          cases pends
        · simp only [textUnits] at pass
          repeat' split at pass
          all_goals cases pass
          all_goals cases pends

theorem readLoop_parked (loop : LoopState) (empty : loop.state.handle.decodedInputPending = none)
    (pends : ((readLoop platform call).run loop).2 = .pending) :
    Parked platform call ((readLoop platform call).run loop).1 := by
  revert empty pends
  let Holds (loop : LoopState) (value : ReadState × ReadReply WChar) : Prop :=
    loop.state.handle.decodedInputPending = none → value.2 = .pending →
      Parked platform call value.1
  change Holds loop _
  apply (readLoop platform call).run_induction
  · intro loop value pass empty pends
    exact body_parked pass pends empty
  · intro loop next value pass holds empty
    exact holds (body_held pass empty)

variable (loop) in
/-- A pass keeps the kind of the handle, its line cursor and its insert mode. -/
abbrev KeepsSteady : Pass LoopState (ReadState × ReadReply WChar) → Prop :=
  Pass.Keeps (fun loop => loop.state.handle.steady) (fun value => value.1.handle.steady)
    loop.state.handle.steady

theorem keyEvent_keepsSteady (key : KeyEvent) : KeepsSteady loop (keyEvent call loop key) := by
  simp only [keyEvent]
  split
  · rfl
  · split
    · rfl
    · split
      · rfl
      · split <;> rfl

theorem textUnits_keepsSteady (chars : List WChar) (cut : Bool) :
    KeepsSteady loop (textUnits call loop chars cut) := by
  simp only [textUnits]
  split
  · rfl
  · split
    · rfl
    · split <;> rfl

theorem body_keepsSteady : KeepsSteady loop (body platform call loop) := by
  simp only [body]
  split
  · rfl
  · split
    · simp only [Pass.Keeps]
      split <;> rfl
    · split
      · simp only [Pass.Keeps]
        split
        · rfl
        · simp [ReadState.wait]
      · rfl
      · exact keyEvent_keepsSteady _
      · split
        · rfl
        · exact textUnits_keepsSteady _ _

theorem rawUnicodeRead_steady (platform : Platform) (call : ReadCall) (state : ReadState) :
    (rawUnicodeRead platform call state).1.handle.steady = state.handle.steady := by
  have prepared : (if call.mode.processedInput then state.stripCtrlC call.processes
      else state).handle.steady = state.handle.steady := by
    split <;> rfl
  simp only [rawUnicodeRead]
  generalize (if call.mode.processedInput then state.stripCtrlC call.processes else state) =
    current at prepared
  split
  · rfl
  · split
    · exact prepared
    · split
      · exact prepared
      · split
        · exact prepared
        · rw [← prepared]
          exact (readLoop platform call).run_unchanged (fun _ => body_keepsSteady) _

theorem rawUnicodeRead_parked (pends : (rawUnicodeRead platform call state).2 = .pending) :
    call.capacity ≠ 0 ∧ Parked platform call (rawUnicodeRead platform call state).1 := by
  simp only [rawUnicodeRead] at pends ⊢
  generalize (if call.mode.processedInput then state.stripCtrlC call.processes else state) =
    prepared at pends ⊢
  split at pends
  · cases pends
  · rename_i room
    refine ⟨room, ?_⟩
    rw [if_neg room]
    split at pends
    · rename_i idle
      rw [if_pos idle]
      simp only [Bool.and_eq_true, Option.isNone_iff_eq_none] at idle
      exact ⟨idle.2, .inl (ReadState.pendingPrefix_of_exhausted idle.1)⟩
    · rename_i busy
      rw [if_neg busy]
      split at pends
      · cases pends
      · rename_i noControlZ
        rw [if_neg noControlZ]
        split at pends
        · cases pends
        · rename_i units
          rw [if_neg units]
          exact readLoop_parked _ rfl pends

end UnicodeRead

namespace Records

variable {call : RecordCall} {state : ReadState} {value : ReadState × ReadReply KeyEvent}

/-- The handle of a request for records that waits. -/
def Parked (platform : Platform) (call : RecordCall) (state : ReadState) : Prop :=
  call.waitAllowed = true ∧ state.handle.decodedInputPending = none ∧
    (state.pendingPrefix = [] ∨ (call.isPeek = false ∧
      platform.decodeOneInputToken call.codePage state.pendingPrefix = .needMore))

theorem conclude_parked {scan : Scan} (pass : conclude call state scan = .leave value)
    (pends : value.2 = .pending) : Parked platform call value.1 := by
  simp only [conclude] at pass
  split at pass
  · rename_i waits
    simp only [Bool.and_eq_true] at waits
    split at pass
    · cases pass
      cases pends
    · split at pass
      · rename_i idle
        simp only [Bool.and_eq_true, Option.isNone_iff_eq_none] at idle
        cases pass
        exact ⟨waits.1.2, idle.2, .inl (ReadState.pendingPrefix_of_exhausted idle.1)⟩
      · split at pass
        · cases pass
        · cases pass
          cases pends
  · cases pass
    cases pends

/-- The front of a window that holds no token holds none either. -/
theorem pendingPrefix_drain_waiting (limit : Nat)
    (waiting : platform.decodeOneInputToken call.codePage (state.window limit) = .needMore) :
    platform.decodeOneInputToken call.codePage (state.drain limit).pendingPrefix = .needMore := by
  rw [ReadState.drain, PendingInputBytes.append]
  split
  · rename_i bytes appended
    split at appended
    · cases appended
      exact waiting
    · cases appended
  · cases decoded : platform.decodeOneInputToken call.codePage state.pendingPrefix with
    | needMore => rfl
    | token token length =>
        rw [ReadState.window, Platform.decodeOneInputToken_stable _ decoded] at waiting
        cases waiting

theorem getBody_parked (pass : getBody platform call state = .leave value)
    (pends : value.2 = .pending) : Parked platform call value.1 := by
  have idle : call.isPeek = false → (scanWindow platform call state).bytesConsumed = 0 →
      value.1.handle.decodedInputPending = none := by
    intro remove nothing
    obtain ⟨other, leaves, -, held⟩ := getBody_idle remove nothing
    rw [pass] at leaves
    cases leaves
    exact held
  simp only [getBody] at pass
  split at pass
  · rename_i empty
    simp only [Bool.and_eq_true, Option.isNone_iff_eq_none] at empty
    cases pass
    exact ⟨empty.1.1, empty.1.2, .inl (ReadState.pendingPrefix_of_exhausted empty.2)⟩
  · split at pass
    · rename_i nothing
      simp only [Bool.and_eq_true, Bool.not_eq_true', beq_iff_eq] at nothing
      obtain ⟨⟨⟨remove, wait⟩, -⟩, consumed⟩ := nothing
      have held := idle remove consumed
      have window : (afterScan call state (scanWindow platform call state)).window
          (peekLimit call) =
          state.window (peekLimit call) := by simp [afterScan, remove]; rfl
      split at pass
      · cases pass
        cases pends
      · split at pass
        · rename_i empty
          rw [← window, ReadState.window, List.append_eq_nil_iff] at empty
          cases pass
          exact ⟨wait, held, .inl empty.1⟩
        · split at pass
          · rename_i waiting
            rw [← window] at waiting
            cases pass
            exact ⟨wait, held, .inr ⟨remove, pendingPrefix_drain_waiting _ waiting⟩⟩
          · exact conclude_parked pass pends
    · exact conclude_parked pass pends

theorem commit_steady (call : RecordCall) (state : ReadState) (scan : Scan) :
    (commit call state scan).handle.steady = state.handle.steady := by
  simp only [commit]
  repeat' split
  all_goals rfl

theorem getBody_keepsSteady : (getBody platform call state).Keeps
    (fun state => state.handle.steady) (fun value => value.1.handle.steady)
      state.handle.steady := by
  have after : (afterScan call state (scanWindow platform call state)).handle.steady =
      state.handle.steady := by
    simp only [afterScan]
    split <;> rfl
  have concluded : (conclude call (afterScan call state (scanWindow platform call state))
      (scanWindow platform call state)).Keeps (fun state => state.handle.steady)
      (fun value => value.1.handle.steady) state.handle.steady := by
    have committed := (commit_steady call (afterScan call state (scanWindow platform call state))
      (scanWindow platform call state)).trans after
    simp only [conclude]
    repeat' split
    all_goals exact committed
  simp only [getBody]
  split
  · rfl
  · split
    · split
      · exact after
      · split
        · exact after
        · split
          · simpa [Pass.Keeps] using after
          · exact concluded
    · exact concluded

theorem getConsoleInput_steady (platform : Platform) (call : RecordCall) (state : ReadState) :
    (getConsoleInput platform call state).1.handle.steady = state.handle.steady := by
  simp only [getConsoleInput]
  split
  · rfl
  · refine ((getLoop platform call).run_unchanged (fun _ => getBody_keepsSteady) _).trans ?_
    split <;> rfl

theorem getConsoleInput_parked (pends : (getConsoleInput platform call state).2 = .pending) :
    call.capacity ≠ 0 ∧ Parked platform call (getConsoleInput platform call state).1 := by
  have room : call.capacity ≠ 0 := by
    intro empty
    rw [getConsoleInput, if_pos empty] at pends
    cases pends
  refine ⟨room, ?_⟩
  rw [getConsoleInput_eq room] at pends ⊢
  revert pends
  let Holds (_ : ReadState) (value : ReadState × ReadReply KeyEvent) : Prop :=
    value.2 = .pending → Parked platform call value.1
  change Holds (stripped call state) _
  apply (getLoop platform call).run_induction
  · intro state value pass pends
    exact getBody_parked pass pends
  · intro state next value _ holds
    exact holds

end Records

namespace Cooked

variable {device : Device} {call : CookedCall} {state : CookedState}

/-- The handle of a line-input read that waits. -/
def Parked (platform : Platform) (codePage : CodePage) (state : ReadState) : Prop :=
  state.handle.cookedReadPending = [] ∧
    platform.decodeOneInputToken codePage state.pendingPrefix = .needMore

theorem echoText_handle (platform : Platform) (device : Device) (call : CookedCall)
    (text : List WChar) (state : CookedState) :
    (echoText platform device call text state).1.read.handle = state.read.handle := by
  have shown : (showText call text state).read.handle = state.read.handle := by
    simp only [showText]
    split <;> rfl
  simp only [echoText]
  split
  · rfl
  · split
    · exact shown
    · split <;> exact shown

theorem echoTexts_handle (platform : Platform) (device : Device) (call : CookedCall)
    (texts : List (List WChar)) (state : CookedState) :
    (echoTexts platform device call texts state).1.read.handle = state.read.handle := by
  induction texts generalizing state with
  | nil => rfl
  | cons text later hypothesis =>
      have first := echoText_handle platform device call text state
      simp only [echoTexts]
      split
      · rename_i next echoed
        rw [echoed] at first
        rw [hypothesis, first]
      · exact first

theorem body_pending {next : CookedState} (pass : body platform device call state = .next next) :
    next.read.handle.cookedReadPending = state.read.handle.cookedReadPending ∧
      next.read.handle.kind = state.read.handle.kind := by
  simp only [body] at pass
  split at pass
  · cases pass
  · split at pass
    · cases pass
    · rename_i token length decoded
      simp only [handleToken] at pass
      generalize ((editLine (state.read.consume length).handle).handleToken
        call.mode.processedInput call.processControlZ token) = effect at pass
      have echoed := echoTexts_handle platform device call effect.echoes
        (setEdit { state with read := state.read.consume length } effect.edit)
      split at pass
      · cases pass
      · rename_i edited shown
        rw [shown] at echoed
        cases outcome : effect.outcome with
        | proceed =>
            rw [outcome] at pass
            cases pass
            rw [echoed]
            exact ⟨rfl, rfl⟩
        | newline =>
            rw [outcome] at pass
            simp only [conclude] at pass
            split at pass <;> cases pass
        | endOfFile | ctrlC | ctrlBreak =>
            rw [outcome] at pass
            cases pass

theorem idle_parked {codePage : CodePage} (pends : (idle state).2 = .ok .pending)
    (empty : state.read.handle.cookedReadPending = [])
    (waiting : platform.decodeOneInputToken codePage state.read.pendingPrefix = .needMore) :
    Parked platform codePage (idle state).1.read ∧
      (idle state).1.read.handle.kind = state.read.handle.kind := by
  simp only [idle] at pends ⊢
  split at pends
  · simp at pends
  · rename_i connected
    rw [if_neg connected]
    exact ⟨⟨empty, waiting⟩, rfl⟩

theorem body_parked {result : Result} (pass : body platform device call state = .leave result)
    (pends : result.2 = .ok .pending) (empty : state.read.handle.cookedReadPending = []) :
    Parked platform call.codePage result.1.read ∧
      result.1.read.handle.kind = state.read.handle.kind := by
  simp only [body] at pass
  split at pass
  · rename_i exhausted
    cases pass
    apply idle_parked pends empty
    rw [ReadState.pendingPrefix_of_exhausted exhausted]
    exact Platform.decodeOneInputToken_nil
  · split at pass
    · rename_i waiting
      cases pass
      rw [← ReadState.kind_drain state.read (64 - state.read.pendingPrefix.length)]
      apply idle_parked pends
      · simp only [ReadState.drain]
        split <;> exact empty
      · rw [ReadState.pendingPrefix_drain]
        exact waiting
    · exact absurd pends (handleToken_complete pass)

theorem readConsole_parked {fuel : Nat} {result : Result}
    (read : readConsole platform device call fuel state = some result)
    (pends : result.2 = .ok .pending) :
    call.capacity ≠ 0 ∧ Parked platform call.codePage result.1.read ∧
      result.1.read.handle.kind = state.read.handle.kind := by
  by_cases room : call.capacity = 0
  · rw [readConsole, if_pos room] at read
    cases read
    simp at pends
  refine ⟨room, ?_⟩
  by_cases empty : state.read.handle.cookedReadPending = []
  · rw [readConsole_iterate room empty] at read
    have start : (start state).read.handle.cookedReadPending = [] := empty
    have kind : (Cooked.start state).read.handle.kind = state.read.handle.kind := rfl
    rw [← kind]
    clear kind
    revert start
    generalize Cooked.start state = current at read
    induction fuel generalizing current with
    | zero => cases read
    | succ fuel hypothesis =>
        intro start
        rw [iterate] at read
        split at read
        · rename_i pass
          cases read
          exact body_parked pass pends start
        · rename_i next pass
          obtain ⟨pending, kind⟩ := body_pending pass
          rw [← kind]
          exact hypothesis next read (pending.trans start)
  · rw [readConsole_deliver room empty] at read
    cases read
    exact absurd (Except.ok.inj pends) (Delivery.deliverPending_complete _ _ _ _ _)

end Cooked

end Conhost
