import Conhost.Input.Discard
import Conhost.Input.LineRequests
import Conhost.Input.RepeatedLines

/-!
# Reads of repeated keys by lines

A line-input read of one event runs in step with one of as many events with a
count of one up to the event. There the count is taken as that many presses, so
the reads go on from the same state, unless a press ends the read: what then is
left of the presses is read by itself. It does nothing if each of them ends a
read without data, or leaves an empty line empty.
-/

namespace Conhost

open Relation (ReflTransGen)

namespace Cooked

variable {platform : Platform} {device : Device} {call : CookedCall}

/-- The edits and echoes of a token, and what follows. -/
def concluded (platform : Platform) (device : Device) (call : CookedCall) (state : CookedState)
    (effect : EditLine.Effect) : Pass CookedState Result :=
  match echoTexts platform device call effect.echoes (setEdit state effect.edit) with
  | (state, .error fault) => .leave (state, .error fault)
  | (state, .ok ()) => conclude platform device call state effect.outcome

theorem body_sent {key : KeyEvent} {bytes : List Byte} (sent : key.SentAs bytes)
    {state : CookedState} (undrained : state.read.pendingPrefix = []) (more : List Byte) :
    body platform device call (ahead (bytes ++ more) state) =
      concluded platform device call (ahead more state)
        ((editLine state.read.handle).handleToken call.mode.processedInput call.processControlZ
          (.keyEvent key)) := by
  have decoded : platform.decodeOneInputToken call.codePage
      (bytes ++ (more ++ state.read.host.inputQueue).take (64 - bytes.length)) =
        .token (.keyEvent key) bytes.length := by
    apply Platform.decodeOneInputToken_stable
    rw [Platform.decodeOneInputToken, sent.decoded]
  exact body_ahead undrained sent.small decoded

/-- One press of the key. -/
abbrev press (call : CookedCall) (key : KeyEvent) : EditLine → EditLine.Effect :=
  EditLine.press call.mode.processedInput call.processControlZ key

theorem body_press {key : KeyEvent} {single : List Byte} (sentOnce : key.once.SentAs single)
    {state : CookedState} (undrained : state.read.pendingPrefix = []) (count : Nat) :
    body platform device call (ahead (sentTimes (count + 1) single) state) =
      concluded platform device call (ahead (sentTimes count single) state)
        (press call key (editLine state.read.handle)) := by
  rw [sentTimes_succ]
  exact body_sent sentOnce undrained _

theorem echoText_setEdit (text : List WChar) (state : CookedState) (edit : EditLine) :
    echoText platform device call text (setEdit state edit) =
      (setEdit (echoText platform device call text state).1 edit,
        (echoText platform device call text state).2) := by
  have shown : showText call text (setEdit state edit) =
      setEdit (showText call text state) edit := by
    simp only [showText]
    cases found : state.screen with
    | none => simp [setEdit, setHandle, found]
    | some buffer => simp [setEdit, setHandle, found, ReadState.arrive, ReadState.setQueue]
  simp only [echoText, shown]
  split
  · rfl
  · split
    · rfl
    · have same : (setEdit (showText call text state) edit).read.host =
        (showText call text state).read.host := rfl
      rw [same]
      cases (showText call text state).read.host.writeOutputBytes device
        (platform.wideCharToMultiByte cpUtf8 text) with
      | error fault => rfl
      | ok host => rfl

theorem echoTexts_setEdit (texts : List (List WChar)) (state : CookedState) (edit : EditLine) :
    echoTexts platform device call texts (setEdit state edit) =
      (setEdit (echoTexts platform device call texts state).1 edit,
        (echoTexts platform device call texts state).2) := by
  induction texts generalizing state with
  | nil => rfl
  | cons text later ih =>
      simp only [echoTexts, echoText_setEdit]
      rcases echoText platform device call text state with ⟨next, fault | _⟩
      · rfl
      · exact ih next

theorem echoTexts_append (texts more : List (List WChar)) (state : CookedState) :
    echoTexts platform device call (texts ++ more) state =
      match echoTexts platform device call texts state with
      | (state, .ok ()) => echoTexts platform device call more state
      | failed => failed := by
  induction texts generalizing state with
  | nil => rfl
  | cons text later ih =>
      simp only [List.cons_append, echoTexts]
      rcases echoText platform device call text state with ⟨next, fault | _⟩
      · rfl
      · exact ih next

/-- Edits that follow one another are those of the second in the state of the first. -/
theorem concluded_append {state next : CookedState} {first later : EditLine.Effect}
    (echoed : echoTexts platform device call first.echoes (setEdit state first.edit) =
      (next, .ok ())) :
    concluded platform device call state { later with echoes := first.echoes ++ later.echoes } =
      concluded platform device call next later := by
  have again : setEdit state later.edit = setEdit (setEdit state first.edit) later.edit := rfl
  simp only [concluded, again]
  rw [echoTexts_append, echoTexts_setEdit, echoed]

theorem concluded_fault {state next : CookedState} {first later : EditLine.Effect} {fault : Fault}
    (echoed : echoTexts platform device call first.echoes (setEdit state first.edit) =
      (next, .error fault)) :
    concluded platform device call state { later with echoes := first.echoes ++ later.echoes } =
      .leave (setEdit next later.edit, .error fault) := by
  have again : setEdit state later.edit = setEdit (setEdit state first.edit) later.edit := rfl
  simp only [concluded, again]
  rw [echoTexts_append, echoTexts_setEdit, echoed]

theorem concluded_ahead (bytes : List Byte) (state : CookedState) (effect : EditLine.Effect) :
    concluded platform device call (ahead bytes state) effect =
      match echoTexts platform device call effect.echoes (setEdit state effect.edit) with
      | (state, .error fault) => .leave (ahead bytes state, .error fault)
      | (state, .ok ()) => conclude platform device call (ahead bytes state) effect.outcome := by
  have edited : setEdit (ahead bytes state) effect.edit = ahead bytes (setEdit state effect.edit) :=
    rfl
  rw [concluded, edited, echoTexts_ahead]
  rcases echoTexts platform device call effect.echoes (setEdit state effect.edit) with
    ⟨next, fault | _⟩
  · rfl
  · rfl

/-- A read of the line begins in the state itself. -/
structure Begun (call : CookedCall) (state : CookedState) : Prop where
  edits : Edits call state
  normalized : (editLine state.read.handle).Normalized
  completed : state.completed = none

theorem Begun.start_eq {state : CookedState} (begun : Begun call state) (bytes : List Byte) :
    start (ahead bytes state) = ahead bytes state := by
  have edit := begun.normalized.normalizeCursor_eq
  have line : editLine (ahead bytes state).read.handle = editLine state.read.handle := rfl
  have same : ({ ahead bytes state with completed := none } : CookedState) = ahead bytes state := by
    rw [← begun.completed]
    rfl
  rw [start, same, line, edit]
  rfl

section Event

variable {key : KeyEvent} {single : List Byte} (sentOnce : key.once.SentAs single)

include sentOnce

/-- A key that ends the read without data does so as often as it is pressed. -/
theorem silently_times {state : CookedState} (begun : Begun call state)
    (undrained : state.read.pendingPrefix = []) {outcome : EditLine.Outcome}
    (silent : EditLine.Silent outcome)
    (pressed : press call key (editLine state.read.handle) =
      { edit := editLine state.read.handle, outcome })
    (count : Nat) :
    ∃ tasks, ReflTransGen (Silently (lineRequest platform device call))
      (ahead (sentTimes count single) state) (unseen tasks none state) := by
  induction count generalizing state with
  | zero =>
      refine ⟨state.read.host.endTasks, ?_⟩
      have same : unseen state.read.host.endTasks none state = state := by
        rw [← begun.completed]
        rfl
      rw [same]
      exact .refl
  | succ count ih =>
      have pass : body platform device call (ahead (sentTimes (count + 1) single) state) =
          conclude platform device call (ahead (sentTimes count single) state) outcome := by
        rw [body_press sentOnce undrained, pressed]
        rfl
      have answered {next : CookedState} {reply : ReadReply Byte}
          (left : body platform device call (ahead (sentTimes (count + 1) single) state) =
            .leave (next, .ok reply)) (nothing : reply.answer = .gives []) :
          Silently (lineRequest platform device call)
            (ahead (sentTimes (count + 1) single) state) next := by
        have edits : Edits call (ahead (sentTimes (count + 1) single) state) := begun.edits
        refine (lineRequest_iff edits).mpr ⟨.ok reply, ?_, nothing⟩
        rw [begun.start_eq]
        exact .of_leave left
      rcases silent with rfl | rfl
      · rcases ih begun undrained pressed with ⟨tasks, path⟩
        exact ⟨tasks, .head (answered pass rfl) path⟩
      · have begun' : Begun call { state with
            read := state.read.forward call.processes .ctrlC } :=
          ⟨begun.edits, begun.normalized, begun.completed⟩
        rcases ih begun' undrained pressed with ⟨tasks, path⟩
        exact ⟨tasks, .head (answered pass rfl) path⟩

theorem sameData_times {state : CookedState} (begun : Begun call state)
    (undrained : state.read.pendingPrefix = []) {outcome : EditLine.Outcome}
    (silent : EditLine.Silent outcome)
    (pressed : press call key (editLine state.read.handle) =
      { edit := editLine state.read.handle, outcome })
    (count : Nat) :
    SameData (lineRequest platform device call) state (ahead (sentTimes count single) state) := by
  rcases silently_times sentOnce begun undrained silent pressed count with ⟨tasks, path⟩
  exact (twin_sameData state tasks none).trans
    (SameData.of_silently lineRequest_functional path).symm

end Event

/-- What a state has in front of the event is read as the same tokens before as many events with a
count of one. -/
def InFront (platform : Platform) (call : CookedCall) (key : KeyEvent) (event single : List Byte)
    (front : List Byte) (state : CookedState) : Prop :=
  (windowDecoder platform call.codePage).Alike (event ++ state.read.host.inputQueue)
    (sentTimes key.count single ++ state.read.host.inputQueue) (state.read.pendingPrefix ++ front)

/-- The event, or as many events with a count of one, is still to come. -/
inductive Coming (platform : Platform) (call : CookedCall) (key : KeyEvent)
    (event single : List Byte) : CookedState → CookedState → Prop where
  | behind {front : List Byte} {state : CookedState}
      (comes : InFront platform call key event single front state) :
      Coming platform call key event single (ahead (front ++ event) state)
        (ahead (front ++ sentTimes key.count single) state)

/-- Two states that line-input reads treat alike: the event is still to come, or it has been taken
for the line feed at the end of a line and what is left of the repetitions does nothing. -/
inductive PressedInStep (platform : Platform) (device : Device) (call : CookedCall)
    (key : KeyEvent) (event single : List Byte) : CookedState → CookedState → Prop where
  | comes {first second : CookedState}
      (coming : Coming platform call key event single first second) :
      PressedInStep platform device call key event single first second
  | left {count : Nat} {state : CookedState}
      (leaves : EditLine.LeavesEmpty call.mode.processedInput call.processControlZ key count)
      (undrained : state.read.pendingPrefix = [])
      (line : state.read.handle.cookedLineInProgress = [])
      (cursor : state.read.handle.cookedLineCursor = 0) :
      PressedInStep platform device call key event single state
        (ahead (sentTimes count single) state)
  | same {first second : CookedState}
      (same : SameData (lineRequest platform device call) first second) :
      PressedInStep platform device call key event single first second

section Event

variable {key : KeyEvent} {event single : List Byte}

theorem answeredAlike_refl (result : Result) :
    AnsweredAlike (PressedInStep platform device call key event single) result result :=
  ⟨rfl, fun _ => .same (.refl _)⟩

end Event

section Event

variable {key : KeyEvent} {event single : List Byte} (sentOnce : key.once.SentAs single)

/-- An edit of the line and its echoes begin the next one. -/
theorem Begun.echoed {state next : CookedState} (begun : Begun call state) {edit : EditLine}
    (normalized : edit.Normalized) {texts : List (List WChar)} {reply : Except Fault Unit}
    (echoed : echoTexts platform device call texts (setEdit state edit) = (next, reply)) :
    Begun call next ∧ next.read.pendingPrefix = state.read.pendingPrefix ∧
      editLine next.read.handle = edit := by
  have handle := echoTexts_handle platform device call texts (setEdit state edit)
  have completed := echoTexts_completed platform device call texts (setEdit state edit)
  rw [echoed] at handle completed
  have line : editLine next.read.handle = edit := by
    rw [handle]
    rfl
  have edits : Edits call next := by
    refine ⟨begun.edits.1, ?_⟩
    rw [handle]
    exact begun.edits.2
  refine ⟨⟨edits, by rwa [line], completed.trans begun.completed⟩, ?_, line⟩
  rw [ReadState.pendingPrefix, handle]
  rfl

include sentOnce

/-- One pass with the effect of several presses, and the reads of as many events. -/
theorem times_together {count : Nat}
    (completes : count ≤ 1 ∨ ∀ edit carriageReturn,
      (press call key edit).outcome ≠ .newline carriageReturn)
    {state first : CookedState} (begun : Begun call state)
    (undrained : state.read.pendingPrefix = [])
    (pass : body platform device call first = concluded platform device call state
      (EditLine.timesEffect (press call key) count (editLine state.read.handle))) :
    EndTogether (body platform device call)
      (AnsweredAlike (PressedInStep platform device call key event single)) first
      (ahead (sentTimes count single) state) := by
  induction count generalizing state with
  | zero =>
      have next : Continues (body platform device call) first state := pass
      exact .of_paths (.single next) .refl (.refl answeredAlike_refl _)
  | succ count ih =>
      have pass' : body platform device call (ahead (sentTimes (count + 1) single) state) =
          concluded platform device call (ahead (sentTimes count single) state)
            (press call key (editLine state.read.handle)) := body_press sentOnce undrained count
      have normalized : (press call key (editLine state.read.handle)).edit.Normalized :=
        begun.normalized.handleToken ..
      generalize pressed : press call key (editLine state.read.handle) = effect
        at pass' normalized
      have once (ends : effect.outcome ≠ .proceed) : EditLine.timesEffect (press call key)
          (count + 1) (editLine state.read.handle) = effect := by
        rw [← pressed] at ends ⊢
        exact EditLine.timesEffect_of_ends ends
      cases outcome : effect.outcome with
      | proceed =>
          rw [← pressed] at outcome
          rw [EditLine.timesEffect_of_proceeds outcome, pressed] at pass
          rw [pressed] at outcome
          rcases echoed : echoTexts platform device call effect.echoes
            (setEdit state effect.edit) with ⟨next, fault | _⟩
          · rw [concluded_fault echoed] at pass
            rw [concluded_ahead, echoed] at pass'
            exact .of_leave pass pass' ⟨rfl, fun goes => absurd rfl goes⟩
          · rw [concluded_append echoed] at pass
            rw [concluded_ahead, echoed, outcome] at pass'
            rcases begun.echoed normalized echoed with ⟨begun', kept, line⟩
            rw [← line] at pass
            exact .of_paths .refl (.single pass') (ih (completes.imp_left (by omega)) begun'
              (kept.trans undrained) pass)
      | endOfFile =>
          have again := EditLine.press_again begun.normalized
            ((congrArg EditLine.Effect.outcome pressed).trans outcome) (.inl rfl)
          rw [once (by rw [outcome]; simp)] at pass
          rw [← pressed, press, again] at pass pass'
          exact .of_leave pass pass'
            ⟨rfl, fun _ => .same (sameData_times sentOnce begun undrained (.inl rfl) again count)⟩
      | ctrlC =>
          have again := EditLine.press_again begun.normalized
            ((congrArg EditLine.Effect.outcome pressed).trans outcome) (.inr rfl)
          rw [once (by rw [outcome]; simp)] at pass
          rw [← pressed, press, again] at pass pass'
          have begun' : Begun call { state with
              read := state.read.forward call.processes .ctrlC } :=
            ⟨begun.edits, begun.normalized, begun.completed⟩
          exact .of_leave pass pass'
            ⟨rfl, fun _ => .same (sameData_times sentOnce begun' undrained (.inr rfl) again count)⟩
      | ctrlBreak =>
          rw [once (by rw [outcome]; simp), concluded] at pass
          rw [concluded_ahead] at pass'
          rcases echoed : echoTexts platform device call effect.echoes
            (setEdit state effect.edit) with ⟨next, fault | _⟩
          · rw [echoed] at pass pass'
            exact .of_leave pass pass' ⟨rfl, fun goes => absurd rfl goes⟩
          · rw [echoed, outcome] at pass pass'
            exact .of_eq answeredAlike_refl (pass.trans pass'.symm)
      | newline carriageReturn =>
          rcases completes with few | never
          · have last : count = 0 := by omega
            subst last
            rw [once (by rw [outcome]; simp)] at pass
            exact .of_eq answeredAlike_refl (pass.trans pass'.symm)
          · rw [← pressed] at outcome
            exact absurd outcome (never _ _)

end Event

section Event

variable {key : KeyEvent} {event single : List Byte} (sentOnce : key.once.SentAs single)

include sentOnce

/-- Presses that only turn the insert mode over. -/
theorem turned_path {turn : Bool → Bool}
    (turns : ∀ mode, press call key ⟨[], 0, mode⟩ = { edit := ⟨[], 0, turn mode⟩ })
    {state : CookedState} (undrained : state.read.pendingPrefix = []) {mode : Bool}
    (line : editLine state.read.handle = ⟨[], 0, mode⟩) (count : Nat) :
    ReflTransGen (Continues (body platform device call)) (ahead (sentTimes count single) state)
      (setEdit state ⟨[], 0, turn^[count] mode⟩) := by
  induction count generalizing state mode with
  | zero =>
      have same : setEdit state ⟨[], 0, mode⟩ = state := by
        rw [← line]
        rfl
      rw [Function.iterate_zero_apply, same]
      exact .refl
  | succ count ih =>
      have pass : body platform device call (ahead (sentTimes (count + 1) single) state) =
          .next (ahead (sentTimes count single) (setEdit state ⟨[], 0, turn mode⟩)) := by
        rw [body_press sentOnce undrained, line, turns]
        rfl
      have undrained' : (setEdit state ⟨[], 0, turn mode⟩).read.pendingPrefix = [] := undrained
      rw [Function.iterate_succ_apply]
      exact .head pass (ih undrained' rfl)

theorem left_answers {count : Nat} {state : CookedState}
    (leaves : EditLine.LeavesEmpty call.mode.processedInput call.processControlZ key count)
    (undrained : state.read.pendingPrefix = [])
    (line : state.read.handle.cookedLineInProgress = [])
    (cursor : state.read.handle.cookedLineCursor = 0) :
    (Answers (lineRequest platform device call)
        (PressedInStep platform device call key event single) state
        (ahead (sentTimes count single) state) ∧
      Answers (lineRequest platform device call)
        (fun second first => PressedInStep platform device call key event single first second)
        (ahead (sentTimes count single) state) state) ∨
    SameData (lineRequest platform device call) state (ahead (sentTimes count single) state) := by
  have edit : editLine state.read.handle = ⟨[], 0, state.read.handle.cookedInsertMode⟩ := by
    rw [editLine, line, cursor]
  have normalized : (⟨[], 0, state.read.handle.cookedInsertMode⟩ : EditLine).Normalized :=
    EditLine.normalized_atEnd [] _
  have started : start state = unseen state.read.host.endTasks none state := by
    rw [start, edit, normalized.normalizeCursor_eq, ← edit]
    rfl
  by_cases edits : Edits call state
  · rcases leaves with rfl | alerts | ⟨turn, turns, back⟩
    · exact .inr (.refl _)
    · have begun : Begun call (unseen state.read.host.endTasks none state) :=
        ⟨edits, by rw [← edit] at normalized; exact normalized, rfl⟩
      have again : press call key (editLine state.read.handle) =
          { edit := editLine state.read.handle, outcome := .ctrlC } := by
        rw [edit]
        exact alerts _
      have twin : SameData (lineRequest platform device call)
          (ahead (sentTimes count single) state)
          (ahead (sentTimes count single) (unseen state.read.host.endTasks none state)) :=
        twin_sameData (ahead (sentTimes count single) state) state.read.host.endTasks none
      refine .inr ((twin_sameData state state.read.host.endTasks none).trans ?_)
      exact (sameData_times sentOnce begun undrained (.inr rfl) again count).trans twin.symm
    · refine .inl (answers_of_together Iff.rfl ?_ fun other => absurd edits other)
      intro _
      have undrained' : (start state).read.pendingPrefix = [] := undrained
      have line' : editLine (start state).read.handle =
          ⟨[], 0, state.read.handle.cookedInsertMode⟩ := by
        rw [started]
        exact edit
      have path : ReflTransGen (Continues (body platform device call))
          (ahead (sentTimes count single) (start state)) _ :=
        turned_path sentOnce turns undrained' line' count
      have same : setEdit (start state) ⟨[], 0, state.read.handle.cookedInsertMode⟩ =
          start state := by
        rw [started, ← edit]
        rfl
      rw [back, same] at path
      have ahead : start (ahead (sentTimes count single) state) =
        ahead (sentTimes count single) (start state) := rfl
      rw [ahead]
      exact .of_paths .refl path (.refl answeredAlike_refl _)
  · refine .inl (answers_of_together Iff.rfl (fun looks => absurd looks edits) ?_)
    intro _
    by_cases room : call.capacity = 0
    · rw [served, served, if_pos room, if_pos room]
      exact ⟨rfl, .left leaves undrained line cursor⟩
    · rw [served, served, if_neg room, if_neg room]
      refine ⟨rfl, ?_⟩
      apply PressedInStep.left leaves
      · exact undrained
      · rw [started]
        exact line
      · rw [started]
        exact cursor

end Event

section Front

variable {front more : List Byte} {state : CookedState} {length : Nat}

/-- The state without the drained bytes of a token. -/
def undrain (state : CookedState) (length : Nat) : CookedState :=
  { state with
    read := state.read.setPrefix (state.read.handle.pendingInputBytes.consumePrefix length) }

theorem consume_front (inside : length ≤ (state.read.pendingPrefix ++ front).length) :
    ({ ahead (front ++ more) state with
        read := (ahead (front ++ more) state).read.consume length } : CookedState) =
      ahead (front.drop (length - state.read.pendingPrefix.length) ++ more)
        (undrain state length) := by
  rw [List.length_append] at inside
  have kept : (ahead (front ++ more) state).read.pendingPrefix = state.read.pendingPrefix := rfl
  have taken : length - min length state.read.pendingPrefix.length =
      length - state.read.pendingPrefix.length := by omega
  have queue : (front ++ more ++ state.read.host.inputQueue).drop
      (length - state.read.pendingPrefix.length) =
        front.drop (length - state.read.pendingPrefix.length) ++ more ++
          state.read.host.inputQueue := by
    rw [List.append_assoc, List.drop_append_of_le_length (by omega), List.append_assoc]
  simp only [ReadState.consume, kept, taken]
  simp only [ahead, ReadState.setQueue, queue]
  rfl

theorem stream_front : (undrain state length).read.pendingPrefix ++
      front.drop (length - state.read.pendingPrefix.length) =
    (state.read.pendingPrefix ++ front).drop length := by
  rw [List.drop_append]
  rfl

theorem decode_front {token : Token}
    (decoded : (windowDecoder platform call.codePage).decode
      (state.read.pendingPrefix ++ front ++ (more ++ state.read.host.inputQueue)) =
        .token token length) :
    platform.decodeOneInputToken call.codePage (ahead (front ++ more) state).read.peekHead =
      .token token length := by
  rw [ReadState.peekHead_eq]
  have stream : (ahead (front ++ more) state).read.stream =
      state.read.pendingPrefix ++ front ++ (more ++ state.read.host.inputQueue) := by
    simp [ReadState.stream, ahead, ReadState.setQueue, ReadState.pendingPrefix]
  rw [stream]
  exact decoded

theorem body_front {token : Token}
    (inside : length ≤ (state.read.pendingPrefix ++ front).length)
    (decoded : (windowDecoder platform call.codePage).decode
      (state.read.pendingPrefix ++ front ++ (more ++ state.read.host.inputQueue)) =
        .token token length) :
    body platform device call (ahead (front ++ more) state) =
      concluded platform device call
        (ahead (front.drop (length - state.read.pendingPrefix.length) ++ more)
          (undrain state length))
        ((editLine state.read.handle).handleToken call.mode.processedInput call.processControlZ
          token) := by
  have found := decode_front decoded
  have positive := Platform.decodeOneInputToken_positive found
  have unread : (ahead (front ++ more) state).read.exhausted = false := by
    rw [ReadState.exhausted_eq_false_iff]
    intro empty
    rw [ReadState.peekHead_eq, empty] at found
    have bounded := Platform.decodeOneInputToken_bounded found
    simp at bounded
    omega
  simp only [body, unread, found, Bool.false_eq_true, if_false]
  rw [consume_front inside]
  rfl

end Front

/-- Bytes have been appended to the queue. -/
structure Extends (state next : CookedState) : Prop where
  undrained : next.read.pendingPrefix = state.read.pendingPrefix
  queue : ∃ more, next.read.host.inputQueue = state.read.host.inputQueue ++ more

theorem extends_of {state next : CookedState} (handle : next.read.handle = state.read.handle)
    {more : List Byte} (stream : next.read.stream = state.read.stream ++ more) :
    Extends state next := by
  have undrained : next.read.pendingPrefix = state.read.pendingPrefix := by
    rw [ReadState.pendingPrefix, handle]
    rfl
  refine ⟨undrained, more, ?_⟩
  rw [ReadState.stream, ReadState.stream, undrained, List.append_assoc] at stream
  exact List.append_cancel_left stream

theorem echoText_extends {text : List WChar} {state next : CookedState}
    {reply : Except Fault Unit}
    (echoed : echoText platform device call text state = (next, reply)) : Extends state next := by
  have handle := echoText_handle platform device call text state
  have stream : (echoText platform device call text state).1.read.stream = _ :=
    stream_echoText text state
  rw [echoed] at handle stream
  exact extends_of handle stream

theorem echoTexts_extends {texts : List (List WChar)} {state next : CookedState}
    {reply : Except Fault Unit}
    (echoed : echoTexts platform device call texts state = (next, reply)) :
    Extends state next := by
  have handle := echoTexts_handle platform device call texts state
  have stream : (echoTexts platform device call texts state).1.read.stream = _ :=
    stream_echoTexts texts state
  rw [echoed] at handle stream
  exact extends_of handle stream

section Event

variable {key : KeyEvent} {event single front : List Byte} {state next : CookedState}

theorem InFront.extended (comes : InFront platform call key event single front state)
    (grown : Extends state next) : InFront platform call key event single front next := by
  rcases grown with ⟨undrained, more, queue⟩
  have longer := Decoder.Alike.append comes more
  rw [List.append_assoc, List.append_assoc, ← queue, ← undrained] at longer
  exact longer

theorem InFront.undrain {length : Nat}
    (later : (windowDecoder platform call.codePage).Alike (event ++ state.read.host.inputQueue)
      (sentTimes key.count single ++ state.read.host.inputQueue)
      ((state.read.pendingPrefix ++ front).drop length)) :
    InFront platform call key event single
      (front.drop (length - state.read.pendingPrefix.length)) (undrain state length) := by
  rw [← stream_front] at later
  exact later

/-- The end of a line in front of the event. -/
theorem endLine_coming {states : CookedState → CookedState → Prop}
    (comes : InFront platform call key event single front state) :
    Pass.Related states
      (AnsweredAlike (PressedInStep platform device call key event single))
      (endLine platform device call (ahead (front ++ event) state))
      (endLine platform device call (ahead (front ++ sentTimes key.count single) state)) := by
  rw [endLine, endLine, echoText_ahead, echoText_ahead]
  rcases echoed : echoText platform device call (newlineSuffix call) state with ⟨next, fault | _⟩
  · exact .leave ⟨rfl, fun goes => absurd rfl goes⟩
  · have comes' := comes.extended (echoText_extends echoed)
    have finished : InFront platform call key event single front
      (finishLine platform call next).1 := comes'
    exact .leave ⟨rfl, fun _ => .comes (.behind finished)⟩

/-- The end of a line that the event has been taken for a part of. -/
theorem endLine_left {states : CookedState → CookedState → Prop} {count : Nat}
    (leaves : EditLine.LeavesEmpty call.mode.processedInput call.processControlZ key count)
    (undrained : state.read.pendingPrefix = []) :
    Pass.Related states
      (AnsweredAlike (PressedInStep platform device call key event single))
      (endLine platform device call state)
      (endLine platform device call (ahead (sentTimes count single) state)) := by
  rw [endLine, endLine, echoText_ahead]
  rcases echoed : echoText platform device call (newlineSuffix call) state with ⟨next, fault | _⟩
  · exact .leave ⟨rfl, fun goes => absurd rfl goes⟩
  · have finished : (finishLine platform call next).1.read.pendingPrefix = [] :=
      (echoText_extends echoed).undrained.trans undrained
    exact .leave ⟨rfl, fun _ => .left leaves finished rfl rfl⟩

/-- The look-ahead takes a key that counts as a line feed. -/
theorem lookAhead_sent (sent : key.SentAs event) (undrained : state.read.pendingPrefix = [])
    (more : List Byte) :
    lookAhead platform call (ahead (event ++ more) state) =
      if isLf (.keyEvent key) then ahead more state else ahead (event ++ more) state := by
  have stream : (ahead (event ++ more) state).read.peekHead =
      (event ++ (more ++ state.read.host.inputQueue)).take 64 := by
    rw [ReadState.peekHead_eq]
    change ((state.read.pendingPrefix ++ _).take 64 : List Byte) = _
    rw [undrained, ← List.append_assoc]
    rfl
  have found : platform.decodeOneInputToken call.codePage
      (ahead (event ++ more) state).read.peekHead = .token (.keyEvent key) event.length := by
    rw [stream]
    exact sent.token platform call.codePage _
  simp only [lookAhead, skipLf, found]
  split
  · rw [consume_ahead undrained, List.append_assoc, List.drop_left]
    rfl
  · rfl

/-- The look-ahead finds a token in front of the event, or it finds the event. -/
theorem lookAhead_coming (sent : key.SentAs event) (sentOnce : key.once.SentAs single)
    (comes : InFront platform call key event single front state) :
    (∃ front' state', InFront platform call key event single front' state' ∧
        lookAhead platform call (ahead (front ++ event) state) = ahead (front' ++ event) state' ∧
        lookAhead platform call (ahead (front ++ sentTimes key.count single) state) =
          ahead (front' ++ sentTimes key.count single) state') ∨
      isLf (.keyEvent key) = true ∧ state.read.pendingPrefix = [] ∧
        lookAhead platform call (ahead (front ++ event) state) = state ∧
        lookAhead platform call (ahead (front ++ sentTimes key.count single) state) =
          ahead (sentTimes (key.count - 1) single) state := by
  rcases Decoder.Alike.nil_or_step comes with none |
    ⟨token, length, inside, decoded, decoded', later⟩
  · rcases List.append_eq_nil_iff.mp none with ⟨undrained, rfl⟩
    have times : sentTimes key.count single = single ++ sentTimes (key.count - 1) single := by
      rw [← sentTimes_succ, Nat.sub_add_cancel key.count_pos]
    have same : isLf (.keyEvent key.once) = isLf (.keyEvent key) := rfl
    have one : lookAhead platform call (ahead (event ++ []) state) = _ :=
      lookAhead_sent sent undrained []
    have other : lookAhead platform call
        (ahead (single ++ sentTimes (key.count - 1) single) state) = _ :=
      lookAhead_sent sentOnce undrained _
    rw [List.append_nil] at one
    rw [same, ← times] at other
    rw [List.nil_append, List.nil_append, one, other]
    by_cases lf : isLf (.keyEvent key) = true
    · rw [if_pos lf, if_pos lf]
      exact .inr ⟨lf, undrained, rfl, rfl⟩
    · rw [if_neg lf, if_neg lf]
      exact .inl ⟨[], state, comes, rfl, rfl⟩
  · have found := decode_front decoded
    have found' := decode_front decoded'
    left
    by_cases lf : isLf token = true
    · refine ⟨_, _, .undrain later, ?_, ?_⟩
      · simp only [lookAhead, skipLf, found, lf, if_true]
        exact consume_front inside
      · simp only [lookAhead, skipLf, found', lf, if_true]
        exact consume_front inside
    · refine ⟨front, state, comes, ?_, ?_⟩
      · simp only [lookAhead, skipLf, found, lf]
        rfl
      · simp only [lookAhead, skipLf, found', lf]
        rfl

end Event

section Event

variable {key : KeyEvent} {event single front : List Byte} {state : CookedState}

/-- Both reads go on in front of the event. -/
inductive GoesOn (platform : Platform) (call : CookedCall) (key : KeyEvent)
    (event single front undrained : List Byte) : CookedState → CookedState → Prop where
  | on {state : CookedState} (begun : Begun call state)
      (comes : InFront platform call key event single front state)
      (kept : state.read.pendingPrefix = undrained) :
      GoesOn platform call key event single front undrained (ahead (front ++ event) state)
        (ahead (front ++ sentTimes key.count single) state)

theorem concluded_coming (sent : key.SentAs event) (sentOnce : key.once.SentAs single)
    (honours : key.LineHonours call.mode.processedInput) (begun : Begun call state)
    (comes : InFront platform call key event single front state) {effect : EditLine.Effect}
    (normalized : effect.edit.Normalized) :
    Pass.Related (GoesOn platform call key event single front state.read.pendingPrefix)
      (AnsweredAlike (PressedInStep platform device call key event single))
      (concluded platform device call (ahead (front ++ event) state) effect)
      (concluded platform device call (ahead (front ++ sentTimes key.count single) state)
        effect) := by
  have echoes (bytes : List Byte) :
      echoTexts platform device call effect.echoes (setEdit (ahead bytes state) effect.edit) =
        (ahead bytes
            (echoTexts platform device call effect.echoes (setEdit state effect.edit)).1,
          (echoTexts platform device call effect.echoes (setEdit state effect.edit)).2) :=
    echoTexts_ahead effect.echoes bytes (setEdit state effect.edit)
  simp only [concluded, echoes]
  rcases echoed : echoTexts platform device call effect.echoes (setEdit state effect.edit) with
    ⟨next, fault | _⟩
  · exact .leave ⟨rfl, fun goes => absurd rfl goes⟩
  · rcases begun.echoed normalized echoed with ⟨begun', kept, -⟩
    have edited : InFront platform call key event single front (setEdit state effect.edit) := comes
    have comes' := edited.extended (echoTexts_extends echoed)
    cases outcome : effect.outcome with
    | proceed => exact .next (.on begun' comes' kept)
    | endOfFile => exact .leave ⟨rfl, fun _ => .comes (.behind comes')⟩
    | ctrlC =>
        have forwarded : InFront platform call key event single front
          { next with read := next.read.forward call.processes .ctrlC } := comes'
        exact .leave ⟨rfl, fun _ => .comes (.behind forwarded)⟩
    | ctrlBreak => exact .leave (answeredAlike_refl _)
    | newline carriageReturn =>
        simp only [conclude_of_newline]
        cases carriageReturn with
        | false => exact endLine_coming comes'
        | true =>
            rw [if_pos rfl, if_pos rfl]
            rcases lookAhead_coming sent sentOnce comes' with
              ⟨front', state', comes'', one, other⟩ | ⟨lf, undrained, one, other⟩
            · rw [one, other]
              exact endLine_coming comes''
            · rw [isLf, Bool.and_eq_true, beq_iff_eq] at lf
              rw [one, other]
              exact endLine_left (EditLine.leavesEmpty honours lf.1 lf.2) undrained

/-- The loops run in step up to the event and over it. -/
theorem coming_together (sent : key.SentAs event) (sentOnce : key.once.SentAs single)
    (honours : key.LineHonours call.mode.processedInput)
    (begun : Begun call state) (comes : InFront platform call key event single front state) :
    EndTogether (body platform device call)
      (AnsweredAlike (PressedInStep platform device call key event single))
      (ahead (front ++ event) state) (ahead (front ++ sentTimes key.count single) state) := by
  induction size : (state.read.pendingPrefix ++ front).length using Nat.strongRecOn
    generalizing front state with
  | ind size' ih =>
      subst size
      rcases Decoder.Alike.nil_or_step comes with none |
        ⟨token, length, inside, decoded, decoded', later⟩
      · rcases List.append_eq_nil_iff.mp none with ⟨undrained, rfl⟩
        have pass : body platform device call (ahead (event ++ []) state) = _ :=
          body_sent sent undrained []
        rw [EditLine.handleToken_times, List.append_nil] at pass
        exact times_together sentOnce (EditLine.completes_none honours) begun undrained pass
      · have positive := (windowDecoder platform call.codePage).positive decoded
        have one : body platform device call (ahead (front ++ event) state) = _ :=
          body_front inside decoded
        have other : body platform device call
            (ahead (front ++ sentTimes key.count single) state) = _ := body_front inside decoded'
        have normalized := begun.normalized.handleToken call.mode.processedInput
          call.processControlZ token
        have begun' : Begun call (undrain state length) :=
          ⟨begun.edits, begun.normalized, begun.completed⟩
        have comes' := InFront.undrain later
        have related : Pass.Related _ _ (concluded platform device call _ _)
            (concluded platform device call _ _) :=
          concluded_coming sent sentOnce honours begun' comes' normalized
        rw [← one, ← other] at related
        generalize pass : body platform device call (ahead (front ++ event) state) = first
          at related
        generalize pass' : body platform device call
          (ahead (front ++ sentTimes key.count single) state) = second at related
        cases related with
        | leave alike => exact .of_leave pass pass' alike
        | next goes =>
            cases goes with
            | @on next begun comes kept =>
                refine .of_paths (.single pass) (.single pass') (ih _ ?_ begun comes rfl)
                rw [kept, stream_front, List.length_drop]
                omega

theorem pressedInStep_bisimulates (sent : key.SentAs event) (sentOnce : key.once.SentAs single)
    (honours : key.LineHonours call.mode.processedInput) :
    Bisimulates (lineRequest platform device call)
      (PressedInStep platform device call key event single) := by
  intro first second related
  cases related with
  | same same => exact .inr same
  | left leaves undrained line cursor => exact left_answers sentOnce leaves undrained line cursor
  | comes coming =>
      cases coming with
      | @behind front state comes =>
          refine .inl (answers_of_together Iff.rfl ?_ ?_)
          · intro edits
            have begun : Begun call (start state) :=
              ⟨edits, EditLine.normalizeCursor_normalized _, rfl⟩
            have comes' : InFront platform call key event single front (start state) := comes
            exact coming_together sent sentOnce honours begun comes'
          · intro _
            simp only [served]
            split
            · exact ⟨rfl, .comes (.behind comes)⟩
            · have comes' : InFront platform call key event single front
                  (setHandle (start state) fun handle => { handle with
                    cookedReadPending := (Delivery.deliverPending platform call.codePage
                      call.unicode call.capacity state.read.handle.cookedReadPending).1 }) := comes
              exact ⟨rfl, .comes (.behind comes')⟩

end Event

section Honoured

variable {key : KeyEvent} {event single after : List Byte}

/-- Line-input reads return the same for the event and for as many events with a count of one, if
the count is honoured. -/
theorem lineRequest_sameData (sent : key.SentAs event) (sentOnce : key.once.SentAs single)
    (honours : key.LineHonours call.mode.processedInput) {state : CookedState}
    (comes : (windowDecoder platform call.codePage).Alike (event ++ after)
      (sentTimes key.count single ++ after) state.read.stream) :
    SameData (lineRequest platform device call) (arrive state (event ++ after))
      (arrive state (sentTimes key.count single ++ after)) := by
  have arrives (bytes : List Byte) : arrive state (bytes ++ after) =
      ahead (state.read.host.inputQueue ++ bytes)
        { state with read := state.read.setQueue after } := by
    simp [arrive, ahead, ReadState.arrive, ReadState.setQueue]
  rw [arrives, arrives]
  have simulates : Bisimulates (lineRequest platform device call) _ :=
    pressedInStep_bisimulates sent sentOnce honours
  exact simulates.sameData (.comes (.behind comes))

end Honoured

end Cooked

end Conhost
