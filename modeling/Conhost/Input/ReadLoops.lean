import Conhost.Input.Lines
import Conhost.Input.Records
import Conhost.Input.UnicodeRead

/-!
# The read loops end

Every pass of a read loop that goes on has taken a token off the bytes that are
drained or queued, so a loop passes at most once over each of them. A line-input
read can also add to them: its echo may be a query that is answered into the
queue. The loops nested in the passes pop the queue in small arrays, look for
Ctrl+C bytes at its front or walk along the line.
-/

namespace Conhost

open Relation (ReflTransGen)

namespace InputQueue

/-- `InputQueue::pop` into an array of `size` bytes: what is copied and what stays. -/
def pop (queue : List Byte) (size : Nat) : List Byte × List Byte :=
  (queue.take size, queue.drop size)

/-- The locals of a loop that takes peeked bytes off the queue. -/
structure Discarding where
  queue : List Byte
  remainingToDiscard : Nat
deriving DecidableEq, Repr

/-- The body of the loops over `remaining_to_discard`; they differ in the size of `discard`. -/
def discardBody (size : Nat) (state : Discarding) : Pass Discarding (List Byte) :=
  if state.remainingToDiscard = 0 then .leave state.queue
  else
    let removed := pop state.queue (min state.remainingToDiscard size)
    if removed.1.length = 0 then .leave removed.2
    else .next ⟨removed.2, state.remainingToDiscard - removed.1.length⟩

/-- A pass that goes on has popped some bytes. -/
theorem discardBody_next {size : Nat} {state next : Discarding}
    (pass : discardBody size state = .next next) :
    next.queue.length < state.queue.length := by
  simp only [discardBody] at pass
  split at pass
  · cases pass
  · split at pass
    · cases pass
    · rename_i some
      cases pass
      simp only [pop, List.length_take, List.length_drop] at some ⊢
      omega

def discardLoop (size : Nat) : Loop Discarding (List Byte) where
  body := discardBody size
  measure state := state.queue.length
  decreases := discardBody_next

/-- However small the array is, the bytes are taken off one after the other. -/
theorem discardLoop_run {size : Nat} (positive : 0 < size) (state : Discarding) :
    (discardLoop size).run state = state.queue.drop state.remainingToDiscard := by
  let Holds (state : Discarding) (value : List Byte) : Prop :=
    value = state.queue.drop state.remainingToDiscard
  change Holds state _
  apply (discardLoop size).run_induction
  · intro state value pass
    simp only [discardLoop, discardBody] at pass
    split at pass
    · rename_i nothing
      cases pass
      simp [Holds, nothing]
    · rename_i remaining
      split at pass
      · rename_i none
        cases pass
        have empty : state.queue = [] := by
          simp only [pop, List.length_take] at none
          apply List.eq_nil_of_length_eq_zero
          omega
        simp [Holds, pop, empty]
      · cases pass
  · intro state next value pass holds
    simp only [discardLoop, discardBody] at pass
    split at pass
    · cases pass
    · split at pass
      · cases pass
      · cases pass
        simp only [Holds, pop, List.drop_drop, List.length_take] at holds ⊢
        rw [holds]
        rcases Nat.le_total (min state.remainingToDiscard size) state.queue.length with
          filled | short
        · congr 1
          omega
        · rw [List.drop_eq_nil_of_le, List.drop_eq_nil_of_le] <;> omega

end InputQueue

namespace ReadState

open InputQueue (discardLoop discardLoop_run)

/-- What `consume_from_stream` does to the queue in its loop. -/
theorem consume_eq_discard {size : Nat} (positive : 0 < size) (state : ReadState) (count : Nat) :
    state.consume count =
      (state.setPrefix (state.handle.pendingInputBytes.consumePrefix count)).setQueue
        ((discardLoop size).run
          ⟨state.host.inputQueue, count - min count state.pendingPrefix.length⟩) := by
  rw [discardLoop_run positive]
  rfl

/-- What the loops that keep an unfinished token do to the queue. -/
theorem drain_eq_discard {size : Nat} (positive : 0 < size) (state : ReadState) (peeked : Nat) :
    state.drain peeked =
      match state.handle.pendingInputBytes.append (state.host.inputQueue.take peeked) with
      | some bytes =>
          (state.setPrefix bytes).setQueue ((discardLoop size).run
            ⟨state.host.inputQueue, (state.host.inputQueue.take peeked).length⟩)
      | none => state := by
  have popped : state.host.inputQueue.drop (state.host.inputQueue.take peeked).length =
      state.host.inputQueue.drop peeked := by
    rw [List.length_take]
    rcases Nat.le_total peeked state.host.inputQueue.length with filled | short
    · rw [Nat.min_eq_left filled]
    · rw [Nat.min_eq_right short, List.drop_length, List.drop_eq_nil_of_le short]
  unfold drain
  cases state.handle.pendingInputBytes.append (state.host.inputQueue.take peeked) with
  | none => rfl
  | some bytes =>
      rw [discardLoop_run positive, popped]

/-- The body of the loop that takes Ctrl+C bytes off the front of the queue. -/
def stripBody (processes : List UInt32) (state : ReadState) : Pass ReadState ReadState :=
  match state.host.inputQueue with
  | [] => .leave state
  | first :: rest =>
      if first = 3 then .next ((state.setQueue rest).forward processes .ctrlC)
      else .leave state

theorem stripBody_next {processes : List UInt32} {state next : ReadState}
    (pass : stripBody processes state = .next next) :
    state.host.inputQueue = 3 :: next.host.inputQueue ∧
      next = (state.setQueue next.host.inputQueue).forward processes .ctrlC := by
  simp only [stripBody] at pass
  split at pass
  · cases pass
  · rename_i first rest queue
    split at pass
    · rename_i ctrlC
      cases pass
      rw [queue, ctrlC]
      exact ⟨rfl, rfl⟩
    · cases pass

theorem stripBody_decreases {processes : List UInt32} {state next : ReadState}
    (pass : stripBody processes state = .next next) :
    next.stream.length < state.stream.length := by
  obtain ⟨queue, same⟩ := stripBody_next pass
  have kept : next.pendingPrefix = state.pendingPrefix := by
    rw [same]
    rfl
  simp only [stream, List.length_append, kept, queue, List.length_cons]
  omega

def stripLoop (processes : List UInt32) : Loop ReadState ReadState where
  body := stripBody processes
  measure state := state.stream.length
  decreases := stripBody_decreases

theorem stripLoop_run (processes : List UInt32) (state : ReadState) :
    (stripLoop processes).run state = state.stripCtrlC processes := by
  let Holds (state value : ReadState) : Prop := value = state.stripCtrlC processes
  change Holds state _
  apply (stripLoop processes).run_induction
  · intro state value pass
    simp only [stripLoop, stripBody] at pass
    split at pass
    · rename_i queue
      cases pass
      exact (state.stripCtrlC_of_head processes (by simp [queue])).symm
    · rename_i first rest queue
      split at pass
      · cases pass
      · rename_i other
        cases pass
        exact (state.stripCtrlC_of_head processes (by simpa [queue] using other)).symm
  · intro state next value pass holds
    obtain ⟨queue, same⟩ := stripBody_next pass
    generalize next.host.inputQueue = rest at queue same
    subst same
    simp only [Holds] at holds ⊢
    rw [holds]
    simp [stripCtrlC, queue, setQueue, forward, HostIo.forward]

end ReadState

namespace EditLine

variable (edit : EditLine) (delimiter : Bool)

/-- The body of the loops of `word_prev`. -/
def backBody (position : Nat) : Pass Nat Nat :=
  if position = 0 then .leave 0
  else if edit.isWordDelimiter (edit.prevIndex position) == delimiter then
    .next (edit.prevIndex position)
  else .leave position

/-- The body of the loops of `word_next`. -/
def forwardBody (position : Nat) : Pass Nat Nat :=
  if edit.line.length ≤ position then .leave position
  else if edit.isWordDelimiter position == delimiter then .next (edit.nextIndex position)
  else .leave position

theorem prevIndex_lt {position : Nat} (positive : 0 < position) :
    edit.prevIndex position < position := by
  simp only [prevIndex]
  split <;> omega

theorem lt_nextIndex {position : Nat} (inLine : position < edit.line.length) :
    position < edit.nextIndex position := by
  simp only [nextIndex]
  split
  · omega
  · split <;> omega

theorem backBody_terminates (position : Nat) :
    Terminates (edit.backBody delimiter) id position := by
  apply Terminates.of_decreases
  intro state next _ pass
  simp only [Continues, backBody] at pass
  split at pass
  · cases pass
  · rename_i positive
    split at pass
    · cases pass
      exact edit.prevIndex_lt (Nat.pos_of_ne_zero positive)
    · cases pass

theorem forwardBody_terminates (position : Nat) :
    Terminates (edit.forwardBody delimiter) (edit.line.length - ·) position := by
  apply Terminates.of_decreases
  intro state next _ pass
  simp only [Continues, forwardBody] at pass
  split at pass
  · cases pass
  · rename_i inLine
    split at pass
    · cases pass
      have further := edit.lt_nextIndex (Nat.not_le.mp inLine)
      change edit.line.length - edit.nextIndex state < edit.line.length - state
      omega
    · cases pass

/-- The bound on the steps of `backWhile` is never reached. -/
theorem iterate_backBody {fuel position : Nat} (enough : position ≤ fuel) :
    iterate (edit.backBody delimiter) (fuel + 1) position =
      some (edit.backWhile delimiter fuel position) := by
  induction fuel generalizing position with
  | zero =>
      obtain rfl := Nat.le_zero.mp enough
      rfl
  | succ fuel hypothesis =>
      rw [iterate, backBody, backWhile]
      split_ifs with atFront sort
      · rfl
      · have nearer := edit.prevIndex_lt (Nat.pos_of_ne_zero atFront)
        exact hypothesis (by omega)
      · rfl

theorem iterate_forwardBody {fuel position : Nat} (enough : edit.line.length - position ≤ fuel) :
    iterate (edit.forwardBody delimiter) (fuel + 1) position =
      some (edit.forwardWhile delimiter fuel position) := by
  induction fuel generalizing position with
  | zero =>
      rw [iterate, forwardBody, forwardWhile, if_pos (by omega)]
  | succ fuel hypothesis =>
      rw [iterate, forwardBody, forwardWhile]
      split_ifs with atEnd sort
      · rfl
      · have further := edit.lt_nextIndex (Nat.not_le.mp atEnd)
        exact hypothesis (by omega)
      · rfl

end EditLine

namespace Cooked

variable (platform : Platform) (device : Device) (call : CookedCall)

/-- The bytes that arrive while a pass that goes on shows its edits. -/
def passAnswers (state : CookedState) : List Byte :=
  match platform.decodeOneInputToken call.codePage state.read.peekHead with
  | .needMore => []
  | .token token length =>
      let taken : CookedState := { state with read := state.read.consume length }
      let effect := effect call (editLine taken.read.handle) token
      answers platform device call effect.echoes (setEdit taken effect.edit)

/-- No byte arrives during the loop: none of its passes has a query answered into the queue. -/
def Quiet (start : CookedState) : Prop :=
  ∀ {state}, ReflTransGen (Continues (body platform device call)) start state →
    passAnswers platform device call state = []

variable {platform device call}

theorem conclude_next {state next : CookedState} {outcome : EditLine.Outcome}
    (pass : conclude platform device call state outcome = .next next) : next = state := by
  cases outcome with
  | proceed =>
      cases pass
      rfl
  | endOfFile => cases pass
  | ctrlC => cases pass
  | ctrlBreak => cases pass
  | newline carriageReturn =>
      simp only [conclude] at pass
      split at pass <;> cases pass

/-- A pass that goes on takes a token off the stream and shows the edits of the token. -/
theorem body_next {state next : CookedState}
    (pass : body platform device call state = .next next) :
    ∃ token length,
      platform.decodeOneInputToken call.codePage state.read.peekHead = .token token length ∧
        echoTexts platform device call
          (effect call (editLine (state.read.consume length).handle) token).echoes
          (setEdit { state with read := state.read.consume length }
            (effect call (editLine (state.read.consume length).handle) token).edit) =
          (next, .ok ()) := by
  simp only [body] at pass
  split at pass
  · cases pass
  · split at pass
    · cases pass
    · rename_i token length decoded
      refine ⟨token, length, decoded, ?_⟩
      simp only [handleToken] at pass
      split at pass
      · cases pass
      · rename_i shown echoed
        rw [conclude_next pass]
        exact echoed

/-- The answers of a pass are appended to what it leaves of the stream. -/
theorem body_next_stream {state next : CookedState}
    (pass : body platform device call state = .next next) :
    ∃ token length,
      platform.decodeOneInputToken call.codePage state.read.peekHead = .token token length ∧
        next.read.stream =
          state.read.stream.drop length ++ passAnswers platform device call state := by
  obtain ⟨token, length, decoded, echoed⟩ := body_next pass
  refine ⟨token, length, decoded, ?_⟩
  have stream : (echoTexts platform device call
      (effect call (editLine (state.read.consume length).handle) token).echoes
      (setEdit { state with read := state.read.consume length }
        (effect call (editLine (state.read.consume length).handle) token).edit)).1.read.stream =
          _ :=
    stream_echoTexts _ _
  rw [echoed] at stream
  rw [stream, passAnswers, decoded]
  exact congrArg (· ++ _) (state.read.stream_consume length)

/-- What a pass takes is at least one byte. -/
theorem body_decreases {state next : CookedState}
    (pass : body platform device call state = .next next) :
    next.read.stream.length <
      state.read.stream.length + (passAnswers platform device call state).length := by
  obtain ⟨token, length, decoded, stream⟩ := body_next_stream pass
  have positive := Platform.decodeOneInputToken_positive decoded
  have bounded := Platform.decodeOneInputToken_bounded decoded
  rw [ReadState.peekHead_eq, List.length_take] at bounded
  rw [stream, List.length_append, List.length_drop]
  omega

theorem body_terminates {start : CookedState} (quiet : Quiet platform device call start) :
    Terminates (body platform device call) (·.read.stream.length) start := by
  apply Terminates.of_decreases
  intro state next path pass
  have smaller := body_decreases pass
  rwa [quiet path, List.length_nil, Nat.add_zero] at smaller

theorem answers_eq_nil (texts : List (List WChar)) {state : CookedState}
    (unanswered : Unanswered call state) : answers platform device call texts state = [] := by
  induction texts generalizing state with
  | nil => rfl
  | cons text later hypothesis =>
      have silent : textAnswers call text state = [] := by
        simp only [textAnswers]
        split
        · rfl
        · rename_i active
          simp only [Bool.or_eq_true, not_or, Bool.not_eq_true', Bool.not_eq_false] at active
          exact showAnswers_eq_nil active.1 unanswered text
      have kept : SameInput state (echoText platform device call text state).1 :=
        echoText_sameInput unanswered text
      simp only [answers, silent, List.nil_append]
      split
      · rename_i next echoed
        rw [echoed] at kept
        exact hypothesis (kept.unanswered unanswered)
      · rfl

theorem Unanswered.next {state next : CookedState} (unanswered : Unanswered call state)
    (pass : body platform device call state = .next next) : Unanswered call next := by
  obtain ⟨token, length, -, echoed⟩ := body_next pass
  have same : SameInput _ (echoTexts platform device call
      (effect call (editLine (state.read.consume length).handle) token).echoes
      (setEdit { state with read := state.read.consume length }
        (effect call (editLine (state.read.consume length).handle) token).edit)).1 :=
    echoTexts_sameInput _ unanswered
  rw [echoed] at same
  exact same.unanswered unanswered

/-- Without an echo, or with an output target that answers its queries, nothing arrives. -/
theorem Unanswered.quiet {start : CookedState} (unanswered : Unanswered call start) :
    Quiet platform device call start := by
  intro state path
  have kept : Unanswered call state := by
    induction path with
    | refl => exact unanswered
    | tail _ pass hypothesis => exact hypothesis.next pass
  simp only [passAnswers]
  split
  · rfl
  · exact answers_eq_nil _ kept

/-- A line-input read during which nothing arrives returns. -/
theorem readConsole_ends {state : CookedState} (quiet : Quiet platform device call (start state)) :
    ∃ passes ≤ state.read.stream.length + 1, ∃ result,
      readConsole platform device call passes state = some result := by
  by_cases room : call.capacity = 0
  · exact ⟨0, Nat.zero_le _, _, by rw [readConsole, if_pos room]⟩
  · by_cases waiting : state.read.handle.cookedReadPending = []
    · obtain ⟨passes, few, result, ends⟩ := (body_terminates quiet).ends
      exact ⟨passes, few, result, by rw [readConsole_iterate room waiting]; exact ends⟩
    · exact ⟨0, Nat.zero_le _, _, readConsole_deliver room waiting 0⟩

end Cooked

/-- From every state the loops of the reads and of the line editor end, and every pass of a read
that goes on leaves fewer bytes drained or queued: a pass of a line-input read fewer than it found
and had answered, so that its loop ends unless bytes keep arriving. -/
theorem readLoops_terminate (platform : Platform) (device : Device) :
    (∀ size state, Terminates (InputQueue.discardBody size) (·.queue.length) state) ∧
    (∀ processes state, Terminates (ReadState.stripBody processes) (·.stream.length) state) ∧
    (∀ call scan, Terminates (Records.scanBody platform call) (·.rest.length) scan) ∧
    (∀ call state, Terminates (Records.getBody platform call) (·.stream.length) state) ∧
    (∀ call loop, Terminates (UnicodeRead.body platform call) (·.state.stream.length) loop) ∧
    (∀ call controlZ loop,
      Terminates (ByteRead.body platform call controlZ) (·.state.stream.length) loop) ∧
    (∀ (edit : EditLine) delimiter position,
      Terminates (edit.backBody delimiter) id position ∧
        Terminates (edit.forwardBody delimiter) (edit.line.length - ·) position) ∧
    (∀ call state next, Continues (Cooked.body platform device call) state next →
      next.read.stream.length <
        state.read.stream.length + (Cooked.passAnswers platform device call state).length) ∧
    ∀ call state, Cooked.Quiet platform device call state →
      Terminates (Cooked.body platform device call) (·.read.stream.length) state := by
  refine ⟨?_, ?_, ?_, ?_, ?_, ?_, ?_, ?_, ?_⟩
  · intro size state
    exact (InputQueue.discardLoop size).terminates state
  · intro processes state
    exact (ReadState.stripLoop processes).terminates state
  · intro call scan
    exact (Records.scanLoop platform call).terminates scan
  · intro call state
    exact (Records.getLoop platform call).terminates state
  · intro call loop
    exact (UnicodeRead.readLoop platform call).terminates loop
  · intro call controlZ loop
    exact (ByteRead.readLoop platform call controlZ).terminates loop
  · intro edit delimiter position
    refine ⟨edit.backBody_terminates delimiter position, ?_⟩
    exact edit.forwardBody_terminates delimiter position
  · intro call state next pass
    exact Cooked.body_decreases pass
  · intro call state quiet
    exact Cooked.body_terminates quiet

/-- A line that is echoed to an output target. -/
def echoingCall : CookedCall := { mode := ⟨6⟩, capacity := 16 }

def echoingState : CookedState where
  read.host := { inputQueue := [0x61, 0x08, 0x0d, 0x0a] }

theorem readLoops_terminate_echoing :
    Cooked.Quiet .utf8 ⟨fun _ _ => false⟩ echoingCall echoingState ∧
      Terminates (Cooked.body .utf8 ⟨fun _ _ => false⟩ echoingCall) (·.read.stream.length)
        echoingState := by
  have quiet : Cooked.Quiet .utf8 ⟨fun _ _ => false⟩ echoingCall echoingState :=
    Cooked.Unanswered.quiet (.inr (.inl rfl))
  have loops := readLoops_terminate .utf8 ⟨fun _ _ => false⟩
  exact ⟨quiet, loops.2.2.2.2.2.2.2.2 echoingCall echoingState quiet⟩

end Conhost
