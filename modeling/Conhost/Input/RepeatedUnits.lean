import Conhost.Input.Repeats

/-!
# Repeated keys in Unicode reads

A raw Unicode read takes a key event with a repeat count for the same units as
that many events with a count of one, if its buffer has room for them.
-/

namespace Conhost

namespace UnicodeRead

open ReadState

variable {platform : Platform} {call : ReadCall}

theorem body_twin (state : ReadState) (tasks : List (UInt32 × ControlEvent))
    (written : List WChar) :
    Pass.Related (LoopTwin LoopState.state LoopState.written) (AnsweredAlike Twin)
      (body platform call ⟨state, written⟩)
      (body platform call ⟨state.withTasks tasks, written⟩) := by
  by_cases full : maxUnits call ≤ written.length
  · rw [body, body, if_pos full, if_pos full]
    exact .leave ⟨rfl, tasks, rfl⟩
  · replace full := Nat.not_le.mp full
    cases decoded : (windowDecoder platform call.codePage).decode state.stream with
    | needMore =>
        change platform.decodeOneInputToken call.codePage (state.stream.take 64) = _ at decoded
        rw [← ReadState.peekHead_eq] at decoded
        have decoded' : platform.decodeOneInputToken call.codePage
            (state.withTasks tasks).peekHead = .needMore := decoded
        have exhausted : (state.withTasks tasks).exhausted = state.exhausted := rfl
        have pendingPrefix : (state.withTasks tasks).pendingPrefix = state.pendingPrefix := rfl
        simp only [body, if_neg (Nat.not_le.mpr full), decoded, decoded', exhausted, pendingPrefix,
          drain_withTasks]
        split
        · split
          · exact .leave ⟨rfl, tasks, rfl⟩
          · exact .leave (wait_twin state tasks)
        · split
          · exact .leave ⟨rfl, tasks, rfl⟩
          · exact .leave (wait_twin _ tasks)
    | token token length =>
        have one : body platform call ⟨state, written⟩ =
            perform call ⟨state, written⟩ length (action call token) := body_token full decoded
        have other : body platform call ⟨state.withTasks tasks, written⟩ =
            perform call ⟨state.withTasks tasks, written⟩ length (action call token) :=
          body_token full decoded
        rw [one, other]
        cases action call token with
        | skip => exact .next ⟨rfl, tasks, rfl⟩
        | ctrlC => exact .next ⟨rfl, _, rfl⟩
        | interrupt => exact .leave ⟨rfl, _, rfl⟩
        | key unit count => exact .next ⟨rfl, tasks, rfl⟩
        | text units =>
            have exhausted : ((state.withTasks tasks).consume length).exhausted =
                (state.consume length).exhausted := rfl
            simp only [perform, exhausted]
            split
            · exact .leave ⟨rfl, tasks, rfl⟩
            · split
              · exact .leave ⟨rfl, tasks, rfl⟩
              · exact .next ⟨rfl, tasks, rfl⟩

theorem readLoop_twin (state : ReadState) (tasks : List (UInt32 × ControlEvent))
    (written : List WChar) :
    AnsweredAlike Twin ((readLoop platform call).run ⟨state, written⟩)
      ((readLoop platform call).run ⟨state.withTasks tasks, written⟩) := by
  have keeps {first second : LoopState}
      (twin : LoopTwin LoopState.state LoopState.written first second) :
      Pass.Related (LoopTwin LoopState.state LoopState.written) (AnsweredAlike Twin)
        (body platform call first)
        (body platform call second) := by
    rcases first with ⟨first, written⟩
    rcases second with ⟨second, others⟩
    rcases twin with ⟨rfl, tasks, rfl⟩
    exact body_twin first tasks written
  exact (readLoop platform call).run_related keeps ⟨rfl, tasks, rfl⟩

theorem rawUnicodeRead_twin (room : call.capacity ≠ 0) (state : ReadState)
    (tasks : List (UInt32 × ControlEvent)) :
    AnsweredAlike Twin (rawUnicodeRead platform call state)
      (rawUnicodeRead platform call (state.withTasks tasks)) := by
  rcases prepared_twin call state tasks with ⟨tasks', twin⟩
  rw [rawUnicodeRead_eq room, rawUnicodeRead_eq room, twin]
  generalize ByteRead.prepared call state = ready
  have exhausted : (ready.withTasks tasks').exhausted = ready.exhausted := rfl
  have front : ByteRead.controlZAtFront call (ready.withTasks tasks') =
      ByteRead.controlZAtFront call ready := rfl
  have held : (ready.withTasks tasks').handle = ready.handle := rfl
  simp only [exhausted, front, held]
  split
  · exact wait_twin ready tasks'
  · split
    · exact ⟨rfl, tasks', rfl⟩
    · split
      · exact ⟨rfl, tasks', rfl⟩
      · exact readLoop_twin (ready.setHeld none) tasks' _

/-- The reads come to the event with room for all that is in front of it, and for the event. -/
structure Comes (platform : Platform) (call : ReadCall) (one other : List Byte)
    (state : ReadState) : Prop where
  faces : Faces true (windowDecoder platform call.codePage) call one other state
  room : 1 + maxRepeat * (state.stream.length + 1) ≤ maxUnits call

theorem room_after {written units stream rest room : Nat} (most : Nat)
    (enough : written + most * (stream + 1) ≤ room) (small : units ≤ most)
    (shorter : rest + 1 ≤ stream) : written + units + most * (rest + 1) ≤ room := by
  have product := Nat.mul_le_mul_left most shorter
  rw [Nat.mul_succ] at enough
  omega

section Ahead

variable {key : KeyEvent} {event single after : List Byte} (sent : key.SentAs event)
  (sentOnce : key.once.SentAs single)

theorem length_units_le (call : ReadCall) (token : Token) {bytes : List Byte} {length : Nat}
    (found : (windowDecoder platform call.codePage).decode bytes = .token token length) :
    (action call token).units.length ≤ maxRepeat := by
  cases token with
  | ignoredSequence => simp [action, Action.units]
  | keyEvent key =>
      have bound := key.count_le
      rw [KeyEvent.count] at bound
      simp only [action, keyAction]
      repeat' split
      all_goals simp [Action.units]
      omega
  | textUnits chars =>
      have short := (Platform.decodeOneInputToken_text found).2
      simp only [action]
      split
      · simp [Action.units]
      · change chars.length ≤ maxRepeat
        rw [maxRepeat]
        omega

/-- The event is taken like as many events with a count of one. -/
theorem action_once (call : ReadCall) (key : KeyEvent) :
    (action call (.keyEvent key) = .key key.unicodeChar key.count ∧
      action call (.keyEvent key.once) = .key key.unicodeChar 1) ∨
    action call (.keyEvent key.once) = action call (.keyEvent key) ∧
      (action call (.keyEvent key) = .skip ∨ action call (.keyEvent key) = .ctrlC ∨
        action call (.keyEvent key) = .interrupt) := by
  have matchesBreak : key.once.matchesCtrlBreak = key.matchesCtrlBreak := rfl
  have matchesC : key.once.matchesCtrlC = key.matchesCtrlC := rfl
  have down : key.once.keyDown = key.keyDown := rfl
  have unit : key.once.unicodeChar = key.unicodeChar := rfl
  simp only [action, keyAction, matchesBreak, matchesC, down, unit]
  repeat' split
  · exact .inr ⟨rfl, .inr (.inr rfl)⟩
  · exact .inr ⟨rfl, .inr (.inl rfl)⟩
  · exact .inr ⟨rfl, .inl rfl⟩
  · exact .inr ⟨rfl, .inl rfl⟩
  · exact .inl ⟨rfl, rfl⟩

variable {state : ReadState}

theorem body_front (platform : Platform) {key : KeyEvent} {bytes : List Byte}
    (sent : key.SentAs bytes) {written : List WChar} (room : written.length < maxUnits call)
    (more : List Byte)
    (empty : state.stream = []) :
    body platform call ⟨state.arrive (bytes ++ more), written⟩ =
      perform call ⟨state.arrive (bytes ++ more), written⟩ bytes.length
        (action call (.keyEvent key)) := by
  refine body_token room ?_
  change (windowDecoder platform call.codePage).decode (state.arrive (bytes ++ more)).stream = _
  rw [ReadState.stream_arrive, empty, List.nil_append]
  exact sent.token platform call.codePage more

include sentOnce

theorem run_units {unit : WChar} (does : action call (.keyEvent key.once) = .key unit 1)
    (empty : state.stream = []) (count : Nat) (written : List WChar)
    (room : written.length + count ≤ maxUnits call) :
    (readLoop platform call).run ⟨state.arrive (sentTimes count single ++ after), written⟩ =
      (readLoop platform call).run ⟨state.arrive after, written ++ List.replicate count unit⟩ := by
  induction count generalizing written with
  | zero => simp
  | succ count hypothesis =>
      have vacant : written.length < maxUnits call := by omega
      have pass := body_front platform sentOnce vacant
        (sentTimes count single ++ after) empty
      have fits : min 1 (maxUnits call - written.length) = 1 := by omega
      simp only [does, perform, fits, consume_front empty, List.replicate_one] at pass
      rw [sentTimes_succ, List.append_assoc, (readLoop platform call).run_of_next pass,
        hypothesis (written ++ [unit]) (by simp; omega)]
      simp [List.replicate_succ]

theorem run_skips (does : action call (.keyEvent key.once) = .skip) (empty : state.stream = [])
    (count : Nat) (written : List WChar) (room : written.length < maxUnits call) :
    (readLoop platform call).run ⟨state.arrive (sentTimes count single ++ after), written⟩ =
      (readLoop platform call).run ⟨state.arrive after, written⟩ := by
  induction count with
  | zero => simp
  | succ count hypothesis =>
      have pass := body_front platform sentOnce room
        (sentTimes count single ++ after) empty
      simp only [does, perform, LoopState.consume, consume_front empty] at pass
      rw [sentTimes_succ, List.append_assoc, (readLoop platform call).run_of_next pass, hypothesis]

theorem run_forwards (does : action call (.keyEvent key.once) = .ctrlC)
    (empty : state.stream = []) (count : Nat) (written : List WChar)
    (room : written.length < maxUnits call) :
    ∃ tasks, (readLoop platform call).run
        ⟨state.arrive (sentTimes count single ++ after), written⟩ =
      (readLoop platform call).run ⟨(state.arrive after).withTasks tasks, written⟩ := by
  induction count generalizing state with
  | zero => exact ⟨state.host.endTasks, by simp; rfl⟩
  | succ count hypothesis =>
      have pass := body_front platform sentOnce room
        (sentTimes count single ++ after) empty
      simp only [does, perform, LoopState.consume, consume_front empty,
        LoopState.forward] at pass
      have empty' : (state.forward call.processes .ctrlC).stream = [] := empty
      rcases hypothesis empty' with ⟨tasks, run⟩
      refine ⟨tasks, ?_⟩
      rw [sentTimes_succ, List.append_assoc, (readLoop platform call).run_of_next pass]
      exact run

include sent

/-- At the event. -/
theorem run_event (empty : state.stream = []) (written : List WChar)
    (room : written.length + maxRepeat ≤ maxUnits call) :
    AnsweredAlike Twin ((readLoop platform call).run ⟨state.arrive (event ++ after), written⟩)
      ((readLoop platform call).run
        ⟨state.arrive (sentTimes key.count single ++ after), written⟩) := by
  have few := key.count_le
  have some := key.count_pos
  have vacant : written.length < maxUnits call := by omega
  have pass := body_front platform sent vacant after empty
  rcases action_once call key with ⟨does, doesOnce⟩ | ⟨same, does | does | does⟩
  · have fits : min key.count (maxUnits call - written.length) = key.count := by omega
    simp only [does, perform, fits, consume_front empty] at pass
    rw [(readLoop platform call).run_of_next pass,
      run_units sentOnce doesOnce empty key.count written (by omega)]
    exact ⟨rfl, .refl _⟩
  · simp only [does, perform, LoopState.consume, consume_front empty] at pass
    rw [(readLoop platform call).run_of_next pass,
      run_skips sentOnce (same.trans does) empty key.count written vacant]
    exact ⟨rfl, .refl _⟩
  · simp only [does, perform, LoopState.consume, consume_front empty, LoopState.forward] at pass
    rcases run_forwards sentOnce (same.trans does) empty key.count written vacant with
      ⟨tasks, run⟩
    rw [(readLoop platform call).run_of_next pass, run]
    exact readLoop_twin ((state.arrive after).forward call.processes .ctrlC) tasks written
  · rcases Nat.exists_eq_succ_of_ne_zero (Nat.ne_of_gt some) with ⟨fewer, count⟩
    have pass' := body_front platform sentOnce vacant (sentTimes fewer single ++ after) empty
    simp only [does, perform, consume_front empty] at pass
    simp only [same, does, perform, consume_front empty] at pass'
    rw [count, sentTimes_succ, List.append_assoc, (readLoop platform call).run_of_leave pass,
      (readLoop platform call).run_of_leave pass']
    exact ⟨rfl, .refl _⟩

/-- Up to the event, and over it. -/
theorem run_ahead {written : List WChar}
    (alike : (windowDecoder platform call.codePage).Alike (event ++ after)
      (sentTimes key.count single ++ after) state.stream)
    (room : written.length + maxRepeat * (state.stream.length + 1) ≤ maxUnits call) :
    AnsweredAlike Twin ((readLoop platform call).run ⟨state.arrive (event ++ after), written⟩)
      ((readLoop platform call).run
        ⟨state.arrive (sentTimes key.count single ++ after), written⟩) := by
  generalize stream : state.stream = bytes at alike room
  induction alike generalizing state written with
  | here => exact run_event sent sentOnce stream written (by simpa using room)
  | @step bytes token length inside decoded decoded' later hypothesis =>
      subst stream
      have positive := (windowDecoder platform call.codePage).positive decoded
      have vacant : written.length < maxUnits call := by
        have some : 0 < maxRepeat * (state.stream.length + 1) := Nat.mul_pos (by decide) (by simp)
        omega
      have shorter : (state.stream.drop length).length + 1 ≤ state.stream.length := by
        rw [List.length_drop]
        omega
      have onwards {read : ReadState} {units : List WChar}
          (rest : read.stream = state.stream.drop length) (small : units.length ≤ maxRepeat) :
          AnsweredAlike Twin
            ((readLoop platform call).run ⟨read.arrive (event ++ after), written ++ units⟩)
            ((readLoop platform call).run
              ⟨read.arrive (sentTimes key.count single ++ after), written ++ units⟩) := by
        have enough := room_after maxRepeat room small shorter
        rw [← List.length_append] at enough
        exact hypothesis rest enough
      have one : body platform call ⟨state.arrive (event ++ after), written⟩ =
          perform call ⟨state.arrive (event ++ after), written⟩ length (action call token) :=
        body_token vacant (by rw [ReadState.stream_arrive]; exact decoded)
      have other : body platform call
          ⟨state.arrive (sentTimes key.count single ++ after), written⟩ =
            perform call ⟨state.arrive (sentTimes key.count single ++ after), written⟩ length
              (action call token) :=
        body_token vacant (by rw [ReadState.stream_arrive]; exact decoded')
      have consumed := state.stream_consume length
      have short := length_units_le call token decoded
      cases does : action call token with
      | skip =>
          simp only [does, perform, LoopState.consume, consume_arrive inside] at one other
          rw [(readLoop platform call).run_of_next one, (readLoop platform call).run_of_next other]
          have later := onwards consumed (List.length_nil.trans_le (Nat.zero_le _))
          rwa [List.append_nil] at later
      | ctrlC =>
          simp only [does, perform, LoopState.consume, LoopState.forward,
            consume_arrive inside] at one other
          rw [(readLoop platform call).run_of_next one, (readLoop platform call).run_of_next other]
          have forwarded : ((state.consume length).forward call.processes .ctrlC).stream =
              state.stream.drop length := consumed
          have later := onwards forwarded (List.length_nil.trans_le (Nat.zero_le _))
          rwa [List.append_nil] at later
      | interrupt =>
          simp only [does, perform, consume_arrive inside] at one other
          rw [(readLoop platform call).run_of_leave one,
            (readLoop platform call).run_of_leave other]
          exact ⟨rfl, .refl _⟩
      | key unit count =>
          rw [does] at short
          have fits : min count (maxUnits call - written.length) = count := by
            have enough := room_after maxRepeat room short shorter
            simp only [Action.units, List.length_replicate] at enough
            omega
          simp only [does, perform, fits, consume_arrive inside] at one other
          rw [(readLoop platform call).run_of_next one, (readLoop platform call).run_of_next other]
          exact onwards consumed short
      | text units =>
          rw [does] at short
          have fits : ¬maxUnits call - written.length < units.length := by
            have enough := room_after maxRepeat room short shorter
            simp only [Action.units] at enough
            omega
          have unread {more : List Byte} (some : more ≠ []) :
              ((state.consume length).arrive more).exhausted = false := by
            rw [ReadState.exhausted_eq_false_iff, ReadState.stream_arrive]
            simp [some]
          have waits : event ++ after ≠ [] := by simp [sent.nonempty]
          have waits' := sentTimes_ne_nil sentOnce key.count_pos after
          simp only [does, perform, if_neg fits, consume_arrive inside, unread waits, unread waits',
            Bool.false_eq_true, if_false] at one other
          rw [(readLoop platform call).run_of_next one, (readLoop platform call).run_of_next other]
          exact onwards consumed short

/-- A read of one state is answered like a read of the other. -/
theorem rawUnicodeRead_inStep (room : call.capacity ≠ 0)
    {first second : ReadState}
    (inStep : InStep (Comes platform call) (event ++ after) (sentTimes key.count single ++ after)
      first second) :
    AnsweredAlike
      (InStep (Comes platform call) (event ++ after) (sentTimes key.count single ++ after))
      (rawUnicodeRead platform call first) (rawUnicodeRead platform call second) := by
  have waits : event ++ after ≠ [] := by simp [sent.nonempty]
  have waits' := sentTimes_ne_nil sentOnce key.count_pos after
  cases inStep with
  | twin _ tasks =>
      rcases rawUnicodeRead_twin room first tasks with ⟨replies, tasks, related⟩
      exact ⟨replies, related ▸ .twin _ tasks⟩
  | @ahead state comes =>
      have faces := comes.faces.takes (.ctrlC state rfl)
      have enough : 1 + maxRepeat * ((ByteRead.prepared call state).stream.length + 1) ≤
          maxUnits call := by
        have size := ByteRead.length_prepared_le call state
        have product := Nat.mul_le_mul_left maxRepeat (Nat.succ_le_succ size)
        have some := comes.room
        simp only [Nat.succ_eq_add_one] at product
        omega
      rw [rawUnicodeRead_eq room, rawUnicodeRead_eq room,
        prepared_arrive_of_head call state waits (sent.head (by decide) (by decide) after),
        prepared_arrive_of_head call state waits'
          (head_sentTimes sentOnce (by decide) (by decide) key.count_pos after)]
      generalize ByteRead.prepared call state = ready at faces enough
      have units : maxUnits call ≠ 0 := by omega
      have unread {more : List Byte} (some : more ≠ []) :
          (ready.arrive more).exhausted = false := by
        rw [ReadState.exhausted_eq_false_iff, ReadState.stream_arrive]
        simp [some]
      simp only [unread waits, unread waits', Bool.false_and, Bool.false_eq_true, if_false,
        if_neg units]
      have front := controlZAtFront_arrive call ready
        (sent.head (by decide) (by decide) after)
      have front' := controlZAtFront_arrive call ready
        (head_sentTimes sentOnce (by decide) (by decide) key.count_pos after)
      rw [front, front']
      split
      · rename_i atFront
        refine ⟨rfl, ?_⟩
        rw [setQueue_tail_arrive call atFront, setQueue_tail_arrive call atFront]
        refine .ahead ⟨faces.takes (.controlZ rfl atFront), ?_⟩
        have shorter : (ready.setQueue ready.host.inputQueue.tail).stream.length ≤
            ready.stream.length := by
          simp [ReadState.stream, ReadState.setQueue, ReadState.pendingPrefix]
        have product := Nat.mul_le_mul_left maxRepeat (Nat.succ_le_succ shorter)
        simp only [Nat.succ_eq_add_one] at product
        omega
      · have held : ready.handle.decodedInputPending.toList.length ≤ 1 := by
          cases ready.handle.decodedInputPending <;> simp
        have alike : (windowDecoder platform call.codePage).Alike (event ++ after)
            (sentTimes key.count single ++ after) (ready.setHeld none).stream := faces.alike
        have fits : ready.handle.decodedInputPending.toList.length +
            maxRepeat * ((ready.setHeld none).stream.length + 1) ≤ maxUnits call := by
          rw [ReadState.stream_setHeld]
          omega
        rcases run_ahead sent sentOnce alike fits with ⟨replies, tasks, related⟩
        exact ⟨replies, related ▸ .twin _ tasks⟩

/-- Unicode reads return the same for the event and for as many events with a count of one. -/
theorem rawUnicodeRead_sameData
    (comes : Comes platform call (event ++ after) (sentTimes key.count single ++ after) state) :
    SameData (rawRequest (rawUnicodeRead platform call)) (state.arrive (event ++ after))
      (state.arrive (sentTimes key.count single ++ after)) := by
  have room : call.capacity ≠ 0 := by
    intro none
    have enough := comes.room
    simp [maxUnits, none] at enough
  have alike : Bisimulates (rawRequest (rawUnicodeRead platform call))
      (InStep (Comes platform call) (event ++ after) (sentTimes key.count single ++ after)) :=
    rawRequest_bisimulates fun first second inStep =>
      rawUnicodeRead_inStep sent sentOnce room inStep
  exact alike.sameData (.ahead comes)

end Ahead

end UnicodeRead

end Conhost
