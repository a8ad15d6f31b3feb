import Conhost.Input.Repeats

/-!
# Repeated keys in byte reads

A raw ANSI read and `CONSOLE_IO_RAW_READ` deliver the character of a key event
once, whatever its repeat count is. The count makes no difference to a key that
is not delivered.
-/

namespace Conhost

open Relation (ReflTransGen)

/-- The key is not taken for Ctrl+C or Ctrl+Break, and its character has an encoding that fits the
array it is encoded in. -/
def KeyEvent.Delivered (platform : Platform) (processed : Bool) (codePage : CodePage)
    (key : KeyEvent) : Prop :=
  ¬(processed = true ∧ (key.matchesCtrlBreak = true ∨ key.matchesCtrlC = true)) ∧
    platform.wideCharToMultiByte codePage [key.unicodeChar] ≠ [] ∧
    (platform.wideCharToMultiByte codePage [key.unicodeChar]).length ≤ 16

namespace ByteRead

open ReadState

variable {platform : Platform} {call : ReadCall} {controlZ : Bool}

theorem finish_twin (state : ReadState) (tasks : List (UInt32 × ControlEvent))
    (written : List Byte) :
    AnsweredAlike Twin (finish ⟨state, written⟩) (finish ⟨state.withTasks tasks, written⟩) := by
  have exhausted : (state.withTasks tasks).exhausted = state.exhausted := rfl
  simp only [finish, exhausted]
  split
  · exact wait_twin state tasks
  · exact ⟨rfl, tasks, rfl⟩

theorem perform_twin (state : ReadState) (tasks : List (UInt32 × ControlEvent))
    (written : List Byte) (length : Nat) (does : Action) :
    Pass.Related (LoopTwin LoopState.state LoopState.written) (AnsweredAlike Twin)
      (perform call ⟨state, written⟩ length does)
      (perform call ⟨state.withTasks tasks, written⟩ length does) := by
  cases does with
  | skip => exact .next ⟨rfl, tasks, rfl⟩
  | ctrlC => exact .next ⟨rfl, _, rfl⟩
  | interrupt => exact .leave ⟨rfl, _, rfl⟩
  | endOfFile => exact .leave ⟨rfl, tasks, rfl⟩
  | deliver bytes =>
      simp only [perform]
      split
      · exact .leave ⟨rfl, tasks, rfl⟩
      · split
        · exact .leave (finish_twin state tasks written)
        · split
          · exact .leave ⟨rfl, tasks, rfl⟩
          · exact .next ⟨rfl, tasks, rfl⟩

theorem body_twin (state : ReadState) (tasks : List (UInt32 × ControlEvent))
    (written : List Byte) :
    Pass.Related (LoopTwin LoopState.state LoopState.written) (AnsweredAlike Twin)
      (body platform call controlZ ⟨state, written⟩)
      (body platform call controlZ ⟨state.withTasks tasks, written⟩) := by
  by_cases full : call.capacity ≤ written.length
  · rw [body, body, if_pos full, if_pos full]
    exact .leave (finish_twin state tasks written)
  · replace full := Nat.not_le.mp full
    cases decoded : pieceDecoder.decode state.stream with
    | needMore =>
        have room : (⟨state, written⟩ : LoopState).written.length < call.capacity := full
        have room' : (⟨state.withTasks tasks, written⟩ : LoopState).written.length <
            call.capacity := full
        have waiting' : pieceDecoder.Waiting (state.withTasks tasks).stream := decoded
        rcases body_waiting platform controlZ room decoded with ⟨empty, pass⟩ | ⟨unread, pass⟩
        · rcases body_waiting platform controlZ room' waiting' with ⟨-, pass'⟩ | ⟨unread, -⟩
          · rw [pass, pass']
            exact .leave (finish_twin state tasks written)
          · exact absurd empty unread
        · rcases body_waiting platform controlZ room' waiting' with ⟨empty, -⟩ | ⟨-, pass'⟩
          · exact absurd empty unread
          · have pendingPrefix : (state.withTasks tasks).pendingPrefix = state.pendingPrefix := rfl
            rw [pass, pass']
            simp only [unfinished, pendingPrefix, drain_withTasks]
            split
            · exact .leave (finish_twin state tasks written)
            · exact .leave (wait_twin _ tasks)
    | token piece length =>
        have one : body platform call controlZ ⟨state, written⟩ =
            perform call ⟨state, written⟩ length
              (action platform call controlZ written.isEmpty piece) := body_piece full decoded
        have other : body platform call controlZ ⟨state.withTasks tasks, written⟩ =
            perform call ⟨state.withTasks tasks, written⟩ length
              (action platform call controlZ written.isEmpty piece) := body_piece full decoded
        rw [one, other]
        exact perform_twin state tasks written length _

theorem readLoop_twin (state : ReadState) (tasks : List (UInt32 × ControlEvent))
    (written : List Byte) :
    AnsweredAlike Twin ((readLoop platform call controlZ).run ⟨state, written⟩)
      ((readLoop platform call controlZ).run ⟨state.withTasks tasks, written⟩) := by
  have keeps {first second : LoopState}
      (twin : LoopTwin LoopState.state LoopState.written first second) :
      Pass.Related (LoopTwin LoopState.state LoopState.written) (AnsweredAlike Twin)
        (body platform call controlZ first)
        (body platform call controlZ second) := by
    rcases first with ⟨first, written⟩
    rcases second with ⟨second, others⟩
    rcases twin with ⟨rfl, tasks, rfl⟩
    exact body_twin first tasks written
  exact (readLoop platform call controlZ).run_related keeps ⟨rfl, tasks, rfl⟩

theorem rawAnsiRead_twin (room : call.capacity ≠ 0) (state : ReadState)
    (tasks : List (UInt32 × ControlEvent)) :
    AnsweredAlike Twin (rawAnsiRead platform call state)
      (rawAnsiRead platform call (state.withTasks tasks)) := by
  rcases prepared_twin call state tasks with ⟨tasks', twin⟩
  rw [rawAnsiRead_eq room, rawAnsiRead_eq room, twin]
  generalize prepared call state = ready
  have exhausted : (ready.withTasks tasks').exhausted = ready.exhausted := rfl
  have front : controlZAtFront call (ready.withTasks tasks') = controlZAtFront call ready := rfl
  simp only [exhausted, front]
  split
  · exact wait_twin ready tasks'
  · split
    · exact ⟨rfl, tasks', rfl⟩
    · exact readLoop_twin ready tasks' []

theorem alone_piece {byte : Byte} (escape : byte ≠ VtInput.escByte)
    (csi : byte ≠ VtInput.csiByte) : Alone pieceDecoder byte := by
  intro more piece length decoded
  change pieceAt ((byte :: more).take 64) = _ at decoded
  have outcome : headOutcome (byte :: more.take 63) = .noMatch := by
    simp [headOutcome, tryDecodeVt_lead escape csi]
  rw [List.take_succ_cons] at decoded
  simp only [pieceAt, outcome] at decoded
  cases decoded
  rfl

/-- The character of the key is delivered. -/
abbrev Delivers (platform : Platform) (call : ReadCall) (key : KeyEvent) : Prop :=
  key.Delivered platform call.mode.processedInput call.codePage

theorem finish_arrive (state : ReadState) {more : List Byte} (some : more ≠ [])
    (written : List Byte) :
    finish ⟨state.arrive more, written⟩ = (state.arrive more, .complete .success written) := by
  have unread : (state.arrive more).exhausted = false := by
    rw [ReadState.exhausted_eq_false_iff, ReadState.stream_arrive]
    simp [some]
  simp [finish, unread]

section Ahead

variable {key : KeyEvent} {event single after : List Byte} (sent : key.SentAs event)
  (sentOnce : key.once.SentAs single) {looks : Bool} {state : ReadState}

theorem body_front (platform : Platform) (controlZ : Bool) {key : KeyEvent} {bytes : List Byte}
    (sent : key.SentAs bytes) {written : List Byte} (room : written.length < call.capacity)
    (more : List Byte) (empty : state.stream = []) :
    body platform call controlZ ⟨state.arrive (bytes ++ more), written⟩ =
      perform call ⟨state.arrive (bytes ++ more), written⟩ bytes.length
        (keyAction platform call controlZ written.isEmpty key) := by
  have found : pieceDecoder.decode (state.arrive (bytes ++ more)).stream =
      .token (.sequence (.keyEvent key)) bytes.length := by
    rw [ReadState.stream_arrive, empty, List.nil_append]
    exact sent.piece more
  have pass : body platform call controlZ ⟨state.arrive (bytes ++ more), written⟩ =
      perform call ⟨state.arrive (bytes ++ more), written⟩ bytes.length
        (action platform call controlZ written.isEmpty (.sequence (.keyEvent key))) :=
    body_piece room found
  exact pass

theorem keyAction_once (atStart : Bool) :
    keyAction platform call controlZ atStart key.once =
      keyAction platform call controlZ atStart key := rfl

/-- What is delivered is the character of the key. -/
theorem keyAction_deliver {atStart : Bool} {bytes : List Byte}
    (does : keyAction platform call controlZ atStart key = .deliver bytes) :
    bytes = platform.wideCharToMultiByte call.codePage [key.unicodeChar] ∧
      key.keyDown = true ∧
      ¬(call.mode.processedInput = true ∧
        (key.matchesCtrlBreak = true ∨ key.matchesCtrlC = true)) := by
  simp only [keyAction] at does
  repeat' split at does
  all_goals cases does
  rename_i notBreak notC down typed notEnd
  simp only [Bool.and_eq_true, not_and, Bool.not_eq_true', Bool.not_eq_false,
    Bool.not_eq_true] at notBreak notC down
  refine ⟨rfl, by simpa using down, ?_⟩
  rintro ⟨processed, matched | matched⟩
  · simp [processed, down, matched] at notBreak
  · simp [processed, down, matched] at notC

include sentOnce

theorem run_skips {written : List Byte}
    (does : keyAction platform call controlZ written.isEmpty key = .skip)
    (empty : state.stream = []) (count : Nat) (room : written.length < call.capacity) :
    (readLoop platform call controlZ).run
        ⟨state.arrive (sentTimes count single ++ after), written⟩ =
      (readLoop platform call controlZ).run ⟨state.arrive after, written⟩ := by
  induction count with
  | zero => simp
  | succ count hypothesis =>
      have pass := body_front platform controlZ sentOnce room (sentTimes count single ++ after)
        empty
      simp only [keyAction_once, does, perform, consume_front empty] at pass
      rw [sentTimes_succ, List.append_assoc, (readLoop platform call controlZ).run_of_next pass,
        hypothesis]

theorem run_forwards {written : List Byte}
    (does : keyAction platform call controlZ written.isEmpty key = .ctrlC)
    (empty : state.stream = []) (count : Nat) (room : written.length < call.capacity) :
    ∃ tasks, (readLoop platform call controlZ).run
        ⟨state.arrive (sentTimes count single ++ after), written⟩ =
      (readLoop platform call controlZ).run ⟨(state.arrive after).withTasks tasks, written⟩ := by
  induction count generalizing state with
  | zero => exact ⟨state.host.endTasks, by simp; rfl⟩
  | succ count hypothesis =>
      have pass := body_front platform controlZ sentOnce room (sentTimes count single ++ after)
        empty
      simp only [keyAction_once, does, perform, consume_front empty] at pass
      have empty' : (state.forward call.processes .ctrlC).stream = [] := empty
      rcases hypothesis empty' with ⟨tasks, run⟩
      refine ⟨tasks, ?_⟩
      rw [sentTimes_succ, List.append_assoc, (readLoop platform call controlZ).run_of_next pass]
      exact run

omit sentOnce in
/-- The reads are answered alike, or both end at the key as at the end of a file. -/
def EventAnswered (looks : Bool) (platform : Platform) (call : ReadCall) (controlZ : Bool)
    (key : KeyEvent) (event single after : List Byte) (first second : ReadState × ReadReply Byte) :
    Prop :=
  AnsweredAlike
      (InStep (Faces looks pieceDecoder call) (event ++ after)
        (sentTimes key.count single ++ after))
      first second ∨
    keyAction platform call controlZ true key = .endOfFile ∧
      ∃ ended : ReadState, ended.stream = [] ∧
        first = (ended.arrive after, .complete .success []) ∧
        second = (ended.arrive (sentTimes (key.count - 1) single ++ after), .complete .success [])

include sent

/-- At the event. -/
theorem run_event (honoured : key.count = 1 ∨ ¬Delivers platform call key)
    (faces : Faces looks pieceDecoder call (event ++ after) (sentTimes key.count single ++ after)
      state)
    (empty : state.stream = []) (written : List Byte) :
    EventAnswered looks platform call controlZ key event single after
      ((readLoop platform call controlZ).run ⟨state.arrive (event ++ after), written⟩)
      ((readLoop platform call controlZ).run
        ⟨state.arrive (sentTimes key.count single ++ after), written⟩) := by
  have waits : event ++ after ≠ [] := by simp [sent.nonempty]
  have waits' := sentTimes_ne_nil sentOnce key.count_pos after
  have finished : AnsweredAlike
      (InStep (Faces looks pieceDecoder call) (event ++ after)
        (sentTimes key.count single ++ after))
      (finish ⟨state.arrive (event ++ after), written⟩)
      (finish ⟨state.arrive (sentTimes key.count single ++ after), written⟩) := by
    rw [finish_arrive state waits, finish_arrive state waits']
    exact ⟨rfl, .ahead faces⟩
  by_cases full : call.capacity ≤ written.length
  · have pass {state : ReadState} : body platform call controlZ ⟨state, written⟩ =
        .leave (finish ⟨state, written⟩) := by rw [body, if_pos full]
    rw [(readLoop platform call controlZ).run_of_leave pass,
      (readLoop platform call controlZ).run_of_leave pass]
    exact .inl finished
  replace full := Nat.not_le.mp full
  rcases Nat.exists_eq_succ_of_ne_zero (Nat.ne_of_gt key.count_pos) with ⟨fewer, count⟩
  have pass := body_front platform controlZ sent full after empty
  have pass' := body_front platform controlZ sentOnce full (sentTimes fewer single ++ after) empty
  rw [keyAction_once, ← List.append_assoc, ← sentTimes_succ, ← Nat.succ_eq_add_one, ← count]
    at pass'
  have consumed : (state.arrive (sentTimes key.count single ++ after)).consume single.length =
      state.arrive (sentTimes fewer single ++ after) := by
    rw [count, Nat.succ_eq_add_one, sentTimes_succ, List.append_assoc]
    exact consume_front empty _ _
  cases does : keyAction platform call controlZ written.isEmpty key with
  | skip =>
      simp only [does, perform, consume_front empty] at pass
      rw [(readLoop platform call controlZ).run_of_next pass,
        run_skips sentOnce does empty key.count full]
      exact .inl ⟨rfl, .twin _ _⟩
  | ctrlC =>
      simp only [does, perform, consume_front empty] at pass
      rcases run_forwards sentOnce does empty key.count full with ⟨tasks, run⟩
      rw [(readLoop platform call controlZ).run_of_next pass, run]
      rcases readLoop_twin ((state.arrive after).forward call.processes .ctrlC) tasks written with
        ⟨replies, tasks, related⟩
      exact .inl ⟨replies, related ▸ .twin _ tasks⟩
  | interrupt =>
      simp only [does, perform, consume_front empty] at pass
      simp only [does, perform, consumed] at pass'
      rw [(readLoop platform call controlZ).run_of_leave pass,
        (readLoop platform call controlZ).run_of_leave pass']
      exact .inl ⟨rfl, .twin _ _⟩
  | endOfFile =>
      simp only [does, perform, consume_front empty] at pass
      simp only [does, perform, consumed] at pass'
      rw [(readLoop platform call controlZ).run_of_leave pass,
        (readLoop platform call controlZ).run_of_leave pass']
      refine .inr ⟨?_, state, empty, rfl, by rw [count]; rfl⟩
      cases written with
      | nil => exact does
      | cons first rest => exact absurd does (action_ne_endOfFile (.sequence (.keyEvent key)))
  | deliver bytes =>
      rcases keyAction_deliver does with ⟨rfl, -, plain⟩
      simp only [does, perform, consume_front empty] at pass
      simp only [does, perform, consumed] at pass'
      split_ifs at pass pass' with none narrow long
      · rw [(readLoop platform call controlZ).run_of_leave pass,
          (readLoop platform call controlZ).run_of_leave pass']
        exact .inl ⟨rfl, .ahead faces⟩
      · rw [(readLoop platform call controlZ).run_of_leave pass,
          (readLoop platform call controlZ).run_of_leave pass']
        exact .inl finished
      · rw [(readLoop platform call controlZ).run_of_leave pass,
          (readLoop platform call controlZ).run_of_leave pass']
        exact .inl ⟨rfl, .ahead faces⟩
      · have once : key.count = 1 := by
          rcases honoured with once | silent
          · exact once
          · exact absurd ⟨plain, none, Nat.not_lt.mp long⟩ silent
        have last : fewer = 0 := by omega
        subst last
        rw [(readLoop platform call controlZ).run_of_next pass,
          (readLoop platform call controlZ).run_of_next pass', sentTimes_zero, List.nil_append]
        exact .inl ⟨rfl, .twin _ _⟩

/-- Up to the event, and over it. -/
theorem run_ahead (honoured : key.count = 1 ∨ ¬Delivers platform call key)
    (faces : Faces looks pieceDecoder call (event ++ after) (sentTimes key.count single ++ after)
      state)
    (written : List Byte) :
    EventAnswered looks platform call controlZ key event single after
      ((readLoop platform call controlZ).run ⟨state.arrive (event ++ after), written⟩)
      ((readLoop platform call controlZ).run
        ⟨state.arrive (sentTimes key.count single ++ after), written⟩) := by
  have alike := faces.alike
  have waits : event ++ after ≠ [] := by simp [sent.nonempty]
  have waits' := sentTimes_ne_nil sentOnce key.count_pos after
  generalize stream : state.stream = bytes at alike
  induction alike generalizing state written with
  | here => exact run_event sent sentOnce honoured faces stream written
  | @step bytes piece length inside decoded decoded' later hypothesis =>
      subst stream
      have consumed := state.stream_consume length
      have finished : AnsweredAlike
          (InStep (Faces looks pieceDecoder call) (event ++ after)
            (sentTimes key.count single ++ after))
          (finish ⟨state.arrive (event ++ after), written⟩)
          (finish ⟨state.arrive (sentTimes key.count single ++ after), written⟩) := by
        rw [finish_arrive state waits, finish_arrive state waits']
        exact ⟨rfl, .ahead faces⟩
      by_cases full : call.capacity ≤ written.length
      · have pass {state : ReadState} : body platform call controlZ ⟨state, written⟩ =
            .leave (finish ⟨state, written⟩) := by rw [body, if_pos full]
        rw [(readLoop platform call controlZ).run_of_leave pass,
          (readLoop platform call controlZ).run_of_leave pass]
        exact .inl finished
      replace full := Nat.not_le.mp full
      have pass : body platform call controlZ ⟨state.arrive (event ++ after), written⟩ =
          perform call ⟨state.arrive (event ++ after), written⟩ length
            (action platform call controlZ written.isEmpty piece) :=
        body_piece full (by rw [ReadState.stream_arrive]; exact decoded)
      have pass' : body platform call controlZ
          ⟨state.arrive (sentTimes key.count single ++ after), written⟩ =
            perform call ⟨state.arrive (sentTimes key.count single ++ after), written⟩ length
              (action platform call controlZ written.isEmpty piece) :=
        body_piece full (by rw [ReadState.stream_arrive]; exact decoded')
      have faces' := faces.takes (.token inside decoded)
      cases does : action platform call controlZ written.isEmpty piece with
      | skip =>
          simp only [does, perform, consume_arrive inside] at pass pass'
          rw [(readLoop platform call controlZ).run_of_next pass,
            (readLoop platform call controlZ).run_of_next pass']
          exact hypothesis faces' written consumed
      | ctrlC =>
          simp only [does, perform, consume_arrive inside] at pass pass'
          rw [(readLoop platform call controlZ).run_of_next pass,
            (readLoop platform call controlZ).run_of_next pass']
          exact hypothesis (faces'.takes (.forward _ .ctrlC)) written consumed
      | interrupt =>
          simp only [does, perform, consume_arrive inside] at pass pass'
          rw [(readLoop platform call controlZ).run_of_leave pass,
            (readLoop platform call controlZ).run_of_leave pass']
          exact .inl ⟨rfl, .twin _ _⟩
      | endOfFile =>
          simp only [does, perform, consume_arrive inside] at pass pass'
          rw [(readLoop platform call controlZ).run_of_leave pass,
            (readLoop platform call controlZ).run_of_leave pass']
          exact .inl ⟨rfl, .ahead faces'⟩
      | deliver bytes =>
          simp only [does, perform, consume_arrive inside] at pass pass'
          split_ifs at pass pass' with none narrow long
          · rw [(readLoop platform call controlZ).run_of_leave pass,
              (readLoop platform call controlZ).run_of_leave pass']
            exact .inl ⟨rfl, .ahead faces⟩
          · rw [(readLoop platform call controlZ).run_of_leave pass,
              (readLoop platform call controlZ).run_of_leave pass']
            exact .inl finished
          · rw [(readLoop platform call controlZ).run_of_leave pass,
              (readLoop platform call controlZ).run_of_leave pass']
            exact .inl ⟨rfl, .ahead faces⟩
          · rw [(readLoop platform call controlZ).run_of_next pass,
              (readLoop platform call controlZ).run_of_next pass']
            exact hypothesis faces' _ consumed

omit sent in
theorem rawRead_silently (ends : keyAction platform call true true key = .endOfFile)
    (room : call.capacity ≠ 0) (empty : state.stream = []) (count : Nat) :
    ReflTransGen (Silently (rawRequest (rawRead platform call)))
      (state.arrive (sentTimes count single ++ after)) (state.arrive after) := by
  induction count with
  | zero => exact .refl
  | succ count hypothesis =>
      refine .head ?_ hypothesis
      have vacant : ([] : List Byte).length < call.capacity := Nat.pos_of_ne_zero room
      have pass := body_front platform true sentOnce vacant (sentTimes count single ++ after) empty
      rw [keyAction_once] at pass
      simp only [List.isEmpty_nil, ends, perform, consume_front empty] at pass
      rw [sentTimes_succ, List.append_assoc]
      have read := (readLoop platform call true).run_of_leave pass
      exact ⟨congrArg Prod.fst read, congrArg (fun value => ReadReply.answer value.2) read⟩

/-- `CONSOLE_IO_RAW_READ` returns the same for the event and for as many events with a count of
one, if the count is one or the key is not delivered. -/
theorem rawRead_sameData (honoured : key.count = 1 ∨ ¬Delivers platform call key)
    (room : call.capacity ≠ 0)
    (alike : pieceDecoder.Alike (event ++ after) (sentTimes key.count single ++ after)
      state.stream) :
    SameData (rawRequest (rawRead platform call)) (state.arrive (event ++ after))
      (state.arrive (sentTimes key.count single ++ after)) := by
  have functional := rawRequest_functional (rawRead platform call)
  have simulates : Bisimulates (rawRequest (rawRead platform call))
      (InStep (Faces false pieceDecoder call) (event ++ after)
        (sentTimes key.count single ++ after)) := by
    intro first second inStep
    cases inStep with
    | twin _ tasks =>
        refine .inl (answers_of_alike ?_)
        rcases readLoop_twin first tasks [] with ⟨replies, tasks, related⟩
        exact ⟨replies, related ▸ .twin _ tasks⟩
    | @ahead state faces =>
        have answered : EventAnswered false platform call true key event single after
            (rawRead platform call (state.arrive (event ++ after)))
            (rawRead platform call (state.arrive (sentTimes key.count single ++ after))) :=
          run_ahead sent sentOnce honoured faces []
        rcases answered with alike | ⟨ends, ended, empty, one, other⟩
        · exact .inl (answers_of_alike alike)
        · have silent : Silently (rawRequest (rawRead platform call))
              (state.arrive (event ++ after)) (ended.arrive after) :=
            ⟨congrArg Prod.fst one, congrArg (fun value => ReadReply.answer value.2) one⟩
          have silent' : Silently (rawRequest (rawRead platform call))
              (state.arrive (sentTimes key.count single ++ after))
              (ended.arrive (sentTimes (key.count - 1) single ++ after)) :=
            ⟨congrArg Prod.fst other, congrArg (fun value => ReadReply.answer value.2) other⟩
          have rest : ReflTransGen (Silently (rawRequest (rawRead platform call)))
              (ended.arrive (sentTimes (key.count - 1) single ++ after)) (ended.arrive after) :=
            rawRead_silently sentOnce ends room empty (key.count - 1)
          exact .inr ((SameData.of_silent functional silent).trans
            (SameData.of_silently functional (.head silent' rest)).symm)
  exact simulates.sameData (.ahead (.of_alike alike))

/-- A raw ANSI read of one state is answered like a read of the other. -/
theorem rawAnsiRead_inStep (honoured : key.count = 1 ∨ ¬Delivers platform call key)
    (room : call.capacity ≠ 0) {first second : ReadState}
    (inStep : InStep (Faces true pieceDecoder call) (event ++ after)
      (sentTimes key.count single ++ after) first second) :
    AnsweredAlike
      (InStep (Faces true pieceDecoder call) (event ++ after) (sentTimes key.count single ++ after))
      (rawAnsiRead platform call first) (rawAnsiRead platform call second) := by
  have waits : event ++ after ≠ [] := by simp [sent.nonempty]
  have waits' := sentTimes_ne_nil sentOnce key.count_pos after
  cases inStep with
  | twin _ tasks =>
      rcases rawAnsiRead_twin room first tasks with ⟨replies, tasks, related⟩
      exact ⟨replies, related ▸ .twin _ tasks⟩
  | @ahead state comes =>
      have faces := comes.takes (.ctrlC state rfl)
      rw [rawAnsiRead_eq room, rawAnsiRead_eq room,
        prepared_arrive_of_head call state waits (sent.head (by decide) (by decide) after),
        prepared_arrive_of_head call state waits'
          (head_sentTimes sentOnce (by decide) (by decide) key.count_pos after)]
      generalize prepared call state = ready at faces
      have unread {more : List Byte} (some : more ≠ []) :
          (ready.arrive more).exhausted = false := by
        rw [ReadState.exhausted_eq_false_iff, ReadState.stream_arrive]
        simp [some]
      have front := controlZAtFront_arrive call ready (sent.head (by decide) (by decide) after)
      have front' := controlZAtFront_arrive call ready
        (head_sentTimes sentOnce (by decide) (by decide) key.count_pos after)
      simp only [unread waits, unread waits', Bool.false_eq_true, if_false, front, front']
      split
      · rename_i atFront
        refine ⟨rfl, ?_⟩
        rw [setQueue_tail_arrive call atFront, setQueue_tail_arrive call atFront]
        exact .ahead (faces.takes (.controlZ rfl atFront))
      · have answered : EventAnswered true platform call false key event single after _ _ :=
          run_ahead sent sentOnce honoured faces []
        rcases answered with alike | ⟨ends, -⟩
        · exact alike
        · simp only [keyAction, Bool.false_and, Bool.false_eq_true, if_false] at ends
          split_ifs at ends

/-- Raw ANSI reads return the same for the event and for as many events with a count of one, if the
count is one or the key is not delivered. -/
theorem rawAnsiRead_sameData (honoured : key.count = 1 ∨ ¬Delivers platform call key)
    (room : call.capacity ≠ 0)
    (faces : Faces true pieceDecoder call (event ++ after) (sentTimes key.count single ++ after)
      state) :
    SameData (rawRequest (rawAnsiRead platform call)) (state.arrive (event ++ after))
      (state.arrive (sentTimes key.count single ++ after)) := by
  have alike : Bisimulates (rawRequest (rawAnsiRead platform call))
      (InStep (Faces true pieceDecoder call) (event ++ after)
        (sentTimes key.count single ++ after)) :=
    rawRequest_bisimulates fun first second inStep =>
      rawAnsiRead_inStep sent sentOnce honoured room inStep
  exact alike.sameData (.ahead faces)

end Ahead

section Delivered

variable {key : KeyEvent} {bytes : List Byte}

theorem keyAction_of_delivers (delivers : Delivers platform call key) (down : key.keyDown = true)
    (typed : key.unicodeChar ≠ 0) :
    keyAction platform call controlZ false key =
      .deliver (platform.wideCharToMultiByte call.codePage [key.unicodeChar]) := by
  have plain := delivers.1
  simp only [not_and, not_or, Bool.not_eq_true] at plain
  cases processed : call.mode.processedInput with
  | false => simp [keyAction, processed, down, typed]
  | true => simp [keyAction, processed, plain processed, down, typed]

/-- Once something has been written, each of the events adds the character of the key. -/
theorem run_delivers (sent : key.SentAs bytes) (delivers : Delivers platform call key)
    (down : key.keyDown = true) (typed : key.unicodeChar ≠ 0) {state : ReadState}
    (empty : state.stream = []) (count : Nat) {written : List Byte} (some : written ≠ [])
    (room : written.length +
      count * (platform.wideCharToMultiByte call.codePage [key.unicodeChar]).length ≤
        call.capacity) :
    (readLoop platform call controlZ).run ⟨state.arrive (sentTimes count bytes), written⟩ =
      (state, .complete .success (written ++ (List.replicate count
        (platform.wideCharToMultiByte call.codePage [key.unicodeChar])).flatten)) := by
  have does : keyAction platform call controlZ false key = _ :=
    keyAction_of_delivers delivers down typed
  rcases delivers with ⟨-, encoded, short⟩
  generalize platform.wideCharToMultiByte call.codePage [key.unicodeChar] = character at *
  have size := List.length_pos_of_ne_nil encoded
  induction count generalizing written with
  | zero =>
      have nothing : state.arrive [] = state := by simp [ReadState.arrive, ReadState.setQueue]
      have finished : finish ⟨state, written⟩ = (state, .complete .success written) := by
        simp [finish, some]
      have pass : body platform call controlZ ⟨state, written⟩ =
          .leave (state, .complete .success written) := by
        rw [← finished, body]
        split
        · rfl
        · have head : state.peekHead = [] := by rw [ReadState.peekHead_eq, empty, List.take_nil]
          simp only [head]
      simp only [sentTimes_zero, nothing, List.replicate_zero, List.flatten_nil, List.append_nil]
      exact (readLoop platform call controlZ).run_of_leave pass
  | succ count hypothesis =>
      rw [Nat.succ_mul] at room
      have vacant : written.length < call.capacity := by omega
      have pass := body_front platform controlZ sent vacant (sentTimes count bytes) empty
      have fits : ¬call.capacity - written.length < character.length := by omega
      rw [List.isEmpty_eq_false_iff.mpr some, does] at pass
      simp only [perform, if_neg encoded, if_neg fits, if_neg (Nat.not_lt.mpr short),
        consume_front empty] at pass
      rw [sentTimes_succ, (readLoop platform call controlZ).run_of_next pass,
        hypothesis (by simp [some]) (by rw [List.length_append]; omega)]
      simp [List.replicate_succ]

/-- The letter x, still to be read. -/
def letterState : ReadState := { host.inputQueue := [bc 'x'] }

theorem run_letter (some : 0 < call.capacity) (more : List Byte) :
    (readLoop platform call controlZ).run ⟨letterState.arrive more, []⟩ =
      (readLoop platform call controlZ).run ⟨(({} : ReadState)).arrive more, [bc 'x']⟩ := by
  have found : pieceDecoder.decode (letterState.arrive more).stream =
      .token (.byte (bc 'x')) 1 := by
    rw [ReadState.stream_arrive]
    exact pieceDecoder.stable more (by decide)
  have pass : body platform call controlZ ⟨letterState.arrive more, []⟩ =
      perform call ⟨letterState.arrive more, []⟩ 1
        (action platform call controlZ true (.byte (bc 'x'))) := body_piece some found
  have does : action platform call controlZ true (.byte (bc 'x')) = .deliver [bc 'x'] := by
    simp [action]
  have consumed : (letterState.arrive more).consume 1 = (({} : ReadState)).arrive more := by
    rw [consume_arrive (by decide)]
    rfl
  have fits : ¬call.capacity < 1 := by omega
  simp only [does, perform, List.cons_ne_nil, if_false, List.length_nil, Nat.sub_zero,
    List.length_singleton, if_neg fits, consumed, List.nil_append] at pass
  exact (readLoop platform call controlZ).run_of_next pass

theorem run_empty (room : call.capacity ≠ 0) (controlZ : Bool) :
    (readLoop platform call controlZ).run ⟨{}, []⟩ = ({}, .pending) := by
  apply (readLoop platform call controlZ).run_of_leave
  have some : ¬call.capacity ≤ ([] : List Byte).length := by simpa using room
  change body platform call controlZ ⟨{}, []⟩ = _
  rw [body, if_neg some]
  rfl

theorem rawAnsiRead_letter (room : call.capacity ≠ 0) (more : List Byte) :
    rawAnsiRead platform call (letterState.arrive more) =
      (readLoop platform call false).run ⟨letterState.arrive more, []⟩ := by
  have head : (letterState.arrive more).host.inputQueue.head? = some (bc 'x') := rfl
  have ready : prepared call (letterState.arrive more) = letterState.arrive more := by
    apply prepared_of_head
    intro processed
    rw [head]
    decide
  have unread : (letterState.arrive more).exhausted = false := rfl
  have front : controlZAtFront call (letterState.arrive more) = false := by
    have other : (some (bc 'x') == some 0x1a) = false := by decide
    rw [controlZAtFront, head, other, Bool.and_false]
  rw [rawAnsiRead_eq room, ready, unread, front]
  simp only [Bool.false_eq_true, if_false]

theorem rawAnsiRead_empty (room : call.capacity ≠ 0) :
    (rawAnsiRead platform call {}).2 = .pending := by
  have ready : prepared call {} = {} := prepared_of_head fun _ => by decide
  rw [rawAnsiRead_eq room, ready]
  rfl

/-- The letter x and then a key that is delivered, `count` times. -/
theorem collects_letter {read : ReadState → ReadState × ReadReply Byte} {controlZ : Bool}
    (looks : ∀ more, read (letterState.arrive more) =
      (readLoop platform call controlZ).run ⟨letterState.arrive more, []⟩)
    (stops : (read {}).2 = .pending) (sent : key.SentAs bytes)
    (delivers : Delivers platform call key) (down : key.keyDown = true)
    (typed : key.unicodeChar ≠ 0) (count : Nat)
    (room : 1 + count * (platform.wideCharToMultiByte call.codePage [key.unicodeChar]).length ≤
      call.capacity) :
    Collects (rawRequest read) (letterState.arrive (sentTimes count bytes))
      [bc 'x' :: (List.replicate count
        (platform.wideCharToMultiByte call.codePage [key.unicodeChar])).flatten] := by
  have empty : ({} : ReadState).stream = [] := rfl
  have some : [bc 'x'] ≠ [] := List.cons_ne_nil _ _
  have answered : read (letterState.arrive (sentTimes count bytes)) =
      ({}, .complete .success (bc 'x' :: (List.replicate count
        (platform.wideCharToMultiByte call.codePage [key.unicodeChar])).flatten)) := by
    rw [looks, run_letter (by omega),
      run_delivers sent delivers down typed empty count some room]
    rfl
  refine ⟨1, .gives ⟨congrArg Prod.fst answered, ?_⟩ (List.cons_ne_nil _ _) (.stops ⟨rfl, ?_⟩)⟩
  · rw [answered]
    rfl
  · rw [stops]
    rfl

/-- Once something has been read, a key that is delivered is so once in one event, and as often as
there are events. -/
theorem letter_differs {event single : List Byte} (sent : key.SentAs event)
    (sentOnce : key.once.SentAs single)
    (delivers : Delivers platform call key) (down : key.keyDown = true)
    (typed : key.unicodeChar ≠ 0) (often : 2 ≤ key.count)
    (room : 1 + key.count *
      (platform.wideCharToMultiByte call.codePage [key.unicodeChar]).length ≤ call.capacity)
    {read : ReadState → ReadState × ReadReply Byte}
    (looks : ∀ more, read (letterState.arrive more) =
      (readLoop platform call controlZ).run ⟨letterState.arrive more, []⟩)
    (stops : (read {}).2 = .pending) :
    ¬SameData (rawRequest read) (letterState.arrive event)
      (letterState.arrive (sentTimes key.count single)) := by
  have size := List.length_pos_of_ne_nil delivers.2.1
  generalize width : (platform.wideCharToMultiByte call.codePage [key.unicodeChar]).length = bytes
    at room size
  have product := Nat.mul_le_mul_right bytes often
  have one : Collects (rawRequest read) (letterState.arrive (sentTimes 1 event)) _ :=
    collects_letter looks stops sent delivers down typed 1 (by rw [width]; omega)
  have other : Collects (rawRequest read) (letterState.arrive (sentTimes key.count single)) _ :=
    collects_letter looks stops sentOnce (by exact delivers) (by exact down) (by exact typed)
      key.count (by rw [← width] at room; exact room)
  have once : sentTimes 1 event = event := by simp [sentTimes]
  rw [once] at one
  intro same
  have whole := ((same _).mp one).unique (rawRequest_functional read) other
  have lengths := congrArg List.length (List.cons.inj whole).1
  have unit : key.once.unicodeChar = key.unicodeChar := rfl
  simp [unit, width] at lengths
  omega

end Delivered

end ByteRead

end Conhost
