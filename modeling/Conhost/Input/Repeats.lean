import Conhost.Input.ByteTokens
import Conhost.Input.KeyEncoder
import Conhost.Input.UnicodeTokens
import Conhost.Lib.Replies

/-!
# Repeated keys

One key event with a repeat count against as many events with a count of one.
What the two streams have in front of the event is the same, so that the reads
run in step up to it. After it the states may differ in what has been forwarded
to the processes, which no read looks at.
-/

namespace Conhost

/-- The bytes are a VT sequence for the key. -/
structure KeyEvent.SentAs (key : KeyEvent) (bytes : List Byte) : Prop where
  decoded : VtInput.tryDecodeVt bytes = .produced (.keyEvent key) bytes.length
  small : bytes.length ≤ 64

/-- The same key, pressed once. -/
def KeyEvent.once (key : KeyEvent) : KeyEvent := { key with repeatCount := 1 }

/-- How often the key is pressed. -/
def KeyEvent.count (key : KeyEvent) : Nat := max 1 key.repeatCount.toNat

theorem KeyEvent.count_pos (key : KeyEvent) : 0 < key.count := by
  rw [KeyEvent.count]
  omega

/-- The largest repeat count, `WORD` -/
def maxRepeat : Nat := 65535

theorem KeyEvent.count_le (key : KeyEvent) : key.count ≤ maxRepeat := by
  have bound := key.repeatCount.toNat_lt
  rw [KeyEvent.count, maxRepeat]
  omega

/-- A sequence sent `count` times. -/
def sentTimes (count : Nat) (bytes : List Byte) : List Byte := (List.replicate count bytes).flatten

@[simp]
theorem sentTimes_zero (bytes : List Byte) : sentTimes 0 bytes = [] := rfl

theorem sentTimes_succ (count : Nat) (bytes : List Byte) :
    sentTimes (count + 1) bytes = bytes ++ sentTimes count bytes := by
  simp [sentTimes, List.replicate_succ]

theorem KeyEvent.sentAs_win32Sequence (key : KeyEvent) : key.SentAs key.win32Sequence :=
  ⟨key.tryDecodeVt_win32Sequence, key.length_win32Sequence.le⟩

namespace KeyEvent.SentAs

variable {key : KeyEvent} {bytes : List Byte} (sent : key.SentAs bytes)
include sent

theorem nonempty : bytes ≠ [] := by
  rintro rfl
  have decoded := sent.decoded
  cases decoded

theorem token (platform : Platform) (codePage : CodePage) (more : List Byte) :
    (windowDecoder platform codePage).decode (bytes ++ more) =
      .token (.keyEvent key) bytes.length := by
  apply (windowDecoder platform codePage).stable
  change platform.decodeOneInputToken codePage (bytes.take 64) = _
  rw [List.take_of_length_le sent.small, Platform.decodeOneInputToken, sent.decoded]

theorem piece (more : List Byte) :
    ByteRead.pieceDecoder.decode (bytes ++ more) =
      .token (.sequence (.keyEvent key)) bytes.length := by
  apply ByteRead.pieceDecoder.stable
  change ByteRead.pieceAt (bytes.take 64) = _
  rw [List.take_of_length_le sent.small]
  have outcome : ByteRead.headOutcome bytes = .produced (.keyEvent key) bytes.length := by
    simp [ByteRead.headOutcome, sent.decoded]
  cases bytes with
  | nil => exact absurd rfl sent.nonempty
  | cons first rest => simp only [ByteRead.pieceAt, outcome]

/-- A sequence begins with ESC or CSI. -/
theorem head {byte : Byte} (escape : byte ≠ VtInput.escByte) (csi : byte ≠ VtInput.csiByte)
    (more : List Byte) : (bytes ++ more).head? ≠ some byte := by
  cases bytes with
  | nil => exact absurd rfl sent.nonempty
  | cons first rest =>
      intro same
      cases same
      have decoded := sent.decoded
      rw [tryDecodeVt_lead escape csi] at decoded
      cases decoded

end KeyEvent.SentAs

theorem head_sentTimes {key : KeyEvent} {bytes : List Byte} (sent : key.SentAs bytes) {byte : Byte}
    (escape : byte ≠ VtInput.escByte) (csi : byte ≠ VtInput.csiByte) {count : Nat}
    (positive : 0 < count) (more : List Byte) :
    (sentTimes count bytes ++ more).head? ≠ some byte := by
  rcases Nat.exists_eq_succ_of_ne_zero (Nat.ne_of_gt positive) with ⟨fewer, rfl⟩
  rw [sentTimes_succ, List.append_assoc]
  exact sent.head escape csi _

theorem sentTimes_ne_nil {key : KeyEvent} {bytes : List Byte} (sent : key.SentAs bytes)
    {count : Nat} (positive : 0 < count) (more : List Byte) :
    sentTimes count bytes ++ more ≠ [] := by
  rcases Nat.exists_eq_succ_of_ne_zero (Nat.ne_of_gt positive) with ⟨fewer, rfl⟩
  simp [sentTimes_succ, sent.nonempty]

/-- How a read is answered: the client goes on after success and after an alert. -/
def ReadReply.answer {α : Type} : ReadReply α → Answer α
  | .complete .success data => .gives data
  | .complete .alerted data => .gives data
  | _ => .stops

namespace ReadState

variable {state : ReadState}

theorem consume_arrive {length : Nat} (inside : length ≤ state.stream.length) (more : List Byte) :
    (state.arrive more).consume length = (state.consume length).arrive more := by
  have short : length - min length state.pendingPrefix.length ≤ state.host.inputQueue.length := by
    rw [stream, List.length_append] at inside
    omega
  have queue : (state.host.inputQueue ++ more).drop
      (length - min length state.pendingPrefix.length) =
        state.host.inputQueue.drop (length - min length state.pendingPrefix.length) ++ more :=
    List.drop_append_of_le_length short
  simp only [consume, arrive, setQueue, setPrefix, pendingPrefix] at queue ⊢
  rw [queue]

theorem consume_front (empty : state.stream = []) (bytes more : List Byte) :
    (state.arrive (bytes ++ more)).consume bytes.length = state.arrive more := by
  rcases List.append_eq_nil_iff.mp empty with ⟨undrained, queue⟩
  have kept : state.handle.pendingInputBytes.consumePrefix bytes.length =
      state.handle.pendingInputBytes := by
    apply Subtype.ext
    simp only [PendingInputBytes.consumePrefix]
    rw [show state.handle.pendingInputBytes.1 = [] from undrained, List.drop_nil]
  have none : (state.arrive (bytes ++ more)).pendingPrefix = [] := undrained
  simp only [consume, none, List.length_nil, Nat.min_zero, Nat.sub_zero]
  simp only [arrive, setQueue, setPrefix, kept, queue, List.nil_append, List.drop_left]

/-- The state apart from what has been forwarded to the processes. -/
def withTasks (state : ReadState) (tasks : List (UInt32 × ControlEvent)) : ReadState :=
  { state with host := { state.host with endTasks := tasks } }

/-- The states differ at most in what has been forwarded. -/
def Twin (first second : ReadState) : Prop := ∃ tasks, second = first.withTasks tasks

theorem Twin.refl (state : ReadState) : Twin state state := ⟨state.host.endTasks, rfl⟩

theorem drain_withTasks (state : ReadState) (tasks : List (UInt32 × ControlEvent)) (peeked : Nat) :
    (state.withTasks tasks).drain peeked = (state.drain peeked).withTasks tasks := by
  simp only [drain, withTasks]
  split <;> rfl

/-- What two loops have written is the same, and their states differ at most in what has been
forwarded. -/
def LoopTwin {σ α : Type} (state : σ → ReadState) (written : σ → List α) (first second : σ) :
    Prop :=
  written first = written second ∧ Twin (state first) (state second)

/-- The replies are the same, and the states are related. -/
def AnsweredAlike {α : Type} (states : ReadState → ReadState → Prop)
    (first second : ReadState × ReadReply α) : Prop :=
  first.2 = second.2 ∧ states first.1 second.1

theorem wait_twin {α : Type} (state : ReadState) (tasks : List (UInt32 × ControlEvent)) :
    AnsweredAlike Twin (state.wait : ReadState × ReadReply α) (state.withTasks tasks).wait :=
  ⟨rfl, tasks, rfl⟩

/-- No Ctrl+C or Ctrl+Z byte that a read takes out of the queue by itself has arrived in the middle
of a token. -/
def Calm (call : ReadCall) (state : ReadState) : Prop :=
  state.pendingPrefix = [] ∨
    ((call.mode.processedInput = true → state.host.inputQueue.head? ≠ some 3) ∧
      (call.processControlZ = true → state.host.inputQueue.head? ≠ some 0x1a))

theorem Calm.consume {call : ReadCall} (calm : Calm call state) (length : Nat) :
    Calm call (state.consume length) := by
  by_cases inside : length < state.pendingPrefix.length
  · have kept : length - min length state.pendingPrefix.length = 0 := by omega
    rcases calm with empty | others
    · simp [empty] at inside
    · right
      simp only [ReadState.consume, ReadState.setQueue, kept, List.drop_zero]
      exact others
  · left
    simp only [ReadState.consume, ReadState.pendingPrefix, ReadState.setQueue, ReadState.setPrefix,
      PendingInputBytes.consumePrefix, List.drop_eq_nil_iff]
    exact Nat.not_lt.mp inside

/-- What a read takes out of the state in front of what has arrived: a token, or, if it looks for
them by itself, the Ctrl+C bytes or the Ctrl+Z byte at the front of the queue. -/
inductive Takes {τ : Type} (looks : Bool) (decoder : Decoder Byte τ) (call : ReadCall)
    (one : List Byte) : ReadState → ReadState → Prop where
  | ctrlC (state : ReadState) (itself : looks = true) :
      Takes looks decoder call one state (ByteRead.prepared call state)
  | controlZ {state : ReadState} (itself : looks = true)
      (front : ByteRead.controlZAtFront call state = true) :
      Takes looks decoder call one state (state.setQueue state.host.inputQueue.tail)
  | token {state : ReadState} {token : τ} {length : Nat} (inside : length ≤ state.stream.length)
      (decoded : decoder.decode (state.stream ++ one) = .token token length) :
      Takes looks decoder call one state (state.consume length)
  | forward (state : ReadState) (event : ControlEvent) :
      Takes looks decoder call one state (state.forward call.processes event)

/-- The reads come to the event: whatever they take out in front of it, the rest is read as the
same tokens before either stream. -/
def Faces {τ : Type} (looks : Bool) (decoder : Decoder Byte τ) (call : ReadCall)
    (one other : List Byte) (state : ReadState) : Prop :=
  ∀ next, Relation.ReflTransGen (Takes looks decoder call one) state next →
    decoder.Alike one other next.stream

/-- The byte is a token by itself. -/
def Alone {τ : Type} (decoder : Decoder Byte τ) (byte : Byte) : Prop :=
  ∀ more token length, decoder.decode (byte :: more) = .token token length → length = 1

theorem Alone.tail {τ : Type} {decoder : Decoder Byte τ} {byte : Byte} (alone : Alone decoder byte)
    {one other rest : List Byte} (alike : decoder.Alike one other (byte :: rest)) :
    decoder.Alike one other rest := by
  cases alike with
  | step inside decoded decoded' later =>
      rw [alone _ _ _ decoded] at later
      exact later

theorem Alone.dropWhile {τ : Type} {decoder : Decoder Byte τ} {byte : Byte}
    (alone : Alone decoder byte) {one other bytes : List Byte}
    (alike : decoder.Alike one other bytes) :
    decoder.Alike one other (bytes.dropWhile (· == byte)) := by
  induction bytes with
  | nil => exact alike
  | cons first rest hypothesis =>
      by_cases same : first = byte
      · subst same
        rw [List.dropWhile_cons_of_pos (by simp)]
        exact hypothesis (alone.tail alike)
      · rw [List.dropWhile_cons_of_neg (by simpa using same)]
        exact alike

namespace Faces

variable {τ : Type} {looks : Bool} {decoder : Decoder Byte τ} {call : ReadCall}
  {one other : List Byte}

theorem alike (faces : Faces looks decoder call one other state) :
    decoder.Alike one other state.stream := faces state .refl

theorem takes {next : ReadState} (faces : Faces looks decoder call one other state)
    (step : Takes looks decoder call one state next) : Faces looks decoder call one other next :=
  fun last path => faces last (.head step path)

/-- A state whose front stays alike and keeps a property faces the event. -/
theorem of_invariant {holds : ReadState → Prop}
    (keeps : ∀ state next, holds state → decoder.Alike one other state.stream →
      Takes looks decoder call one state next →
        holds next ∧ decoder.Alike one other next.stream)
    (holds : holds state) (alike : decoder.Alike one other state.stream) :
    Faces looks decoder call one other state := by
  intro last path
  induction path using Relation.ReflTransGen.head_induction_on with
  | refl => exact alike
  | head step _ ih =>
      rcases keeps _ _ holds alike step with ⟨holds, alike⟩
      exact ih holds alike

end Faces

/-- The rest after a token is alike. -/
theorem alike_consume {τ : Type} {decoder : Decoder Byte τ} {one other : List Byte} {token : τ}
    {length : Nat} (alike : decoder.Alike one other state.stream)
    (inside : length ≤ state.stream.length)
    (decoded : decoder.decode (state.stream ++ one) = .token token length) :
    decoder.Alike one other (state.consume length).stream := by
  rw [ReadState.stream_consume]
  generalize state.stream = bytes at alike inside decoded
  cases alike with
  | here =>
      have positive := decoder.positive decoded
      rw [List.length_nil] at inside
      omega
  | step _ decoded' _ later =>
      cases decoded.symm.trans decoded'
      exact later

/-- A read that does not look at the queue by itself faces the event if the front is alike. -/
theorem Faces.of_alike {τ : Type} {decoder : Decoder Byte τ} {call : ReadCall}
    {one other : List Byte} (alike : decoder.Alike one other state.stream) :
    Faces false decoder call one other state := by
  have keeps (state next : ReadState) (_ : True) (alike : decoder.Alike one other state.stream)
      (step : Takes false decoder call one state next) :
      True ∧ decoder.Alike one other next.stream := by
    refine ⟨trivial, ?_⟩
    cases step with
    | ctrlC itself => cases itself
    | controlZ itself => cases itself
    | token inside decoded => exact alike_consume alike inside decoded
    | forward => exact alike
  exact .of_invariant keeps trivial alike

/-- So does one that does, if the bytes it looks for are tokens by themselves. -/
theorem Faces.of_calm {τ : Type} {decoder : Decoder Byte τ} {call : ReadCall}
    {one other : List Byte} (ctrlC : Alone decoder 3) (controlZ : Alone decoder 0x1a)
    (calm : Calm call state) (alike : decoder.Alike one other state.stream) :
    Faces true decoder call one other state := by
  refine .of_invariant ?_ calm alike
  intro state next calm alike step
  cases step with
  | ctrlC =>
      by_cases processed : call.mode.processedInput = true
      · rcases calm with empty | others
        · have stream : (ByteRead.prepared call state).stream =
              state.stream.dropWhile (· == 3) := by
            rw [ReadState.stream, ReadState.stream, ByteRead.pendingPrefix_prepared, empty,
              ByteRead.prepared, if_pos processed]
            rfl
          refine ⟨.inl (by rw [ByteRead.pendingPrefix_prepared, empty]), ?_⟩
          rw [stream]
          exact ctrlC.dropWhile alike
        · rw [ByteRead.prepared_of_head others.1]
          exact ⟨.inr others, alike⟩
      · rw [ByteRead.prepared, if_neg processed]
        exact ⟨calm, alike⟩
  | controlZ _ front =>
      simp only [ByteRead.controlZAtFront, Bool.and_eq_true, beq_iff_eq] at front
      rcases calm with empty | others
      · rcases List.head?_eq_some_iff.mp front.2 with ⟨rest, queue⟩
        rw [ReadState.stream, empty, queue] at alike
        refine ⟨.inl empty, ?_⟩
        have stream : (state.setQueue state.host.inputQueue.tail).stream = rest := by
          change state.pendingPrefix ++ state.host.inputQueue.tail = rest
          rw [empty, queue]
          rfl
        rw [stream]
        exact controlZ.tail alike
      · exact absurd front.2 (others.2 front.1)
  | token inside decoded => exact ⟨calm.consume _, alike_consume alike inside decoded⟩
  | forward => exact ⟨calm, alike⟩

theorem prepared_arrive_of_head (call : ReadCall) (state : ReadState) {more : List Byte}
    (nonempty : more ≠ []) (other : more.head? ≠ some 3) :
    ByteRead.prepared call (state.arrive more) = (ByteRead.prepared call state).arrive more := by
  have stops : more.dropWhile (· == 3) = more ∧ more.takeWhile (· == 3) = [] := by
    cases more with
    | nil => contradiction
    | cons first rest =>
        have different : ¬(first == 3) = true := by simpa using other
        exact ⟨List.dropWhile_cons_of_neg different, List.takeWhile_cons_of_neg different⟩
  simp only [ByteRead.prepared]
  split
  · have dropped : (state.host.inputQueue ++ more).dropWhile (· == 3) =
        state.host.inputQueue.dropWhile (· == 3) ++ more := by
      rw [List.dropWhile_append, stops.1]
      split
      · rename_i empty
        rw [List.isEmpty_iff.mp empty]
        rfl
      · rfl
    have taken : (state.host.inputQueue ++ more).takeWhile (· == 3) =
        state.host.inputQueue.takeWhile (· == 3) := by
      rw [List.takeWhile_append, stops.2, List.append_nil]
      split
      · rename_i all
        exact ((List.takeWhile_prefix _).eq_of_length all).symm
      · rfl
    simp only [stripCtrlC, arrive, setQueue, dropped, taken]
  · rfl

/-- Ctrl+Z at the front of the queue is found in front of the event only. -/
theorem controlZAtFront_arrive (call : ReadCall) (state : ReadState) {more : List Byte}
    (other : more.head? ≠ some 0x1a) :
    ByteRead.controlZAtFront call (state.arrive more) = ByteRead.controlZAtFront call state := by
  simp only [ByteRead.controlZAtFront, arrive, setQueue]
  cases state.host.inputQueue with
  | nil => simp [other]
  | cons first rest => rfl

theorem setQueue_tail_arrive {state : ReadState} (call : ReadCall)
    (front : ByteRead.controlZAtFront call state = true) (more : List Byte) :
    (state.arrive more).setQueue (state.arrive more).host.inputQueue.tail =
      (state.setQueue state.host.inputQueue.tail).arrive more := by
  simp only [ByteRead.controlZAtFront, Bool.and_eq_true, beq_iff_eq] at front
  rcases List.head?_eq_some_iff.mp front.2 with ⟨rest, queue⟩
  simp [arrive, setQueue, queue]

theorem prepared_twin (call : ReadCall) (state : ReadState)
    (tasks : List (UInt32 × ControlEvent)) :
    ∃ tasks', ByteRead.prepared call (state.withTasks tasks) =
      (ByteRead.prepared call state).withTasks tasks' := by
  simp only [ByteRead.prepared]
  split
  · exact ⟨_, rfl⟩
  · exact ⟨tasks, rfl⟩

/-- Two states that a read treats alike: one of them may have forwarded more, or the event is still
to come. -/
inductive InStep (faces : List Byte → List Byte → ReadState → Prop) (one other : List Byte) :
    ReadState → ReadState → Prop where
  | twin (state : ReadState) (tasks : List (UInt32 × ControlEvent)) :
      InStep faces one other state (state.withTasks tasks)
  | ahead {state : ReadState} (comes : faces one other state) :
      InStep faces one other (state.arrive one) (state.arrive other)

end ReadState

/-- The requests of a raw read. -/
def rawRequest {α : Type} (read : ReadState → ReadState × ReadReply α) (state next : ReadState)
    (answer : Answer α) : Prop :=
  (read state).1 = next ∧ (read state).2.answer = answer

theorem rawRequest_functional {α : Type} (read : ReadState → ReadState × ReadReply α) :
    Functional (rawRequest read) := by
  rintro state next next' answer answer' ⟨rfl, rfl⟩ ⟨rfl, rfl⟩
  exact ⟨rfl, rfl⟩

theorem answers_of_alike {α : Type} {read : ReadState → ReadState × ReadReply α}
    {states : ReadState → ReadState → Prop} {first second : ReadState}
    (alike : ReadState.AnsweredAlike states (read first) (read second)) :
    Answers (rawRequest read) states first second ∧
      Answers (rawRequest read) (fun second first => states first second) second first := by
  rcases alike with ⟨replies, related⟩
  constructor
  · rintro next answer ⟨rfl, rfl⟩
    exact ⟨_, ⟨rfl, by rw [replies]⟩, fun _ => related⟩
  · rintro next answer ⟨rfl, rfl⟩
    exact ⟨_, ⟨rfl, by rw [replies]⟩, fun _ => related⟩

theorem rawRequest_bisimulates {α : Type} {read : ReadState → ReadState × ReadReply α}
    {states : ReadState → ReadState → Prop}
    (alike : ∀ first second, states first second →
      ReadState.AnsweredAlike states (read first) (read second)) :
    Bisimulates (rawRequest read) states := by
  intro first second related
  exact .inl (answers_of_alike (alike first second related))

end Conhost
