import Conhost.Input.Handle

/-!
# Byte reads

Raw ANSI `ReadConsole` and `CONSOLE_IO_RAW_READ` hand the client the bytes of
the stream. Only VT sequences are taken out of it; a key event among them is
replaced by its character in the input code page. The two loops of the source
differ in the treatment of Ctrl+Z alone.
-/

namespace Conhost

open VtInput (tryDecodeVt DecodeResult)

/-- What a read request takes from the server and from its message. -/
structure ReadCall where
  codePage : CodePage := cpUtf8
  mode : InputMode := ⟨0⟩
  /-- The connected processes, in the order of `for_each_process`. -/
  processes : List UInt32 := []
  /-- The size of the output buffer in bytes. -/
  capacity : Nat
  processControlZ : Bool := false
deriving DecidableEq

namespace ByteRead

/-- The locals of the loop: the read state and the bytes written to the output buffer. -/
structure LoopState where
  state : ReadState
  written : List Byte

/-- The code after the loop. -/
def finish (loop : LoopState) : ReadState × ReadReply Byte :=
  if loop.written.isEmpty && loop.state.exhausted then loop.state.wait
  else (loop.state, .complete .success loop.written)

/-- `try_decode_vt` on the peeked head; an unfinished sequence that fills the head is no match. -/
def headOutcome (head : List Byte) : DecodeResult :=
  if tryDecodeVt head = .needMoreData ∧ head.length = 64 then .noMatch else tryDecodeVt head

variable (platform : Platform) (call : ReadCall) (controlZ : Bool) (loop : LoopState)

def skip (bytesConsumed : Nat) : Pass LoopState (ReadState × ReadReply Byte) :=
  .next { loop with state := loop.state.consume bytesConsumed }

/-- The character of a key event, encoded in the input code page. -/
def keyCharacter (value : WChar) (bytesConsumed : Nat) :
    Pass LoopState (ReadState × ReadReply Byte) :=
  let encoded := platform.wideCharToMultiByte call.codePage [value]
  if encoded = [] then .leave (loop.state, .complete .invalidParameter [])
  else if call.capacity - loop.written.length < encoded.length then .leave (finish loop)
  else if 16 < encoded.length then .leave (loop.state, .complete .invalidParameter [])
  else .next ⟨loop.state.consume bytesConsumed, loop.written ++ encoded⟩

def keyEvent (key : KeyEvent) (bytesConsumed : Nat) : Pass LoopState (ReadState × ReadReply Byte) :=
  if call.mode.processedInput && key.keyDown && key.matchesCtrlBreak then
    .leave ((loop.state.consume bytesConsumed).flushInput.forward call.processes .ctrlBreak,
      .complete .alerted [])
  else if call.mode.processedInput && key.keyDown && key.matchesCtrlC then
    .next { loop with state := (loop.state.consume bytesConsumed).forward call.processes .ctrlC }
  else if !key.keyDown then skip loop bytesConsumed
  else if key.unicodeChar = 0 then skip loop bytesConsumed
  else if controlZ ∧ loop.written = [] ∧ key.unicodeChar = 0x1a then
    .leave (loop.state.consume bytesConsumed, .complete .success [])
  else keyCharacter platform call loop key.unicodeChar bytesConsumed

/-- A byte that starts no VT sequence. -/
def plainByte (value : Byte) : Pass LoopState (ReadState × ReadReply Byte) :=
  if call.mode.processedInput ∧ value = 3 then
    .next { loop with state := (loop.state.consume 1).forward call.processes .ctrlC }
  else if controlZ ∧ loop.written = [] ∧ value = 0x1a then
    .leave (loop.state.consume 1, .complete .success [])
  else .next ⟨loop.state.consume 1, loop.written ++ [value]⟩

/-- The body of the loop over an unfinished head: kept for later unless something was read. -/
def unfinished : ReadState × ReadReply Byte :=
  if loop.written ≠ [] then finish loop
  else (loop.state.drain (64 - loop.state.pendingPrefix.length)).wait

def body : Pass LoopState (ReadState × ReadReply Byte) :=
  if call.capacity ≤ loop.written.length then .leave (finish loop)
  else
    match loop.state.peekHead with
    | [] => .leave (finish loop)
    | first :: rest =>
        match headOutcome (first :: rest) with
        | .needMoreData => .leave (unfinished loop)
        | .produced (.keyEvent key) bytesConsumed =>
            keyEvent platform call controlZ loop key bytesConsumed
        | .produced _ bytesConsumed => skip loop bytesConsumed
        | .noMatch => plainByte call controlZ loop first

variable {platform call controlZ loop}

theorem headOutcome_produced {head : List Byte} {token : Token} {length : Nat}
    (produced : headOutcome head = .produced token length) :
    tryDecodeVt head = .produced token length := by
  simp only [headOutcome] at produced
  split at produced
  · cases produced
  · exact produced

/-- A continuing pass takes `count` bytes off the stream and keeps to the buffer. -/
def Advances (call : ReadCall) (loop : LoopState) (count : Nat)
    (pass : Pass LoopState (ReadState × ReadReply Byte)) : Prop :=
  ∀ {next}, pass = .next next → next.state.stream = loop.state.stream.drop count ∧
    (loop.written.length < call.capacity → next.written.length ≤ call.capacity)

theorem skip_advances (bytesConsumed : Nat) :
    Advances call loop bytesConsumed (skip loop bytesConsumed) := by
  intro next pass
  cases pass
  exact ⟨by simp, Nat.le_of_lt⟩

theorem keyCharacter_advances (value : WChar) (bytesConsumed : Nat) :
    Advances call loop bytesConsumed (keyCharacter platform call loop value bytesConsumed) := by
  intro next pass
  simp only [keyCharacter] at pass
  split at pass
  · cases pass
  · split at pass
    · cases pass
    · rename_i fits
      split at pass
      · cases pass
      · cases pass
        refine ⟨by simp, fun room => ?_⟩
        simp only [List.length_append]
        omega

theorem keyEvent_advances (key : KeyEvent) (bytesConsumed : Nat) :
    Advances call loop bytesConsumed
      (keyEvent platform call controlZ loop key bytesConsumed) := by
  intro next pass
  simp only [keyEvent] at pass
  split at pass
  · cases pass
  · split at pass
    · cases pass
      exact ⟨by simp, Nat.le_of_lt⟩
    · split at pass
      · exact skip_advances bytesConsumed pass
      · split at pass
        · exact skip_advances bytesConsumed pass
        · split at pass
          · cases pass
          · exact keyCharacter_advances key.unicodeChar bytesConsumed pass

theorem plainByte_advances (value : Byte) :
    Advances call loop 1 (plainByte call controlZ loop value) := by
  intro next pass
  simp only [plainByte] at pass
  split at pass
  · cases pass
    exact ⟨by simp, Nat.le_of_lt⟩
  · split at pass
    · cases pass
    · cases pass
      refine ⟨by simp, fun room => ?_⟩
      simp only [List.length_append, List.length_singleton]
      omega

/-- A pass that continues has room, has bytes to read and takes some of them. -/
theorem body_next {next : LoopState} (pass : body platform call controlZ loop = .next next) :
    loop.written.length < call.capacity ∧ loop.state.stream ≠ [] ∧
      next.written.length ≤ call.capacity ∧ ∃ count, 0 < count ∧
        next.state.stream = loop.state.stream.drop count ∧
        ∀ token length, headOutcome loop.state.peekHead = .produced token length →
          1 < count ∧ count ≤ loop.state.stream.length := by
  simp only [body] at pass
  split at pass
  · cases pass
  · rename_i room
    replace room := Nat.not_le.mp room
    split at pass
    · cases pass
    · rename_i first rest head
      have unread : loop.state.stream ≠ [] := by
        intro empty
        rw [ReadState.peekHead_eq, empty, List.take_nil] at head
        cases head
      have size : (first :: rest).length ≤ loop.state.stream.length := by
        rw [← head, ReadState.peekHead_eq]
        exact List.length_take_le' _ _
      rw [head]
      split at pass
      · cases pass
      · rename_i key bytesConsumed produced
        obtain ⟨long, within, -⟩ := VtInput.tryDecodeVt_within _ (headOutcome_produced produced)
        obtain ⟨advanced, kept⟩ := keyEvent_advances key bytesConsumed pass
        exact ⟨room, unread, kept room, bytesConsumed, by omega, advanced,
          fun _ _ _ => ⟨long, by omega⟩⟩
      · rename_i token bytesConsumed notKey produced
        obtain ⟨long, within, -⟩ := VtInput.tryDecodeVt_within _ (headOutcome_produced produced)
        obtain ⟨advanced, kept⟩ := skip_advances bytesConsumed pass
        exact ⟨room, unread, kept room, bytesConsumed, by omega, advanced,
          fun _ _ _ => ⟨long, by omega⟩⟩
      · rename_i noMatch
        obtain ⟨advanced, kept⟩ := plainByte_advances first pass
        refine ⟨room, unread, kept room, 1, Nat.zero_lt_one, advanced, ?_⟩
        intro token length produced
        rw [noMatch] at produced
        cases produced

/-- A leaving pass returns what was written or nothing, and puts no byte back. -/
def Returns (loop : LoopState) (pass : Pass LoopState (ReadState × ReadReply Byte)) : Prop :=
  ∀ {value}, pass = .leave value → (value.2.data = loop.written ∨ value.2.data = []) ∧
    value.1.stream.length ≤ loop.state.stream.length

theorem finish_returns : Returns loop (.leave (finish loop)) := by
  intro value pass
  cases pass
  simp only [finish, ReadState.wait]
  split
  · split <;> simp [ReadReply.data]
  · simp [ReadReply.data]

theorem unfinished_returns : Returns loop (.leave (unfinished loop)) := by
  simp only [unfinished]
  split
  · exact finish_returns
  · intro value pass
    cases pass
    simp only [ReadState.wait, ReadState.inputDisconnected_drain, ReadState.stream_drain]
    split <;> simp [ReadReply.data]

theorem keyCharacter_returns (value : WChar) (bytesConsumed : Nat) :
    Returns loop (keyCharacter platform call loop value bytesConsumed) := by
  simp only [keyCharacter]
  split
  · intro value pass
    cases pass
    simp [ReadReply.data]
  · split
    · exact finish_returns
    · split
      · intro value pass
        cases pass
        simp [ReadReply.data]
      · intro value pass
        cases pass

theorem keyEvent_returns (key : KeyEvent) (bytesConsumed : Nat) :
    Returns loop (keyEvent platform call controlZ loop key bytesConsumed) := by
  intro value pass
  simp only [keyEvent] at pass
  split at pass
  · cases pass
    simp [ReadReply.data]
  · split at pass
    · cases pass
    · split at pass
      · cases pass
      · split at pass
        · cases pass
        · split at pass
          · cases pass
            simp [ReadReply.data]
          · exact keyCharacter_returns key.unicodeChar bytesConsumed pass

theorem plainByte_returns (byte : Byte) : Returns loop (plainByte call controlZ loop byte) := by
  intro value pass
  simp only [plainByte] at pass
  split at pass
  · cases pass
  · split at pass
    · cases pass
      simp [ReadReply.data]
    · cases pass

theorem body_returns : Returns loop (body platform call controlZ loop) := by
  simp only [body]
  split
  · exact finish_returns
  · split
    · exact finish_returns
    · split
      · exact unfinished_returns
      · exact keyEvent_returns _ _
      · intro value pass
        cases pass
      · exact plainByte_returns _

variable (platform call controlZ)

/-- The loop shared by raw ANSI `ReadConsole` and `CONSOLE_IO_RAW_READ`. -/
def readLoop : Loop LoopState (ReadState × ReadReply Byte) where
  body := body platform call controlZ
  measure loop := loop.state.stream.length
  decreases := by
    intro loop next pass
    obtain ⟨-, unread, -, count, positive, advanced, -⟩ := body_next pass
    have size := List.length_pos_of_ne_nil unread
    rw [advanced, List.length_drop]
    omega

variable {platform call controlZ}

/-- The reply fits the buffer and no byte is put back. -/
def Bounded (call : ReadCall) (loop : LoopState) (value : ReadState × ReadReply Byte) : Prop :=
  loop.written.length ≤ call.capacity →
    value.2.data.length ≤ call.capacity ∧ value.1.stream.length ≤ loop.state.stream.length

theorem readLoop_bounded (loop : LoopState) :
    Bounded call loop ((readLoop platform call controlZ).run loop) := by
  apply (readLoop platform call controlZ).run_induction
  · intro loop value pass room
    rcases body_returns pass with ⟨written | nothing, shrunk⟩
    · rw [written]
      exact ⟨room, shrunk⟩
    · rw [nothing]
      exact ⟨Nat.zero_le _, shrunk⟩
  · intro loop next value pass holds room
    obtain ⟨-, -, kept, count, -, advanced, -⟩ := body_next pass
    obtain ⟨fits, shrunk⟩ := holds kept
    rw [advanced, List.length_drop] at shrunk
    exact ⟨fits, by omega⟩

variable (platform call)

/-- `CONSOLE_IO_RAW_READ` -/
def rawRead (state : ReadState) : ReadState × ReadReply Byte :=
  (readLoop platform call true).run ⟨state, []⟩

/-- The end-of-file check of a raw `ReadConsole`, which looks at the queue only. -/
def controlZAtFront (state : ReadState) : Bool :=
  call.processControlZ && state.host.inputQueue.head? == some 0x1a

/-- `ReadConsole` with neither `ENABLE_LINE_INPUT` nor the Unicode flag. -/
def rawAnsiRead (state : ReadState) : ReadState × ReadReply Byte :=
  if call.capacity = 0 then (state, .complete .success [])
  else
    let state := if call.mode.processedInput then state.stripCtrlC call.processes else state
    if state.exhausted then state.wait
    else if controlZAtFront call state then
      (state.setQueue state.host.inputQueue.tail, .complete .success [])
    else (readLoop platform call false).run ⟨state, []⟩

end ByteRead

end Conhost
