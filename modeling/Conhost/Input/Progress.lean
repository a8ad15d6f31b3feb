import Conhost.Input.Cooked
import Conhost.Input.RecordStream
import Conhost.Input.UnicodeRead

/-!
# Progress of reads

A read that waits takes what it has peeked into the handle and is dispatched
again when more bytes arrive. It should not wait forever: some continuation of
the stream must let it take at least one byte. The byte reads give up on a
sequence that fills the window and take its first byte; the reads that decode
tokens do not.
-/

namespace Conhost

/-- A read took bytes off the stream, or gave out the unit held back. -/
def ReadState.Moved (before after : ReadState) : Prop :=
  after.stream.length < before.stream.length ∨
    (before.handle.decodedInputPending ≠ none ∧ after.handle.decodedInputPending = none)

theorem ReadState.not_moved_of_eq {before after : ReadState} (same : after.stream = before.stream)
    (held : after.handle.decodedInputPending = before.handle.decodedInputPending) :
    ¬before.Moved after := by
  rintro (shorter | ⟨some, none⟩)
  · rw [same] at shorter
    exact Nat.lt_irrefl _ shorter
  · exact some (held ▸ none)

/-- What is drained from a window of 64 bytes fits the handle's array. -/
theorem ReadState.pendingPrefix_drain (state : ReadState) :
    (state.drain (64 - state.pendingPrefix.length)).pendingPrefix = state.peekHead := by
  have bound : state.pendingPrefix.length ≤ 64 := state.handle.pendingInputBytes.2
  have fits : (state.handle.pendingInputBytes.1 ++ state.host.inputQueue.take
      (64 - state.pendingPrefix.length)).length ≤ 64 := by
    simp only [List.length_append, List.length_take, pendingPrefix] at bound ⊢
    omega
  rw [drain, PendingInputBytes.append, dif_pos fits]
  rfl

/-- The window of a token read is full and holds no token. -/
def Platform.WindowStuck (platform : Platform) (codePage : CodePage) (limit : Nat)
    (stream : List Byte) : Prop :=
  limit ≤ stream.length ∧ platform.decodeOneInputToken codePage (stream.take limit) = .needMore

variable {platform : Platform}

theorem Platform.WindowStuck.append {codePage : CodePage} {limit : Nat} {stream : List Byte}
    (stuck : platform.WindowStuck codePage limit stream) (more : List Byte) :
    platform.WindowStuck codePage limit (stream ++ more) := by
  obtain ⟨full, waiting⟩ := stuck
  refine ⟨?_, ?_⟩
  · simp only [List.length_append]
    omega
  · rwa [List.take_append_of_le_length full]

/-- Unless the window is stuck, some continuation completes a token. -/
theorem Platform.exists_token {codePage : CodePage} {limit : Nat} (wide : 4 ≤ limit)
    {stream : List Byte} (movable : ¬platform.WindowStuck codePage limit stream) :
    ∃ more token length, platform.decodeOneInputToken codePage ((stream ++ more).take limit) =
      .token token length := by
  cases decoded : platform.decodeOneInputToken codePage (stream.take limit) with
  | token token length => exact ⟨[], token, length, by rwa [List.append_nil]⟩
  | needMore =>
      have short : stream.length < limit := by
        by_contra full
        exact movable ⟨Nat.not_lt.mp full, decoded⟩
      rw [List.take_of_length_le short.le] at decoded
      obtain ⟨token, length, complete⟩ := Platform.decodeOneInputToken_complete wide short decoded
      exact ⟨Platform.plainText, token, length, complete⟩

namespace ByteRead

variable {call : ReadCall} {controlZ : Bool} {state : ReadState}

/-- The character of a key that a byte read neither returns nor discards: it has no encoding, or
one that does not fit. -/
def Undeliverable (platform : Platform) (call : ReadCall) (controlZ : Bool) (key : KeyEvent) :
    Prop :=
  let encoded := platform.wideCharToMultiByte call.codePage [key.unicodeChar]
  key.keyDown = true ∧ key.unicodeChar ≠ 0 ∧
    ¬(call.mode.processedInput = true ∧
      (key.matchesCtrlBreak = true ∨ key.matchesCtrlC = true)) ∧
    ¬(controlZ = true ∧ key.unicodeChar = 0x1a) ∧
    (encoded = [] ∨ call.capacity < encoded.length ∨ 16 < encoded.length)

/-- The stream starts with the sequence of such a key. -/
def KeyStuck (platform : Platform) (call : ReadCall) (controlZ : Bool) (stream : List Byte) :
    Prop :=
  ∃ key length, headOutcome (stream.take 64) = .produced (.keyEvent key) length ∧
    Undeliverable platform call controlZ key

theorem KeyStuck.append {stream : List Byte} (stuck : KeyStuck platform call controlZ stream)
    (more : List Byte) : KeyStuck platform call controlZ (stream ++ more) := by
  obtain ⟨key, length, produced, undeliverable⟩ := stuck
  refine ⟨key, length, ?_, undeliverable⟩
  have decoded := headOutcome_produced produced
  have nonempty : stream.take 64 ≠ [] := by
    intro empty
    rw [empty] at decoded
    cases decoded
  have settled := VtInput.tryDecodeVt_append nonempty (more.take (64 - stream.length))
  rw [decoded, ← List.take_append] at settled
  have longer := settled (by simp)
  simp [headOutcome, longer]

theorem keyEvent_stuck (state : ReadState) {key : KeyEvent}
    (stuck : Undeliverable platform call controlZ key) (bytesConsumed : Nat) :
    ∃ reply, keyEvent platform call controlZ ⟨state, []⟩ key bytesConsumed =
      .leave (state, reply) := by
  obtain ⟨down, visible, plain, notEnd, encoded⟩ := stuck
  simp only [not_and, not_or] at plain notEnd
  have notBreak : ¬(call.mode.processedInput && key.keyDown && key.matchesCtrlBreak) = true := by
    simp only [Bool.and_eq_true, not_and]
    intro processed
    exact (plain processed.1).1
  have notCtrlC : ¬(call.mode.processedInput && key.keyDown && key.matchesCtrlC) = true := by
    simp only [Bool.and_eq_true, not_and]
    intro processed
    exact (plain processed.1).2
  have notControlZ : ¬(controlZ = true ∧ ([] : List Byte) = [] ∧ key.unicodeChar = 0x1a) := by
    rintro ⟨active, -, isEnd⟩
    exact notEnd active isEnd
  rw [keyEvent, if_neg notBreak, if_neg notCtrlC, if_neg (by simp [down]), if_neg visible,
    if_neg notControlZ]
  simp only [keyCharacter, List.length_nil, Nat.sub_zero]
  split
  · exact ⟨_, rfl⟩
  · split
    · simp only [finish]
      split <;> exact ⟨_, rfl⟩
    · split
      · exact ⟨_, rfl⟩
      · rename_i nonempty fits small
        rcases encoded with empty | large | long
        · exact absurd empty nonempty
        · exact absurd large fits
        · exact absurd long small

/-- The pass takes bytes off the stream. -/
abbrev Shortens (state : ReadState) (pass : Pass LoopState (ReadState × ReadReply Byte)) : Prop :=
  pass.Below (fun loop => loop.state.stream.length) (fun value => value.1.stream.length)
    state.stream.length

theorem keyEvent_shortens {key : KeyEvent} {bytesConsumed : Nat}
    (movable : ¬Undeliverable platform call controlZ key) (positive : 0 < bytesConsumed)
    (unread : state.stream ≠ []) :
    Shortens state (keyEvent platform call controlZ ⟨state, []⟩ key bytesConsumed) := by
  have shorter := state.length_consume_lt positive unread
  simp only [keyEvent]
  split
  · exact List.length_pos_of_ne_nil unread
  · rename_i notBreak
    split
    · exact shorter
    · rename_i notCtrlC
      split
      · exact shorter
      · rename_i down
        split
        · exact shorter
        · rename_i visible
          split
          · exact shorter
          · rename_i notEnd
            simp only [Bool.not_eq_true', Bool.not_eq_false] at down
            simp only [down, Bool.and_true, Bool.and_eq_true, not_and] at notBreak notCtrlC
            have deliverable : ¬(platform.wideCharToMultiByte call.codePage [key.unicodeChar] = [] ∨
                call.capacity < (platform.wideCharToMultiByte call.codePage
                  [key.unicodeChar]).length ∨
                16 < (platform.wideCharToMultiByte call.codePage [key.unicodeChar]).length) := by
              intro encoded
              refine movable ⟨down, visible, ?_, ?_, encoded⟩
              · rintro ⟨processed, isBreak | isCtrlC⟩
                · exact notBreak processed isBreak
                · exact notCtrlC processed isCtrlC
              · rintro ⟨active, isEnd⟩
                exact notEnd ⟨active, trivial, isEnd⟩
            simp only [not_or] at deliverable
            simp only [keyCharacter, List.length_nil, Nat.sub_zero, if_neg deliverable.1,
              if_neg deliverable.2.1, if_neg deliverable.2.2]
            exact shorter

theorem body_shortens (room : 0 < call.capacity) (unread : state.stream ≠ [])
    (decided : headOutcome (state.stream.take 64) ≠ .needMoreData)
    (movable : ¬KeyStuck platform call controlZ state.stream) :
    Shortens state (body platform call controlZ ⟨state, []⟩) := by
  have vacant : ¬call.capacity ≤ ([] : List Byte).length := Nat.not_le.mpr room
  simp only [body, if_neg vacant, ReadState.peekHead_eq]
  split
  · rename_i empty
    rw [List.take_eq_nil_iff] at empty
    simp [unread] at empty
  · rename_i first rest head
    rw [head] at decided
    split
    · rename_i waiting
      exact absurd waiting decided
    · rename_i key bytesConsumed produced
      have long := VtInput.tryDecodeVt_within _ (headOutcome_produced produced)
      refine keyEvent_shortens ?_ (by omega) unread
      intro undeliverable
      exact movable ⟨key, bytesConsumed, by rw [head, produced], undeliverable⟩
    · rename_i token bytesConsumed notKey produced
      have long := VtInput.tryDecodeVt_within _ (headOutcome_produced produced)
      exact state.length_consume_lt (by omega) unread
    · have shorter := state.length_consume_lt Nat.zero_lt_one unread
      simp only [plainByte]
      split
      · exact shorter
      · split <;> exact shorter

theorem readLoop_shortens (room : 0 < call.capacity) (unread : state.stream ≠ [])
    (decided : headOutcome (state.stream.take 64) ≠ .needMoreData)
    (movable : ¬KeyStuck platform call controlZ state.stream) :
    ((readLoop platform call controlZ).run ⟨state, []⟩).1.stream.length <
      state.stream.length := by
  apply (readLoop platform call controlZ).run_lt (fun value => value.1.stream.length)
  · intro loop value pass
    exact (body_returns pass).2
  · exact body_shortens room unread decided movable

theorem readLoop_stuck (state : ReadState) (room : 0 < call.capacity)
    (stuck : KeyStuck platform call controlZ state.stream) :
    ((readLoop platform call controlZ).run ⟨state, []⟩).1 = state := by
  obtain ⟨key, length, produced, undeliverable⟩ := stuck
  have vacant : ¬call.capacity ≤ ([] : List Byte).length := Nat.not_le.mpr room
  obtain ⟨reply, leaves⟩ := keyEvent_stuck state undeliverable length
  have pass : body platform call controlZ ⟨state, []⟩ = .leave (state, reply) := by
    simp only [body, if_neg vacant, ReadState.peekHead_eq]
    split
    · rename_i empty
      rw [empty] at produced
      cases produced
    · rename_i first rest head
      rw [head] at produced
      simp only [produced, leaves]
  rw [(readLoop platform call controlZ).run_of_leave pass]

/-- Unless the head is the sequence of such a key, some continuation lets the loop take a byte. -/
theorem exists_readLoop_shortens (room : 0 < call.capacity)
    (movable : ¬KeyStuck platform call controlZ state.stream) :
    ∃ more, ((readLoop platform call controlZ).run ⟨state.arrive more, []⟩).1.stream.length <
      (state.arrive more).stream.length := by
  by_cases decided : state.stream ≠ [] ∧ headOutcome (state.stream.take 64) ≠ .needMoreData
  · refine ⟨[], ?_⟩
    apply readLoop_shortens room <;> simpa using by tauto
  · refine ⟨Platform.plainText, ?_⟩
    have noMatch : headOutcome ((state.arrive Platform.plainText).stream.take 64) = .noMatch := by
      rw [ReadState.stream_arrive]
      by_cases unread : state.stream = []
      · rw [unread]
        rfl
      · have waiting : headOutcome (state.stream.take 64) = .needMoreData := by
          by_contra other
          exact decided ⟨unread, other⟩
        have short : state.stream.length < 64 := by
          by_contra full
          simp only [headOutcome, List.length_take, Nat.min_eq_left (Nat.not_lt.mp full),
            and_true] at waiting
          split at waiting
          · cases waiting
          · contradiction
        rw [List.take_of_length_le short.le] at waiting
        have undecided : VtInput.tryDecodeVt state.stream = .needMoreData := by
          simp only [headOutcome] at waiting
          split at waiting
          · cases waiting
          · exact waiting
        obtain ⟨more, window⟩ := Platform.take_append_plainText short
        have broken := VtInput.tryDecodeVt_break more undecided
        rw [window]
        simp [headOutcome, broken]
    apply readLoop_shortens room
    · simp [Platform.plainText]
    · rw [noMatch]
      simp
    · rintro ⟨key, length, produced, -⟩
      rw [noMatch] at produced
      cases produced

/-- A Ctrl+C or Ctrl+Z that these checks take off the queue is at its front, or can arrive there. -/
def Escapes (call : ReadCall) (state : ReadState) : Prop :=
  (call.mode.processedInput = true ∧
      (state.host.inputQueue = [] ∨ state.host.inputQueue.head? = some 3)) ∨
    (call.processControlZ = true ∧
      (state.host.inputQueue = [] ∨ state.host.inputQueue.head? = some 0x1a))

/-- The state after Ctrl+C bytes have been taken out. -/
def prepared (call : ReadCall) (state : ReadState) : ReadState :=
  if call.mode.processedInput then state.stripCtrlC call.processes else state

theorem prepared_of_head (other : call.mode.processedInput = true →
    state.host.inputQueue.head? ≠ some 3) : prepared call state = state := by
  simp only [prepared]
  split
  · rename_i processed
    exact state.stripCtrlC_of_head call.processes (other processed)
  · rfl

theorem pendingPrefix_prepared : (prepared call state).pendingPrefix = state.pendingPrefix := by
  simp only [prepared]
  split <;> rfl

theorem held_prepared : (prepared call state).handle.decodedInputPending =
    state.handle.decodedInputPending := by
  simp only [prepared]
  split <;> rfl

theorem length_prepared_le (call : ReadCall) (state : ReadState) :
    (prepared call state).stream.length ≤ state.stream.length := by
  simp only [prepared]
  split
  · have shorter : (state.host.inputQueue.dropWhile (· == 3)).length ≤ _ :=
      (List.dropWhile_suffix _).length_le
    simp only [ReadState.stream, ReadState.stripCtrlC, ReadState.pendingPrefix, List.length_append]
    omega
  · exact le_rfl

theorem inputQueue_arrive (state : ReadState) (more : List Byte) :
    (state.arrive more).host.inputQueue = state.host.inputQueue ++ more := rfl

/-- Where nothing escapes, the checks find nothing however the stream goes on. -/
theorem prepared_arrive (kept : ¬Escapes call state) (more : List Byte) :
    prepared call (state.arrive more) = state.arrive more ∧
      controlZAtFront call (state.arrive more) = false := by
  simp only [Escapes, not_or, not_and] at kept
  obtain ⟨notCtrlC, notEnd⟩ := kept
  constructor
  · apply prepared_of_head
    intro processed
    obtain ⟨nonempty, head⟩ := notCtrlC processed
    rwa [inputQueue_arrive, List.head?_append_of_ne_nil _ nonempty]
  · simp only [controlZAtFront, Bool.and_eq_false_imp]
    intro active
    obtain ⟨nonempty, head⟩ := notEnd active
    rw [inputQueue_arrive, List.head?_append_of_ne_nil _ nonempty]
    simpa using head

theorem length_prepared_lt (processed : call.mode.processedInput = true)
    (head : state.host.inputQueue.head? = some 3) :
    (prepared call state).stream.length < state.stream.length := by
  rw [prepared, if_pos processed]
  exact state.length_stripCtrlC_lt call.processes head

/-- Where something escapes, the checks take it off the queue after some continuation. -/
theorem exists_escape (escapes : Escapes call state) :
    ∃ more, (prepared call (state.arrive more)).stream.length <
        (state.arrive more).stream.length ∨
      (prepared call (state.arrive more) = state.arrive more ∧
        (state.arrive more).stream ≠ [] ∧ controlZAtFront call (state.arrive more) = true ∧
          (state.arrive more).host.inputQueue ≠ []) := by
  have ctrlC : ∀ more, call.mode.processedInput = true →
      (state.host.inputQueue ++ more).head? = some 3 →
      (prepared call (state.arrive more)).stream.length < (state.arrive more).stream.length :=
    fun more processed head => length_prepared_lt processed head
  have controlZ : ∀ more, call.processControlZ = true →
      (state.host.inputQueue ++ more).head? = some 0x1a →
      prepared call (state.arrive more) = state.arrive more ∧
        (state.arrive more).stream ≠ [] ∧ controlZAtFront call (state.arrive more) = true ∧
          (state.arrive more).host.inputQueue ≠ [] := by
    intro more active head
    obtain ⟨rest, queue⟩ := List.head?_eq_some_iff.mp head
    refine ⟨prepared_of_head fun _ => ?_, ?_, ?_, ?_⟩
    · rw [inputQueue_arrive, head]
      decide
    · simp [ReadState.stream, inputQueue_arrive, queue]
    · simp [controlZAtFront, active, inputQueue_arrive, head]
    · simp [inputQueue_arrive, queue]
  rcases escapes with ⟨processed, empty | head⟩ | ⟨active, empty | head⟩
  · exact ⟨[3], .inl (ctrlC [3] processed (by simp [empty]))⟩
  · exact ⟨[], .inl (ctrlC [] processed (by simpa using head))⟩
  · exact ⟨[0x1a], .inr (controlZ [0x1a] active (by simp [empty]))⟩
  · exact ⟨[], .inr (controlZ [] active (by simpa using head))⟩

theorem length_setQueue_tail (unread : state.host.inputQueue ≠ []) :
    (state.setQueue state.host.inputQueue.tail).stream.length < state.stream.length := by
  have positive := List.length_pos_of_ne_nil unread
  simp only [ReadState.stream, ReadState.setQueue, ReadState.pendingPrefix, List.length_append,
    List.length_tail]
  omega

/-- The states in which no continuation lets a raw ANSI `ReadConsole` take a byte. -/
def Stuck (platform : Platform) (call : ReadCall) (state : ReadState) : Prop :=
  call.capacity = 0 ∨ (¬Escapes call state ∧ KeyStuck platform call false state.stream)

theorem not_moved_rawAnsiRead (stuck : Stuck platform call state) (more : List Byte) :
    ¬(state.arrive more).Moved (rawAnsiRead platform call (state.arrive more)).1 := by
  simp only [rawAnsiRead]
  split
  · exact ReadState.not_moved_of_eq rfl rfl
  · rename_i room
    rcases stuck with empty | ⟨kept, stuck⟩
    · exact absurd empty room
    · obtain ⟨same, notEnd⟩ := prepared_arrive kept more
      simp only [prepared] at same
      rw [same, notEnd]
      have final := readLoop_stuck (state.arrive more) (Nat.pos_of_ne_zero room)
        (by rw [ReadState.stream_arrive]; exact stuck.append more)
      split
      · exact ReadState.not_moved_of_eq rfl rfl
      · rw [if_neg Bool.false_ne_true, final]
        exact ReadState.not_moved_of_eq rfl rfl

theorem rawAnsiRead_eq (room : call.capacity ≠ 0) : rawAnsiRead platform call state =
    if (prepared call state).exhausted then (prepared call state).wait
    else if controlZAtFront call (prepared call state) then
      ((prepared call state).setQueue (prepared call state).host.inputQueue.tail,
        .complete .success [])
    else (readLoop platform call false).run ⟨prepared call state, []⟩ := by
  rw [rawAnsiRead, if_neg room]
  rfl

theorem length_rawAnsiRead_le (room : call.capacity ≠ 0) :
    (rawAnsiRead platform call state).1.stream.length ≤ (prepared call state).stream.length := by
  rw [rawAnsiRead_eq room]
  split
  · exact le_rfl
  · split
    · simp [ReadState.stream, ReadState.setQueue, ReadState.pendingPrefix]
    · exact (readLoop_bounded ⟨prepared call state, []⟩ (Nat.zero_le _)).2

theorem exists_moved_rawAnsiRead (movable : ¬Stuck platform call state) :
    ∃ more, (state.arrive more).Moved (rawAnsiRead platform call (state.arrive more)).1 := by
  simp only [Stuck, not_or, not_and] at movable
  obtain ⟨room, movable⟩ := movable
  by_cases escapes : Escapes call state
  · obtain ⟨more, shorter | ⟨same, unread, atEnd, queue⟩⟩ := exists_escape escapes
    · exact ⟨more, .inl ((length_rawAnsiRead_le room).trans_lt shorter)⟩
    · refine ⟨more, .inl ?_⟩
      have busy : ¬(state.arrive more).exhausted = true := by rwa [ReadState.exhausted_iff]
      rw [rawAnsiRead_eq room, same, if_neg busy, if_pos atEnd]
      exact length_setQueue_tail queue
  · obtain ⟨more, shorter⟩ :=
      exists_readLoop_shortens (Nat.pos_of_ne_zero room) fun stuck => movable escapes stuck
    refine ⟨more, .inl ?_⟩
    obtain ⟨same, notEnd⟩ := prepared_arrive escapes more
    have busy : ¬(state.arrive more).exhausted = true := by
      rw [ReadState.exhausted_iff]
      intro empty
      simp [empty] at shorter
    rw [rawAnsiRead_eq room, same, if_neg busy, if_neg (by simp [notEnd])]
    exact shorter

/-- The states in which no continuation lets a `CONSOLE_IO_RAW_READ` take a byte. -/
def RawStuck (platform : Platform) (call : ReadCall) (state : ReadState) : Prop :=
  call.capacity = 0 ∨ KeyStuck platform call true state.stream

theorem not_moved_rawRead (stuck : RawStuck platform call state) (more : List Byte) :
    ¬(state.arrive more).Moved (rawRead platform call (state.arrive more)).1 := by
  rcases Nat.eq_zero_or_pos call.capacity with empty | room
  · have pass : body platform call true ⟨state.arrive more, []⟩ =
        .leave (finish ⟨state.arrive more, []⟩) := by
      rw [body, if_pos (by simp [empty])]
    rw [rawRead, (readLoop platform call true).run_of_leave pass]
    simp only [finish]
    split <;> exact ReadState.not_moved_of_eq rfl rfl
  · rcases stuck with empty | stuck
    · omega
    · rw [rawRead, readLoop_stuck _ room (by rw [ReadState.stream_arrive]; exact stuck.append more)]
      exact ReadState.not_moved_of_eq rfl rfl

theorem exists_moved_rawRead (movable : ¬RawStuck platform call state) :
    ∃ more, (state.arrive more).Moved (rawRead platform call (state.arrive more)).1 := by
  simp only [RawStuck, not_or] at movable
  obtain ⟨room, movable⟩ := movable
  obtain ⟨more, shorter⟩ := exists_readLoop_shortens (Nat.pos_of_ne_zero room) movable
  exact ⟨more, .inl shorter⟩

end ByteRead

namespace UnicodeRead

open ByteRead (Escapes prepared prepared_arrive exists_escape controlZAtFront length_setQueue_tail)

variable {call : ReadCall} {loop : LoopState} {state : ReadState}

/-- What a pass does to the unit held back: it is kept empty unless a pair is cut, and then the pair
has been taken off the stream. -/
def KeepsHeld (loop : LoopState) (final : ReadState) : Prop :=
  final.stream.length ≤ loop.state.stream.length ∧
    (loop.state.handle.decodedInputPending = none →
      final.handle.decodedInputPending = none ∨
        final.stream.length < loop.state.stream.length)

theorem keepsHeld_of_eq {final : ReadState} (same : final.stream = loop.state.stream)
    (held : final.handle.decodedInputPending = loop.state.handle.decodedInputPending) :
    KeepsHeld loop final := by
  refine ⟨by rw [same], fun none => .inl ?_⟩
  rw [held, none]

theorem body_keepsHeld {value : ReadState × ReadReply WChar}
    (pass : body platform call loop = .leave value) : KeepsHeld loop value.1 := by
  simp only [body] at pass
  split at pass
  · cases pass
    exact keepsHeld_of_eq rfl rfl
  · split at pass
    · cases pass
      split <;> exact keepsHeld_of_eq rfl rfl
    · split at pass
      · cases pass
        split
        · exact keepsHeld_of_eq rfl rfl
        · exact keepsHeld_of_eq (by simp [ReadState.wait]) (by simp [ReadState.wait])
      · cases pass
      · rename_i key length decoded
        simp only [keyEvent] at pass
        split at pass
        · cases pass
          exact ⟨Nat.zero_le _, fun _ => .inl rfl⟩
        · split at pass
          · cases pass
          · split at pass
            · cases pass
            · split at pass <;> cases pass
      · rename_i busy _ chars length decoded
        have positive := Platform.decodeOneInputToken_positive decoded
        have unread : loop.state.stream ≠ [] := by
          simpa [ReadState.exhausted_iff] using busy
        have shorter := loop.state.length_consume_lt positive unread
        split at pass
        · cases pass
          exact keepsHeld_of_eq rfl rfl
        · simp only [textUnits] at pass
          split at pass
          · cases pass
          · split at pass
            · cases pass
              exact ⟨shorter.le, fun _ => .inr shorter⟩
            · split at pass <;> cases pass
              exact ⟨shorter.le, fun _ => .inr shorter⟩

theorem readLoop_keepsHeld (platform : Platform) (call : ReadCall) (loop : LoopState) :
    KeepsHeld loop ((readLoop platform call).run loop).1 := by
  let Holds (loop : LoopState) (value : ReadState × ReadReply WChar) : Prop :=
    KeepsHeld loop value.1
  change Holds loop ((readLoop platform call).run loop)
  apply (readLoop platform call).run_induction
  · intro loop value pass
    exact body_keepsHeld pass
  · intro loop next value pass holds
    have shorter : next.state.stream.length < loop.state.stream.length :=
      (readLoop platform call).decreases pass
    have final := holds.1.trans_lt shorter
    exact ⟨final.le, fun _ => .inr final⟩

theorem rawUnicodeRead_eq (room : call.capacity ≠ 0) : rawUnicodeRead platform call state =
    if (prepared call state).exhausted &&
        (prepared call state).handle.decodedInputPending.isNone then (prepared call state).wait
    else if controlZAtFront call (prepared call state) then
      ((prepared call state).setQueue (prepared call state).host.inputQueue.tail,
        .complete .success [])
    else if maxUnits call = 0 then (prepared call state, .complete .success [])
    else (readLoop platform call).run ⟨(prepared call state).setHeld none,
      (prepared call state).handle.decodedInputPending.toList⟩ := by
  rw [rawUnicodeRead, if_neg room]
  rfl

theorem length_rawUnicodeRead_le (room : call.capacity ≠ 0) :
    (rawUnicodeRead platform call state).1.stream.length ≤
      (prepared call state).stream.length := by
  rw [rawUnicodeRead_eq room]
  split
  · exact le_rfl
  · split
    · simp [ReadState.stream, ReadState.setQueue, ReadState.pendingPrefix]
    · split
      · exact le_rfl
      · exact (readLoop_keepsHeld platform call _).1

/-- A first pass that decodes a token takes it off the stream. -/
theorem readLoop_shortens (room : 0 < maxUnits call) {token : Token} {length : Nat}
    (decoded : platform.decodeOneInputToken call.codePage (state.stream.take 64) =
      .token token length) :
    ((readLoop platform call).run ⟨state, []⟩).1.stream.length < state.stream.length := by
  apply (readLoop platform call).run_lt (fun value => value.1.stream.length)
  · intro loop value pass
    exact (body_keepsHeld pass).1
  · have unread : state.stream ≠ [] := by
      rintro empty
      rw [empty] at decoded
      cases decoded
    have positive := Platform.decodeOneInputToken_positive decoded
    have shorter := state.length_consume_lt positive unread
    have vacant : ¬maxUnits call ≤ ([] : List WChar).length := Nat.not_le.mpr room
    have busy : ¬state.exhausted = true := by rwa [ReadState.exhausted_iff]
    simp only [readLoop, body, if_neg vacant, if_neg busy, ReadState.peekHead_eq, decoded]
    cases token with
    | ignoredSequence => exact shorter
    | keyEvent key =>
        simp only [keyEvent]
        split
        · exact List.length_pos_of_ne_nil unread
        · split
          · exact shorter
          · split
            · exact shorter
            · split <;> exact shorter
    | textUnits chars =>
        obtain ⟨-, few⟩ := Platform.decodeOneInputToken_text decoded
        have taken : ¬(overflows call ⟨state, []⟩ chars &&
            !(chars.length == 2 && maxUnits call - ([] : List WChar).length == 1)) = true := by
          simp [overflows]
          omega
        simp only [if_neg taken, textUnits]
        split
        · exact shorter
        · split
          · exact shorter
          · split <;> exact shorter

/-- The states in which no continuation lets a raw Unicode `ReadConsole` take a byte. -/
def Stuck (platform : Platform) (call : ReadCall) (state : ReadState) : Prop :=
  call.capacity = 0 ∨ (¬Escapes call state ∧ (call.capacity < 2 ∨
    (state.handle.decodedInputPending = none ∧
      platform.WindowStuck call.codePage 64 state.stream)))

theorem not_moved_rawUnicodeRead (stuck : Stuck platform call state) (more : List Byte) :
    ¬(state.arrive more).Moved (rawUnicodeRead platform call (state.arrive more)).1 := by
  by_cases room : call.capacity = 0
  · rw [rawUnicodeRead, if_pos room]
    exact ReadState.not_moved_of_eq rfl rfl
  · rcases stuck with empty | ⟨kept, stuck⟩
    · exact absurd empty room
    · obtain ⟨same, notEnd⟩ := prepared_arrive kept more
      rw [rawUnicodeRead_eq room, same, notEnd, if_neg Bool.false_ne_true]
      split
      · exact ReadState.not_moved_of_eq rfl rfl
      · split
        · exact ReadState.not_moved_of_eq rfl rfl
        · rename_i busy units
          rcases stuck with small | ⟨held, full, waiting⟩
          · simp only [maxUnits] at units
            omega
          · have held' : (state.arrive more).handle.decodedInputPending = none := held
            have unread : (state.arrive more).stream ≠ [] := by
              simpa [held', ReadState.exhausted_iff] using busy
            have undecided : platform.decodeOneInputToken call.codePage
                ((state.arrive more).stream.take 64) = .needMore := by
              rw [ReadState.stream_arrive]
              exact (Platform.WindowStuck.append ⟨full, waiting⟩ more).2
            have same : (state.arrive more).setHeld none = state.arrive more := by
              simp only [ReadState.setHeld, ← held']
            have pass : body platform call ⟨state.arrive more, []⟩ = .leave
                (((state.arrive more).drain
                  (64 - (state.arrive more).pendingPrefix.length)).wait) := by
              rw [body, if_neg (by simpa using units), if_neg (by rwa [ReadState.exhausted_iff]),
                ReadState.peekHead_eq]
              simp only [undecided]
              rw [if_neg (by simp)]
            rw [held', same, Option.toList_none, (readLoop platform call).run_of_leave pass]
            exact ReadState.not_moved_of_eq (by simp [ReadState.wait]) (by simp [ReadState.wait])

theorem exists_moved_rawUnicodeRead (movable : ¬Stuck platform call state) :
    ∃ more, (state.arrive more).Moved (rawUnicodeRead platform call (state.arrive more)).1 := by
  simp only [Stuck, not_or, not_and] at movable
  obtain ⟨room, movable⟩ := movable
  by_cases escapes : Escapes call state
  · obtain ⟨more, shorter | ⟨same, unread, atEnd, queue⟩⟩ := exists_escape escapes
    · exact ⟨more, .inl ((length_rawUnicodeRead_le room).trans_lt shorter)⟩
    · refine ⟨more, .inl ?_⟩
      have busy : ¬((state.arrive more).exhausted &&
          (state.arrive more).handle.decodedInputPending.isNone) = true := by
        simp [(ReadState.exhausted_eq_false_iff _).mpr unread]
      rw [rawUnicodeRead_eq room, same, if_neg busy, if_pos atEnd]
      exact length_setQueue_tail queue
  · obtain ⟨wide, movable⟩ := movable escapes
    have units : 0 < maxUnits call := by
      simp only [maxUnits]
      omega
    have read : ∀ more, ¬((state.arrive more).exhausted &&
          (state.arrive more).handle.decodedInputPending.isNone) = true →
        rawUnicodeRead platform call (state.arrive more) =
          (readLoop platform call).run ⟨(state.arrive more).setHeld none,
            (state.arrive more).handle.decodedInputPending.toList⟩ := by
      intro more busy
      obtain ⟨same, notEnd⟩ := prepared_arrive escapes more
      rw [rawUnicodeRead_eq room, same, if_neg busy, if_neg (by simp [notEnd]),
        if_neg units.ne']
    cases held : state.handle.decodedInputPending with
    | some unit =>
        have heldNow : (state.arrive []).handle.decodedInputPending = some unit := held
        refine ⟨[], ?_⟩
        rw [read [] (by simp [heldNow])]
        rcases (readLoop_keepsHeld platform call ⟨(state.arrive []).setHeld none, _⟩).2 rfl with
          none | shorter
        · exact .inr ⟨by simp [heldNow], none⟩
        · exact .inl shorter
    | none =>
        obtain ⟨more, token, length, decoded⟩ := Platform.exists_token (by omega) (movable held)
        rw [← ReadState.stream_arrive] at decoded
        have heldNow : (state.arrive more).handle.decodedInputPending = none := held
        have unread : (state.arrive more).stream ≠ [] := by
          rintro empty
          rw [empty] at decoded
          cases decoded
        refine ⟨more, .inl ?_⟩
        rw [read more (by simp [(ReadState.exhausted_eq_false_iff _).mpr unread]), heldNow,
          Option.toList_none]
        exact readLoop_shortens units decoded

end UnicodeRead

namespace Records

variable {call : RecordCall} {state : ReadState}

/-- A scan goes forward, and a pair that is cut has been taken off the window. -/
def ScanMoves (scan final : Scan) : Prop :=
  scan.bytesConsumed ≤ final.bytesConsumed ∧
    (final.cut = scan.cut ∨ scan.bytesConsumed < final.bytesConsumed)

theorem scanLoop_moves (platform : Platform) (remove : call.isPeek = false) (scan : Scan) :
    ScanMoves scan ((scanLoop platform call).run scan) := by
  apply (scanLoop platform call).run_induction
  · intro scan final pass
    change scanBody platform call scan = .leave final at pass
    have step := scanBody_step platform remove scan
    rw [pass] at step
    cases step with
    | stop => exact ⟨le_rfl, .inl rfl⟩
    | cut decoded _ consumed =>
        have positive := Platform.decodeOneInputToken_positive decoded
        exact ⟨by omega, .inr (by omega)⟩
    | interrupt decoded consumed =>
        have positive := Platform.decodeOneInputToken_positive decoded
        exact ⟨by omega, .inr (by omega)⟩
  · intro scan next final pass holds
    obtain ⟨token, length, decoded, -, consumed⟩ := scanBody_next platform call pass
    have positive := Platform.decodeOneInputToken_positive decoded
    have later := holds.1
    exact ⟨by omega, .inr (by omega)⟩

/-- A scan that starts on a token, with room for records, takes it. -/
theorem scanLoop_consumes (remove : call.isPeek = false) (scan : Scan)
    (room : scan.records.length < call.capacity) {token : Token} {length : Nat}
    (decoded : platform.decodeOneInputToken call.codePage scan.rest = .token token length) :
    scan.bytesConsumed < ((scanLoop platform call).run scan).bytesConsumed := by
  have positive := Platform.decodeOneInputToken_positive decoded
  have step := scanBody_step platform remove scan
  generalize taken : scanBody platform call scan = pass at step
  cases step with
  | stop stopped =>
      rcases stopped with full | waiting
      · omega
      · change platform.decodeOneInputToken call.codePage scan.rest = .needMore at waiting
        rw [decoded] at waiting
        cases waiting
  | @take _ _ next decoded' _ consumed =>
      have positive := Platform.decodeOneInputToken_positive decoded'
      have later := (scanLoop_moves platform remove next).1
      rw [(scanLoop platform call).run_of_next taken]
      omega
  | cut decoded' _ consumed =>
      have positive := Platform.decodeOneInputToken_positive decoded'
      rw [(scanLoop platform call).run_of_leave taken]
      omega
  | interrupt decoded' consumed =>
      have positive := Platform.decodeOneInputToken_positive decoded'
      rw [(scanLoop platform call).run_of_leave taken]
      omega

theorem stream_afterScan (call : RecordCall) (state : ReadState) (scan : Scan) :
    (afterScan call state scan).stream = state.stream := by
  simp only [afterScan]
  split <;> rfl

/-- Every pass of the outer loop that takes bytes shortens the stream. -/
theorem getBody_below (remove : call.isPeek = false)
    (consumed : 0 < (scanWindow platform call state).bytesConsumed) :
    (getBody platform call state).Below (fun state => state.stream.length)
      (fun value => value.1.stream.length) state.stream.length := by
  have bound := scanWindow_consumed platform call state
  have shorter := stream_commit_length call
    (afterScan call state (scanWindow platform call state)) (scanWindow platform call state) remove
  rw [stream_afterScan] at shorter
  have committed : (commit call (afterScan call state (scanWindow platform call state))
      (scanWindow platform call state)).stream.length < state.stream.length := by omega
  have busy : state.exhausted = false := by
    rw [ReadState.exhausted_eq_false_iff]
    intro empty
    simp only [empty, List.length_nil] at bound
    omega
  have nonzero : ((scanWindow platform call state).bytesConsumed == 0) = false := by
    simpa using consumed.ne'
  simp only [getBody, busy, nonzero, Bool.and_false, Bool.false_eq_true, if_false, conclude]
  split
  · split
    · exact committed
    · split
      · exact committed
      · split <;> exact committed
  · exact committed

/-- A pass of the outer loop that takes nothing leaves, with nothing held back. -/
theorem getBody_idle (remove : call.isPeek = false)
    (idle : (scanWindow platform call state).bytesConsumed = 0) :
    ∃ value, getBody platform call state = .leave value ∧
      value.1.stream.length ≤ state.stream.length ∧
      value.1.handle.decodedInputPending = none := by
  have moves := scanLoop_moves platform remove
    (({ rest := state.window (peekLimit call) } : Scan).push call
      (state.handle.decodedInputPending.toList.map makeSimpleCharacterKeyEvent))
  have uncut : (scanWindow platform call state).cut = none := by
    rcases moves.2 with cut | consumed
    · exact cut
    · change 0 < (scanWindow platform call state).bytesConsumed at consumed
      omega
  have after : afterScan call state (scanWindow platform call state) = state.setHeld none := by
    rw [afterScan, remove, uncut, if_neg Bool.false_ne_true]
  have committed : (commit call (state.setHeld none)
      (scanWindow platform call state)).stream.length ≤ state.stream.length ∧
      (commit call (state.setHeld none)
        (scanWindow platform call state)).handle.decodedInputPending = none := by
    constructor
    · have shorter := stream_commit_length call (state.setHeld none)
        (scanWindow platform call state) remove
      rw [ReadState.stream_setHeld] at shorter
      omega
    · simp only [commit, remove, Bool.false_eq_true, if_false]
      split <;> rfl
  have concluded : ∃ value, conclude call (state.setHeld none) (scanWindow platform call state) =
      .leave value ∧ value.1.stream.length ≤ state.stream.length ∧
        value.1.handle.decodedInputPending = none := by
    simp only [conclude, idle, ne_eq, not_true_eq_false, if_false]
    split
    · split
      · exact ⟨_, rfl, committed⟩
      · split <;> exact ⟨_, rfl, committed⟩
    · exact ⟨_, rfl, committed⟩
  simp only [getBody, after]
  split
  · rename_i empty
    simp only [Bool.and_eq_true, Option.isNone_iff_eq_none] at empty
    exact ⟨_, rfl, le_rfl, empty.1.2⟩
  · split
    · split
      · exact ⟨_, rfl, le_rfl, rfl⟩
      · split
        · exact ⟨_, rfl, le_rfl, rfl⟩
        · split
          · exact ⟨_, rfl, by simp, by simp [ReadState.setHeld]⟩
          · exact concluded
    · exact concluded

theorem length_getLoop_le (platform : Platform) (remove : call.isPeek = false)
    (state : ReadState) :
    ((getLoop platform call).run state).1.stream.length ≤ state.stream.length := by
  apply (getLoop platform call).run_le (fun value => value.1.stream.length)
  intro state value pass
  change getBody platform call state = .leave value at pass
  rcases Nat.eq_zero_or_pos (scanWindow platform call state).bytesConsumed with idle | consumed
  · obtain ⟨final, leaves, shorter, -⟩ := getBody_idle remove idle
    rw [pass] at leaves
    cases leaves
    exact shorter
  · have below := getBody_below remove consumed
    rw [pass] at below
    exact Nat.le_of_lt below

theorem getLoop_shortens (remove : call.isPeek = false)
    (consumed : 0 < (scanWindow platform call state).bytesConsumed) :
    ((getLoop platform call).run state).1.stream.length < state.stream.length := by
  apply (getLoop platform call).run_lt (fun value => value.1.stream.length)
  · intro state value pass
    have shorter := length_getLoop_le platform remove state
    rwa [(getLoop platform call).run_of_leave pass] at shorter
  · exact getBody_below remove consumed

/-- Ctrl+C bytes at the front of the queue are taken out. -/
theorem moved_or_stripped_eq (platform : Platform) (remove : call.isPeek = false)
    (room : call.capacity ≠ 0) (state : ReadState) :
    state.Moved (getConsoleInput platform call state).1 ∨
      stripped call state = state := by
  by_cases head : call.mode.processedInput = true ∧ state.host.inputQueue.head? = some 3
  · left
    left
    have shorter := state.length_stripCtrlC_lt call.processes head.2
    rw [getConsoleInput_eq room, stripped, if_pos head.1]
    exact (length_getLoop_le platform remove _).trans_lt shorter
  · right
    simp only [stripped]
    split
    · rename_i processed
      exact state.stripCtrlC_of_head _ fun isCtrlC => head ⟨processed, isCtrlC⟩
    · rfl

/-- The states in which no continuation lets a removing call that waits take a byte. -/
def Stuck (platform : Platform) (call : RecordCall) (state : ReadState) : Prop :=
  call.capacity = 0 ∨ (state.handle.decodedInputPending = none ∧
    ¬(call.mode.processedInput = true ∧ state.host.inputQueue.head? = some 3) ∧
    platform.WindowStuck call.codePage (state.pendingPrefix.length + peekLimit call) state.stream)

theorem peekLimit_pos (room : call.capacity ≠ 0) : 64 ≤ peekLimit call := by
  simp only [peekLimit]
  omega

theorem getBody_stuck (remove : call.isPeek = false) (wait : call.waitAllowed = true)
    (held : state.handle.decodedInputPending = none) (unread : state.stream ≠ [])
    (waiting : platform.decodeOneInputToken call.codePage (state.window (peekLimit call)) =
      .needMore) :
    ∃ value, getBody platform call state = .leave value ∧ value.1.stream = state.stream ∧
      value.1.handle.decodedInputPending = state.handle.decodedInputPending ∧
      (state.host.inputDisconnected = false → value.2 = .pending) := by
  have pass : scanBody platform call { rest := state.window (peekLimit call) } =
      .leave { rest := state.window (peekLimit call) } := by
    simp only [scanBody]
    split
    · rfl
    · rw [waiting]
  have scan : scanWindow platform call state = { rest := state.window (peekLimit call) } := by
    rw [scanWindow, held]
    exact (scanLoop platform call).run_of_leave pass
  have busy : state.exhausted = false := by rwa [ReadState.exhausted_eq_false_iff]
  simp only [getBody, busy, Bool.and_false, Bool.false_eq_true, if_false, scan, remove, wait,
    Bool.not_false, Bool.and_true, List.isEmpty_nil, beq_self_eq_true, if_true, waiting, afterScan]
  split
  · rename_i disconnected
    exact ⟨_, rfl, rfl, held.symm, fun connected => by simp [connected] at disconnected⟩
  · split
    · exact ⟨_, rfl, rfl, held.symm, fun _ => rfl⟩
    · refine ⟨_, rfl, ?_, ?_, fun _ => rfl⟩
      · simp
      · simp [held, ReadState.setHeld]

theorem not_moved_getConsoleInput (remove : call.isPeek = false) (wait : call.waitAllowed = true)
    (stuck : Stuck platform call state) (more : List Byte) :
    ¬(state.arrive more).Moved (getConsoleInput platform call (state.arrive more)).1 := by
  by_cases room : call.capacity = 0
  · rw [getConsoleInput, if_pos room]
    exact ReadState.not_moved_of_eq rfl rfl
  · rcases stuck with empty | ⟨held, notCtrlC, window⟩
    · exact absurd empty room
    · have limit := peekLimit_pos room
      have queue : state.host.inputQueue ≠ [] := by
        intro empty
        have full := window.1
        simp only [ReadState.stream, empty, List.append_nil] at full
        omega
      have same : stripped call (state.arrive more) = state.arrive more := by
        simp only [stripped]
        split
        · rename_i processed
          apply ReadState.stripCtrlC_of_head
          rw [ByteRead.inputQueue_arrive, List.head?_append_of_ne_nil _ queue]
          exact fun head => notCtrlC ⟨processed, head⟩
        · rfl
      have longer := window.append more
      rw [← ReadState.stream_arrive] at longer
      have heldNow : (state.arrive more).handle.decodedInputPending = none := held
      obtain ⟨value, pass, stream, heldAfter, -⟩ := getBody_stuck remove wait heldNow
        (List.ne_nil_of_length_pos (Nat.lt_of_lt_of_le (by omega) longer.1))
        (by rw [ReadState.window_eq]; exact longer.2)
      rw [getConsoleInput_eq room, same, (getLoop platform call).run_of_leave pass]
      exact ReadState.not_moved_of_eq stream heldAfter

theorem exists_moved_getConsoleInput (remove : call.isPeek = false)
    (movable : ¬Stuck platform call state) :
    ∃ more, (state.arrive more).Moved (getConsoleInput platform call (state.arrive more)).1 := by
  simp only [Stuck, not_or] at movable
  obtain ⟨room, movable⟩ := movable
  have limit := peekLimit_pos room
  cases held : state.handle.decodedInputPending with
  | some unit =>
      refine ⟨[], ?_⟩
      rcases moved_or_stripped_eq platform remove room (state.arrive []) with
        moved | same
      · exact moved
      · rw [getConsoleInput_eq room, same]
        rcases Nat.eq_zero_or_pos
          (scanWindow platform call (state.arrive [])).bytesConsumed with idle | consumed
        · obtain ⟨value, pass, -, none⟩ := getBody_idle remove idle
          rw [(getLoop platform call).run_of_leave pass]
          have before : (state.arrive []).handle.decodedInputPending = some unit := held
          exact .inr ⟨by simp [before], none⟩
        · exact .inl (getLoop_shortens remove consumed)
  | none =>
      by_cases head : call.mode.processedInput = true ∧ state.host.inputQueue.head? = some 3
      · refine ⟨[], .inl ?_⟩
        have front : (state.arrive []).host.inputQueue.head? = some 3 := by
          simpa [ByteRead.inputQueue_arrive] using head.2
        have shorter := (state.arrive []).length_stripCtrlC_lt call.processes front
        rw [getConsoleInput_eq room, stripped, if_pos head.1]
        exact (length_getLoop_le platform remove _).trans_lt shorter
      · obtain ⟨more, token, length, decoded⟩ :=
          Platform.exists_token (by omega) fun window => movable ⟨held, head, window⟩
        refine ⟨more, ?_⟩
        rcases moved_or_stripped_eq platform remove room (state.arrive more) with
          moved | same
        · exact moved
        · have after : (state.arrive more).handle.decodedInputPending = none := held
          have window : (state.arrive more).window (peekLimit call) =
              (state.stream ++ more).take (state.pendingPrefix.length + peekLimit call) := by
            rw [ReadState.window_eq, ReadState.stream_arrive]
            rfl
          left
          rw [getConsoleInput_eq room, same]
          apply getLoop_shortens remove
          rw [← window] at decoded
          rw [scanWindow, after]
          exact scanLoop_consumes remove
            (({ rest := (state.arrive more).window (peekLimit call) } : Scan).push call [])
            (Nat.pos_of_ne_zero room) decoded

end Records

namespace Cooked

variable {device : Device} {call : CookedCall} {state : CookedState}

/-- Only a read that has run out of tokens waits. -/
theorem handleToken_complete {token : Token} {result : Result}
    (pass : handleToken platform device call state token = .leave result) :
    result.2 ≠ .ok .pending := by
  simp only [handleToken] at pass
  split at pass
  · cases pass
    simp
  · rename_i outcome
    revert pass
    generalize (EditLine.handleToken _ _ _ token).outcome = outcome
    intro pass
    cases outcome with
    | proceed => cases pass
    | endOfFile => cases pass; simp
    | ctrlC => cases pass; simp
    | ctrlBreak => cases pass; simp
    | newline carriageReturn =>
        simp only [conclude] at pass
        split at pass
        · cases pass
          simp
        · cases pass
          simp only [finishLine, ne_eq, Except.ok.injEq]
          exact Delivery.deliverPending_complete _ _ _ _ _

/-- A dispatch takes a token off the stream in its first pass, or discards bytes when no others can
follow, or delivers a part of a line completed before. -/
def Progress (platform : Platform) (device : Device) (call : CookedCall) (state : CookedState) :
    Prop :=
  (call.capacity ≠ 0 ∧ state.read.handle.cookedReadPending = [] ∧
      ∃ token length, 0 < length ∧ length ≤ state.read.stream.length ∧
        body platform device call (start state) = handleToken platform device call
          { start state with read := (start state).read.consume length } token) ∨
    ∃ result, readConsole platform device call 1 state = some result ∧
      (result.1.read.stream.length < state.read.stream.length ∨
        result.1.read.handle.cookedReadPending.length <
          state.read.handle.cookedReadPending.length)

/-- No unit of a completed line can be delivered. -/
def LineStuck (platform : Platform) (call : CookedCall) (pending : List WChar) : Prop :=
  let count := Delivery.fittingUnits platform call.codePage call.capacity pending
  if call.unicode then call.capacity < 2
  else count = 0 ∨ (count = 1 ∧ (BinarySearch.MissesOne pending.length ∨
    (1 < pending.length ∧ isHighSurrogate (pending.getD 0 0) = true)))

/-- The states in which no continuation lets a line-input read make progress. -/
def Stuck (platform : Platform) (call : CookedCall) (state : CookedState) : Prop :=
  let pending := state.read.handle.cookedReadPending
  call.capacity = 0 ∨ (pending ≠ [] ∧ LineStuck platform call pending) ∨
    (pending = [] ∧ state.read.host.inputDisconnected = false ∧
      platform.WindowStuck call.codePage 64 state.read.stream)

theorem correctSurrogate_eq_zero_iff (pending : List WChar) (best : Nat) :
    Delivery.correctSurrogate pending best = 0 ↔
      best = 0 ∨ (best = 1 ∧ 1 < pending.length ∧ isHighSurrogate (pending.getD 0 0) = true) := by
  rcases Nat.eq_zero_or_pos best with rfl | positive
  · simp [Delivery.correctSurrogate]
  · by_cases inside : best < pending.length
    · by_cases high : isHighSurrogate (pending.getD (best - 1) 0) = true
      · have lowered : Delivery.correctSurrogate pending best = best - 1 := by
          rw [Delivery.correctSurrogate, if_pos ⟨positive.ne', inside⟩]
          split <;> rfl
        rw [lowered]
        constructor
        · intro zero
          obtain rfl : best = 1 := by omega
          exact .inr ⟨rfl, inside, high⟩
        · omega
      · have kept : Delivery.correctSurrogate pending best = best := by
          rw [Delivery.correctSurrogate, if_pos ⟨positive.ne', inside⟩,
            if_neg fun both => high both.1, if_neg high]
        rw [kept]
        constructor
        · omega
        · rintro (zero | ⟨rfl, -, isHigh⟩)
          · exact zero
          · exact absurd isHigh high
    · rw [Delivery.correctSurrogate, if_neg fun both => inside both.2]
      omega

variable {pending : List WChar}

/-- An ANSI delivery fails only if the search, after its correction, has found nothing. -/
theorem length_deliverAnsi_lt_iff {codePage : CodePage} {capacity count : Nat}
    (encodes : Delivery.EncodesCodePoints platform codePage) (nonempty : pending ≠ [])
    (encoded : (platform.wideCharToMultiByte codePage pending).length ≤ intMax)
    (found : BinarySearch.run (Delivery.fits platform codePage pending capacity)
      (min pending.length intMax) = count)
    (fits : count ≤ Delivery.fittingUnits platform codePage capacity pending) :
    (Delivery.deliverAnsi platform codePage capacity pending).1.length < pending.length ↔
      Delivery.correctSurrogate pending count ≠ 0 := by
  have positive := List.length_pos_of_ne_nil nonempty
  have bound := Delivery.fittingUnits_le platform codePage capacity pending
  have lowered : Delivery.correctSurrogate pending count ≤ count := by
    simp only [Delivery.correctSurrogate]
    split
    · split
      · omega
      · split <;> omega
    · exact le_rfl
  simp only [Delivery.deliverAnsi, found]
  split
  · rename_i nothing
    simp [nothing]
  · rename_i something
    have fitting : (Delivery.encodePrefix platform codePage pending
        (Delivery.correctSurrogate pending count)).length ≤ capacity :=
      (Delivery.le_fittingUnits_iff encodes (by omega)).mpr (by omega)
    have small : (Delivery.encodePrefix platform codePage pending
        (Delivery.correctSurrogate pending count)).length ≤ _ :=
      Delivery.length_encodePrefix_le encodes _
    rw [if_neg]
    · simp only [List.length_drop]
      omega
    · rintro (empty | large)
      · exact encodes.encodePrefix_ne_nil nonempty (Nat.pos_of_ne_zero something) empty
      · omega

/-- What is assumed of a completed line that an ANSI read delivers: its code page encodes code
point by code point, and its lengths are within the `int` of the API. -/
def Encodes (platform : Platform) (call : CookedCall) (pending : List WChar) : Prop :=
  call.unicode = false → pending ≠ [] →
    Delivery.EncodesCodePoints platform call.codePage ∧ pending.length ≤ intMax ∧
      (platform.wideCharToMultiByte call.codePage pending).length ≤ intMax

theorem length_deliverPending_lt_iff (line : Encodes platform call pending)
    (room : call.capacity ≠ 0) (nonempty : pending ≠ []) :
    (Delivery.deliverPending platform call.codePage call.unicode call.capacity pending).1.length <
      pending.length ↔ ¬LineStuck platform call pending := by
  classical
  have positive := List.length_pos_of_ne_nil nonempty
  cases unicode : call.unicode with
  | true =>
      simp only [Delivery.deliverPending, if_neg nonempty, LineStuck, unicode, if_true,
        List.length_drop]
      omega
  | false =>
      obtain ⟨encodes, short, encoded⟩ := line unicode nonempty
      have succeeds : BinarySearch.SucceedsTo
          (Delivery.fits platform call.codePage pending call.capacity) pending.length
          (Delivery.fittingUnits platform call.codePage call.capacity pending) :=
        Delivery.fits_succeedsTo encodes nonempty
      have found := BinarySearch.run_eq _ succeeds
      rw [← Nat.min_eq_left short] at found
      have search := length_deliverAnsi_lt_iff encodes nonempty encoded found
        (by split <;> omega)
      simp only [Delivery.deliverPending, if_neg nonempty, LineStuck, unicode,
        Bool.false_eq_true, if_false, if_neg room, search, ne_eq, correctSurrogate_eq_zero_iff,
        Nat.min_eq_left short]
      refine not_congr ?_
      generalize Delivery.fittingUnits platform call.codePage call.capacity pending = count
      split
      · rename_i missed
        exact ⟨fun _ => .inr ⟨missed.1, .inl missed.2⟩, fun _ => .inl rfl⟩
      · tauto

/-- What a dispatch whose first pass finds no token waits with. -/
def drained (state : CookedState) : CookedState :=
  { start state with
    read := (start state).read.drain (64 - state.read.pendingPrefix.length) }

theorem body_start_waiting (unread : state.read.stream ≠ [])
    (waiting : platform.decodeOneInputToken call.codePage (state.read.stream.take 64) =
      .needMore) :
    body platform device call (start state) = .leave (idle (drained state)) := by
  have busy : ¬(start state).read.exhausted = true := by rwa [ReadState.exhausted_iff]
  rw [body, if_neg busy, peekHead_start, waiting]
  rfl

theorem not_progress_of_stuck
    (encodes : Encodes platform call state.read.handle.cookedReadPending)
    (stuck : Stuck platform call state) (more : List Byte) :
    ¬Progress platform device call (arrive state more) := by
  by_cases room : call.capacity = 0
  · rintro (⟨positive, -⟩ | ⟨result, returned, shorter⟩)
    · exact positive room
    · rw [readConsole, if_pos room] at returned
      cases returned
      rcases shorter with shorter | shorter <;> exact Nat.lt_irrefl _ shorter
  · rcases stuck with zero | ⟨waiting, line⟩ | ⟨empty, connected, window⟩
    · exact absurd zero room
    · rintro (⟨-, empty, -⟩ | ⟨result, returned, shorter⟩)
      · exact waiting empty
      · have waitingNow : (arrive state more).read.handle.cookedReadPending ≠ [] := waiting
        rw [readConsole_deliver room waitingNow] at returned
        cases returned
        rcases shorter with shorter | shorter
        · exact Nat.lt_irrefl _ shorter
        · exact (length_deliverPending_lt_iff encodes room waiting).mp shorter line
    · have longer := window.append more
      rw [← ReadState.stream_arrive] at longer
      have unread : (arrive state more).read.stream ≠ [] :=
        List.ne_nil_of_length_pos (Nat.lt_of_lt_of_le (by omega) longer.1)
      have emptyNow : (arrive state more).read.handle.cookedReadPending = [] := empty
      have pass : body platform device call (start (arrive state more)) =
          .leave (drained (arrive state more), .ok .pending) := by
        rw [body_start_waiting unread longer.2, idle, if_neg]
        simp only [drained, ReadState.inputDisconnected_drain, Bool.not_eq_true]
        exact connected
      rintro (⟨-, -, token, length, -, -, taken⟩ | ⟨result, returned, shorter⟩)
      · rw [pass] at taken
        exact handleToken_complete taken.symm rfl
      · rw [readConsole_iterate room emptyNow, iterate, pass] at returned
        cases returned
        rcases shorter with shorter | shorter
        · simp [drained] at shorter
        · simp [emptyNow] at shorter

/-- Without further input the bytes of an unfinished token are discarded. -/
theorem length_idle_drained (full : 64 ≤ state.read.stream.length)
    (disconnected : state.read.host.inputDisconnected = true) :
    (idle (drained state)).1.read.stream.length < state.read.stream.length := by
  have bound : state.read.pendingPrefix.length ≤ 64 := state.read.handle.pendingInputBytes.2
  have closed : (drained state).read.host.inputDisconnected = true := by
    simp only [drained, ReadState.inputDisconnected_drain]
    exact disconnected
  have queue : (idle (drained state)).1.read.stream = (drained state).read.host.inputQueue := by
    rw [idle, if_pos closed]
    rfl
  have whole := congrArg List.length (ReadState.stream_drain (start state).read
    (64 - state.read.pendingPrefix.length))
  have head := congrArg List.length (ReadState.pendingPrefix_drain (start state).read)
  change ((drained state).read.pendingPrefix ++ (drained state).read.host.inputQueue).length =
    state.read.stream.length at whole
  change (drained state).read.pendingPrefix.length = (state.read.peekHead).length at head
  rw [ReadState.peekHead_eq, List.length_take, Nat.min_eq_left full] at head
  rw [List.length_append] at whole
  rw [queue]
  omega

theorem exists_progress_of_not_stuck
    (encodes : Encodes platform call state.read.handle.cookedReadPending)
    (movable : ¬Stuck platform call state) :
    ∃ more, Progress platform device call (arrive state more) := by
  simp only [Stuck, not_or] at movable
  obtain ⟨room, line, window⟩ := movable
  by_cases empty : state.read.handle.cookedReadPending = []
  · by_cases stuck : platform.WindowStuck call.codePage 64 state.read.stream
    · have disconnected : (arrive state []).read.host.inputDisconnected = true := by
        by_contra connected
        exact window ⟨empty, Bool.not_eq_true _ ▸ connected, stuck⟩
      have again := stuck.append []
      rw [← ReadState.stream_arrive] at again
      have emptyNow : (arrive state []).read.handle.cookedReadPending = [] := empty
      have unread : (arrive state []).read.stream ≠ [] :=
        List.ne_nil_of_length_pos (Nat.lt_of_lt_of_le (by omega) again.1)
      refine ⟨[], .inr ⟨idle (drained (arrive state [])), ?_, .inl ?_⟩⟩
      · rw [readConsole_iterate room emptyNow, iterate, body_start_waiting unread again.2]
      · exact length_idle_drained again.1 disconnected
    · obtain ⟨more, token, length, decoded⟩ := Platform.exists_token (by omega) stuck
      rw [← ReadState.stream_arrive] at decoded
      have positive := Platform.decodeOneInputToken_positive decoded
      have bounded := Platform.decodeOneInputToken_bounded decoded
      refine ⟨more, .inl ⟨room, empty, token, length, positive,
        bounded.trans (List.length_take_le' _ _), ?_⟩⟩
      have busy : ¬(start (arrive state more)).read.exhausted = true := by
        rw [ReadState.exhausted_iff]
        intro nothing
        change (state.read.arrive more).stream = [] at nothing
        rw [nothing] at decoded
        cases decoded
      have head : platform.decodeOneInputToken call.codePage
          (start (arrive state more)).read.peekHead = .token token length := by
        rw [peekHead_start]
        exact decoded
      rw [body, if_neg busy, head]
  · have waiting : (arrive state []).read.handle.cookedReadPending ≠ [] := empty
    refine ⟨[], .inr ⟨_, readConsole_deliver room waiting 1, .inr ?_⟩⟩
    refine (length_deliverPending_lt_iff encodes room empty).mpr ?_
    exact fun stuck => line ⟨empty, stuck⟩

end Cooked

/-- A request that reads input, with the state it is dispatched in. -/
inductive Reader where
  | cooked (call : CookedCall) (state : CookedState)
  | unicode (call : ReadCall) (state : ReadState)
  | ansi (call : ReadCall) (state : ReadState)
  | raw (call : ReadCall) (state : ReadState)
  | records (call : RecordCall) (removes : call.isPeek = false) (waits : call.waitAllowed = true)
      (state : ReadState)

namespace Reader

variable (platform : Platform) (device : Device)

/-- Bytes that arrive before the request is dispatched again. -/
def arrive (more : List Byte) : Reader → Reader
  | cooked call state => cooked call (Cooked.arrive state more)
  | unicode call state => unicode call (state.arrive more)
  | ansi call state => ansi call (state.arrive more)
  | raw call state => raw call (state.arrive more)
  | records call removes waits state => records call removes waits (state.arrive more)

/-- Dispatching the request delivers or discards at least one unit. -/
def Progress : Reader → Prop
  | cooked call state => Cooked.Progress platform device call state
  | unicode call state => state.Moved (UnicodeRead.rawUnicodeRead platform call state).1
  | ansi call state => state.Moved (ByteRead.rawAnsiRead platform call state).1
  | raw call state => state.Moved (ByteRead.rawRead platform call state).1
  | records call _ _ state => state.Moved (Records.getConsoleInput platform call state).1

/-- The states that no continuation of the stream leads out of. -/
def Stuck : Reader → Prop
  | cooked call state => Cooked.Stuck platform call state
  | unicode call state => UnicodeRead.Stuck platform call state
  | ansi call state => ByteRead.Stuck platform call state
  | raw call state => ByteRead.RawStuck platform call state
  | records call _ _ state => Records.Stuck platform call state

def Encodes : Reader → Prop
  | cooked call state => Cooked.Encodes platform call state.read.handle.cookedReadPending
  | _ => True

variable {platform device}

/-- A read can make progress after some continuation exactly if it is not stuck. -/
theorem exists_progress_iff (reader : Reader) (encodes : reader.Encodes platform) :
    (∃ more, (reader.arrive more).Progress platform device) ↔ ¬reader.Stuck platform := by
  constructor
  · rintro ⟨more, progress⟩ stuck
    revert progress
    cases reader with
    | cooked call state => exact Cooked.not_progress_of_stuck encodes stuck more
    | unicode call state => exact UnicodeRead.not_moved_rawUnicodeRead stuck more
    | ansi call state => exact ByteRead.not_moved_rawAnsiRead stuck more
    | raw call state => exact ByteRead.not_moved_rawRead stuck more
    | records call removes waits state =>
        exact Records.not_moved_getConsoleInput removes waits stuck more
  · intro movable
    cases reader with
    | cooked call state => exact Cooked.exists_progress_of_not_stuck encodes movable
    | unicode call state => exact UnicodeRead.exists_moved_rawUnicodeRead movable
    | ansi call state => exact ByteRead.exists_moved_rawAnsiRead movable
    | raw call state => exact ByteRead.exists_moved_rawRead movable
    | records call removes waits state =>
        exact Records.exists_moved_getConsoleInput removes movable

/-- A line-input read that waits for the end of `ESC [`. -/
theorem exists_progress_iff_escape :
    ∃ more, ((cooked { capacity := 64, mode := ⟨2⟩ }
      (Cooked.arrive {} [0x1b, 0x5b])).arrive more).Progress .utf8 ⟨fun _ _ => false⟩ := by
  refine (exists_progress_iff _ ?_).mpr ?_
  · intro _ waiting
    exact absurd rfl waiting
  · rintro (empty | ⟨waiting, -⟩ | ⟨-, -, full, -⟩)
    · cases empty
    · exact waiting rfl
    · exact absurd full (by decide)

/-- `ESC [` and 62 digits. -/
def longEscape : List Byte := 0x1b :: 0x5b :: List.replicate 62 0x30

/-- A line-input read that is dispatched on these bytes waits, and nothing that arrives afterwards
lets it go on. -/
theorem wedged_longEscape :
    let call : CookedCall := { capacity := 64, mode := ⟨2⟩ }
    let device : Device := ⟨fun _ _ => false⟩
    let wedged := Cooked.drained (Cooked.arrive {} longEscape)
    Cooked.readConsole .utf8 device call 1 (Cooked.arrive {} longEscape) =
        some (wedged, .ok .pending) ∧
      ∀ more, ¬((cooked call wedged).arrive more).Progress .utf8 device := by
  have waiting : Platform.utf8.decodeOneInputToken cpUtf8 (longEscape.take 64) = .needMore := by
    decide
  constructor
  · rw [Cooked.readConsole_iterate (by decide) rfl, iterate,
      Cooked.body_start_waiting (by decide) waiting]
    rfl
  · intro more
    refine Cooked.not_progress_of_stuck ?_ (.inr (.inr ⟨?_, ?_, ?_⟩)) more
    · intro unicode
      cases unicode
    · rfl
    · rfl
    · rw [Cooked.drained, ReadState.stream_drain]
      exact ⟨by decide, waiting⟩

end Reader

end Conhost
