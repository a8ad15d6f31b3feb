import Conhost.Input.KeyEncoder
import Conhost.Input.Waiting

/-!
# Lines typed in the window

A line-input read of the window's bytes runs in step with one of the same keys
in win32-input-mode: each key is one token of either stream, and the two tokens
do the same to the line. The echoes are the same, and an echo that is answered
into the input appends the same bytes to both queues.
-/

namespace Conhost

namespace Cooked

open KeyInputEncoder

variable {platform : Platform} {device : Device} {call : CookedCall}

/-- Bytes put ahead of those in the queue. -/
def ahead (bytes : List Byte) (state : CookedState) : CookedState :=
  { state with read := state.read.setQueue (bytes ++ state.read.host.inputQueue) }

/-- What a read ends with, apart from the bytes it leaves in the queue. -/
def withoutQueue (result : Result) : Result :=
  ({ result.1 with read := result.1.read.setQueue [] }, result.2)

theorem showText_ahead (text : List WChar) (bytes : List Byte) (state : CookedState) :
    showText call text (ahead bytes state) = ahead bytes (showText call text state) := by
  simp only [showText]
  cases shown : state.screen with
  | none => simp [ahead, shown]
  | some buffer => simp [ahead, shown, ReadState.arrive, ReadState.setQueue]

theorem writeOutputBytes_ahead (host : HostIo) (device : Device) (bytes encoded : List Byte) :
    ({ host with inputQueue := bytes ++ host.inputQueue } : HostIo).writeOutputBytes device
        encoded =
      (host.writeOutputBytes device encoded).map fun host =>
        { host with inputQueue := bytes ++ host.inputQueue } := by
  simp only [HostIo.writeOutputBytes]
  split
  · rfl
  · split <;> rfl

theorem echoText_ahead (text : List WChar) (bytes : List Byte) (state : CookedState) :
    echoText platform device call text (ahead bytes state) =
      (ahead bytes (echoText platform device call text state).1,
        (echoText platform device call text state).2) := by
  simp only [echoText, showText_ahead]
  split
  · rfl
  · split
    · rfl
    · have written := writeOutputBytes_ahead (showText call text state).read.host device bytes
        (platform.wideCharToMultiByte cpUtf8 text)
      simp only [ahead, ReadState.setQueue] at written ⊢
      rw [written]
      cases (showText call text state).read.host.writeOutputBytes device
        (platform.wideCharToMultiByte cpUtf8 text) with
      | error fault => rfl
      | ok host => rfl

theorem echoTexts_ahead (texts : List (List WChar)) (bytes : List Byte) (state : CookedState) :
    echoTexts platform device call texts (ahead bytes state) =
      (ahead bytes (echoTexts platform device call texts state).1,
        (echoTexts platform device call texts state).2) := by
  induction texts generalizing state with
  | nil => rfl
  | cons text later ih =>
      simp only [echoTexts, echoText_ahead]
      rcases echoText platform device call text state with ⟨next, fault | _⟩
      · rfl
      · exact ih next

/-- Taking bytes off the front shows only in the queue. -/
theorem consume_eq {state : ReadState} (undrained : state.pendingPrefix = []) (count : Nat) :
    state.consume count = state.setQueue (state.host.inputQueue.drop count) := by
  have kept : state.handle.pendingInputBytes.consumePrefix count =
      state.handle.pendingInputBytes := by
    apply Subtype.ext
    simp only [PendingInputBytes.consumePrefix]
    rw [show state.handle.pendingInputBytes.1 = [] from undrained, List.drop_nil]
  simp [ReadState.consume, kept, undrained, ReadState.setPrefix]

theorem consume_ahead {state : CookedState} (undrained : state.read.pendingPrefix = [])
    (bytes : List Byte) (count : Nat) :
    (ahead bytes state).read.consume count =
      state.read.setQueue ((bytes ++ state.read.host.inputQueue).drop count) := by
  have undrained' : (ahead bytes state).read.pendingPrefix = [] := undrained
  rw [consume_eq undrained']
  rfl

/-- A token at the front of the stream is handled in the state without it. -/
theorem body_ahead {state : CookedState} (undrained : state.read.pendingPrefix = [])
    {bytes more : List Byte} {token : Token} (small : bytes.length ≤ 64)
    (decoded : platform.decodeOneInputToken call.codePage
      (bytes ++ (more ++ state.read.host.inputQueue).take (64 - bytes.length)) =
        .token token bytes.length) :
    body platform device call (ahead (bytes ++ more) state) =
      handleToken platform device call (ahead more state) token := by
  have stream : (ahead (bytes ++ more) state).read.stream =
      bytes ++ (more ++ state.read.host.inputQueue) := by
    change state.read.pendingPrefix ++ _ = _
    rw [undrained]
    simp [ahead, ReadState.setQueue]
  have peeked : (ahead (bytes ++ more) state).read.peekHead =
      bytes ++ (more ++ state.read.host.inputQueue).take (64 - bytes.length) := by
    rw [ReadState.peekHead_eq, stream, List.take_append, List.take_of_length_le small]
  have positive := Platform.decodeOneInputToken_positive decoded
  have unread : (ahead (bytes ++ more) state).read.exhausted = false := by
    rw [ReadState.exhausted_eq_false_iff, stream]
    intro empty
    have nil := (List.append_eq_nil_iff.mp empty).1
    rw [nil] at positive
    exact Nat.lt_irrefl 0 positive
  have rest : ({ ahead (bytes ++ more) state with
      read := (ahead (bytes ++ more) state).read.consume bytes.length } : CookedState) =
        ahead more state := by
    rw [consume_ahead undrained]
    simp [ahead, ReadState.setQueue]
  simp only [body, unread, peeked, decoded]
  exact congrArg (handleToken platform device call · token) rest

/-- The look-ahead for a line feed shows only in the queue. -/
theorem skipLf_ahead (platform : Platform) (call : CookedCall) {state : CookedState}
    (undrained : state.read.pendingPrefix = []) (bytes : List Byte) :
    ∃ queue, ({ ahead bytes state with
        read := skipLf platform call (ahead bytes state).read } : CookedState) =
      ahead queue { state with read := state.read.setQueue [] } := by
  simp only [skipLf]
  split
  · exact ⟨bytes ++ state.read.host.inputQueue, by simp [ahead, ReadState.setQueue]⟩
  · rename_i token length decoded
    split
    · refine ⟨(bytes ++ state.read.host.inputQueue).drop length, ?_⟩
      rw [consume_ahead undrained]
      simp [ahead, ReadState.setQueue]
    · exact ⟨bytes ++ state.read.host.inputQueue, by simp [ahead, ReadState.setQueue]⟩

/-- The reads end alike, apart from the bytes they leave in the queue. -/
def EndAlike (first second : Result) : Prop := withoutQueue first = withoutQueue second

/-- The end of a line is the same whatever is in the queue. -/
theorem newline_ends {states : CookedState → CookedState → Prop} (bytes other : List Byte)
    (state : CookedState) :
    Pass.Related states EndAlike
      (match echoText platform device call (newlineSuffix call) (ahead bytes state) with
        | (state, .error fault) => .leave (state, .error fault)
        | (state, .ok ()) => .leave (finishLine platform call state))
      (match echoText platform device call (newlineSuffix call) (ahead other state) with
        | (state, .error fault) => .leave (state, .error fault)
        | (state, .ok ()) => .leave (finishLine platform call state)) := by
  rw [echoText_ahead, echoText_ahead]
  rcases echoText platform device call (newlineSuffix call) state with ⟨next, fault | _⟩
  · exact .leave rfl
  · exact .leave rfl

/-- What ends a read ends it in the same way whatever is in the queue. -/
theorem conclude_ends {states : CookedState → CookedState → Prop} {state : CookedState}
    (undrained : state.read.pendingPrefix = []) {outcome : EditLine.Outcome}
    (ends : outcome ≠ .proceed) (bytes other : List Byte) :
    Pass.Related states EndAlike (conclude platform device call (ahead bytes state) outcome)
      (conclude platform device call (ahead other state) outcome) := by
  cases outcome with
  | proceed => exact absurd rfl ends
  | endOfFile => exact .leave rfl
  | ctrlC => exact .leave rfl
  | ctrlBreak => exact .leave rfl
  | newline carriageReturn =>
      simp only [conclude]
      cases carriageReturn with
      | false => exact newline_ends bytes other state
      | true =>
          obtain ⟨queue, skipped⟩ := skipLf_ahead platform call undrained bytes
          obtain ⟨queue', skipped'⟩ := skipLf_ahead platform call undrained other
          rw [if_pos rfl, if_pos rfl, skipped, skipped']
          exact newline_ends queue queue' _

/-- Keys that the line is typed with are faithful, and U+001B is typed before a key whose bytes do
not make a sequence of it. -/
def Readable (processed : Bool) : List KeyEvent → Prop
  | [] => True
  | key :: later =>
      key.Faithful processed ∧
        (¬key.EndsRead processed →
          (key.TypesEscape → ∃ next ∈ later.head?, ¬next.TypesIntroducer) ∧
            Readable processed later)

theorem Readable.followed (replaces : platform.ReplacesLoneSurrogates) {processed : Bool}
    {key : KeyEvent} {later : List KeyEvent} (readable : Readable processed (key :: later))
    (down : ∀ key ∈ later, key.keyDown = true) (escape : key.TypesEscape) (queue : List Byte)
    {limit : Nat} (room : 0 < limit) :
    ∃ next tail, (later.flatMap (encode platform) ++ queue).take limit = next :: tail ∧
      next ≠ bc 'O' ∧ next ≠ bc '[' := by
  obtain ⟨followed, readable⟩ := readable.2 escape.not_endsRead
  obtain ⟨key, first, plain⟩ := followed escape
  obtain ⟨rest, rfl⟩ := List.head?_eq_some_iff.mp first
  obtain ⟨next, tail, encoded, others⟩ := readable.1.encode_head replaces
    (down key List.mem_cons_self) plain
  obtain ⟨count, rfl⟩ := Nat.exists_eq_succ_of_ne_zero (Nat.ne_of_gt room)
  refine ⟨next, (tail ++ rest.flatMap (encode platform) ++ queue).take count, ?_, others⟩
  simp [encoded]

/-- Two reads that have the same keys still to read, if any, and are otherwise in one state. -/
inductive InStep (platform : Platform) (processed : Bool) : CookedState → CookedState → Prop where
  | same (state : CookedState) : InStep platform processed state state
  | keys {keys : List KeyEvent} {state : CookedState} (readable : Readable processed keys)
      (down : ∀ key ∈ keys, key.keyDown = true) (undrained : state.read.pendingPrefix = [])
      (normalized : (editLine state.read.handle).Normalized) :
      InStep platform processed (ahead (keys.flatMap (encode platform)) state)
        (ahead (keys.flatMap KeyEvent.win32Sequence) state)

theorem Pass.related_refl {states : CookedState → CookedState → Prop}
    (reflexive : ∀ state, states state state) (pass : Pass CookedState Result) :
    Pass.Related states EndAlike pass pass := by
  cases pass with
  | next state => exact .next (reflexive state)
  | leave value => exact .leave rfl

/-- Tokens that do the same to the line. -/
theorem handleToken_inStep {key : KeyEvent} {later : List KeyEvent} {state : CookedState}
    {token : Token} (readable : Readable call.mode.processedInput (key :: later))
    (keyDown : key.keyDown = true) (down : ∀ key ∈ later, key.keyDown = true)
    (undrained : state.read.pendingPrefix = [])
    (normalized : (editLine state.read.handle).Normalized)
    (alike : (editLine state.read.handle).handleToken call.mode.processedInput
        call.processControlZ token =
      (editLine state.read.handle).handleToken call.mode.processedInput call.processControlZ
        (.keyEvent key)) :
    Pass.Related (InStep platform call.mode.processedInput) EndAlike
      (handleToken platform device call (ahead (later.flatMap (encode platform)) state) token)
      (handleToken platform device call (ahead (later.flatMap KeyEvent.win32Sequence) state)
        (.keyEvent key)) := by
  have edited (bytes : List Byte) (edit : EditLine) :
      setEdit (ahead bytes state) edit = ahead bytes (setEdit state edit) := rfl
  have line (bytes : List Byte) : editLine (ahead bytes state).read.handle =
      editLine state.read.handle := rfl
  simp only [handleToken, line, alike, edited, echoTexts_ahead]
  have keeps := normalized.handleToken call.mode.processedInput call.processControlZ
    (.keyEvent key)
  generalize effect : (editLine state.read.handle).handleToken call.mode.processedInput
    call.processControlZ (.keyEvent key) = result at keeps ⊢
  have handle := echoTexts_handle platform device call result.echoes (setEdit state result.edit)
  generalize echoTexts platform device call result.echoes (setEdit state result.edit) = echoed
    at handle ⊢
  rcases echoed with ⟨next, fault | _⟩
  · exact .leave rfl
  · simp only at handle ⊢
    have undrained' : next.read.pendingPrefix = [] := by
      rw [ReadState.pendingPrefix, handle]
      exact undrained
    by_cases proceeds : result.outcome = .proceed
    · rw [proceeds]
      have goesOn : ¬key.EndsRead call.mode.processedInput := by
        intro ends
        apply readable.1.outcome keyDown ends normalized
        rw [effect, proceeds]
      refine .next (.keys (readable.2 goesOn).2 down undrained' ?_)
      rw [handle]
      exact keeps
    · exact conclude_ends undrained' proceeds _ _

/-- One pass of both reads takes the same key. -/
theorem body_inStep (decodes : platform.DecodesUtf8) (replaces : platform.ReplacesLoneSurrogates)
    (utf8 : call.codePage = cpUtf8) {first second : CookedState}
    (inStep : InStep platform call.mode.processedInput first second) :
    Pass.Related (InStep platform call.mode.processedInput) EndAlike
      (body platform device call first) (body platform device call second) := by
  cases inStep with
  | same => exact Pass.related_refl .same _
  | @keys keys state readable down undrained normalized =>
      cases keys with
      | nil => exact Pass.related_refl .same _
      | cons key later =>
          have keyDown := down key List.mem_cons_self
          have laterDown : ∀ key ∈ later, key.keyDown = true := fun other member =>
            down other (List.mem_cons_of_mem key member)
          have small := key.length_win32Sequence
          have recorded : platform.decodeOneInputToken call.codePage (key.win32Sequence ++
              (later.flatMap KeyEvent.win32Sequence ++ state.read.host.inputQueue).take
                (64 - key.win32Sequence.length)) =
                .token (.keyEvent key) key.win32Sequence.length := by
            apply Platform.decodeOneInputToken_stable
            rw [Platform.decodeOneInputToken, key.tryDecodeVt_win32Sequence]
          have short := readable.1.length_encode replaces keyDown
          obtain ⟨token, decoded, alike⟩ := readable.1.readAs decodes replaces keyDown fun escape =>
            readable.followed replaces laterDown escape state.read.host.inputQueue
              (by omega : 0 < 64 - (encode platform key).length)
          rw [List.flatMap_cons, List.flatMap_cons, body_ahead undrained small.le recorded,
            body_ahead undrained (by omega) (by rw [utf8]; exact decoded)]
          exact handleToken_inStep readable keyDown laterDown undrained normalized
            (alike call.processControlZ _ normalized)

/-- Lines typed with readable keys are read from the window's bytes as from the keys' records. -/
theorem readConsole_window_eq (decodes : platform.DecodesUtf8)
    (replaces : platform.ReplacesLoneSurrogates) (utf8 : call.codePage = cpUtf8)
    {state : CookedState} (undrained : state.read.pendingPrefix = []) {keys : List KeyEvent}
    (down : ∀ key ∈ keys, key.keyDown = true)
    (readable : Readable call.mode.processedInput keys) (fuel : Nat) :
    (readConsole platform device call fuel (ahead (keys.flatMap (encode platform)) state)).map
        withoutQueue =
      (readConsole platform device call fuel
        (ahead (keys.flatMap KeyEvent.win32Sequence) state)).map withoutQueue := by
  by_cases room : call.capacity = 0
  · simp only [readConsole, if_pos room]
    rfl
  · by_cases empty : state.read.handle.cookedReadPending = []
    · have started (bytes : List Byte) : readConsole platform device call fuel (ahead bytes state) =
          iterate (body platform device call) fuel (ahead bytes (start state)) := by
        have empty' : (ahead bytes state).read.handle.cookedReadPending = [] := empty
        exact readConsole_iterate room empty' fuel
      have inStep : InStep platform call.mode.processedInput
          (ahead (keys.flatMap (encode platform)) (start state))
          (ahead (keys.flatMap KeyEvent.win32Sequence) (start state)) :=
        .keys readable down undrained (EditLine.normalizeCursor_normalized _)
      have related : Option.Rel EndAlike
          (iterate (body platform device call) fuel
            (ahead (keys.flatMap (encode platform)) (start state)))
          (iterate (body platform device call) fuel
            (ahead (keys.flatMap KeyEvent.win32Sequence) (start state))) :=
        iterate_related (body_inStep decodes replaces utf8) fuel inStep
      rw [started, started]
      generalize iterate (body platform device call) fuel
        (ahead (keys.flatMap (encode platform)) (start state)) = one at related ⊢
      generalize iterate (body platform device call) fuel
        (ahead (keys.flatMap KeyEvent.win32Sequence) (start state)) = other at related ⊢
      cases related with
      | none => rfl
      | some alike => exact congrArg some alike
    · have delivered (bytes : List Byte) :
          (readConsole platform device call fuel (ahead bytes state)).map withoutQueue =
            (readConsole platform device call fuel state).map withoutQueue := by
        have empty' : (ahead bytes state).read.handle.cookedReadPending ≠ [] := empty
        rw [readConsole_deliver room empty', readConsole_deliver room empty]
        rfl
      rw [delivered, delivered]

/-- The keys of a line that is typed from right to left. -/
def typedBackwards : List KeyEvent :=
  [{ unicodeChar := wc 'b' }, { virtualKeyCode := VtInput.vkLeft }, { unicodeChar := wc 'a' },
    { virtualKeyCode := vkReturn, unicodeChar := 13, repeatCount := 3 }]

theorem readable_typedBackwards : Readable false typedBackwards := by
  have letter {unit : WChar} (typed : unit ≠ 0) (plain : unit.toNat < 0xd800) :
      ({ unicodeChar := unit } : KeyEvent).Faithful false :=
    .character ⟨typed, .inl plain, .inl rfl⟩ (by simp [KeyEvent.altPressed])
      (fun _ code => by cases code) (fun _ code => by cases code) rfl (.inl (Nat.le_refl 1))
  refine ⟨letter (by decide) (by decide), fun _ => ⟨(fun escape => by cases escape.2), ?_⟩⟩
  refine ⟨.sideways (by decide) rfl (by decide), fun _ => ⟨(fun escape => by cases escape.2), ?_⟩⟩
  refine ⟨letter (by decide) (by decide), fun _ => ⟨(fun escape => by cases escape.2), ?_⟩⟩
  exact ⟨.enter rfl rfl, fun goesOn => absurd (.inl rfl) goesOn⟩

/-- A read of queued bytes on a fresh handle. -/
def readQueued (mode : InputMode) (bytes : List Byte) : Option Result :=
  readConsole .utf8 ⟨fun _ _ => false⟩ { capacity := 64, codePage := cpUtf8, mode } 16
    (ahead bytes {})

theorem readConsole_window_eq_typedBackwards :
    (readQueued ⟨2⟩ (typedBackwards.flatMap (encode .utf8))).map withoutQueue =
      (readQueued ⟨2⟩ (typedBackwards.flatMap KeyEvent.win32Sequence)).map withoutQueue := by
  refine readConsole_window_eq Platform.utf8_decodesUtf8 Platform.utf8_replacesLoneSurrogates rfl
    rfl (by decide) ?_ 16
  exact readable_typedBackwards

/-- The line a read completes. -/
def completedLine (mode : InputMode) (bytes : List Byte) : Option (List WChar) :=
  (readQueued mode bytes).bind fun result => result.1.completed

example : completedLine ⟨2⟩ (typedBackwards.flatMap (encode .utf8)) = some [wc 'a', wc 'b'] := by
  decide +kernel

/-- The window has its own bytes for Backspace and Escape, does not send how often a key was
pressed or that Ctrl was held with an editing key, and what it sends for Alt and for U+001B can be
read as the beginning of a sequence. -/
theorem window_lines_differ :
    let letter (unit : WChar) : KeyEvent := { unicodeChar := unit }
    let key (code : UInt16) : KeyEvent := { virtualKeyCode := code }
    let enter : KeyEvent := { virtualKeyCode := vkReturn, unicodeChar := 13 }
    let ctrl : UInt32 := 8
    let alt : UInt32 := 2
    ∀ sequence ∈
      [ (⟨2⟩, [letter (wc 'a'), { key vkBack with unicodeChar := 8 }, enter]),
        (⟨2⟩, [letter (wc 'a'), { key vkEscape with unicodeChar := 0x1b }, enter]),
        (⟨2⟩, [{ letter (wc 'a') with repeatCount := 2 }, enter]),
        (⟨2⟩, [letter (wc 'a'), letter (wc 'b'), { key VtInput.vkLeft with repeatCount := 2 },
          letter (wc 'c'), enter]),
        (⟨2⟩, [letter (wc 'a'), letter (wc 'b'),
          { key VtInput.vkLeft with controlKeyState := ctrl }, letter (wc 'c'), enter]),
        (⟨2⟩, [letter (wc 'a'), { key VtInput.vkHome with controlKeyState := ctrl }, enter]),
        (⟨2⟩, [letter (wc 'a'), letter (wc 'b'), key VtInput.vkHome,
          { key VtInput.vkDelete with repeatCount := 2 }, enter]),
        (⟨2⟩, [letter (wc 'a'), key VtInput.vkHome, { key VtInput.vkInsert with repeatCount := 2 },
          letter (wc 'b'), enter]),
        (⟨2⟩, [{ letter (wc 'a') with controlKeyState := alt }, enter]),
        (⟨2⟩, [{ key 0x43 with unicodeChar := wc 'c', controlKeyState := ctrl }, enter]),
        (⟨3⟩, [{ key 0x03 with unicodeChar := wc 'c', controlKeyState := ctrl }, enter]),
        (⟨2⟩, [letter 0x1b, letter (wc '['), letter (wc 'D'), enter]) ],
      completedLine sequence.1 (sequence.2.flatMap (encode .utf8)) ≠
        completedLine sequence.1 (sequence.2.flatMap KeyEvent.win32Sequence) := by
  decide +kernel

end Cooked

end Conhost
