import Conhost.Input.Peek
import Conhost.Input.RecordStream
import Conhost.Server.InputApi

/-!
# The number of input events

`ConsolepGetNumberOfInputEvents` decodes the stream in a loop of its own to
count the records a peek would show. The two loops differ on one kind of token:
in processed mode a key-up of Ctrl+C or Ctrl+Break gives no record, but it is
counted.
-/

namespace Conhost

open Records

namespace InputApi

/-- The key-ups that are counted although no request returns them. -/
def releases (processedInput : Bool) : Token → Bool
  | .keyEvent key =>
      processedInput && !key.keyDown && (key.matchesCtrlC || key.matchesCtrlBreak)
  | _ => false

theorem eventCount_eq (call : RecordCall) (token : Token) :
    eventCount call.mode.processedInput token = (tokenRecords call token).length +
      if releases call.mode.processedInput token then 1 else 0 := by
  cases token with
  | ignoredSequence => rfl
  | textUnits chars =>
      simp only [eventCount, tokenRecords, releases]
      split <;> simp
  | keyEvent key =>
      simp only [eventCount, tokenRecords, releases]
      cases processed : call.mode.processedInput
      · simp
      · rcases Bool.eq_false_or_eq_true key.keyDown with down | up
        · simp only [down, Bool.true_and, Bool.not_true, Bool.false_and, Bool.false_eq_true,
            if_false, Nat.add_zero, Bool.or_comm key.matchesCtrlBreak]
          split <;> rfl
        · simp only [up, Bool.true_and, Bool.and_false, Bool.false_and, Bool.false_eq_true,
            if_false, Bool.not_false, Bool.or_comm key.matchesCtrlBreak]
          split <;> rfl

theorem sum_eventCount (call : RecordCall) (tokens : List Token) :
    (tokens.map (eventCount call.mode.processedInput)).sum =
      (tokens.flatMap (tokenRecords call)).length +
        tokens.countP (releases call.mode.processedInput) := by
  induction tokens with
  | nil => rfl
  | cons token tokens hypothesis =>
      rw [List.map_cons, List.sum_cons, hypothesis, eventCount_eq call token,
        List.flatMap_cons, List.length_append, List.countP_cons]
      omega

variable {system : System} {codePage : CodePage} {processedInput : Bool}

theorem countLoop_run {bytes rest : List Byte} {tokens : List Token} (count : Nat)
    (reads : (system.inputDecoder codePage).Reads bytes tokens rest)
    (waiting : (system.inputDecoder codePage).Waiting rest) :
    (countLoop system codePage processedInput).run (bytes, count) =
      count + (tokens.map (eventCount processedInput)).sum := by
  induction reads generalizing count with
  | done bytes =>
      have pass : (countLoop system codePage processedInput).body (bytes, count) =
          .leave count := by
        have undecided : system.decodeOneInputToken codePage bytes = .needMore := waiting
        simp only [countLoop, undecided]
      rw [Loop.run_of_leave _ pass]
      rfl
  | @step bytes token length tokens rest decoded _ hypothesis =>
      have pass : (countLoop system codePage processedInput).body (bytes, count) =
          .next (bytes.drop length, count + eventCount processedInput token) := by
        have taken : system.decodeOneInputToken codePage bytes = .token token length := decoded
        simp only [countLoop, taken]
      rw [Loop.run_of_next _ pass, hypothesis _ waiting, List.map_cons, List.sum_cons,
        Nat.add_assoc]

theorem sum_eventCount_le {bytes rest : List Byte} {tokens : List Token}
    (reads : (system.inputDecoder codePage).Reads bytes tokens rest) :
    (tokens.map (eventCount processedInput)).sum ≤ 2 * bytes.length := by
  induction reads with
  | done => exact Nat.zero_le _
  | @step bytes token length tokens rest decoded _ hypothesis =>
      have positive := Platform.decodeOneInputToken_positive decoded
      have bounded := Platform.decodeOneInputToken_bounded decoded
      have few : eventCount processedInput token ≤ 2 := by
        cases token with
        | ignoredSequence => exact Nat.zero_le _
        | keyEvent key =>
            simp only [eventCount]
            split <;> omega
        | textUnits chars =>
            have units := (Platform.decodeOneInputToken_text decoded).2
            simp only [eventCount]
            split <;> omega
      rw [List.length_drop] at hypothesis
      rw [List.map_cons, List.sum_cons]
      omega

variable {server : ServerState} {call : RecordCall} {state : ReadState}

theorem length_stream_lt (short : state.host.inputQueue.length < 65536 - 64) :
    state.stream.length < 65536 := by
  have bound : state.pendingPrefix.length ≤ 64 := state.handle.pendingInputBytes.2
  rw [ReadState.stream, List.length_append]
  omega

theorem readyEvents_eq_sum {tokens : List Token} {rest : List Byte}
    (short : state.host.inputQueue.length < 65536 - 64)
    (reads : (system.inputDecoder server.inputCodePage).Reads state.stream tokens rest)
    (waiting : (system.inputDecoder server.inputCodePage).Waiting rest) :
    readyEvents system server state =
      (tokens.map (eventCount server.inputMode.processedInput)).sum +
        if state.handle.decodedInputPending.isSome then 1 else 0 := by
  have small := length_stream_lt short
  have whole : state.window (65536 - state.pendingPrefix.length) = state.stream := by
    rw [ReadState.window_eq]
    apply List.take_of_length_le
    omega
  rw [readyEvents, whole, countLoop_run 0 reads waiting, Nat.zero_add]

theorem readyEvents_le (short : state.host.inputQueue.length < 65536 - 64) :
    readyEvents system server state ≤ 0xffffffff := by
  obtain ⟨tokens, rest, reads, waiting⟩ :=
    Decoder.exists_reads (system.inputDecoder server.inputCodePage) state.stream
  have small := length_stream_lt short
  have few : (tokens.map (eventCount server.inputMode.processedInput)).sum ≤
      2 * state.stream.length := sum_eventCount_le reads
  rw [readyEvents_eq_sum short reads waiting]
  split <;> omega

end InputApi

namespace Records

variable {platform : Platform} {call : RecordCall} {state : ReadState}

/-- The buffer of a request holds all records of the stream, and the bytes peeked for it are all
there are. -/
structure Suffices (platform : Platform) (call : RecordCall) (state : ReadState) : Prop where
  window : state.host.inputQueue.length ≤ call.capacity * 64
  room : ∀ tokens rest, (platform.inputDecoder call.codePage).Reads state.stream tokens rest →
    (heldRecords call state.handle.decodedInputPending ++
      tokens.flatMap (tokenRecords call)).length ≤ call.capacity

theorem Suffices.of_reads {tokens : List Token} {rest : List Byte}
    (reads : (platform.inputDecoder call.codePage).Reads state.stream tokens rest)
    (waiting : (platform.inputDecoder call.codePage).Waiting rest)
    (window : state.host.inputQueue.length ≤ call.capacity * 64)
    (room : (heldRecords call state.handle.decodedInputPending ++
      tokens.flatMap (tokenRecords call)).length ≤ call.capacity) :
    Suffices platform call state := by
  refine ⟨window, ?_⟩
  intro others rest' reads'
  obtain ⟨further, rfl, -⟩ := reads'.resume reads waiting
  simp only [List.flatMap_append, List.length_append] at room ⊢
  omega

/-- A scan with room enough finds the records of the whole stream. -/
theorem scanWindow_all {tokens : List Token} {rest : List Byte}
    (short : state.host.inputQueue.length < 65536 - 64)
    (quiet : NoBreak platform call state.stream) (enough : Suffices platform call state)
    (reads : (platform.inputDecoder call.codePage).Reads state.stream tokens rest)
    (waiting : (platform.inputDecoder call.codePage).Waiting rest) :
    (scanWindow platform call state).records.length =
      (heldRecords call state.handle.decodedInputPending ++
        tokens.flatMap (tokenRecords call)).length := by
  have fits := enough.room tokens rest reads
  have covered := enough.window
  have whole : state.window (peekLimit call) = state.stream := by
    rw [ReadState.window_eq]
    apply List.take_of_length_le
    rw [ReadState.stream, List.length_append, peekLimit]
    omega
  let start := ({ rest := state.window (peekLimit call) } : Scan).push call
    (state.handle.decodedInputPending.toList.map makeSimpleCharacterKeyEvent)
  have begins : start.rest = state.stream := whole
  have held : start.records = heldRecords call state.handle.decodedInputPending := by
    simp [start, Scan.push, heldRecords]
  let final := (scanLoop platform call.removing).run start
  obtain ⟨taken, scanned⟩ : ∃ taken, ScanReads platform call.removing start final taken :=
    scanLoop_reads rfl start (by rw [begins]; exact quiet) ⟨rfl, rfl⟩
  rw [← (scanWindow_same platform call state).1]
  change final.records.length = _
  have readsTaken := scanned.reads
  rw [begins] at readsTaken
  obtain ⟨further, same, later⟩ := readsTaken.resume reads waiting
  have records : (final.records ++ heldRecords call final.cut).length =
      (start.records ++ taken.flatMap (tokenRecords call)).length :=
    congrArg List.length scanned.records
  have stops : call.capacity ≤ final.records.length ∨
      (platform.inputDecoder call.codePage).Waiting final.rest := scanned.stopped
  have cuts : final.cut = none ∨ call.capacity ≤ final.records.length := scanned.cut_full
  simp only [held, same, List.flatMap_append, List.length_append] at records fits ⊢
  rcases stops with full | stopped
  · omega
  · obtain ⟨rfl, -⟩ := later.eq_nil_of_waiting stopped
    rcases cuts with none | full
    · rw [none] at records
      simpa [heldRecords] using records
    · omega

theorem peeked_all {tokens : List Token} {rest : List Byte}
    (short : state.host.inputQueue.length < 65536 - 64)
    (quiet : NoBreak platform call state.stream)
    (front : call.mode.processedInput = true → state.host.inputQueue.head? ≠ some 3)
    (enough : Suffices platform call state)
    (reads : (platform.inputDecoder call.codePage).Reads state.stream tokens rest)
    (waiting : (platform.inputDecoder call.codePage).Waiting rest) :
    (getConsoleInput platform call.peeking state).2.data.length =
      (heldRecords call state.handle.decodedInputPending ++
        tokens.flatMap (tokenRecords call)).length := by
  by_cases full : call.capacity = 0
  · have fits := enough.room tokens rest reads
    have none : (getConsoleInput platform call.peeking state).2.data = [] := by
      simp [getConsoleInput, full, ReadReply.data]
    rw [none, List.length_nil]
    omega
  · have kept : stripped call.peeking state = state := by
      unfold stripped
      split
      · rename_i processed
        exact state.stripCtrlC_of_head _ (front processed)
      · rfl
    have peeks : getConsoleInput platform call.peeking state =
        (getLoop platform call.peeking).run (stripped call.peeking state) := if_neg full
    rw [peeks, kept, (run_peek platform call.peeking rfl state).2,
      ← (scanWindow_same platform call.peeking state).1]
    change (scanWindow platform call.removing state).records.length = _
    rw [(scanWindow_same platform call state).1]
    exact scanWindow_all short quiet enough reads waiting

end Records

namespace InputApi

variable {system : System} {server : ServerState} {call : RecordCall} {state : ReadState}

/-- The count agrees with a peek exactly if the stream has no key-up of Ctrl+C or Ctrl+Break that is
processed. -/
theorem readyEvents_eq_peeked_iff (page : call.codePage = server.inputCodePage)
    (mode : call.mode = server.inputMode)
    (short : state.host.inputQueue.length < 65536 - 64)
    (quiet : NoBreak system.toPlatform call state.stream)
    (front : server.inputMode.processedInput = true → state.host.inputQueue.head? ≠ some 3)
    (enough : Suffices system.toPlatform call state) :
    clampUlong (readyEvents system server state) =
        (Records.getConsoleInput system.toPlatform call.peeking state).2.data.length ↔
      ∀ tokens rest, (system.inputDecoder call.codePage).Reads state.stream tokens rest →
        ∀ token ∈ tokens, releases server.inputMode.processedInput token = false := by
  obtain ⟨tokens, rest, reads, waiting⟩ :=
    Decoder.exists_reads (system.inputDecoder call.codePage) state.stream
  have held : (if state.handle.decodedInputPending.isSome then 1 else 0) =
      (heldRecords call state.handle.decodedInputPending).length := by
    cases state.handle.decodedInputPending <;> rfl
  have counted : readyEvents system server state =
      (heldRecords call state.handle.decodedInputPending ++
        tokens.flatMap (tokenRecords call)).length +
        tokens.countP (releases server.inputMode.processedInput) := by
    rw [page] at reads waiting
    rw [readyEvents_eq_sum short reads waiting, ← mode, sum_eventCount, held, List.length_append]
    omega
  have shown := peeked_all short quiet (by rwa [mode]) enough reads waiting
  rw [clampUlong, Nat.min_eq_left (readyEvents_le short), shown, counted, Nat.add_eq_left,
    List.countP_eq_zero]
  constructor
  · intro none others rest' reads' token member
    obtain ⟨further, rfl, -⟩ := reads'.resume reads waiting
    simpa using none token (List.mem_append_left _ member)
  · intro none token member
    simp [none tokens rest reads token member]

/-- An `a`, the key Up, the key-up of a `b` and the first byte of another sequence. -/
def typedBytes : List Byte :=
  [0x61, 0x1b, 0x5b, 0x41, 0x1b, 0x5b, 0x36, 0x36, 0x3b, 0x34, 0x38, 0x3b, 0x39, 0x38, 0x3b, 0x30,
    0x3b, 0x30, 0x3b, 0x31, 0x5f, 0x1b]

theorem readyEvents_eq_peeked_iff_typed :
    let state : ReadState := { host := { inputQueue := typedBytes } }
    let call : RecordCall := { mode := ⟨0x97⟩, capacity := 16 }
    clampUlong (readyEvents .utf8 (.initial .utf8) state) = 3 ∧
      (Records.getConsoleInput .utf8 call.peeking state).2.data.length = 3 := by
  intro state call
  let decoder := Platform.utf8.inputDecoder cpUtf8
  let up : KeyEvent := { virtualKeyCode := 38 }
  let release : KeyEvent :=
    { keyDown := false
      virtualKeyCode := 66
      virtualScanCode := 48
      unicodeChar := 98 }
  have first : decoder.decode typedBytes = .token (.textUnits [0x61]) 1 := by decide +kernel
  have second : decoder.decode (typedBytes.drop 1) = .token (.keyEvent up) 3 := by decide +kernel
  have third : decoder.decode ((typedBytes.drop 1).drop 3) = .token (.keyEvent release) 17 := by
    decide +kernel
  have reads : decoder.Reads typedBytes [.textUnits [0x61], .keyEvent up, .keyEvent release]
      [0x1b] := .step first (.step second (.step third (.done _)))
  have waiting : decoder.Waiting [0x1b] := by decide +kernel
  have quiet : NoBreak .utf8 call state.stream := NoBreak.of_reads reads waiting (by decide)
  have enough : Suffices .utf8 call state := .of_reads reads waiting (by decide) (by decide)
  have agrees := @readyEvents_eq_peeked_iff .utf8 (.initial .utf8) call state rfl rfl (by decide)
    quiet (fun _ => by decide) enough
  have counted : clampUlong (readyEvents .utf8 (.initial .utf8) state) = 3 := by decide +kernel
  refine ⟨counted, ?_⟩
  rw [← counted]
  refine (agrees.mpr ?_).symm
  intro tokens rest reads' token member
  obtain ⟨further, same, -⟩ := reads'.resume reads waiting
  have only : token ∈ [.textUnits [0x61], .keyEvent up, .keyEvent release] := by
    rw [same]
    exact List.mem_append_left _ member
  simp only [List.mem_cons, List.not_mem_nil, or_false] at only
  rcases only with rfl | rfl | rfl
  all_goals decide

/-- `ESC [ 67 ; 46 ; 3 ; 0 ; 8 ; 1 _`, the key-up of Ctrl+C. -/
def ctrlCRelease : List Byte :=
  [0x1b, 0x5b, 0x36, 0x37, 0x3b, 0x34, 0x36, 0x3b, 0x33, 0x3b, 0x30, 0x3b, 0x38, 0x3b, 0x31, 0x5f]

theorem readyEvents_counts_release :
    let state : ReadState := { host := { inputQueue := ctrlCRelease } }
    let call : RecordCall := { mode := ⟨0x97⟩, capacity := 16 }
    state.host.inputQueue.length < 65536 - 64 ∧ NoBreak .utf8 call state.stream ∧
      state.host.inputQueue.head? ≠ some 3 ∧ Suffices .utf8 call state ∧
      clampUlong (readyEvents .utf8 (.initial .utf8) state) = 1 ∧
      (Records.getConsoleInput .utf8 call.peeking state).2 = .complete .success [] := by
  intro state call
  let decoder := Platform.utf8.inputDecoder cpUtf8
  let key : KeyEvent :=
    { keyDown := false
      virtualKeyCode := 67
      virtualScanCode := 46
      unicodeChar := 3
      controlKeyState := 8 }
  have reads : decoder.Reads ctrlCRelease [.keyEvent key] [] :=
    Decoder.Reads.single (by decide +kernel : decoder.decode _ = .token (.keyEvent key) 16)
  refine ⟨by decide, NoBreak.of_reads reads rfl (by decide), by decide,
    .of_reads reads rfl (by decide) (by decide), by decide +kernel, by decide +kernel⟩

end InputApi

end Conhost
