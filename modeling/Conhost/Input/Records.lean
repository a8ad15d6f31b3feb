import Conhost.Input.ByteRead

/-!
# Input records

`ConsolepGetConsoleInput` returns the stream as key event records, one for each
key event and one for each UTF-16 unit of text. A call decodes a window of the
stream until its buffer is full or the window ends inside a token. A surrogate
pair for which there is room for one record is cut; its second unit waits in
the handle.
-/

namespace Conhost

/-- `make_simple_character_key_event` -/
def makeSimpleCharacterKeyEvent (value : WChar) : KeyEvent := { unicodeChar := value }

/-- `make_input_record_from_key`; in an ANSI record the low byte of the character is overwritten. -/
def makeInputRecordFromKey (unicode : Bool) (key : KeyEvent) : KeyEvent :=
  if unicode then key
  else
    { key with unicodeChar := (key.unicodeChar &&& 0xff00) |||
        (if key.unicodeChar ≤ 0xff then key.unicodeChar else 0x3f) }

/-- What a request for input records takes from the server and from its message. -/
structure RecordCall where
  codePage : CodePage := cpUtf8
  mode : InputMode := ⟨0⟩
  processes : List UInt32 := []
  unicode : Bool := true
  /-- The number of records the output buffer holds. -/
  capacity : Nat
  /-- `CONSOLE_READ_NOREMOVE` -/
  isPeek : Bool := false
  /-- Not `CONSOLE_READ_NOWAIT`. -/
  waitAllowed : Bool := true
deriving DecidableEq

namespace Records

/-- The locals of the decode loop. `rest` is the part of the window from `offset` on. -/
structure Scan where
  rest : List Byte
  bytesConsumed : Nat := 0
  records : List KeyEvent := []
  ctrlC : Nat := 0
  ctrlBreak : Bool := false
  /-- The second unit of a pair that was cut. -/
  cut : Option WChar := none

variable (platform : Platform) (call : RecordCall)

def Scan.advance (scan : Scan) (count : Nat) : Scan :=
  { scan with rest := scan.rest.drop count, bytesConsumed := scan.bytesConsumed + count }

def Scan.push (scan : Scan) (keys : List KeyEvent) : Scan :=
  { scan with records := scan.records ++ keys.map (makeInputRecordFromKey call.unicode) }

def keyEvent (scan : Scan) (key : KeyEvent) (length : Nat) : Pass Scan Scan :=
  if call.mode.processedInput && key.matchesCtrlBreak then
    if key.keyDown then .leave { scan.advance length with ctrlBreak := true, records := [] }
    else .next (scan.advance length)
  else if call.mode.processedInput && key.matchesCtrlC then
    .next { scan.advance length with ctrlC := if key.keyDown then scan.ctrlC + 1 else scan.ctrlC }
  else .next ((scan.push call [key]).advance length)

def textUnits (scan : Scan) (chars : List WChar) (length : Nat) : Pass Scan Scan :=
  if call.mode.processedInput && chars == [3] then
    .next { scan.advance length with ctrlC := scan.ctrlC + 1 }
  else if call.capacity - scan.records.length < chars.length then
    match chars with
    | [first, second] =>
        if call.capacity - scan.records.length = 1 then
          let scan := scan.push call [makeSimpleCharacterKeyEvent first]
          .leave (if call.isPeek then scan else { scan.advance length with cut := some second })
        else .leave scan
    | _ => .leave scan
  else .next ((scan.push call (chars.map makeSimpleCharacterKeyEvent)).advance length)

/-- The body of the decode loop. -/
def scanBody (scan : Scan) : Pass Scan Scan :=
  if call.capacity ≤ scan.records.length ∨ scan.rest = [] then .leave scan
  else
    match platform.decodeOneInputToken call.codePage scan.rest with
    | .needMore => .leave scan
    | .token .ignoredSequence length => .next (scan.advance length)
    | .token (.keyEvent key) length => keyEvent call scan key length
    | .token (.textUnits chars) length => textUnits call scan chars length

/-- A pass of the decode loop that continues takes a token off the window. -/
theorem scanBody_next {scan next : Scan} (pass : scanBody platform call scan = .next next) :
    ∃ token length, platform.decodeOneInputToken call.codePage scan.rest = .token token length ∧
      next.rest = scan.rest.drop length ∧
        next.bytesConsumed = scan.bytesConsumed + length := by
  simp only [scanBody] at pass
  split at pass
  · cases pass
  · split at pass
    · cases pass
    · rename_i length decoded
      cases pass
      exact ⟨_, length, decoded, rfl, rfl⟩
    · rename_i key length decoded
      simp only [keyEvent] at pass
      refine ⟨_, length, decoded, ?_⟩
      split at pass
      · split at pass <;> cases pass
        exact ⟨rfl, rfl⟩
      · split at pass <;> cases pass <;> exact ⟨rfl, rfl⟩
    · rename_i chars length decoded
      simp only [textUnits] at pass
      refine ⟨_, length, decoded, ?_⟩
      split at pass
      · cases pass
        exact ⟨rfl, rfl⟩
      · split at pass
        · split at pass
          · split at pass <;> cases pass
          · cases pass
        · cases pass
          exact ⟨rfl, rfl⟩

/-- The decode loop. -/
def scanLoop : Loop Scan Scan where
  body := scanBody platform call
  measure scan := scan.rest.length
  decreases := by
    intro scan next pass
    obtain ⟨token, length, decoded, rest, -⟩ := scanBody_next platform call pass
    have positive := Platform.decodeOneInputToken_positive decoded
    have bounded := Platform.decodeOneInputToken_bounded decoded
    rw [rest, List.length_drop]
    omega

theorem scanBody_leave {scan final : Scan} (pass : scanBody platform call scan = .leave final) :
    final.bytesConsumed ≤ scan.bytesConsumed + scan.rest.length := by
  simp only [scanBody] at pass
  split at pass
  · cases pass
    exact Nat.le_add_right _ _
  · split at pass
    · cases pass
      exact Nat.le_add_right _ _
    · cases pass
    · rename_i key length decoded
      have bounded := Platform.decodeOneInputToken_bounded decoded
      simp only [keyEvent] at pass
      split at pass
      · split at pass <;> cases pass
        exact Nat.add_le_add_left bounded _
      · split at pass <;> cases pass
    · rename_i chars length decoded
      have bounded := Platform.decodeOneInputToken_bounded decoded
      simp only [textUnits] at pass
      split at pass
      · cases pass
      · split at pass
        · split at pass
          · split at pass
            · cases pass
              split
              · exact Nat.le_add_right _ _
              · exact Nat.add_le_add_left bounded _
            · cases pass
              exact Nat.le_add_right _ _
          · cases pass
            exact Nat.le_add_right _ _
        · cases pass

theorem scanLoop_consumed (scan : Scan) : ((scanLoop platform call).run scan).bytesConsumed ≤
    scan.bytesConsumed + scan.rest.length := by
  let Holds (scan final : Scan) : Prop :=
    final.bytesConsumed ≤ scan.bytesConsumed + scan.rest.length
  change Holds scan _
  apply (scanLoop platform call).run_induction
  · intro scan final pass
    exact scanBody_leave platform call pass
  · intro scan next final pass holds
    obtain ⟨token, length, decoded, rest, consumed⟩ := scanBody_next platform call pass
    have bounded := Platform.decodeOneInputToken_bounded decoded
    simp only [Holds, rest, consumed, List.length_drop] at holds ⊢
    omega

/-- The number of queue bytes a call peeks. -/
def peekLimit : Nat := min (call.capacity * 64) 65536

/-- The decode loop on the window of a state, after the unit held back by an earlier call. -/
def scanWindow (state : ReadState) : Scan :=
  (scanLoop platform call).run
    (({ rest := state.window (peekLimit call) } : Scan).push call
      (state.handle.decodedInputPending.toList.map makeSimpleCharacterKeyEvent))

/-- The handle's held unit after the decode loop. -/
def afterScan (state : ReadState) (scan : Scan) : ReadState :=
  if call.isPeek then state else state.setHeld scan.cut

/-- The effects of a scan on the stream and the control events it found. -/
def commit (state : ReadState) (scan : Scan) : ReadState :=
  let state := if call.isPeek then state else state.consume scan.bytesConsumed
  let state :=
    if call.mode.processedInput && scan.ctrlBreak then
      state.flushInput.forward call.processes .ctrlBreak
    else state
  if call.isPeek then state else state.forwardTimes call.processes .ctrlC scan.ctrlC

/-- The end of a pass: the records are returned, or the request waits, or the stream is decoded
again because everything at its head was consumed without giving a record. -/
def conclude (state : ReadState) (scan : Scan) : Pass ReadState (ReadState × ReadReply KeyEvent) :=
  let state := commit call state scan
  if !call.isPeek && call.waitAllowed && scan.records.isEmpty then
    if state.host.inputDisconnected then .leave (state, .complete .unsuccessful [])
    else if state.exhausted && state.handle.decodedInputPending.isNone then .leave (state, .pending)
    else if scan.bytesConsumed ≠ 0 then .next state
    else .leave (state, .complete .success scan.records)
  else .leave (state, .complete .success scan.records)

/-- The body of the outer loop. -/
def getBody (state : ReadState) : Pass ReadState (ReadState × ReadReply KeyEvent) :=
  if call.waitAllowed && state.handle.decodedInputPending.isNone && state.exhausted then
    .leave state.wait
  else
    let scan := scanWindow platform call state
    let next := afterScan call state scan
    if !call.isPeek && call.waitAllowed && scan.records.isEmpty && scan.bytesConsumed == 0 then
      if state.host.inputDisconnected then .leave (next, .complete .unsuccessful [])
      else if state.window (peekLimit call) = [] then .leave (next, .pending)
      else if platform.decodeOneInputToken call.codePage (state.window (peekLimit call)) =
          .needMore then .leave (next.drain (peekLimit call), .pending)
      else conclude call next scan
    else conclude call next scan

theorem scanWindow_consumed (state : ReadState) :
    (scanWindow platform call state).bytesConsumed ≤ state.stream.length := by
  have consumed := scanLoop_consumed platform call
    (({ rest := state.window (peekLimit call) } : Scan).push call
      (state.handle.decodedInputPending.toList.map makeSimpleCharacterKeyEvent))
  refine consumed.trans ?_
  simp only [Scan.push, Nat.zero_add, ReadState.window_eq]
  exact List.length_take_le' _ _

theorem stream_commit_length (state : ReadState) (scan : Scan) (remove : call.isPeek = false) :
    (commit call state scan).stream.length ≤ state.stream.length - scan.bytesConsumed := by
  simp only [commit, remove, Bool.false_eq_true, if_false, ReadState.stream_forwardTimes]
  split <;> simp

/-- A pass that continues has taken something off the stream. -/
theorem getBody_next {state next : ReadState} (pass : getBody platform call state = .next next) :
    call.isPeek = false ∧ call.waitAllowed = true ∧
      (scanWindow platform call state).records = [] ∧
      (scanWindow platform call state).bytesConsumed ≠ 0 ∧
      next = commit call (afterScan call state (scanWindow platform call state))
        (scanWindow platform call state) ∧
      next.stream.length < state.stream.length := by
  have concluded : ∀ {start}, start.stream = state.stream →
      conclude call start (scanWindow platform call state) = .next next →
      call.isPeek = false ∧ call.waitAllowed = true ∧
        (scanWindow platform call state).records = [] ∧
        (scanWindow platform call state).bytesConsumed ≠ 0 ∧
        next = commit call start (scanWindow platform call state) ∧
        next.stream.length < state.stream.length := by
    intro start same pass
    simp only [conclude] at pass
    split at pass
    · rename_i silent
      simp only [Bool.and_eq_true, Bool.not_eq_true', List.isEmpty_iff] at silent
      split at pass
      · cases pass
      · split at pass
        · cases pass
        · split at pass
          · rename_i consumed
            cases pass
            have shrunk := stream_commit_length call start (scanWindow platform call state)
              silent.1.1
            have bound := scanWindow_consumed platform call state
            rw [same] at shrunk
            exact ⟨silent.1.1, silent.1.2, silent.2, consumed, rfl, by omega⟩
          · cases pass
    · cases pass
  have same : (afterScan call state (scanWindow platform call state)).stream = state.stream := by
    simp only [afterScan]
    split <;> rfl
  simp only [getBody] at pass
  split at pass
  · cases pass
  · split at pass
    · split at pass
      · cases pass
      · split at pass
        · cases pass
        · split at pass
          · cases pass
          · exact concluded same pass
    · exact concluded same pass

def getLoop : Loop ReadState (ReadState × ReadReply KeyEvent) where
  body := getBody platform call
  measure state := state.stream.length
  decreases := by
    intro state next pass
    exact (getBody_next platform call pass).2.2.2.2.2

/-- `ConsolepGetConsoleInput` -/
def getConsoleInput (state : ReadState) : ReadState × ReadReply KeyEvent :=
  if call.capacity = 0 then (state, .complete .success [])
  else
    (getLoop platform call).run
      (if call.mode.processedInput then state.stripCtrlC call.processes else state)

/-- The state after Ctrl+C bytes have been taken out. -/
def stripped (call : RecordCall) (state : ReadState) : ReadState :=
  if call.mode.processedInput then state.stripCtrlC call.processes else state

theorem getConsoleInput_eq {platform : Platform} {call : RecordCall} {state : ReadState}
    (room : call.capacity ≠ 0) : getConsoleInput platform call state =
      (getLoop platform call).run (stripped call state) := by
  rw [getConsoleInput, if_neg room]
  rfl

/-- A Ctrl+Break key-down in processed mode. -/
def breaks : Token → Bool
  | .keyEvent key => call.mode.processedInput && key.matchesCtrlBreak && key.keyDown
  | _ => false

/-- The records a token gives. -/
def tokenRecords : Token → List KeyEvent
  | .ignoredSequence => []
  | .keyEvent key =>
      if call.mode.processedInput && (key.matchesCtrlBreak || key.matchesCtrlC) then []
      else [makeInputRecordFromKey call.unicode key]
  | .textUnits chars =>
      if call.mode.processedInput && chars == [3] then []
      else (chars.map makeSimpleCharacterKeyEvent).map (makeInputRecordFromKey call.unicode)

/-- The record of a unit held back. -/
def heldRecords (held : Option WChar) : List KeyEvent :=
  (held.toList.map makeSimpleCharacterKeyEvent).map (makeInputRecordFromKey call.unicode)

variable {platform call}

/-- A removing scan without Ctrl+Break turns the tokens it reads into records and stops because
the buffer is full or the window ends. -/
structure ScanReads (platform : Platform) (call : RecordCall) (start final : Scan)
    (tokens : List Token) : Prop where
  reads : (platform.inputDecoder call.codePage).Reads start.rest tokens final.rest
  consumed : final.bytesConsumed + final.rest.length = start.bytesConsumed + start.rest.length
  records : final.records ++ heldRecords call final.cut =
    start.records ++ tokens.flatMap (tokenRecords call)
  noBreak : final.ctrlBreak = false
  stopped : call.capacity ≤ final.records.length ∨
    (platform.inputDecoder call.codePage).Waiting final.rest
  cut_full : final.cut = none ∨ call.capacity ≤ final.records.length

/-- What a pass does to a scan, Ctrl+Break apart. -/
inductive ScanStep (platform : Platform) (call : RecordCall) (scan : Scan) :
    Pass Scan Scan → Prop
  | stop (stopped : call.capacity ≤ scan.records.length ∨
      (platform.inputDecoder call.codePage).Waiting scan.rest) :
        ScanStep platform call scan (.leave scan)
  | take {token : Token} {length : Nat} {next : Scan}
      (decoded : platform.decodeOneInputToken call.codePage scan.rest = .token token length)
      (rest : next.rest = scan.rest.drop length)
      (consumed : next.bytesConsumed = scan.bytesConsumed + length)
      (records : next.records = scan.records ++ tokenRecords call token)
      (kept : next.ctrlBreak = scan.ctrlBreak ∧ next.cut = scan.cut) :
      ScanStep platform call scan (.next next)
  | cut {token : Token} {length : Nat} {final : Scan}
      (decoded : platform.decodeOneInputToken call.codePage scan.rest = .token token length)
      (rest : final.rest = scan.rest.drop length)
      (consumed : final.bytesConsumed = scan.bytesConsumed + length)
      (records : final.records ++ heldRecords call final.cut =
        scan.records ++ tokenRecords call token)
      (full : call.capacity ≤ final.records.length)
      (kept : final.ctrlBreak = scan.ctrlBreak) : ScanStep platform call scan (.leave final)
  | interrupt {token : Token} {length : Nat} {final : Scan}
      (decoded : platform.decodeOneInputToken call.codePage scan.rest = .token token length)
      (consumed : final.bytesConsumed = scan.bytesConsumed + length)
      (broken : breaks call token = true) : ScanStep platform call scan (.leave final)

theorem keyEvent_step {scan : Scan} {key : KeyEvent} {length : Nat}
    (decoded : platform.decodeOneInputToken call.codePage scan.rest =
      .token (.keyEvent key) length) :
    ScanStep platform call scan (keyEvent call scan key length) := by
  simp only [keyEvent]
  split
  · rename_i isBreak
    simp only [Bool.and_eq_true] at isBreak
    split
    · rename_i down
      exact .interrupt decoded rfl (by simp [breaks, isBreak, down])
    · exact .take decoded rfl rfl (by simp [Scan.advance, tokenRecords, isBreak]) ⟨rfl, rfl⟩
  · rename_i notBreak
    split
    · rename_i isCtrlC
      simp only [Bool.and_eq_true] at isCtrlC
      exact .take decoded rfl rfl (by simp [Scan.advance, tokenRecords, isCtrlC]) ⟨rfl, rfl⟩
    · rename_i notCtrlC
      have plain : ¬(call.mode.processedInput && (key.matchesCtrlBreak || key.matchesCtrlC))
          = true := by
        intro special
        simp only [Bool.and_eq_true, Bool.or_eq_true] at special notBreak notCtrlC
        rcases special with ⟨processed, isBreak | isCtrlC⟩
        · exact notBreak ⟨processed, isBreak⟩
        · exact notCtrlC ⟨processed, isCtrlC⟩
      exact .take decoded rfl rfl
        (by simp only [Scan.advance, Scan.push, tokenRecords, if_neg plain]; rfl) ⟨rfl, rfl⟩

theorem textUnits_step {scan : Scan} {chars : List WChar} {length : Nat}
    (remove : call.isPeek = false) (room : scan.records.length < call.capacity)
    (decoded : platform.decodeOneInputToken call.codePage scan.rest =
      .token (.textUnits chars) length) :
    ScanStep platform call scan (textUnits call scan chars length) := by
  obtain ⟨nonempty, short⟩ := Platform.decodeOneInputToken_text decoded
  simp only [textUnits]
  split
  · rename_i ctrlC
    exact .take decoded rfl rfl (by simp [Scan.advance, tokenRecords, ctrlC]) ⟨rfl, rfl⟩
  · rename_i notCtrlC
    split
    · rename_i large
      match chars, nonempty, short, large with
      | [first], _, _, large =>
          simp only [List.length_singleton] at large
          omega
      | [first, second], _, _, large =>
          simp only [List.length_cons, List.length_nil] at large
          have one : call.capacity - scan.records.length = 1 := by omega
          simp only [if_pos one, remove]
          refine .cut decoded rfl rfl ?_ ?_ rfl
          · simp [Scan.push, Scan.advance, heldRecords, tokenRecords]
          · simp [Scan.push, Scan.advance]
            omega
    · exact .take decoded rfl rfl
        (by simp only [Scan.advance, Scan.push, tokenRecords, if_neg notCtrlC]) ⟨rfl, rfl⟩

theorem scanBody_step (platform : Platform) (remove : call.isPeek = false) (scan : Scan) :
    ScanStep platform call scan (scanBody platform call scan) := by
  simp only [scanBody]
  split
  · rename_i done
    refine .stop (done.imp_right fun empty => ?_)
    rw [empty]
    rfl
  · rename_i busy
    have room : scan.records.length < call.capacity := by
      by_contra full
      exact busy (.inl (Nat.not_lt.mp full))
    split
    · rename_i waiting
      exact .stop (.inr waiting)
    · rename_i length decoded
      exact .take decoded rfl rfl (by simp [Scan.advance, tokenRecords]) ⟨rfl, rfl⟩
    · exact keyEvent_step ‹_›
    · exact textUnits_step remove room ‹_›

/-- The stream has no Ctrl+Break key-down that this call would process. -/
def NoBreak (platform : Platform) (call : RecordCall) (bytes : List Byte) : Prop :=
  ∀ tokens rest, (platform.inputDecoder call.codePage).Reads bytes tokens rest →
    ∀ token ∈ tokens, breaks call token = false

theorem NoBreak.reads {bytes rest : List Byte} {tokens : List Token}
    (quiet : NoBreak platform call bytes)
    (reads : (platform.inputDecoder call.codePage).Reads bytes tokens rest) :
    NoBreak platform call rest := by
  intro later final further token member
  exact quiet _ _ (reads.trans further) token (by simp [member])

theorem NoBreak.take {bytes : List Byte} (quiet : NoBreak platform call bytes) (count : Nat) :
    NoBreak platform call (bytes.take count) := by
  intro tokens rest reads
  have longer := reads.append (bytes.drop count)
  rw [List.take_append_drop] at longer
  exact quiet _ _ longer

theorem scanLoop_reads (remove : call.isPeek = false) (scan : Scan)
    (quiet : NoBreak platform call scan.rest) (fresh : scan.ctrlBreak = false ∧ scan.cut = none) :
    ∃ tokens, ScanReads platform call scan ((scanLoop platform call).run scan) tokens := by
  let Holds (scan final : Scan) : Prop := NoBreak platform call scan.rest →
    scan.ctrlBreak = false ∧ scan.cut = none → ∃ tokens, ScanReads platform call scan final tokens
  suffices holds : Holds scan ((scanLoop platform call).run scan) from holds quiet fresh
  apply (scanLoop platform call).run_induction
  · intro scan final pass quiet fresh
    change scanBody platform call scan = .leave final at pass
    have step := scanBody_step platform remove scan
    rw [pass] at step
    cases step with
    | stop stopped =>
        exact ⟨[], .done _, rfl, by simp [fresh.2, heldRecords], fresh.1, stopped, .inl fresh.2⟩
    | cut decoded rest consumed records full kept =>
        have bounded := Platform.decodeOneInputToken_bounded decoded
        refine ⟨[_], ?_, ?_, by simpa using records, kept.trans fresh.1, .inl full,
          .inr full⟩
        · rw [rest]
          exact .single decoded
        · rw [rest, consumed, List.length_drop]
          omega
    | interrupt decoded _ broken =>
        have silent := quiet _ _ (.single decoded) _ (List.mem_singleton.mpr rfl)
        rw [broken] at silent
        cases silent
  · intro scan next final pass holds quiet fresh
    change scanBody platform call scan = .next next at pass
    have step := scanBody_step platform remove scan
    rw [pass] at step
    cases step with
    | @take token length _ decoded rest consumed records kept =>
        have bounded := Platform.decodeOneInputToken_bounded decoded
        have single : (platform.inputDecoder call.codePage).Reads scan.rest [token] next.rest := by
          rw [rest]
          exact .single decoded
        obtain ⟨tokens, later⟩ :=
          holds (quiet.reads single) ⟨kept.1.trans fresh.1, kept.2.trans fresh.2⟩
        refine ⟨token :: tokens, single.trans later.reads, ?_, ?_, later.noBreak, later.stopped,
          later.cut_full⟩
        · rw [later.consumed, consumed, rest, List.length_drop]
          omega
        · rw [later.records, records, List.append_assoc, List.flatMap_cons]

end Records

end Conhost
