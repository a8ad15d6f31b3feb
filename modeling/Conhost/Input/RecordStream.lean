import Conhost.Input.Records

/-!
# Records do not depend on timing

Removing, waiting calls return the records of the tokens of the stream, cut
into calls by the arrivals and the sizes of the buffers. The exception is the
scan for Ctrl+C bytes at the front of the queue: it does not look at the bytes
of a token that the handle has already taken off the queue.
-/

namespace Conhost

namespace Records

variable {platform : Platform} {call : RecordCall}

/-- A call reads tokens off the stream and returns their records. It fills its buffer, or it holds
nothing back and leaves a stream on the front of which the decoder waits: on at least 64 bytes if
the request stays pending, on all of them if the call could see the whole stream. -/
structure GetReads (platform : Platform) (call : RecordCall) (start : ReadState)
    (result : ReadState × ReadReply KeyEvent) (tokens : List Token) : Prop where
  reads : (platform.inputDecoder call.codePage).Reads start.stream tokens result.1.stream
  records : heldRecords call start.handle.decodedInputPending ++
      tokens.flatMap (tokenRecords call) =
    result.2.data ++ heldRecords call result.1.handle.decodedInputPending
  connected : result.1.host.inputDisconnected = false
  stopped : call.capacity ≤ result.2.data.length ∨
    result.1.handle.decodedInputPending = none ∧ ∃ limit,
      (platform.inputDecoder call.codePage).Waiting (result.1.stream.take limit) ∧
      (result.2 = .pending → 64 ≤ limit) ∧
      (start.stream.length ≤ peekLimit call → result.1.stream.length ≤ limit)

/-- What a pass of the outer loop does. -/
inductive GetStep (platform : Platform) (call : RecordCall) (state : ReadState) :
    Pass ReadState (ReadState × ReadReply KeyEvent) → Prop
  | leave (tokens : List Token) {result : ReadState × ReadReply KeyEvent}
      (reads : GetReads platform call state result tokens) :
        GetStep platform call state (.leave result)
  | next (tokens : List Token) {next : ReadState}
      (reads : (platform.inputDecoder call.codePage).Reads state.stream tokens next.stream)
      (records : heldRecords call state.handle.decodedInputPending ++
        tokens.flatMap (tokenRecords call) = heldRecords call next.handle.decodedInputPending)
      (connected : next.host.inputDisconnected = false) : GetStep platform call state (.next next)

section Pass

variable (remove : call.isPeek = false) (wait : call.waitAllowed = true)
  {state : ReadState} (connected : state.host.inputDisconnected = false)
  {scan : Scan} {tokens : List Token}
  (reads : (platform.inputDecoder call.codePage).Reads state.stream tokens
    (state.stream.drop scan.bytesConsumed))
  (records : heldRecords call state.handle.decodedInputPending ++
    tokens.flatMap (tokenRecords call) = scan.records ++ heldRecords call scan.cut)
  (noBreak : scan.ctrlBreak = false)
  (stopped : call.capacity ≤ scan.records.length ∨ scan.cut = none ∧ ∃ limit,
    (platform.inputDecoder call.codePage).Waiting
      ((state.stream.drop scan.bytesConsumed).take limit) ∧
    (state.stream.length ≤ peekLimit call →
      (state.stream.drop scan.bytesConsumed).length ≤ limit))
include remove wait connected reads records noBreak stopped

theorem conclude_step :
    GetStep platform call state (conclude call (afterScan call state scan) scan) := by
  have committed : commit call (afterScan call state scan) scan =
      ((state.setHeld scan.cut).consume scan.bytesConsumed).forwardTimes call.processes .ctrlC
        scan.ctrlC := by
    simp [commit, afterScan, remove, noBreak]
  have stream : (commit call (afterScan call state scan) scan).stream =
      state.stream.drop scan.bytesConsumed := by
    simp [committed]
  have held : (commit call (afterScan call state scan) scan).handle.decodedInputPending =
      scan.cut := by
    rw [committed]
    rfl
  have online : (commit call (afterScan call state scan) scan).host.inputDisconnected = false := by
    rw [committed]
    exact connected
  have returns : GetStep platform call state (.leave
      (commit call (afterScan call state scan) scan, .complete .success scan.records)) := by
    refine .leave tokens ⟨?_, ?_, online, stopped.imp_right ?_⟩
    · rw [stream]
      exact reads
    · rw [held]
      exact records
    · rintro ⟨cut, limit, waiting, whole⟩
      rw [held, stream]
      exact ⟨cut, limit, waiting, (fun impossible => by cases impossible), whole⟩
  simp only [conclude, online]
  split
  · rename_i silent
    simp only [remove, wait, Bool.not_false, Bool.true_and, List.isEmpty_iff] at silent
    rw [silent, List.nil_append] at records
    split
    · rename_i idle
      cases idle
    · split
      · rename_i idle
        simp only [Bool.and_eq_true, ReadState.exhausted_iff, Option.isNone_iff_eq_none] at idle
        refine .leave tokens ⟨?_, ?_, online, .inr ⟨idle.2, 64, ?_, fun _ => le_rfl, fun _ => ?_⟩⟩
        · rw [stream]
          exact reads
        · rw [held]
          exact records
        · rw [idle.1]
          rfl
        · simp [idle.1]
      · split
        · refine .next tokens ?_ ?_ online
          · rw [stream]
            exact reads
          · rw [held]
            exact records
        · exact returns
  · exact returns

end Pass

/-- A pass of a removing, waiting call over a stream without Ctrl+Break. -/
theorem getBody_step (remove : call.isPeek = false) (wait : call.waitAllowed = true)
    (room : 0 < call.capacity) {state : ReadState}
    (connected : state.host.inputDisconnected = false)
    (quiet : NoBreak platform call state.stream) :
    GetStep platform call state (getBody platform call state) := by
  have limit : 64 ≤ state.pendingPrefix.length + peekLimit call := by
    simp only [peekLimit]
    omega
  obtain ⟨tokens, scanned⟩ := scanLoop_reads remove
    (({ rest := state.window (peekLimit call) } : Scan).push call
      (state.handle.decodedInputPending.toList.map makeSimpleCharacterKeyEvent))
    (by
      rw [Scan.push, ReadState.window_eq]
      exact quiet.take _)
    ⟨rfl, rfl⟩
  change ScanReads platform call _ (scanWindow platform call state) tokens at scanned
  simp only [getBody]
  generalize scanWindow platform call state = scan at scanned
  have records : heldRecords call state.handle.decodedInputPending ++
      tokens.flatMap (tokenRecords call) = scan.records ++ heldRecords call scan.cut :=
    scanned.records.symm
  have consumed : scan.bytesConsumed + scan.rest.length =
      (state.window (peekLimit call)).length := by
    simpa [Scan.push] using scanned.consumed
  have reads : (platform.inputDecoder call.codePage).Reads state.stream tokens
      (state.stream.drop scan.bytesConsumed) := by
    have within := scanned.reads
    simp only [Scan.push, ReadState.window_eq] at within consumed
    have whole := within.of_take
    rwa [← consumed, Nat.add_sub_cancel] at whole
  have rest : scan.rest = (state.stream.drop scan.bytesConsumed).take
      (state.pendingPrefix.length + peekLimit call - scan.bytesConsumed) := by
    have suffix := List.suffix_iff_eq_drop.mp scanned.reads.suffix
    simp only [Scan.push] at suffix
    rw [suffix, ← consumed, Nat.add_sub_cancel, ReadState.window_eq, List.drop_take]
  split
  · rename_i idle
    simp only [Bool.and_eq_true, ReadState.exhausted_iff, Option.isNone_iff_eq_none] at idle
    refine .leave [] ⟨.done _, ?_, connected, .inr ⟨idle.1.2, 64, ?_, fun _ => le_rfl, fun _ => ?_⟩⟩
    · simp [ReadState.wait, connected, ReadReply.data]
    · simp only [ReadState.wait, idle.2]
      rfl
    · simp [ReadState.wait, idle.2]
  · split
    · rename_i silent
      simp only [remove, wait, Bool.not_false, Bool.true_and, Bool.and_eq_true, List.isEmpty_iff,
        beq_iff_eq] at silent
      have noRecords : call.capacity ≤ scan.records.length → False := by
        rw [silent.1]
        exact Nat.not_le.mpr room
      obtain ⟨rfl, same⟩ := scanned.reads.eq_nil_of_length_eq (by
        simp only [Scan.push]
        omega)
      have cut : scan.cut = none := scanned.cut_full.resolve_right noRecords
      have waiting := scanned.stopped.resolve_left noRecords
      rw [same] at waiting
      have pends : ∀ next : ReadState, next.stream = state.stream →
          next.handle.decodedInputPending = none → next.host.inputDisconnected = false →
          GetStep platform call state (.leave (next, .pending)) := by
        intro next kept held online
        refine .leave [] ⟨?_, ?_, online, .inr ⟨held, _, ?_, fun _ => limit, fun whole => ?_⟩⟩
        · rw [kept]
          exact .done _
        · rw [held, ← cut]
          simpa [silent.1, ReadReply.data] using records
        · rw [kept, ← ReadState.window_eq]
          exact waiting
        · rw [kept]
          omega
      rw [connected]
      split
      · rename_i offline
        cases offline
      · split
        · exact pends _ (by simp [afterScan, remove])
            (by simp [afterScan, remove, cut, ReadState.setHeld])
            (by simp [afterScan, remove, ReadState.setHeld, connected])
        · split
          · exact pends _ (by simp [afterScan, remove])
              (by simp [afterScan, remove, cut, ReadState.setHeld])
              (by simp [afterScan, remove, ReadState.setHeld, connected])
          · rename_i decided
            exact absurd waiting decided
    · refine conclude_step remove wait connected reads records scanned.noBreak ?_
      by_cases full : call.capacity ≤ scan.records.length
      · exact .inl full
      · refine .inr ⟨scanned.cut_full.resolve_right full,
          state.pendingPrefix.length + peekLimit call - scan.bytesConsumed, ?_, fun whole => ?_⟩
        · have waiting := scanned.stopped.resolve_left full
          rwa [rest] at waiting
        · rw [List.length_drop]
          omega

theorem getLoop_reads (remove : call.isPeek = false) (wait : call.waitAllowed = true)
    (room : 0 < call.capacity) {state : ReadState}
    (connected : state.host.inputDisconnected = false)
    (quiet : NoBreak platform call state.stream) :
    ∃ tokens, GetReads platform call state ((getLoop platform call).run state) tokens := by
  let Holds (state : ReadState) (result : ReadState × ReadReply KeyEvent) : Prop :=
    state.host.inputDisconnected = false → NoBreak platform call state.stream →
      ∃ tokens, GetReads platform call state result tokens
  suffices holds : Holds state ((getLoop platform call).run state) from holds connected quiet
  apply (getLoop platform call).run_induction
  · intro state result pass connected quiet
    change getBody platform call state = .leave result at pass
    have step := getBody_step remove wait room connected quiet
    rw [pass] at step
    cases step with
    | leave tokens reads => exact ⟨tokens, reads⟩
  · intro state next result pass holds connected quiet
    change getBody platform call state = .next next at pass
    have step := getBody_step remove wait room connected quiet
    rw [pass] at step
    cases step with
    | next tokens reads records online =>
        obtain ⟨further, later⟩ := holds online (quiet.reads reads)
        refine ⟨tokens ++ further, reads.trans later.reads, ?_, later.connected,
          later.stopped.imp_right ?_⟩
        · rw [List.flatMap_append, ← List.append_assoc, records, later.records]
        · rintro ⟨held, limit, waiting, long, whole⟩
          exact ⟨held, limit, waiting, long, fun short => whole (reads.length_le.trans short)⟩

/-- In the input code page the byte of Ctrl+C is the character of Ctrl+C. -/
structure DecodesCtrlC (platform : Platform) (codePage : CodePage) : Prop where
  single : platform.isDbcsLeadByteEx codePage 3 = false
  unit : platform.multiByteToWideChar codePage (codePage == cpUtf8) [3] = [3]

/-- A byte that is a character by itself is taken off the stream as that character. -/
theorem decodeOneInputToken_single {codePage : CodePage} {byte : Byte} {unit : WChar}
    (single : platform.isDbcsLeadByteEx codePage byte = false) (ascii : byte < 0x80)
    (decodes : platform.multiByteToWideChar codePage (codePage == cpUtf8) [byte] = [unit])
    (plain : byte ≠ VtInput.escByte) (rest : List Byte) :
    platform.decodeOneInputToken codePage (byte :: rest) = .token (.textUnits [unit]) 1 := by
  have sequence : ∀ strict, platform.multiByteToWideChar codePage strict [byte] = [unit] →
      platform.decodeSequence codePage strict (byte :: rest) 1 = .token [unit] 1 := by
    intro strict decodes
    simp [Platform.decodeSequence, decodes]
  have text : platform.decodeOneConsoleInputUnit codePage (byte :: rest) = .token [unit] 1 := by
    simp only [Platform.decodeOneConsoleInputUnit, Platform.utf8Sequence, if_pos ascii]
    split
    · rename_i utf8
      exact sequence true (by simpa [utf8] using decodes)
    · rename_i notUtf8
      rw [single]
      exact sequence false (by rwa [beq_false_of_ne notUtf8] at decodes)
  have notCsi : byte ≠ VtInput.csiByte := by
    rintro rfl
    exact absurd ascii (by decide)
  have noVt : VtInput.tryDecodeVt (byte :: rest) = .noMatch := by
    simp [VtInput.tryDecodeVt, plain, notCsi]
  simp [Platform.decodeOneInputToken, noVt, text]

theorem DecodesCtrlC.token {codePage : CodePage} (ctrlC : DecodesCtrlC platform codePage)
    (rest : List Byte) :
    platform.decodeOneInputToken codePage (3 :: rest) = .token (.textUnits [3]) 1 :=
  decodeOneInputToken_single ctrlC.single (by decide) ctrlC.unit (by decide) rest

theorem dropWhile_ctrlC_reads (processed : call.mode.processedInput = true)
    (ctrlC : DecodesCtrlC platform call.codePage) (queue : List Byte) :
    ∃ tokens, (platform.inputDecoder call.codePage).Reads queue tokens
        (queue.dropWhile (· == 3)) ∧ tokens.flatMap (tokenRecords call) = [] := by
  induction queue with
  | nil => exact ⟨[], .done _, rfl⟩
  | cons first rest hypothesis =>
      by_cases isCtrlC : first = 3
      · subst isCtrlC
        obtain ⟨tokens, reads, silent⟩ := hypothesis
        refine ⟨.textUnits [3] :: tokens, .step (ctrlC.token rest) reads, ?_⟩
        rw [List.flatMap_cons, silent]
        simp [tokenRecords, processed]
      · refine ⟨[], ?_, rfl⟩
        rw [List.dropWhile_cons_of_neg (by simpa using isCtrlC)]
        exact .done _

/-- In processed mode the queue does not start with Ctrl+C while the handle holds the front of a
token. -/
def Separate (call : RecordCall) (state : ReadState) : Prop :=
  call.mode.processedInput = true → state.pendingPrefix ≠ [] →
    state.host.inputQueue.head? ≠ some 3

instance (call : RecordCall) (state : ReadState) : Decidable (Separate call state) :=
  inferInstanceAs (Decidable (_ → _ → _))

theorem stripCtrlC_reads (ctrlC : call.mode.processedInput = true →
      DecodesCtrlC platform call.codePage) {state : ReadState} (separate : Separate call state) :
    ∃ tokens, (platform.inputDecoder call.codePage).Reads state.stream tokens
        (if call.mode.processedInput then state.stripCtrlC call.processes else state).stream ∧
      tokens.flatMap (tokenRecords call) = [] := by
  split
  · rename_i processed
    by_cases clear : state.pendingPrefix = []
    · have whole : (state.stripCtrlC call.processes).stream =
          state.host.inputQueue.dropWhile (· == 3) := by
        change state.pendingPrefix ++ _ = _
        rw [clear]
        rfl
      rw [whole, ReadState.stream, clear]
      exact dropWhile_ctrlC_reads processed (ctrlC processed) _
    · refine ⟨[], ?_, rfl⟩
      have same : (state.stripCtrlC call.processes).stream = state.stream := by
        change state.pendingPrefix ++ state.host.inputQueue.dropWhile (· == 3) = _
        have head := separate processed clear
        cases queue : state.host.inputQueue with
        | nil => simp [ReadState.stream, queue]
        | cons first rest =>
            rw [queue] at head
            rw [List.dropWhile_cons_of_neg (by simpa using head), ReadState.stream, queue]
      rw [same]
      exact .done _
  · exact ⟨[], .done _, rfl⟩

/-- A removing, waiting call reads tokens off the stream and returns their records. -/
theorem getConsoleInput_reads (call : RecordCall) (remove : call.isPeek = false)
    (wait : call.waitAllowed = true)
    (ctrlC : call.mode.processedInput = true → DecodesCtrlC platform call.codePage)
    {state : ReadState} (separate : Separate call state)
    (connected : state.host.inputDisconnected = false)
    (quiet : NoBreak platform call state.stream) :
    ∃ tokens, GetReads platform call state (getConsoleInput platform call state) tokens := by
  simp only [getConsoleInput]
  split
  · rename_i empty
    exact ⟨[], .done _, by simp [ReadReply.data], connected, .inl (by simp [empty])⟩
  · rename_i room
    obtain ⟨stripped, reads, silent⟩ := stripCtrlC_reads ctrlC separate
    generalize start : (if call.mode.processedInput then
      state.stripCtrlC call.processes else state) = next at *
    have held : next.handle = state.handle := by
      rw [← start]
      split <;> rfl
    have online : next.host.inputDisconnected = false := by
      rw [← start]
      split <;> exact connected
    obtain ⟨tokens, later⟩ :=
      getLoop_reads remove wait (Nat.pos_of_ne_zero room) online (quiet.reads reads)
    refine ⟨stripped ++ tokens, reads.trans later.reads, ?_, later.connected,
      later.stopped.imp_right ?_⟩
    · rw [List.flatMap_append, silent, List.nil_append, ← held, later.records]
    · rintro ⟨nothing, limit, waiting, long, whole⟩
      exact ⟨nothing, limit, waiting, long, fun short => whole (reads.length_le.trans short)⟩

inductive Event where
  | arrive (bytes : List Byte)
  | get (capacity : Nat)
deriving DecidableEq

def arrivals (events : List Event) : List Byte :=
  events.flatMap fun
    | .arrive bytes => bytes
    | .get _ => []

/-- A run on one handle: the records returned so far, and whether the last event was a call that was
left pending. -/
structure Session where
  state : ReadState := {}
  records : List KeyEvent := []
  pending : Bool := false

def Session.step (platform : Platform) (call : RecordCall) (session : Session) : Event → Session
  | .arrive bytes => { session with state := session.state.arrive bytes, pending := false }
  | .get capacity =>
      let result := getConsoleInput platform { call with capacity := capacity } session.state
      ⟨result.1, session.records ++ result.2.data, result.2 == .pending⟩

def Session.run (platform : Platform) (call : RecordCall) (session : Session)
    (events : List Event) : Session :=
  events.foldl (Session.step platform call) session

/-- Every call of the run finds the Ctrl+C bytes of the queue separate from the handle's prefix. -/
def SeparateCalls (platform : Platform) (call : RecordCall) : Session → List Event → Prop
  | _, [] => True
  | session, event :: events =>
      (∀ capacity, event = .get capacity → Separate call session.state) ∧
        SeparateCalls platform call (session.step platform call event) events

/-- Every token is decided on within the first 64 bytes. -/
def DecidedWithin (platform : Platform) (codePage : CodePage) (bytes : List Byte) : Prop :=
  ∀ tokens rest, (platform.inputDecoder codePage).Reads bytes tokens rest →
    (platform.inputDecoder codePage).Waiting (rest.take 64) →
      (platform.inputDecoder codePage).Waiting rest

theorem NoBreak.left {bytes more : List Byte} (quiet : NoBreak platform call (bytes ++ more)) :
    NoBreak platform call bytes := by
  have taken := quiet.take bytes.length
  rwa [List.take_left] at taken

/-- A pending call has left nothing in the handle and a stream the decoder waits on. -/
def Session.Idle (platform : Platform) (call : RecordCall) (session : Session) : Prop :=
  session.pending = true → session.state.handle.decodedInputPending = none ∧
    ∃ limit, 64 ≤ limit ∧
      (platform.inputDecoder call.codePage).Waiting (session.state.stream.take limit)

theorem GetReads.idle {state : ReadState} {tokens : List Token}
    (reads : GetReads platform call state (getConsoleInput platform call state) tokens)
    (pended : (getConsoleInput platform call state).2 = .pending) :
    (getConsoleInput platform call state).1.handle.decodedInputPending = none ∧
      ∃ limit, 64 ≤ limit ∧ (platform.inputDecoder call.codePage).Waiting
        ((getConsoleInput platform call state).1.stream.take limit) := by
  rcases reads.stopped with full | ⟨held, limit, waiting, long, -⟩
  · rw [pended] at full
    have empty : call.capacity = 0 := Nat.le_zero.mp full
    rw [getConsoleInput, if_pos empty] at pended
    cases pended
  · exact ⟨held, limit, long pended, waiting⟩

theorem run_reads (remove : call.isPeek = false) (wait : call.waitAllowed = true)
    (ctrlC : call.mode.processedInput = true → DecodesCtrlC platform call.codePage)
    (events : List Event) (session : Session)
    (separate : SeparateCalls platform call session events)
    (connected : session.state.host.inputDisconnected = false)
    (quiet : NoBreak platform call (session.state.stream ++ arrivals events))
    (idle : session.Idle platform call) :
    ∃ tokens, (platform.inputDecoder call.codePage).Reads
        (session.state.stream ++ arrivals events) tokens
        (session.run platform call events).state.stream ∧
      session.records ++ (heldRecords call session.state.handle.decodedInputPending ++
          tokens.flatMap (tokenRecords call)) =
        (session.run platform call events).records ++
          heldRecords call (session.run platform call events).state.handle.decodedInputPending ∧
      (session.run platform call events).Idle platform call := by
  induction events generalizing session with
  | nil =>
      refine ⟨[], ?_, by simp [Session.run], idle⟩
      simp only [arrivals, List.flatMap_nil, List.append_nil]
      exact .done _
  | cons event events hypothesis =>
      obtain ⟨here, later⟩ := separate
      change ∃ tokens, (platform.inputDecoder call.codePage).Reads _ tokens
          ((session.step platform call event).run platform call events).state.stream ∧
        _ = ((session.step platform call event).run platform call events).records ++
          heldRecords call ((session.step platform call event).run platform call
            events).state.handle.decodedInputPending ∧
        ((session.step platform call event).run platform call events).Idle platform call
      cases event with
      | arrive bytes =>
          have same : session.state.stream ++ arrivals (.arrive bytes :: events) =
              (session.step platform call (.arrive bytes)).state.stream ++ arrivals events := by
            simp [arrivals, Session.step]
          rw [same] at quiet ⊢
          exact hypothesis _ later connected quiet (fun pended => by cases pended)
      | get capacity =>
          have same : arrivals (.get capacity :: events) = arrivals events := by simp [arrivals]
          rw [same] at quiet ⊢
          have reading : ∃ tokens, GetReads platform { call with capacity := capacity }
              session.state _ tokens :=
            getConsoleInput_reads { call with capacity := capacity } remove wait ctrlC
              (here capacity rfl) connected quiet.left
          obtain ⟨tokens, reads⟩ := reading
          have longer := reads.reads.append (arrivals events)
          obtain ⟨further, reads', records, idle'⟩ :=
            hypothesis _ later reads.connected (quiet.reads longer)
              (fun pended => reads.idle (by simpa [Session.step] using pended))
          refine ⟨tokens ++ further, longer.trans reads', ?_, idle'⟩
          have first : heldRecords call session.state.handle.decodedInputPending ++
              tokens.flatMap (tokenRecords call) = _ ++ heldRecords call _ := reads.records
          rw [← records, List.flatMap_append, ← List.append_assoc (heldRecords call _), first]
          simp only [Session.step, List.append_assoc]

/-- A text gives at most two records for each of its bytes. -/
theorem length_flatMap_tokenRecords (call : RecordCall) {bytes rest : List Byte}
    {tokens : List Token}
    (reads : (platform.inputDecoder call.codePage).Reads bytes tokens rest) :
    (tokens.flatMap (tokenRecords call)).length ≤ 2 * bytes.length := by
  induction reads with
  | done => simp
  | @step bytes token length tokens rest decoded _ hypothesis =>
      have positive := Platform.decodeOneInputToken_positive decoded
      have bounded := Platform.decodeOneInputToken_bounded decoded
      have short : (tokenRecords call token).length ≤ 2 := by
        cases token with
        | ignoredSequence => simp [tokenRecords]
        | keyEvent key =>
            simp only [tokenRecords]
            split <;> simp
        | textUnits chars =>
            have units := (Platform.decodeOneInputToken_text decoded).2
            simp only [tokenRecords]
            split
            · simp
            · simpa using units
      rw [List.flatMap_cons, List.length_append]
      rw [List.length_drop] at hypothesis
      omega

/-- What is left undecided by its first 64 bytes or more is left undecided. -/
theorem DecidedWithin.waiting {codePage : CodePage} {bytes rest : List Byte} {tokens : List Token}
    (decided : DecidedWithin platform codePage bytes)
    (reads : (platform.inputDecoder codePage).Reads bytes tokens rest) {limit : Nat}
    (long : 64 ≤ limit ∨ rest.length ≤ limit)
    (waiting : (platform.inputDecoder codePage).Waiting (rest.take limit)) :
    (platform.inputDecoder codePage).Waiting rest := by
  rcases long with long | whole
  · refine decided tokens rest reads ?_
    cases outcome : (platform.inputDecoder codePage).decode (rest.take 64) with
    | needMore => exact outcome
    | token token length =>
        have later := (platform.inputDecoder codePage).stable ((rest.take limit).drop 64) outcome
        have parts : rest.take 64 ++ (rest.take limit).drop 64 = rest.take limit := by
          conv_rhs => rw [← List.take_append_drop 64 (rest.take limit)]
          rw [List.take_take, Nat.min_eq_left long]
        rw [parts] at later
        rw [Decoder.Waiting, later] at waiting
        cases waiting
  · rwa [List.take_of_length_le whole] at waiting

/-- One call with room for everything returns the records of all tokens. -/
theorem getConsoleInput_all (remove : call.isPeek = false) (wait : call.waitAllowed = true)
    (ctrlC : call.mode.processedInput = true → DecodesCtrlC platform call.codePage)
    {bytes : List Byte} (enough : 2 * bytes.length < call.capacity)
    (size : bytes.length ≤ 65536) (quiet : NoBreak platform call bytes) :
    ∃ tokens rest, (platform.inputDecoder call.codePage).Reads bytes tokens rest ∧
      (platform.inputDecoder call.codePage).Waiting rest ∧
      (getConsoleInput platform call (ReadState.arrive {} bytes)).2.data =
        tokens.flatMap (tokenRecords call) := by
  obtain ⟨tokens, reads⟩ := getConsoleInput_reads call remove wait ctrlC
    (fun _ held => absurd rfl held : Separate call (ReadState.arrive {} bytes)) rfl quiet
  have count := length_flatMap_tokenRecords call reads.reads
  have records := reads.records
  change [] ++ _ = _ at records
  rw [List.nil_append] at records
  have short : ¬call.capacity ≤
      (getConsoleInput platform call (ReadState.arrive {} bytes)).2.data.length := by
    have total := congrArg List.length records
    rw [List.length_append] at total
    change _ ≤ 2 * bytes.length at count
    omega
  obtain ⟨held, limit, waiting, -, whole⟩ := reads.stopped.resolve_left short
  refine ⟨tokens, _, reads.reads, ?_, ?_⟩
  · have visible := whole (by
      change bytes.length ≤ min (call.capacity * 64) 65536
      omega)
    rwa [List.take_of_length_le visible] at waiting
  · rw [records, held]
    simp [heldRecords]

/-- The records returned by removing, waiting calls of any sizes, interleaved in any way with the
arrival of the bytes, are a prefix of what one call with room for everything returns after all
bytes have arrived; and all of it once a call is left pending after the last arrival. The run must
not call while the handle holds the front of a token and the queue starts with Ctrl+C. -/
theorem records_prefix_of_single_call (platform : Platform) (call : RecordCall)
    (remove : call.isPeek = false) (wait : call.waitAllowed = true)
    (ctrlC : call.mode.processedInput = true → DecodesCtrlC platform call.codePage)
    (bytes : List Byte) (size : bytes.length ≤ 65536) (enough : 2 * bytes.length < call.capacity)
    (quiet : NoBreak platform call bytes)
    (decided : DecidedWithin platform call.codePage bytes)
    (events : List Event) (arrived : arrivals events = bytes)
    (separate : SeparateCalls platform call {} events) :
    (Session.run platform call {} events).records <+:
        (getConsoleInput platform call (ReadState.arrive {} bytes)).2.data ∧
      ((Session.run platform call {} events).pending = true →
        (Session.run platform call {} events).records =
          (getConsoleInput platform call (ReadState.arrive {} bytes)).2.data) := by
  obtain ⟨all, rest, readsAll, waiting, single⟩ :=
    getConsoleInput_all remove wait ctrlC enough size quiet
  have start : ({} : Session).state.stream ++ arrivals events = bytes := arrived
  obtain ⟨tokens, reads, records, idle⟩ := run_reads remove wait ctrlC events {} separate rfl
    (by rw [start]; exact quiet) (fun pended => by cases pended)
  rw [start] at reads
  change [] ++ ([] ++ _) = _ at records
  rw [List.nil_append, List.nil_append] at records
  rw [single]
  constructor
  · have before : tokens <+: all := by
      rcases reads.confluent readsAll with ⟨further, same, -⟩ | ⟨further, same, later⟩
      · exact ⟨further, same.symm⟩
      · cases later with
        | done => exact ⟨[], by simp [same]⟩
        | step decoded _ =>
            rw [Decoder.Waiting, decoded] at waiting
            cases waiting
    obtain ⟨further, rfl⟩ := before
    rw [List.flatMap_append, records, List.append_assoc]
    exact List.prefix_append _ _
  · intro pended
    obtain ⟨held, limit, long, stuck⟩ := idle pended
    have stopped := decided.waiting reads (.inl long) stuck
    obtain ⟨rfl, -⟩ := reads.deterministic stopped readsAll waiting
    rw [records, held]
    simp [heldRecords]

theorem utf8_decodesCtrlC : DecodesCtrlC .utf8 cpUtf8 where
  single := rfl
  unit := by decide

theorem NoBreak.of_reads {bytes rest : List Byte} {all : List Token}
    (reads : (platform.inputDecoder call.codePage).Reads bytes all rest)
    (waiting : (platform.inputDecoder call.codePage).Waiting rest)
    (quiet : ∀ token ∈ all, breaks call token = false) : NoBreak platform call bytes := by
  intro tokens rest' reads' token member
  rcases reads'.confluent reads with ⟨further, same, -⟩ | ⟨further, same, later⟩
  · exact quiet token (by simp [same, member])
  · cases later with
    | done => exact quiet token (by simpa [same] using member)
    | step decoded _ =>
        rw [Decoder.Waiting, decoded] at waiting
        cases waiting

theorem DecidedWithin.of_length {codePage : CodePage} {bytes : List Byte}
    (short : bytes.length ≤ 64) : DecidedWithin platform codePage bytes := by
  intro tokens rest reads waiting
  rwa [List.take_of_length_le (reads.length_le.trans short)] at waiting

theorem records_prefix_of_single_call_euro :
    (Session.run .utf8 { mode := ⟨1⟩, capacity := 16 } {}
      [.arrive [0x61, 3, 0xe2], .get 1, .get 1, .arrive [0x82, 0xac], .get 1, .get 1]).records =
    (getConsoleInput .utf8 { mode := ⟨1⟩, capacity := 16 }
      (ReadState.arrive {} [0x61, 3, 0xe2, 0x82, 0xac])).2.data := by
  let call : RecordCall := { mode := ⟨1⟩, capacity := 16 }
  let decoder := Platform.inputDecoder .utf8 cpUtf8
  have third : decoder.Reads [0xe2, 0x82, 0xac] [.textUnits [0x20ac]] [] :=
    Decoder.Reads.single (by decide : decoder.decode _ = .token (.textUnits [0x20ac]) 3)
  have second : decoder.Reads [3, 0xe2, 0x82, 0xac] [.textUnits [3], .textUnits [0x20ac]] [] :=
    .step (by decide : decoder.decode _ = .token (.textUnits [3]) 1) third
  have first : decoder.Reads [0x61, 3, 0xe2, 0x82, 0xac]
      [.textUnits [0x61], .textUnits [3], .textUnits [0x20ac]] [] :=
    .step (by decide : decoder.decode _ = .token (.textUnits [0x61]) 1) second
  have quiet : NoBreak .utf8 call [0x61, 3, 0xe2, 0x82, 0xac] :=
    NoBreak.of_reads first rfl (by decide)
  have separate : SeparateCalls .utf8 call {}
      [.arrive [0x61, 3, 0xe2], .get 1, .get 1, .arrive [0x82, 0xac], .get 1, .get 1] := by
    refine ⟨?_, ?_, ?_, ?_, ?_, ?_, trivial⟩ <;> intro _ _ <;> decide
  exact (records_prefix_of_single_call .utf8 call rfl rfl (fun _ => utf8_decodesCtrlC) _
    (by decide) (by decide) quiet (.of_length (by decide)) _ rfl separate).2 (by decide)

/-- The byte of Ctrl+C that arrives while the handle holds the lead byte of a character is taken out
of the middle of the stream, and the bytes around it decode to a character they do not form. -/
theorem records_depend_on_timing :
    ¬(Session.run .utf8 { mode := ⟨1⟩, capacity := 16 } {}
      [.arrive [0xe2], .get 8, .arrive [3, 0x82, 0xac], .get 8]).records <+:
    (getConsoleInput .utf8 { mode := ⟨1⟩, capacity := 16 }
      (ReadState.arrive {} [0xe2, 3, 0x82, 0xac])).2.data := by
  decide

end Records

end Conhost
