import Conhost.Input.EndOfFile
import Conhost.Input.UnicodeTokens

/-!
# Unicode reads into buffers of different sizes

The input is read by one raw Unicode read after the other until one waits. A
surrogate pair that does not fit a buffer is continued in the next, but of a
key with a repeat count the repetitions that do not fit are lost. How many
units the reads return in all depends on the sizes of the buffers for this
reason only.
-/

namespace Conhost

namespace UnicodeRead

open ByteRead (prepared length_prepared_le)

variable {platform : Platform} {call : ReadCall} {loop : LoopState} {state : ReadState}

/-- The units of a token if at most `count` repetitions of a key are taken. -/
def Action.taken (most : Nat) : Action → List WChar
  | .key unit count => List.replicate (min count most) unit
  | .text units => units
  | _ => []

/-- The units of tokens in a row. -/
def takenUnits (call : ReadCall) (most : Nat) (tokens : List Token) : List WChar :=
  tokens.flatMap fun token => (action call token).taken most

@[simp]
theorem takenUnits_nil (most : Nat) : takenUnits call most [] = [] := rfl

@[simp]
theorem takenUnits_cons (most : Nat) (token : Token) (tokens : List Token) :
    takenUnits call most (token :: tokens) =
      (action call token).taken most ++ takenUnits call most tokens := by
  simp [takenUnits]

theorem takenUnits_append (most : Nat) (tokens others : List Token) :
    takenUnits call most (tokens ++ others) =
      takenUnits call most tokens ++ takenUnits call most others := by
  simp [takenUnits]

/-- Whenever the loop comes to a key, the room that is left has it take as many repetitions as if
`most` were left. -/
def Takes (platform : Platform) (call : ReadCall) (most : Nat) (loop : LoopState) : Prop :=
  ∀ tokens token rest unit count,
    (windowDecoder platform call.codePage).Reads loop.state.stream (tokens ++ [token]) rest →
    action call token = .key unit count →
    (loop.written ++ takenUnits call most tokens).length < maxUnits call →
      min count (maxUnits call - (loop.written ++ takenUnits call most tokens).length) =
        min count most

/-- No token interrupts the read. -/
def Quiet (platform : Platform) (call : ReadCall) (stream : List Byte) : Prop :=
  ∀ tokens rest, (windowDecoder platform call.codePage).Reads stream tokens rest →
    ∀ token ∈ tokens, action call token ≠ .interrupt

theorem Quiet.reads {stream rest : List Byte} {tokens : List Token}
    (quiet : Quiet platform call stream)
    (reads : (windowDecoder platform call.codePage).Reads stream tokens rest) :
    Quiet platform call rest := by
  intro others last further token member
  exact quiet _ last (reads.trans further) token (List.mem_append_right _ member)

/-- In processed mode the queue does not start with Ctrl+C while the handle holds the front of a
token. -/
def Settled (call : ReadCall) (state : ReadState) : Prop :=
  call.mode.processedInput = true →
    state.pendingPrefix = [] ∨ state.host.inputQueue.head? ≠ some 3

theorem Settled.consume (settled : Settled call state) (length : Nat) :
    Settled call (state.consume length) := by
  intro processed
  by_cases inside : length < state.pendingPrefix.length
  · rcases settled processed with empty | other
    · simp [empty] at inside
    · right
      have kept : length - min length state.pendingPrefix.length = 0 := by omega
      simp only [ReadState.consume, ReadState.setQueue, kept, List.drop_zero]
      exact other
  · left
    simp only [ReadState.consume, ReadState.pendingPrefix, ReadState.setQueue, ReadState.setPrefix,
      PendingInputBytes.consumePrefix, List.drop_eq_nil_iff]
    exact Nat.not_lt.mp inside

/-- What a run of the loop returns, by the tokens it reads. -/
structure LoopReads (platform : Platform) (call : ReadCall) (most : Nat) (loop : LoopState)
    (value : ReadState × ReadReply WChar) (tokens : List Token) : Prop where
  reads : (windowDecoder platform call.codePage).Reads loop.state.stream tokens value.1.stream
  units : value.2.data ++ value.1.handle.decodedInputPending.toList =
    loop.written ++ takenUnits call most tokens
  ends : (∃ data, value.2 = .complete .success data) ∧ Settled call value.1 ∨
    (∀ data, value.2 ≠ .complete .success data) ∧
      (windowDecoder platform call.codePage).Waiting value.1.stream ∧
      value.1.handle.decodedInputPending = none ∧ value.2.data = []

theorem LoopReads.after {most : Nat} {next : LoopState} {value : ReadState × ReadReply WChar}
    {tokens others : List Token} (later : LoopReads platform call most next value others)
    (reads : (windowDecoder platform call.codePage).Reads loop.state.stream tokens
      next.state.stream)
    (written : next.written = loop.written ++ takenUnits call most tokens) :
    LoopReads platform call most loop value (tokens ++ others) := by
  refine ⟨reads.trans later.reads, ?_, later.ends⟩
  rw [later.units, written, takenUnits_append, List.append_assoc]

theorem Takes.reads {most : Nat} {next : LoopState} {tokens : List Token}
    (takes : Takes platform call most loop)
    (reads : (windowDecoder platform call.codePage).Reads loop.state.stream tokens
      next.state.stream)
    (written : next.written = loop.written ++ takenUnits call most tokens) :
    Takes platform call most next := by
  intro others token rest unit count further isKey
  have joined := reads.trans further
  rw [← List.append_assoc] at joined
  have whole := takes (tokens ++ others) token rest unit count joined isKey
  rwa [takenUnits_append, ← List.append_assoc, ← written] at whole

theorem Takes.first {most : Nat} {token : Token} {length : Nat} {unit : WChar} {count : Nat}
    (takes : Takes platform call most loop)
    (found : (windowDecoder platform call.codePage).decode loop.state.stream = .token token length)
    (isKey : action call token = .key unit count) (room : loop.written.length < maxUnits call) :
    min count (maxUnits call - loop.written.length) = min count most := by
  have whole := takes [] token _ unit count (.single found) isKey
  rw [takenUnits_nil, List.append_nil] at whole
  exact whole room

theorem text_of_action {token : Token} {units : List WChar} {bytes : List Byte} {length : Nat}
    (found : (windowDecoder platform call.codePage).decode bytes = .token token length)
    (isText : action call token = .text units) : units ≠ [] ∧ units.length ≤ 2 := by
  cases token with
  | ignoredSequence => cases isText
  | keyEvent key =>
      simp only [action, keyAction] at isText
      repeat' split at isText
      all_goals cases isText
  | textUnits chars =>
      simp only [action] at isText
      split at isText
      · cases isText
      · cases isText
        exact Platform.decodeOneInputToken_text found

theorem take_one_append {units : List WChar} (pair : units.length = 2) :
    units.take 1 ++ units[1]?.toList = units := by
  match units, pair with
  | [first, second], _ => rfl

theorem finish_reads {most : Nat} (settled : Settled call loop.state)
    (empty : loop.state.handle.decodedInputPending = none) :
    LoopReads platform call most loop (finish loop) [] :=
  ⟨.done _, by simp [finish, ReadReply.data, empty], .inl ⟨⟨_, rfl⟩, settled⟩⟩

theorem wait_reads {most : Nat} {last : ReadState} (written : loop.written = [])
    (stream : last.stream = loop.state.stream) (held : last.handle.decodedInputPending = none)
    (waiting : (windowDecoder platform call.codePage).Waiting loop.state.stream) :
    LoopReads platform call most loop last.wait [] := by
  have nothing : (last.wait : ReadState × ReadReply WChar).2.data = [] := by
    simp only [ReadState.wait]
    split <;> rfl
  refine ⟨?_, ?_, .inr ⟨wait_ne_success last, ?_, held, nothing⟩⟩
  · change (windowDecoder platform call.codePage).Reads _ _ last.stream
    rw [stream]
    exact .done _
  · rw [nothing, written]
    change [] ++ last.handle.decodedInputPending.toList = _
    simp [held]
  · change (windowDecoder platform call.codePage).Waiting last.stream
    rwa [stream]

/-- The last token of a read is text. -/
theorem text_reads {most : Nat} {token : Token} {length : Nat} {units data : List WChar}
    {held : Option WChar} (settled : Settled call loop.state)
    (found : (windowDecoder platform call.codePage).decode loop.state.stream = .token token length)
    (isText : action call token = .text units) (whole : data ++ held.toList = units) :
    LoopReads platform call most loop
      (finish ⟨(loop.state.consume length).setHeld held, loop.written ++ data⟩) [token] := by
  refine ⟨.step found ?_, ?_, .inl ⟨⟨_, rfl⟩, settled.consume length⟩⟩
  · change (windowDecoder platform call.codePage).Reads _ _ (loop.state.consume length).stream
    rw [ReadState.stream_consume]
    exact .done _
  · simp only [takenUnits_cons, takenUnits_nil, List.append_nil, isText, Action.taken, ← whole]
    change loop.written ++ data ++ held.toList = _
    rw [List.append_assoc]

theorem leave_reads (most : Nat) {value : ReadState × ReadReply WChar}
    (pass : body platform call loop = .leave value)
    (quiet : Quiet platform call loop.state.stream) (settled : Settled call loop.state)
    (empty : loop.state.handle.decodedInputPending = none) :
    ∃ tokens, LoopReads platform call most loop value tokens := by
  by_cases full : maxUnits call ≤ loop.written.length
  · rw [body, if_pos full] at pass
    cases pass
    exact ⟨[], finish_reads settled empty⟩
  · replace full := Nat.not_le.mp full
    cases decoded : (windowDecoder platform call.codePage).decode loop.state.stream with
    | needMore =>
        rcases body_waiting full decoded with ⟨-, left⟩ | ⟨written, last, left, stream, held⟩
        · cases left.symm.trans pass
          exact ⟨[], finish_reads settled empty⟩
        · cases left.symm.trans pass
          exact ⟨[], wait_reads written stream (held.trans empty) decoded⟩
    | token token length =>
        rw [body_token full decoded] at pass
        have calm := quiet _ _ (.single decoded) token List.mem_cons_self
        cases does : action call token with
        | skip | ctrlC | key =>
            rw [does] at pass
            cases pass
        | interrupt => exact absurd does calm
        | text units =>
            have short := (text_of_action decoded does).2
            have unheld : loop.state.consume length =
                (loop.state.consume length).setHeld none := by
              simp only [ReadState.setHeld]
              rw [← show (loop.state.consume length).handle.decodedInputPending = none from empty]
            rw [does] at pass
            simp only [perform] at pass
            split at pass
            · have pair : units.length = 2 := by omega
              cases pass
              exact ⟨[token], text_reads settled decoded does (take_one_append pair)⟩
            · split at pass
              · rw [unheld] at pass
                cases pass
                exact ⟨[token], text_reads settled decoded does (by simp)⟩
              · cases pass

theorem next_reads {most : Nat} {next : LoopState} (pass : body platform call loop = .next next)
    (takes : Takes platform call most loop) (settled : Settled call loop.state)
    (empty : loop.state.handle.decodedInputPending = none) :
    ∃ tokens,
      (windowDecoder platform call.codePage).Reads loop.state.stream tokens next.state.stream ∧
      next.written = loop.written ++ takenUnits call most tokens ∧
      Settled call next.state ∧ next.state.handle.decodedInputPending = none := by
  have full : loop.written.length < maxUnits call := by
    by_contra full
    rw [body, if_pos (Nat.not_lt.mp full)] at pass
    cases pass
  cases decoded : (windowDecoder platform call.codePage).decode loop.state.stream with
  | needMore =>
      rcases body_waiting full decoded with ⟨-, left⟩ | ⟨-, last, left, -⟩
      · cases left.symm.trans pass
      · cases left.symm.trans pass
  | token token length =>
      have performed := (body_token full decoded).symm.trans pass
      refine ⟨[token], .step decoded ?_, ?_⟩
      · rw [stream_perform performed]
        exact .done _
      rw [takenUnits_cons, takenUnits_nil, List.append_nil]
      cases does : action call token with
      | skip =>
          rw [does] at performed
          cases performed
          exact ⟨by simp [Action.taken, LoopState.consume], settled.consume length, empty⟩
      | ctrlC =>
          rw [does] at performed
          cases performed
          exact ⟨by simp [Action.taken, LoopState.consume, LoopState.forward],
            settled.consume length, empty⟩
      | interrupt =>
          rw [does] at performed
          cases performed
      | key unit count =>
          have same := takes.first decoded does full
          rw [does] at performed
          cases performed
          exact ⟨by simp [Action.taken, same], settled.consume length, empty⟩
      | text units =>
          rw [does] at performed
          simp only [perform] at performed
          split at performed
          · cases performed
          · split at performed
            · cases performed
            · cases performed
              exact ⟨by simp [Action.taken], settled.consume length, empty⟩

/-- What the loop of a read does, if it takes at most `most` repetitions of every key. -/
theorem readLoop_reads {most : Nat} (loop : LoopState) (takes : Takes platform call most loop)
    (quiet : Quiet platform call loop.state.stream) (settled : Settled call loop.state)
    (empty : loop.state.handle.decodedInputPending = none) :
    ∃ tokens, LoopReads platform call most loop ((readLoop platform call).run loop) tokens := by
  let Holds (loop : LoopState) (value : ReadState × ReadReply WChar) : Prop :=
    Takes platform call most loop → Quiet platform call loop.state.stream →
      Settled call loop.state → loop.state.handle.decodedInputPending = none →
      ∃ tokens, LoopReads platform call most loop value tokens
  suffices holds : Holds loop _ from holds takes quiet settled empty
  apply (readLoop platform call).run_induction
  · intro loop value pass takes quiet settled empty
    exact leave_reads most pass quiet settled empty
  · intro loop next value pass holds takes quiet settled empty
    rcases next_reads pass takes settled empty with ⟨tokens, reads, written, settled', empty'⟩
    rcases holds (takes.reads reads written) (quiet.reads reads) settled' empty' with
      ⟨others, later⟩
    exact ⟨tokens ++ others, later.after reads written⟩

/-- Ctrl+C bytes at the front of a queue are tokens that are passed over. -/
theorem dropWhile_ctrlC_reads (processed : call.mode.processedInput = true)
    (ctrlC : Records.DecodesCtrlC platform call.codePage) (most : Nat) (queue : List Byte) :
    ∃ tokens, (windowDecoder platform call.codePage).Reads queue tokens
        (queue.dropWhile (· == 3)) ∧ takenUnits call most tokens = [] := by
  induction queue with
  | nil => exact ⟨[], .done _, rfl⟩
  | cons first rest hypothesis =>
      by_cases isCtrlC : first = 3
      · subst isCtrlC
        rcases hypothesis with ⟨tokens, reads, silent⟩
        refine ⟨.textUnits [3] :: tokens, .step (ctrlC.token (rest.take 63)) reads, ?_⟩
        rw [takenUnits_cons, silent]
        simp [action, processed, Action.taken]
      · refine ⟨[], ?_, rfl⟩
        rw [List.dropWhile_cons_of_neg (by simpa using isCtrlC)]
        exact .done _

theorem prepared_reads (most : Nat) (settled : Settled call state)
    (ctrlC : call.mode.processedInput = true → Records.DecodesCtrlC platform call.codePage) :
    ∃ tokens, (windowDecoder platform call.codePage).Reads state.stream tokens
        (prepared call state).stream ∧ takenUnits call most tokens = [] := by
  by_cases processed : call.mode.processedInput = true
  · rcases settled processed with empty | other
    · rcases dropWhile_ctrlC_reads processed (ctrlC processed) most state.host.inputQueue with
        ⟨tokens, reads, silent⟩
      refine ⟨tokens, ?_, silent⟩
      have whole : (prepared call state).stream = state.host.inputQueue.dropWhile (· == 3) := by
        rw [prepared, if_pos processed]
        change state.pendingPrefix ++ _ = _
        rw [empty]
        rfl
      rw [whole, ReadState.stream, empty]
      exact reads
    · refine ⟨[], ?_, rfl⟩
      rw [ByteRead.prepared_of_head fun _ => other]
      exact .done _
  · refine ⟨[], ?_, rfl⟩
    rw [prepared, if_neg processed]
    exact .done _

theorem head_dropWhile_ne (queue : List Byte) : (queue.dropWhile (· == 3)).head? ≠ some 3 := by
  intro head
  have stopped := List.head?_dropWhile_not (· == 3) queue
  rw [head] at stopped
  simp at stopped

theorem prepared_settled (call : ReadCall) (state : ReadState) :
    Settled call (prepared call state) := by
  intro processed
  right
  rw [prepared, if_pos processed]
  exact head_dropWhile_ne _

theorem prepared_prepared : prepared call (prepared call state) = prepared call state := by
  apply ByteRead.prepared_of_head
  intro processed
  rw [prepared, if_pos processed]
  exact head_dropWhile_ne _

/-- What the handle has to deliver, as a loop that has begun with the unit held back. -/
def started (state : ReadState) : LoopState :=
  ⟨state, state.handle.decodedInputPending.toList⟩

theorem rawUnicodeRead_reads {most : Nat} (room : 2 ≤ call.capacity)
    (controlZ : call.processControlZ = false)
    (ctrlC : call.mode.processedInput = true → Records.DecodesCtrlC platform call.codePage)
    (settled : Settled call state) (quiet : Quiet platform call state.stream)
    (takes : Takes platform call most (started state)) :
    ∃ tokens, LoopReads platform call most (started state) (rawUnicodeRead platform call state)
      tokens := by
  rcases prepared_reads most settled ctrlC with ⟨stripped, reads, silent⟩
  have units : maxUnits call ≠ 0 := by
    rw [maxUnits]
    omega
  rw [rawUnicodeRead_eq (by omega)]
  split
  · rename_i idle
    simp only [Bool.and_eq_true, Option.isNone_iff_eq_none, ReadState.exhausted_iff] at idle
    have held : state.handle.decodedInputPending = none := ByteRead.held_prepared.symm.trans idle.2
    have waits : LoopReads platform call most ⟨prepared call state, []⟩ (prepared call state).wait
        [] := by
      refine wait_reads rfl rfl idle.2 ?_
      change (windowDecoder platform call.codePage).Waiting (prepared call state).stream
      rw [idle.1]
      rfl
    exact ⟨stripped ++ [], waits.after reads (by simp [started, held, silent])⟩
  · have behind : ¬ByteRead.controlZAtFront call (prepared call state) = true := by
      simp [ByteRead.controlZAtFront, controlZ]
    rw [if_neg behind]
    have written : (prepared call state).handle.decodedInputPending.toList =
        (started state).written ++ takenUnits call most stripped := by
      simp [started, silent, ByteRead.held_prepared]
    have later := readLoop_reads ⟨(prepared call state).setHeld none,
      (prepared call state).handle.decodedInputPending.toList⟩ (takes.reads reads written)
      (quiet.reads reads) (prepared_settled call state) rfl
    rcases later with ⟨tokens, later⟩
    exact ⟨stripped ++ tokens, later.after reads written⟩

/-- The request with a buffer of the given size. -/
def sized (call : ReadCall) (capacity : Nat) : ReadCall := { call with capacity := capacity }

/-- Reads with buffers of the given sizes, until one does not succeed, return the units. -/
inductive Drains (platform : Platform) (call : ReadCall) :
    ReadState → (Nat → Nat) → List WChar → Prop where
  | ends {state : ReadState} {sizes : Nat → Nat}
      (stops : ∀ data, (rawUnicodeRead platform (sized call (sizes 0)) state).2 ≠
        .complete .success data) : Drains platform call state sizes []
  | reads {state next : ReadState} {sizes : Nat → Nat} {data units : List WChar}
      (read : rawUnicodeRead platform (sized call (sizes 0)) state =
        (next, .complete .success data))
      (later : Drains platform call next (fun index => sizes (index + 1)) units) :
      Drains platform call state sizes (data ++ units)

theorem Drains.unique {sizes : Nat → Nat} {units units' : List WChar}
    (one : Drains platform call state sizes units)
    (other : Drains platform call state sizes units') : units = units' := by
  induction one generalizing units' with
  | ends stops =>
      cases other with
      | ends => rfl
      | reads read later => exact absurd (congrArg Prod.snd read) (stops _)
  | reads read later hypothesis =>
      cases other with
      | ends stops => exact absurd (congrArg Prod.snd read) (stops _)
      | reads read' later' =>
          cases read.symm.trans read'
          rw [hypothesis later']

theorem rawUnicodeRead_prepared (room : call.capacity ≠ 0) :
    rawUnicodeRead platform call (prepared call state) = rawUnicodeRead platform call state := by
  rw [rawUnicodeRead_eq room, rawUnicodeRead_eq room, prepared_prepared]

theorem drains_prepared_iff {sizes : Nat → Nat} {units : List WChar}
    (room : ∀ index, 2 ≤ sizes index) :
    Drains platform call (prepared call state) sizes units ↔
      Drains platform call state sizes units := by
  have some : (sized call (sizes 0)).capacity ≠ 0 := by
    have first := room 0
    change sizes 0 ≠ 0
    omega
  have same : rawUnicodeRead platform (sized call (sizes 0)) (prepared call state) =
      rawUnicodeRead platform (sized call (sizes 0)) state := rawUnicodeRead_prepared some
  constructor
  · intro drains
    cases drains with
    | ends stops => exact .ends (by rwa [same] at stops)
    | reads read later => exact .reads (by rwa [same] at read) later
  · intro drains
    cases drains with
    | ends stops => exact .ends (by rwa [same])
    | reads read later => exact .reads (by rwa [same]) later

/-- What is left to be read. -/
def remaining (state : ReadState) : Nat :=
  2 * state.stream.length + state.handle.decodedInputPending.toList.length

/-- A read that succeeds leaves less to be read. -/
theorem remaining_rawUnicodeRead (room : 2 ≤ call.capacity)
    (controlZ : call.processControlZ = false) {next : ReadState} {data : List WChar}
    (read : rawUnicodeRead platform call state = (next, .complete .success data)) :
    remaining next < remaining state := by
  have units : maxUnits call ≠ 0 := by
    rw [maxUnits]
    omega
  have stripped := length_prepared_le call state
  have behind : ¬ByteRead.controlZAtFront call (prepared call state) = true := by
    simp [ByteRead.controlZAtFront, controlZ]
  rw [rawUnicodeRead_eq (by omega), if_neg behind, if_neg units] at read
  split at read
  · exact absurd (congrArg Prod.snd read) (wait_ne_success _ _)
  · have kept := readLoop_keepsHeld platform call ⟨(prepared call state).setHeld none,
      (prepared call state).handle.decodedInputPending.toList⟩
    rw [read] at kept
    simp only [KeepsHeld, ReadState.stream_setHeld] at kept
    have held : next.handle.decodedInputPending.toList.length ≤ 1 := by
      cases next.handle.decodedInputPending <;> simp
    cases before : state.handle.decodedInputPending with
    | some unit =>
        simp only [remaining, before, Option.toList_some, List.length_singleton]
        rcases kept.2 rfl with empty | shorter
        · simp only [empty, Option.toList_none, List.length_nil]
          omega
        · omega
    | none =>
        rw [ByteRead.held_prepared, before] at read
        simp only [remaining, before, Option.toList_none, List.length_nil]
        cases decoded : (windowDecoder platform call.codePage).decode
            ((prepared call state).setHeld none).stream with
        | needMore =>
            have vacant : (⟨(prepared call state).setHeld none, []⟩ : LoopState).written.length <
                maxUnits call := Nat.pos_of_ne_zero units
            rcases body_waiting vacant decoded with ⟨written, -⟩ | ⟨-, last, left, -⟩
            · exact absurd rfl written
            · have waits := (readLoop platform call).run_of_leave left
              exact absurd (congrArg Prod.snd (waits.symm.trans read)) (wait_ne_success _ _)
        | token token length =>
            have shorter := readLoop_shortens (Nat.pos_of_ne_zero units) decoded
            rw [show ((readLoop platform call).run ⟨(prepared call state).setHeld none, []⟩) = _
              from read] at shorter
            simp only [ReadState.stream_setHeld] at shorter
            omega

/-- Reading comes to an end whatever the sizes of the buffers are. -/
theorem exists_drains (controlZ : call.processControlZ = false) (sizes : Nat → Nat)
    (room : ∀ index, 2 ≤ sizes index) (state : ReadState) :
    ∃ units, Drains platform call state sizes units := by
  induction size : remaining state using Nat.strong_induction_on generalizing state sizes with
  | _ size' hypothesis =>
      subst size
      by_cases success : ∃ data,
          (rawUnicodeRead platform (sized call (sizes 0)) state).2 = .complete .success data
      · rcases success with ⟨data, reply⟩
        have read : rawUnicodeRead platform (sized call (sizes 0)) state =
            ((rawUnicodeRead platform (sized call (sizes 0)) state).1, .complete .success data) :=
          Prod.ext rfl reply
        have unset : (sized call (sizes 0)).processControlZ = false := controlZ
        have smaller := remaining_rawUnicodeRead (room 0) unset read
        rcases hypothesis _ smaller (fun index => sizes (index + 1))
          (fun index => room (index + 1)) _ rfl with ⟨units, later⟩
        exact ⟨data ++ units, .reads read later⟩
      · exact ⟨[], .ends fun data reply => success ⟨data, reply⟩⟩

/-- What the reads return in all, if each of them takes at most `most` repetitions of every key.
`holds` is what the reads keep to that end. -/
theorem Drains.units_eq {most : Nat} {holds : ReadState → Prop} {sizes : Nat → Nat}
    {units : List WChar} (drains : Drains platform call state sizes units)
    (controlZ : call.processControlZ = false)
    (ctrlC : call.mode.processedInput = true → Records.DecodesCtrlC platform call.codePage)
    (room : ∀ index, 2 ≤ sizes index)
    (takes : ∀ state index, holds state →
      Takes platform (sized call (sizes index)) most (started state))
    (keeps : ∀ {state next : ReadState} {tokens : List Token} {data : List WChar}, holds state →
      (windowDecoder platform call.codePage).Reads state.stream tokens next.stream →
      data ++ next.handle.decodedInputPending.toList =
        state.handle.decodedInputPending.toList ++ takenUnits call most tokens → holds next)
    (start : holds state) (settled : Settled call state)
    (quiet : Quiet platform call state.stream) :
    ∃ tokens rest, (windowDecoder platform call.codePage).Reads state.stream tokens rest ∧
      (windowDecoder platform call.codePage).Waiting rest ∧
      units = state.handle.decodedInputPending.toList ++ takenUnits call most tokens := by
  have reads {state : ReadState} {sizes : Nat → Nat} (room : ∀ index, 2 ≤ sizes index)
      (takes : Takes platform (sized call (sizes 0)) most (started state))
      (settled : Settled call state) (quiet : Quiet platform call state.stream) :
      ∃ tokens, LoopReads platform (sized call (sizes 0)) most (started state)
        (rawUnicodeRead platform (sized call (sizes 0)) state) tokens :=
    rawUnicodeRead_reads (room 0) controlZ ctrlC settled quiet takes
  induction drains with
  | @ends state sizes stops =>
      rcases reads room (takes state 0 start) settled quiet with ⟨tokens, read⟩
      rcases read.ends with ⟨⟨data, success⟩, -⟩ | ⟨-, waiting, held, nothing⟩
      · exact absurd success (stops data)
      · have returned := read.units
        rw [held, nothing] at returned
        exact ⟨tokens, _, read.reads, waiting, returned⟩
  | @reads state next sizes data units success later hypothesis =>
      rcases reads room (takes state 0 start) settled quiet with ⟨tokens, read⟩
      rw [success] at read
      have returned : data ++ next.handle.decodedInputPending.toList =
          state.handle.decodedInputPending.toList ++ takenUnits call most tokens := read.units
      have settled' : Settled call next := by
        rcases read.ends with ⟨-, settled'⟩ | ⟨failed, -⟩
        · exact settled'
        · exact absurd rfl (failed data)
      have first : (windowDecoder platform call.codePage).Reads state.stream tokens next.stream :=
        read.reads
      rcases hypothesis (fun index => room (index + 1)) (fun state index => takes state (index + 1))
        (keeps start first returned) settled' (quiet.reads first) with
        ⟨others, rest, further, waiting, rfl⟩
      refine ⟨tokens ++ others, rest, first.trans further, waiting, ?_⟩
      rw [← List.append_assoc, returned, takenUnits_append, List.append_assoc]

/-- No key that is delivered is repeated. -/
def Unrepeated (platform : Platform) (call : ReadCall) (stream : List Byte) : Prop :=
  ∀ tokens rest, (windowDecoder platform call.codePage).Reads stream tokens rest →
    ∀ token ∈ tokens, ∀ unit count, action call token = .key unit count → count = 1

theorem takes_of_unrepeated {capacity : Nat} (plain : Unrepeated platform call state.stream) :
    Takes platform (sized call capacity) 1 (started state) := by
  intro tokens token rest unit count reads isKey room
  have once : count = 1 :=
    plain (tokens ++ [token]) rest reads token (by simp) unit count isKey
  subst once
  omega

theorem takes_single (call : ReadCall) (state : ReadState) :
    Takes platform (sized call 2) 1 (started state) := by
  intro tokens token rest unit count reads isKey room
  have size : maxUnits (sized call 2) = 1 := by simp [maxUnits, sized]
  rw [size] at room ⊢
  omega

/-- All units of tokens in a row. -/
def allUnits (call : ReadCall) (tokens : List Token) : List WChar :=
  tokens.flatMap fun token => (action call token).units

theorem allUnits_append (tokens others : List Token) :
    allUnits call (tokens ++ others) = allUnits call tokens ++ allUnits call others := by
  simp [allUnits]

/-- All units of the stream and the one held back fit. -/
def Fits (platform : Platform) (call : ReadCall) (most : Nat) (state : ReadState) : Prop :=
  ∀ tokens rest, (windowDecoder platform call.codePage).Reads state.stream tokens rest →
    state.handle.decodedInputPending.toList.length + (allUnits call tokens).length ≤ most

theorem length_taken_le (most : Nat) (does : Action) :
    (does.taken most).length ≤ does.units.length := by
  cases does <;> simp [Action.taken, Action.units]

theorem length_takenUnits_le (call : ReadCall) (most : Nat) (tokens : List Token) :
    (takenUnits call most tokens).length ≤ (allUnits call tokens).length := by
  induction tokens with
  | nil => exact le_rfl
  | cons token tokens hypothesis =>
      have first := length_taken_le most (action call token)
      simp only [allUnits] at hypothesis
      simp only [takenUnits_cons, allUnits, List.flatMap_cons, List.length_append]
      omega

theorem Fits.takes {most : Nat} (fits : Fits platform call most state) :
    Takes platform (sized call (2 * most)) most (started state) := by
  intro tokens token rest unit count reads isKey room
  have whole := fits (tokens ++ [token]) rest reads
  have bound := length_takenUnits_le call most tokens
  have last : (allUnits call [token]).length = count := by
    replace isKey : action call token = .key unit count := isKey
    simp [allUnits, isKey, Action.units]
  rw [allUnits_append, List.length_append, last] at whole
  have size : maxUnits (sized call (2 * most)) = most := by
    change 2 * most / 2 = most
    omega
  have written : ((started state).written ++
      takenUnits (sized call (2 * most)) most tokens).length =
      state.handle.decodedInputPending.toList.length + (takenUnits call most tokens).length := by
    rw [List.length_append]
    rfl
  rw [size, written]
  omega

theorem Fits.keeps {most : Nat} {next : ReadState} {tokens : List Token} {data : List WChar}
    (fits : Fits platform call most state)
    (reads : (windowDecoder platform call.codePage).Reads state.stream tokens next.stream)
    (returned : data ++ next.handle.decodedInputPending.toList =
      state.handle.decodedInputPending.toList ++ takenUnits call most tokens) :
    Fits platform call most next := by
  intro others rest further
  have whole := fits (tokens ++ others) rest (reads.trans further)
  have bound := length_takenUnits_le call most tokens
  have sizes := congrArg List.length returned
  rw [allUnits_append] at whole
  simp only [List.length_append] at whole sizes
  omega

theorem length_taken_single_le {most : Nat} (some : 1 ≤ most) (does : Action) :
    (does.taken 1).length ≤ (does.taken most).length := by
  cases does with
  | key unit count =>
      simp only [Action.taken, List.length_replicate]
      omega
  | _ => exact le_rfl

/-- A repeated key is cut by the smallest buffer. -/
theorem length_takenUnits_single_lt {most : Nat} (large : 2 ≤ most) {tokens : List Token}
    {token : Token} {unit : WChar} {count : Nat} (member : token ∈ tokens)
    (isKey : action call token = .key unit count) (repeated : 2 ≤ count) :
    (takenUnits call 1 tokens).length < (takenUnits call most tokens).length := by
  rcases List.append_of_mem member with ⟨before, after, rfl⟩
  have monotone (others : List Token) :
      (takenUnits call 1 others).length ≤ (takenUnits call most others).length := by
    induction others with
    | nil => exact le_rfl
    | cons other others hypothesis =>
        have first := length_taken_single_le (by omega : 1 ≤ most) (action call other)
        simp only [takenUnits_cons, List.length_append]
        omega
  have former := monotone before
  have latter := monotone after
  simp only [takenUnits_append, takenUnits_cons, List.length_append, isKey, Action.taken,
    List.length_replicate]
  omega

theorem fits_of_reads {tokens : List Token} {rest : List Byte}
    (reads : (windowDecoder platform call.codePage).Reads state.stream tokens rest)
    (waiting : (windowDecoder platform call.codePage).Waiting rest) :
    Fits platform call (state.handle.decodedInputPending.toList.length +
      (allUnits call tokens).length) state := by
  intro others rest' further
  rcases further.resume reads waiting with ⟨more, rfl, -⟩
  rw [allUnits_append, List.length_append]
  omega

theorem action_key_pos {token : Token} {unit : WChar} {count : Nat}
    (isKey : action call token = .key unit count) : 0 < count := by
  cases token with
  | keyEvent key =>
      simp only [action, keyAction] at isKey
      repeat' split at isKey
      any_goals cases isKey
      omega
  | ignoredSequence => cases isKey
  | textUnits chars =>
      simp only [action] at isKey
      split at isKey <;> cases isKey

theorem le_length_allUnits {tokens : List Token} {token : Token} {unit : WChar} {count : Nat}
    (member : token ∈ tokens) (isKey : action call token = .key unit count) :
    count ≤ (allUnits call tokens).length := by
  rcases List.append_of_mem member with ⟨before, after, rfl⟩
  have here : (allUnits call [token]).length = count := by
    simp [allUnits, isKey, Action.units]
  rw [List.append_cons, allUnits_append, allUnits_append]
  simp only [List.length_append, here]
  omega

theorem Unrepeated.reads {stream rest : List Byte} {tokens : List Token}
    (plain : Unrepeated platform call stream)
    (reads : (windowDecoder platform call.codePage).Reads stream tokens rest) :
    Unrepeated platform call rest := by
  intro others last further token member
  exact plain _ last (reads.trans further) token (List.mem_append_right _ member)

section Sizes

variable (controlZ : call.processControlZ = false)
  (ctrlC : call.mode.processedInput = true → Records.DecodesCtrlC platform call.codePage)
  (settled : Settled call state) (quiet : Quiet platform call state.stream)
include controlZ ctrlC settled quiet

theorem Drains.units_of_unrepeated {sizes : Nat → Nat} {units : List WChar}
    (drains : Drains platform call state sizes units) (room : ∀ index, 2 ≤ sizes index)
    (plain : Unrepeated platform call state.stream) {tokens : List Token} {rest : List Byte}
    (reads : (windowDecoder platform call.codePage).Reads state.stream tokens rest)
    (waiting : (windowDecoder platform call.codePage).Waiting rest) :
    units = state.handle.decodedInputPending.toList ++ takenUnits call 1 tokens := by
  rcases drains.units_eq controlZ ctrlC room (fun state _ plain => takes_of_unrepeated plain)
    (fun plain reads _ => plain.reads reads) plain settled quiet with
    ⟨others, last, further, stopped, same⟩
  rcases further.deterministic stopped reads waiting with ⟨rfl, -⟩
  exact same

/-- The smallest buffers cut a repeated key that a large one holds. -/
theorem exists_drains_differ {tokens : List Token} {rest : List Byte}
    (reads : (windowDecoder platform call.codePage).Reads state.stream tokens rest)
    (waiting : (windowDecoder platform call.codePage).Waiting rest) {token : Token} {unit : WChar}
    {count : Nat} (member : token ∈ tokens) (isKey : action call token = .key unit count)
    (repeated : 2 ≤ count) :
    ∃ sizes sizes' : Nat → Nat, (∀ index, 2 ≤ sizes index) ∧ (∀ index, 2 ≤ sizes' index) ∧
      ∀ units, Drains platform call state sizes units →
        ¬Drains platform call state sizes' units := by
  have fits := fits_of_reads reads waiting
  have size := le_length_allUnits member isKey
  generalize bound : state.handle.decodedInputPending.toList.length +
    (allUnits call tokens).length = most at fits
  have large : 2 ≤ most := by omega
  have room : ∀ index : Nat, 2 ≤ (fun _ => 2 * most) index := fun _ => by
    change 2 ≤ 2 * most
    omega
  refine ⟨fun _ => 2 * most, fun _ => 2, room, fun _ => le_rfl, ?_⟩
  intro units wide narrow
  rcases wide.units_eq controlZ ctrlC room (fun state _ fits => fits.takes)
    (fun fits reads returned => fits.keeps reads returned) fits settled quiet with
    ⟨others, last, further, stopped, same⟩
  rcases narrow.units_eq controlZ ctrlC (fun _ => le_rfl)
    (fun state _ _ => takes_single call state) (fun _ _ _ => trivial) trivial settled quiet with
    ⟨others', last', further', stopped', same'⟩
  rcases further.deterministic stopped reads waiting with ⟨rfl, -⟩
  rcases further'.deterministic stopped' reads waiting with ⟨rfl, -⟩
  have sizes := congrArg List.length (same'.symm.trans same)
  have shorter := length_takenUnits_single_lt large member isKey repeated
  simp only [List.length_append] at sizes
  omega

end Sizes

/-- What the reads return is the same whatever the sizes of their buffers exactly if no key that is
delivered is repeated. -/
theorem drains_alike_iff (platform : Platform) (call : ReadCall) (state : ReadState)
    (controlZ : call.processControlZ = false)
    (ctrlC : call.mode.processedInput = true → Records.DecodesCtrlC platform call.codePage)
    (quiet : Quiet platform call (prepared call state).stream) :
    (∀ sizes sizes' : Nat → Nat, (∀ index, 2 ≤ sizes index) → (∀ index, 2 ≤ sizes' index) →
        ∃ units, Drains platform call state sizes units ∧
          Drains platform call state sizes' units) ↔
      Unrepeated platform call (prepared call state).stream := by
  have settled := prepared_settled call state
  rcases (windowDecoder platform call.codePage).exists_reads (prepared call state).stream with
    ⟨all, last, whole, waiting⟩
  constructor
  · intro alike tokens rest reads token member unit count isKey
    by_contra repeated
    have positive := action_key_pos isKey
    have present : token ∈ all := by
      rcases reads.resume whole waiting with ⟨more, rfl, -⟩
      exact List.mem_append_left _ member
    rcases exists_drains_differ controlZ ctrlC settled quiet whole waiting present isKey (by omega)
      with ⟨sizes, sizes', room, room', differ⟩
    rcases alike sizes sizes' room room' with ⟨units, one, other⟩
    exact differ units ((drains_prepared_iff room).mpr one) ((drains_prepared_iff room').mpr other)
  · intro plain sizes sizes' room room'
    rcases exists_drains controlZ sizes room (prepared call state) with ⟨units, one⟩
    rcases exists_drains controlZ sizes' room' (prepared call state) with ⟨units', other⟩
    have same := one.units_of_unrepeated controlZ ctrlC settled quiet room plain whole waiting
    have same' := other.units_of_unrepeated controlZ ctrlC settled quiet room' plain whole waiting
    rw [same', ← same] at other
    exact ⟨units, (drains_prepared_iff room).mp one, (drains_prepared_iff room').mp other⟩

theorem quiet_of_unprocessed (plain : call.mode.processedInput = false) (stream : List Byte) :
    Quiet platform call stream := by
  intro tokens rest reads token member
  cases token with
  | ignoredSequence => simp [action]
  | keyEvent key =>
      simp only [action, keyAction, plain, Bool.false_and, Bool.false_eq_true, if_false]
      repeat' split
      all_goals simp
  | textUnits chars => simp [action, plain]

/-- The key A, held down for `count` repetitions. -/
def letterKeyBytes (count : Char) : List Byte :=
  [0x1b, bc '[', bc '6', bc '5', bc ';', bc '3', bc '0', bc ';', bc '9', bc '7', bc ';', bc '1',
    bc ';', bc '0', bc ';', bc count, bc '_']

theorem reads_letterKey {count : Char} {number : UInt16}
    (found : (windowDecoder .utf8 cpUtf8).decode (letterKeyBytes count) =
      .token (.keyEvent ⟨true, number, 65, 30, 97, 0⟩) 17) :
    (windowDecoder .utf8 cpUtf8).Reads (letterKeyBytes count)
      [.keyEvent ⟨true, number, 65, 30, 97, 0⟩] [] :=
  .step found (.done _)

/-- The key A, pressed once, U+1F600 and `y`. -/
def mixedBytes : List Byte := letterKeyBytes '1' ++ [0xf0, 0x9f, 0x98, 0x80, 0x79]

def mixedTokens : List Token :=
  [.keyEvent ⟨true, 1, 65, 30, 97, 0⟩, .textUnits [0xd83d, 0xde00], .textUnits [0x79]]

theorem reads_mixed : (windowDecoder .utf8 cpUtf8).Reads mixedBytes mixedTokens [] := by
  have first : (windowDecoder .utf8 cpUtf8).decode mixedBytes =
      .token (.keyEvent ⟨true, 1, 65, 30, 97, 0⟩) 17 := by decide +kernel
  have second : (windowDecoder .utf8 cpUtf8).decode (mixedBytes.drop 17) =
      .token (.textUnits [0xd83d, 0xde00]) 4 := by decide +kernel
  have third : (windowDecoder .utf8 cpUtf8).decode ((mixedBytes.drop 17).drop 4) =
      .token (.textUnits [0x79]) 1 := by decide +kernel
  exact .step first (.step second (.step third (.done _)))

/-- The four units are read with buffers of one unit, that cut the surrogate pair, and with buffers
of one and of three units by turns. -/
theorem drains_alike_iff_mixed :
    Drains .utf8 { capacity := 0 } { host.inputQueue := mixedBytes } (fun _ => 2)
        [0x61, 0xd83d, 0xde00, 0x79] ∧
      Drains .utf8 { capacity := 0 } { host.inputQueue := mixedBytes }
        (fun index => if index % 2 = 0 then 2 else 6) [0x61, 0xd83d, 0xde00, 0x79] := by
  have unprocessed : InputMode.processedInput ⟨0⟩ = false := by decide
  have processed : InputMode.processedInput ⟨0⟩ = true →
      Records.DecodesCtrlC .utf8 (ReadCall.codePage { capacity := 0 }) :=
    fun processed => absurd processed (by decide)
  have stream : (prepared { capacity := 0 } { host.inputQueue := mixedBytes }).stream =
      mixedBytes := by decide
  have room : ∀ index, 2 ≤ if index % 2 = 0 then 2 else 6 := by
    intro index
    split <;> omega
  have plain : Unrepeated .utf8 { capacity := 0 } mixedBytes := by
    intro tokens rest reads token member unit count isKey
    rcases reads.resume reads_mixed rfl with ⟨more, whole, -⟩
    have present := List.mem_append_left more member
    rw [← whole] at present
    simp only [mixedTokens, List.mem_cons, List.not_mem_nil, or_false] at present
    rcases present with rfl | rfl | rfl
    · simp only [action, keyAction, unprocessed] at isKey
      cases isKey
      rfl
    · simp [action, unprocessed] at isKey
    · simp [action, unprocessed] at isKey
  rcases (drains_alike_iff .utf8 { capacity := 0 } { host.inputQueue := mixedBytes } rfl processed
    (quiet_of_unprocessed unprocessed _)).mpr (by rwa [stream]) (fun _ => 2) _ (by simp) room with
      ⟨units, one, other⟩
  have same : units = [0x61, 0xd83d, 0xde00, 0x79] :=
    one.units_of_unrepeated rfl processed (fun _ => .inl rfl)
      (quiet_of_unprocessed unprocessed _) (by simp) plain reads_mixed rfl
  rw [← same]
  exact ⟨one, other⟩

/-- A key that is held down for three repetitions. -/
theorem drains_differ_letter :
    ¬∀ sizes sizes' : Nat → Nat, (∀ index, 2 ≤ sizes index) → (∀ index, 2 ≤ sizes' index) →
      ∃ units,
        Drains .utf8 { capacity := 0 } { host.inputQueue := letterKeyBytes '3' } sizes units ∧
          Drains .utf8 { capacity := 0 }
            { host.inputQueue := letterKeyBytes '3' } sizes' units := by
  intro alike
  have unprocessed : InputMode.processedInput ⟨0⟩ = false := by decide
  have isKey : action { capacity := 0 } (.keyEvent ⟨true, 3, 65, 30, 97, 0⟩) = .key 97 3 := by
    decide
  have reads : (windowDecoder .utf8 (ReadCall.codePage { capacity := 0 })).Reads
      (ReadState.stream { host.inputQueue := letterKeyBytes '3' })
      [.keyEvent ⟨true, 3, 65, 30, 97, 0⟩] [] := reads_letterKey (by decide +kernel)
  have waiting : (windowDecoder .utf8 (ReadCall.codePage { capacity := 0 })).Waiting [] := rfl
  rcases exists_drains_differ rfl (fun processed => absurd processed (by decide))
    (fun _ => .inl rfl) (quiet_of_unprocessed unprocessed _) reads waiting List.mem_cons_self isKey
    (by decide) with ⟨sizes, sizes', room, room', differ⟩
  rcases alike sizes sizes' room room' with ⟨units, one, other⟩
  exact differ units one other

end UnicodeRead

end Conhost
