import Conhost.Lib.DrainClock
import Conhost.Lib.Pipe
import Conhost.Lib.Run
import Conhost.Runtime.PtyRelay

/-!
# What a relay delivers

In every order in which the two sides write and the relay polls, each side is given what the other
one wrote, in order and without a gap, and the relay takes no input once its client has exited, has
been terminated or has been cut off. It ends by itself only after its client: with everything
relayed, or after two seconds of silence.
-/

namespace Conhost

/-- What the host is given as input: a byte of its pipe, or an event of its console. -/
inductive HostItem where
  | byte (value : Byte)
  | event (value : ConsoleEvent)
deriving DecidableEq

namespace HostItem

/-- The bytes of the pseudo console for an item. -/
def forwarded (platform : Platform) : HostItem → List Byte
  | .byte value => [value]
  | .event (.key key) => KeyInputEncoder.encode platform key
  | .event _ => []

/-- The size an item gives to the pseudo console. -/
def size : HostItem → Option Coord
  | .event (.windowBufferSize size) => some size
  | _ => none

theorem flatMap_forwarded_bytes (platform : Platform) (bytes : List Byte) :
    (bytes.map byte).flatMap (forwarded platform) = bytes := by
  induction bytes with
  | nil => rfl
  | cons head later hypothesis => simp [forwarded, hypothesis]

theorem filterMap_size_bytes (bytes : List Byte) : (bytes.map byte).filterMap size = [] := by
  rw [List.filterMap_map]
  exact List.filterMap_eq_nil_iff.mpr fun _ _ => rfl

end HostItem

/-- The bytes a pass takes from the output of the pseudo console. -/
def RelayPoll.outputTaken (poll : RelayPoll) : List Byte :=
  match poll.peek, poll.read with
  | .ok available, .ok bytes => bytes.take (min available 8192)
  | _, _ => []

/-- The `write_bytes` for an event fails. -/
def ConsoleRead.writeFails (platform : Platform) (writes : List (Except UInt32 Nat)) :
    ConsoleEvent → Bool
  | .key key => (writeBytes writes (KeyInputEncoder.encode platform key)).2.isSome
  | _ => false

/-- The events that are read before a call fails. -/
def ConsoleRead.taken (platform : Platform) : List ConsoleRead → List ConsoleEvent
  | [] => []
  | ⟨.error _, _⟩ :: _ => []
  | ⟨.ok event, writes⟩ :: later =>
      event :: if ConsoleRead.writeFails platform writes event then [] else
        ConsoleRead.taken platform later

/-- The items a pass takes from the input of the host, if it takes any. -/
def HostRead.taken (platform : Platform) : HostRead → List HostItem
  | .console (.ok reads) => (ConsoleRead.taken platform reads).map .event
  | .pipe (.ok available) (.ok bytes) _ => (bytes.take (min available 4096)).map .byte
  | _ => []

namespace PtyRelay

variable {platform : Platform} {relay next : PtyRelay} {poll : RelayPoll}

/-- The input of the host is read in this pass. -/
def pumps (relay : PtyRelay) (poll : RelayPoll) : Bool :=
  !(relay.noteSignal poll.signal).inputClosed &&
    match (relay.noteSignal poll.signal).pumpOutput poll with
    | .ok _ => true
    | .error _ => false

def inputTaken (platform : Platform) (relay : PtyRelay) (poll : RelayPoll) : List HostItem :=
  if relay.pumps poll then poll.input.taken platform else []

/-- What the relay remembers of its polls. -/
def clock (relay : PtyRelay) : DrainClock :=
  ⟨relay.processExited, relay.drainingAfterExit, relay.drainStartTick⟩

/-- Items are taken for which the pseudo console has been given some bytes. -/
structure Takes (platform : Platform) (before : PtyRelay) (items : List HostItem)
    (bytes : List Byte) (after : PtyRelay) : Prop where
  ptyInput : after.ptyInput = before.ptyInput ++ bytes
  sizes : after.sizes = before.sizes ++ items.filterMap HostItem.size
  hostOutput : after.hostOutput = before.hostOutput
  clock : after.clock = before.clock

theorem writeInput_spec (relay : PtyRelay) (calls : List (Except UInt32 Nat)) (data : List Byte) :
    match relay.writeInput calls data with
    | .ok after => (writeBytes calls data).2 = none ∧
        after = { relay with ptyInput := relay.ptyInput ++ data }
    | .error (after, _) => (writeBytes calls data).2.isSome = true ∧ ∃ part, part <+: data ∧
        after = { relay with ptyInput := relay.ptyInput ++ part } := by
  simp only [writeInput]
  cases failed : (writeBytes calls data).2 with
  | none => exact ⟨rfl, by rw [writeBytes_of_none failed]⟩
  | some error => exact ⟨rfl, _, writeBytes_front calls data, rfl⟩

theorem writeOutput_spec (relay : PtyRelay) (calls : List (Except UInt32 Nat)) (data : List Byte) :
    match relay.writeOutput calls data with
    | .ok after => after = { relay with hostOutput := relay.hostOutput ++ data }
    | .error (after, _) => ∃ part, part <+: data ∧
        after = { relay with hostOutput := relay.hostOutput ++ part } := by
  simp only [writeOutput]
  cases failed : (writeBytes calls data).2 with
  | none => rw [writeBytes_of_none failed]
  | some error => exact ⟨_, writeBytes_front calls data, rfl⟩

theorem writeOutput_eq_ok {calls : List (Except UInt32 Nat)} {data : List Byte}
    (wrote : relay.writeOutput calls data = .ok next) :
    next = { relay with hostOutput := relay.hostOutput ++ data } := by
  have spec := writeOutput_spec relay calls data
  rwa [wrote] at spec

theorem Takes.refl (platform : Platform) (relay : PtyRelay) : Takes platform relay [] [] relay :=
  ⟨by simp, by simp, rfl, rfl⟩

theorem Takes.trans {before middle after : PtyRelay} {items later : List HostItem}
    {bytes rest : List Byte} (takes : Takes platform before items bytes middle)
    (takesLater : Takes platform middle later rest after) :
    Takes platform before (items ++ later) (bytes ++ rest) after where
  ptyInput := by rw [takesLater.ptyInput, takes.ptyInput, List.append_assoc]
  sizes := by rw [takesLater.sizes, takes.sizes, List.filterMap_append, List.append_assoc]
  hostOutput := takesLater.hostOutput.trans takes.hostOutput
  clock := takesLater.clock.trans takes.clock

/-- What a pump does with the items it takes: unless it fails, the pseudo console is given all of
their bytes. -/
def Pumps (platform : Platform) (before : PtyRelay) (items : List HostItem) :
    Except (PtyRelay × TerminalError) PtyRelay → Prop
  | .ok after =>
      Takes platform before items (items.flatMap (HostItem.forwarded platform)) after
  | .error (after, _) => ∃ part, part <+: items.flatMap (HostItem.forwarded platform) ∧
      Takes platform before items part after

theorem Pumps.nil_error (error : TerminalError) : Pumps platform relay [] (.error (relay, error)) :=
  ⟨[], List.prefix_refl _, .refl platform relay⟩

/-- An item of which all bytes have been written, and a pump that goes on with the others. -/
theorem Pumps.cons {item : HostItem} {items : List HostItem} {middle : PtyRelay}
    {result : Except (PtyRelay × TerminalError) PtyRelay}
    (takes : Takes platform relay [item] (item.forwarded platform) middle)
    (pumps : Pumps platform middle items result) : Pumps platform relay (item :: items) result := by
  cases result with
  | ok after => exact takes.trans pumps
  | error failed =>
      rcases pumps with ⟨part, front, takesLater⟩
      refine ⟨item.forwarded platform ++ part, ?_, takes.trans takesLater⟩
      exact (List.prefix_append_right_inj _).mpr front

/-- Every event is encoded as it is read. -/
theorem pumpEvents_pumps (platform : Platform) (reads : List ConsoleRead) (relay : PtyRelay) :
    Pumps platform relay ((ConsoleRead.taken platform reads).map .event)
      (relay.pumpEvents platform reads) := by
  induction reads generalizing relay with
  | nil => exact .refl platform relay
  | cons read later hypothesis =>
      rcases read with ⟨event, writes⟩
      rcases event with error | key | size | _
      · exact .nil_error _
      · have wrote := writeInput_spec relay writes (KeyInputEncoder.encode platform key)
        cases result : relay.writeInput writes (KeyInputEncoder.encode platform key) with
        | ok after =>
            rw [result] at wrote
            rcases wrote with ⟨succeeds, rfl⟩
            have goes : ConsoleRead.writeFails platform writes (.key key) = false := by
              simp [ConsoleRead.writeFails, succeeds]
            simp only [pumpEvents, result, ConsoleRead.taken, goes]
            have takes : Takes platform relay [.event (.key key)]
                (KeyInputEncoder.encode platform key)
                { relay with ptyInput := relay.ptyInput ++ KeyInputEncoder.encode platform key } :=
              ⟨rfl, by simp [HostItem.size], rfl, rfl⟩
            exact Pumps.cons takes (hypothesis _)
        | error failed =>
            rw [result] at wrote
            rcases wrote with ⟨fails, part, front, same⟩
            have stops : ConsoleRead.writeFails platform writes (.key key) = true := fails
            simp only [pumpEvents, result, ConsoleRead.taken, stops]
            refine ⟨part, by simpa [HostItem.forwarded] using front, ?_⟩
            rw [same]
            exact ⟨rfl, by simp [HostItem.size], rfl, rfl⟩
      · have takes : Takes platform relay [.event (.windowBufferSize size)] []
            { relay with sizes := relay.sizes ++ [size] } := ⟨by simp, rfl, rfl, rfl⟩
        exact Pumps.cons takes (hypothesis _)
      · have takes : Takes platform relay [.event .other] [] relay :=
          ⟨by simp, by simp [HostItem.size], rfl, rfl⟩
        exact Pumps.cons takes (hypothesis _)

theorem pumpInput_pumps (platform : Platform) (relay : PtyRelay) (input : HostRead) :
    Pumps platform relay (input.taken platform) (relay.pumpInput platform input) := by
  have closes : Takes platform relay [] [] { relay with hostInputPipeEof := true } :=
    ⟨by simp, by simp, rfl, rfl⟩
  cases input with
  | console reads =>
      cases reads with
      | error error => exact .nil_error _
      | ok reads => exact pumpEvents_pumps platform reads relay
  | pipe peek read writes =>
      cases peek with
      | error error =>
          simp only [pumpInput]
          split
          · exact closes
          · exact .nil_error _
      | ok available =>
          cases read with
          | error error =>
              cases available with
              | zero => exact .refl platform relay
              | succ =>
                  simp only [pumpInput]
                  split
                  · exact closes
                  · exact .nil_error _
          | ok bytes =>
              cases available with
              | zero =>
                  simp only [HostRead.taken, Nat.zero_min, List.take_zero, List.map_nil]
                  exact Takes.refl platform relay
              | succ available =>
                  have wrote := writeInput_spec relay writes
                    (bytes.take (min (available + 1) 4096))
                  simp only [pumpInput, HostRead.taken]
                  split at wrote
                  · rename_i result
                    rw [result, wrote.2]
                    refine ⟨?_, ?_, rfl, rfl⟩
                    · rw [HostItem.flatMap_forwarded_bytes]
                    · rw [HostItem.filterMap_size_bytes, List.append_nil]
                  · rename_i after error result
                    rcases wrote with ⟨-, part, front, rfl⟩
                    rw [result]
                    refine ⟨part, ?_, rfl, ?_, rfl, rfl⟩
                    · rwa [HostItem.flatMap_forwarded_bytes]
                    · rw [HostItem.filterMap_size_bytes, List.append_nil]
  | other => exact .refl platform relay

/-- The peek or the read of a poll reports a broken pipe. -/
def ReportsBroken (poll : RelayPoll) : Prop :=
  poll.peek = .error Win32.errorBrokenPipe ∨
    (∃ left, poll.peek = .ok (left + 1)) ∧ poll.read = .error Win32.errorBrokenPipe

theorem ReportsBroken.nothing (reports : ReportsBroken poll) : poll.outputTaken = [] := by
  rcases reports with peek | ⟨⟨left, peek⟩, read⟩
  · rw [RelayPoll.outputTaken, peek]
  · rw [RelayPoll.outputTaken, peek, read]

/-- Unless the pump fails, the host is given all bytes that were taken. -/
theorem pumpOutput_spec (relay : PtyRelay) (poll : RelayPoll) :
    match relay.pumpOutput poll with
    | .ok (after, hadOutput, brokenPipe) =>
        after = { relay with hostOutput := relay.hostOutput ++ poll.outputTaken } ∧
          (hadOutput = false ↔ poll.outputTaken = []) ∧
          (brokenPipe = true ↔ ReportsBroken poll)
    | .error (after, _) => ∃ part, part <+: poll.outputTaken ∧
        after = { relay with hostOutput := relay.hostOutput ++ part } := by
  cases peek : poll.peek with
  | error error =>
      by_cases same : error = Win32.errorBrokenPipe
      · simp [pumpOutput, peek, RelayPoll.outputTaken, ReportsBroken, same]
      · simp [pumpOutput, peek, RelayPoll.outputTaken, same]
  | ok available =>
      cases read : poll.read with
      | error error =>
          cases available with
          | zero => simp [pumpOutput, peek, read, RelayPoll.outputTaken, ReportsBroken]
          | succ available =>
              by_cases same : error = Win32.errorBrokenPipe
              · simp [pumpOutput, peek, read, RelayPoll.outputTaken, ReportsBroken, same]
              · simp [pumpOutput, peek, read, RelayPoll.outputTaken, same]
      | ok bytes =>
          cases available with
          | zero => simp [pumpOutput, peek, read, RelayPoll.outputTaken, ReportsBroken]
          | succ available =>
              have wrote := writeOutput_spec relay poll.writes
                (bytes.take (min (available + 1) 8192))
              simp only [pumpOutput, peek, read, RelayPoll.outputTaken]
              split at wrote
              · rename_i result
                rw [result, wrote]
                simp [Except.map, ReportsBroken, peek, read]
              · rename_i after error result
                rw [result]
                exact wrote

/-- What a pass does with what it takes: it relays all of it, or fails on the way. -/
structure Moves (platform : Platform) (before : PtyRelay) (poll : RelayPoll) (failed : Bool)
    (after : PtyRelay) : Prop where
  shown : ∃ part, part <+: poll.outputTaken ∧ (failed = false → part = poll.outputTaken) ∧
    after.hostOutput = before.hostOutput ++ part
  fed : let bytes := (inputTaken platform before poll).flatMap (HostItem.forwarded platform)
    ∃ part, part <+: bytes ∧ (failed = false → part = bytes) ∧
      after.ptyInput = before.ptyInput ++ part
  sizes : after.sizes =
    before.sizes ++ (inputTaken platform before poll).filterMap HostItem.size

/-- Only the clock is set at the end of a pass. -/
theorem drain_cases (relay : PtyRelay) (hadOutput brokenPipe : Bool) (tick : UInt64) :
    (∃ draining start, relay.drain hadOutput brokenPipe tick =
      .next { relay with drainingAfterExit := draining, drainStartTick := start }) ∨
    (relay.processExited = true ∧ brokenPipe = true ∧
      relay.drain hadOutput brokenPipe tick = .leave (relay, .broken)) ∨
    (relay.processExited = true ∧ hadOutput = false ∧
      relay.drain hadOutput brokenPipe tick = .leave (relay, .drained)) := by
  simp only [drain]
  split
  · exact .inl ⟨relay.drainingAfterExit, relay.drainStartTick, rfl⟩
  · rename_i exited
    simp only [Bool.not_eq_true', Bool.not_eq_false] at exited
    split
    · rename_i broken
      exact .inr (.inl ⟨exited, broken, rfl⟩)
    · split
      · exact .inl ⟨false, relay.drainStartTick, rfl⟩
      · rename_i silent
        split
        · exact .inl ⟨true, tick, rfl⟩
        · split
          · exact .inr (.inr ⟨exited, by simpa using silent, rfl⟩)
          · exact .inl ⟨relay.drainingAfterExit, relay.drainStartTick, rfl⟩

/-- Both sides have been pumped, and the client is waited for next. -/
structure Pumped (platform : Platform) (relay : PtyRelay) (poll : RelayPoll) (after : PtyRelay)
    (hadOutput brokenPipe : Bool) : Prop where
  moves : Moves platform relay poll false after
  closed : relay.inputClosed = true → after.inputClosed = true
  clock : after.clock = relay.clock
  silent : hadOutput = false ↔ poll.outputTaken = []
  broken : brokenPipe = true ↔ ReportsBroken poll

theorem noteSignal_eq (relay : PtyRelay) (signal : Option WaitState) :
    ∃ signaled, relay.noteSignal signal = { relay with signaledTermination := signaled } ∧
      (relay.signaledTermination = true → signaled = true) := by
  rw [noteSignal]
  split
  · exact ⟨true, rfl, fun _ => rfl⟩
  · exact ⟨relay.signaledTermination, rfl, id⟩

/-- A pass fails on one of the two sides, or it pumps both and comes to the client. -/
theorem pass_cases (platform : Platform) (relay : PtyRelay) (poll : RelayPoll) :
    (∃ after error, relay.pass platform poll = .leave (after, .failed error) ∧
      Moves platform relay poll true after) ∨
    ∃ after hadOutput brokenPipe,
      relay.pass platform poll = after.waitClient poll.process hadOutput brokenPipe poll.tick ∧
        Pumped platform relay poll after hadOutput brokenPipe := by
  rcases relay.noteSignal_eq poll.signal with ⟨signaled, noted, terminated⟩
  have pumped := pumpOutput_spec { relay with signaledTermination := signaled } poll
  have taken : inputTaken platform relay poll =
      if relay.pumps poll then poll.input.taken platform else [] := rfl
  simp only [pumps, noted] at taken
  simp only [pass, noted]
  cases output : pumpOutput { relay with signaledTermination := signaled } poll with
  | error failed =>
      rw [output] at pumped taken
      rcases pumped with ⟨part, front, same⟩
      simp only [Bool.and_false, Bool.false_eq_true, if_false] at taken
      refine .inl ⟨failed.1, failed.2, rfl, ?_, ?_, ?_⟩
      · exact ⟨part, front, by simp, by rw [same]⟩
      · simp [taken, same]
      · simp [taken, same]
  | ok result =>
      rcases result with ⟨middle, hadOutput, brokenPipe⟩
      rw [output] at pumped taken
      rcases pumped with ⟨rfl, silent, broken⟩
      have same : inputClosed { relay with
            signaledTermination := signaled
            hostOutput := relay.hostOutput ++ poll.outputTaken } =
          inputClosed { relay with signaledTermination := signaled } := rfl
      cases shut : inputClosed { relay with signaledTermination := signaled } with
      | true =>
          have nothing : inputTaken platform relay poll = [] := by
            rw [taken, shut]
            rfl
          simp only [same, shut, if_true]
          refine .inr ⟨_, hadOutput, brokenPipe, rfl, ?_, fun _ => same.trans shut, rfl, silent,
            broken⟩
          exact ⟨⟨_, List.prefix_refl _, fun _ => rfl, rfl⟩, by simp [nothing], by simp [nothing]⟩
      | false =>
          rw [shut] at taken
          simp only [Bool.not_false, Bool.and_self, if_true] at taken
          have opened : relay.inputClosed = false := by
            simp only [inputClosed, Bool.or_eq_false_iff] at shut ⊢
            refine ⟨⟨shut.1.1, ?_⟩, shut.2⟩
            rw [← Bool.not_eq_true]
            intro already
            rw [terminated already] at shut
            cases shut.1.2
          have fed := pumpInput_pumps platform { relay with
            signaledTermination := signaled
            hostOutput := relay.hostOutput ++ poll.outputTaken } poll.input
          simp only [same, shut, Bool.false_eq_true, if_false]
          split
          · rename_i after error result
            rw [result] at fed
            rcases fed with ⟨part, front, takes⟩
            refine .inl ⟨after, error, rfl, ?_, ?_, ?_⟩
            · exact ⟨_, List.prefix_refl _, fun _ => rfl, takes.hostOutput⟩
            · exact ⟨part, by rwa [taken], by simp, takes.ptyInput⟩
            · rw [takes.sizes, taken]
          · rename_i after result
            rw [result] at fed
            refine .inr ⟨after, hadOutput, brokenPipe, rfl, ⟨?_, ?_, ?_⟩, by simp [opened], ?_,
              silent, broken⟩
            · exact ⟨_, List.prefix_refl _, fun _ => rfl, fed.hostOutput⟩
            · exact ⟨_, List.prefix_refl _, fun _ => rfl, by rw [fed.ptyInput, taken]⟩
            · rw [fed.sizes, taken]
            · exact fed.clock

/-- A pass relays what it takes and goes on, or it leaves the loop: after the client, with the pipe
broken or silent, or where a call fails. -/
inductive Passes (platform : Platform) (relay : PtyRelay) (poll : RelayPoll) :
    Pass PtyRelay (PtyRelay × RelayEnding) → Prop where
  | goes {after : PtyRelay} (moves : Moves platform relay poll false after)
      (closed : relay.inputClosed = true → after.inputClosed = true) :
      Passes platform relay poll (.next after)
  | broken {after : PtyRelay} (moves : Moves platform relay poll false after)
      (exited : after.processExited = true) (reports : ReportsBroken poll) :
      Passes platform relay poll (.leave (after, .broken))
  | drained {after : PtyRelay} (moves : Moves platform relay poll false after)
      (exited : after.processExited = true) : Passes platform relay poll (.leave (after, .drained))
  | fails {after : PtyRelay} {error : TerminalError}
      (moves : Moves platform relay poll true after) :
      Passes platform relay poll (.leave (after, .failed error))

/-- The end of a pass, with both sides pumped. -/
theorem drain_passes {after : PtyRelay} {hadOutput brokenPipe : Bool} {tick : UInt64}
    (moves : Moves platform relay poll false after)
    (closed : relay.inputClosed = true → after.inputClosed = true)
    (broken : brokenPipe = true → ReportsBroken poll) :
    Passes platform relay poll (after.drain hadOutput brokenPipe tick) := by
  rcases after.drain_cases hadOutput brokenPipe tick with
    ⟨draining, start, goes⟩ | ⟨exited, gone, leaves⟩ | ⟨exited, nothing, leaves⟩
  · rw [goes]
    exact .goes ⟨moves.shown, moves.fed, moves.sizes⟩ closed
  · rw [leaves]
    exact .broken moves exited (broken gone)
  · rw [leaves]
    exact .drained moves exited

theorem pass_passes (platform : Platform) (relay : PtyRelay) (poll : RelayPoll) :
    Passes platform relay poll (relay.pass platform poll) := by
  rcases pass_cases platform relay poll with
    ⟨after, error, left, moves⟩ | ⟨after, hadOutput, brokenPipe, came, pumped⟩
  · rw [left]
    exact .fails moves
  · rw [came]
    rcases pumped with ⟨moves, closed, -, -, broken⟩
    cases poll.process with
    | failed error =>
        rcases moves with ⟨⟨part, front, -, shown⟩, ⟨fed, fedFront, -, given⟩, sizes⟩
        exact .fails ⟨⟨part, front, by simp, shown⟩, ⟨fed, fedFront, by simp, given⟩, sizes⟩
    | timeout => exact drain_passes moves closed broken.mp
    | signaled =>
        apply drain_passes
        · exact ⟨moves.shown, moves.fed, moves.sizes⟩
        · exact fun _ => rfl
        · exact broken.mp

end PtyRelay

/-- The relay, and the two sides it reads from. -/
structure RelaySession where
  relay : PtyRelay
  /-- The output of the pseudo console. -/
  output : Pipe Byte := .empty
  /-- The input of the host. -/
  input : Pipe HostItem := .empty
  ending : Option RelayEnding := none

inductive RelayEvent where
  | write (bytes : List Byte)
  | closeOutput
  | type (items : List HostItem)
  | closeInput
  | poll (poll : RelayPoll)

/-- The calls for the input are answered by what there is. -/
def HostRead.fits (platform : Platform) (input : Pipe HostItem) : HostRead → Bool
  | .console (.ok reads) =>
      ((ConsoleRead.taken platform reads).map HostItem.event).isPrefixOf input.unread
  | .pipe peek read _ =>
      input.answers Win32.errorBrokenPipe 4096 peek (read.map fun bytes => bytes.map .byte)
  | _ => true

namespace RelaySession

variable (platform : Platform) (session : RelaySession)

/-- The calls of a pass are answered by the two sides. -/
def fits (poll : RelayPoll) : Bool :=
  session.output.answers Win32.errorBrokenPipe 8192 poll.peek poll.read &&
    poll.input.fits platform session.input

/-- A pass is over, and the loop with it if there is an ending. -/
def advance (poll : RelayPoll) (relay : PtyRelay) (ending : Option RelayEnding) : RelaySession where
  relay := relay
  output := session.output.take poll.outputTaken.length
  input := session.input.take (PtyRelay.inputTaken platform session.relay poll).length
  ending := ending

def step : RelayEvent → Option RelaySession
  | .write bytes =>
      if session.output.writerGone then none
      else some { session with output := session.output.write bytes }
  | .closeOutput => some { session with output := session.output.closeWriter }
  | .type items =>
      if session.input.writerGone then none
      else some { session with input := session.input.write items }
  | .closeInput => some { session with input := session.input.closeWriter }
  | .poll poll =>
      if session.ending.isSome || !session.fits platform poll then none
      else
        match session.relay.pass platform poll with
        | .next relay => some (session.advance platform poll relay none)
        | .leave (relay, ending) => some (session.advance platform poll relay (some ending))

/-- A call has failed. -/
def Failed : Prop := ∃ error, session.ending = some (.failed error)

variable {platform} {session next : RelaySession}

theorem outputTaken_front {poll : RelayPoll} (fits : session.fits platform poll = true) :
    poll.outputTaken <+: session.output.unread := by
  simp only [RelaySession.fits, Bool.and_eq_true] at fits
  simp only [RelayPoll.outputTaken]
  split
  · rename_i available bytes peek read
    rw [peek, read] at fits
    exact (List.take_prefix _ _).trans (Pipe.front_of_read fits.1)
  · exact List.nil_prefix

theorem inputTaken_front {poll : RelayPoll} (fits : session.fits platform poll = true) :
    PtyRelay.inputTaken platform session.relay poll <+: session.input.unread := by
  simp only [RelaySession.fits, Bool.and_eq_true] at fits
  rw [PtyRelay.inputTaken]
  split
  · have front := fits.2
    generalize poll.input = input at front ⊢
    cases input with
    | console reads =>
        cases reads with
        | error error => exact List.nil_prefix
        | ok reads => exact List.isPrefixOf_iff_prefix.mp front
    | pipe peek read writes =>
        cases peek with
        | error error => exact List.nil_prefix
        | ok available =>
            cases read with
            | error error => exact List.nil_prefix
            | ok bytes =>
                have answers : session.input.answers Win32.errorBrokenPipe 4096 (.ok available)
                    (.ok (bytes.map .byte)) = true := front
                rw [HostRead.taken, List.map_take]
                exact (List.take_prefix _ _).trans (Pipe.front_of_read answers)
    | other => exact List.nil_prefix
  · exact List.nil_prefix

theorem broken_of_reports {poll : RelayPoll} (fits : session.fits platform poll = true)
    (reports : PtyRelay.ReportsBroken poll) :
    session.output.unread = [] ∧ session.output.writerGone = true := by
  simp only [RelaySession.fits, Bool.and_eq_true] at fits
  rcases reports with peek | ⟨⟨left, peek⟩, read⟩
  · rw [peek] at fits
    exact Pipe.broken_of_peek fits.1 rfl
  · rw [peek, read] at fits
    rcases fits with ⟨answers, -⟩
    exact Pipe.broken_of_read answers rfl

/-- What holds throughout a session that began with a greeting. -/
structure Relays (platform : Platform) (greeting : List Byte) (session : RelaySession) : Prop where
  shown : ∃ part, part <+: session.output.received ∧
    (¬session.Failed → part = session.output.received) ∧
    session.relay.hostOutput = greeting ++ part
  fed : ∃ part, part <+: session.input.received.flatMap (HostItem.forwarded platform) ∧
    (¬session.Failed → part = session.input.received.flatMap (HostItem.forwarded platform)) ∧
    session.relay.ptyInput = part
  sizes : session.relay.sizes = session.input.received.filterMap HostItem.size
  exited : ∀ ending, session.ending = some ending →
    session.relay.processExited = true ∨ session.Failed
  broken : session.ending = some .broken →
    session.output.unread = [] ∧ session.output.writerGone = true

namespace Relays

variable {greeting : List Byte}

/-- What a pass adds to what has been relayed. -/
theorem advance (relays : Relays platform greeting session) (running : session.ending = none)
    {poll : RelayPoll} (fits : session.fits platform poll = true) {relay : PtyRelay}
    {ending : Option RelayEnding} {failed : Bool}
    (fails : failed = true → (session.advance platform poll relay ending).Failed)
    (moves : PtyRelay.Moves platform session.relay poll failed relay)
    (exited : ∀ reason, ending = some reason → relay.processExited = true ∨
      (session.advance platform poll relay ending).Failed)
    (broken : ending = some .broken →
      session.output.unread = [] ∧ session.output.writerGone = true) :
    Relays platform greeting (session.advance platform poll relay ending) := by
  have sound : ¬session.Failed := by
    rintro ⟨error, same⟩
    rw [running] at same
    cases same
  have received : (session.advance platform poll relay ending).output.received =
      session.output.received ++ poll.outputTaken :=
    Pipe.received_take (outputTaken_front fits)
  have taken : (session.advance platform poll relay ending).input.received =
      session.input.received ++ PtyRelay.inputTaken platform session.relay poll :=
    Pipe.received_take (inputTaken_front fits)
  have succeeds : ¬(session.advance platform poll relay ending).Failed → failed = false := by
    intro sound
    rw [← Bool.not_eq_true]
    exact fun same => sound (fails same)
  constructor
  · rcases relays.shown with ⟨before, -, whole, shown⟩
    rcases moves.shown with ⟨part, front, all, more⟩
    refine ⟨session.output.received ++ part, ?_, ?_, ?_⟩
    · rw [received]
      exact (List.prefix_append_right_inj _).mpr front
    · intro sound
      rw [received, all (succeeds sound)]
    · change relay.hostOutput = _
      rw [more, shown, whole sound, List.append_assoc]
  · rcases relays.fed with ⟨before, -, whole, fed⟩
    rcases moves.fed with ⟨part, front, all, more⟩
    refine ⟨session.input.received.flatMap (HostItem.forwarded platform) ++ part, ?_, ?_, ?_⟩
    · rw [taken, List.flatMap_append]
      exact (List.prefix_append_right_inj _).mpr front
    · intro sound
      rw [taken, List.flatMap_append, all (succeeds sound)]
    · change relay.ptyInput = _
      rw [more, fed, whole sound]
  · change relay.sizes = _
    rw [moves.sizes, relays.sizes, taken, List.filterMap_append]
  · exact exited
  · intro reason
    rcases broken reason with ⟨nothing, gone⟩
    refine ⟨?_, gone⟩
    change session.output.unread.drop _ = []
    rw [nothing, List.drop_nil]

theorem step (relays : Relays platform greeting session) {event : RelayEvent}
    (steps : session.step platform event = some next) : Relays platform greeting next := by
  cases event with
  | write bytes =>
      simp only [RelaySession.step] at steps
      split at steps
      · cases steps
      · rename_i present
        cases steps
        exact ⟨relays.shown, relays.fed, relays.sizes, relays.exited,
          fun ended => absurd (relays.broken ended).2 present⟩
  | closeOutput =>
      cases steps
      exact ⟨relays.shown, relays.fed, relays.sizes, relays.exited,
        fun ended => ⟨(relays.broken ended).1, rfl⟩⟩
  | type items =>
      simp only [RelaySession.step] at steps
      split at steps
      · cases steps
      · cases steps
        exact ⟨relays.shown, relays.fed, relays.sizes, relays.exited, relays.broken⟩
  | closeInput =>
      cases steps
      exact ⟨relays.shown, relays.fed, relays.sizes, relays.exited, relays.broken⟩
  | poll poll =>
      simp only [RelaySession.step] at steps
      split at steps
      · cases steps
      · rename_i goes
        simp only [Bool.or_eq_true, Bool.not_eq_true', not_or, Bool.not_eq_true,
          Bool.not_eq_false, Option.isSome_eq_false_iff, Option.isNone_iff_eq_none] at goes
        rcases goes with ⟨running, fits⟩
        have passes := PtyRelay.pass_passes platform session.relay poll
        generalize session.relay.pass platform poll = result at passes steps
        cases passes with
        | goes moves =>
            cases steps
            exact relays.advance running fits (by simp) moves (by simp) (by simp)
        | broken moves exited reports =>
            cases steps
            exact relays.advance running fits (by simp) moves (fun _ _ => .inl exited)
              fun _ => broken_of_reports fits reports
        | drained moves exited =>
            cases steps
            exact relays.advance running fits (by simp) moves (fun _ _ => .inl exited) (by simp)
        | fails moves =>
            cases steps
            exact relays.advance running fits (fun _ => ⟨_, rfl⟩) moves (fun _ _ => .inr ⟨_, rfl⟩)
              (by simp)

end Relays

/-- A session that begins after the handshake. -/
def start (relay : PtyRelay) : RelaySession where
  relay := relay

/-- The bytes of the handshake. -/
def greeting (hasOutput inheritCursor : Bool) : List Byte :=
  if !hasOutput then []
  else (if inheritCursor then PtyRelay.requestCursor else []) ++ PtyRelay.handshake

theorem greeted {hasOutput inheritCursor : Bool} {cursorCalls calls : List (Except UInt32 Nat)}
    {relay : PtyRelay} (sent : ({} : PtyRelay).sendInitialTerminalHandshake hasOutput inheritCursor
      cursorCalls calls = .ok relay) :
    relay = { hostOutput := greeting hasOutput inheritCursor } := by
  cases hasOutput with
  | false =>
      cases sent
      rfl
  | true =>
      cases inheritCursor with
      | false => exact PtyRelay.writeOutput_eq_ok sent
      | true =>
          cases asked : ({} : PtyRelay).writeOutput cursorCalls PtyRelay.requestCursor with
          | error failed =>
              simp only [PtyRelay.sendInitialTerminalHandshake, asked] at sent
              cases sent
          | ok middle =>
              simp only [PtyRelay.sendInitialTerminalHandshake, asked] at sent
              have wrote := PtyRelay.writeOutput_eq_ok sent
              rwa [PtyRelay.writeOutput_eq_ok asked] at wrote

theorem relays_start (platform : Platform) (bytes : List Byte) :
    Relays platform bytes (start { hostOutput := bytes }) :=
  ⟨⟨[], by simp [start], by simp [start, Pipe.empty], by simp [start]⟩,
    ⟨[], by simp [start], by simp [start, Pipe.empty], rfl⟩, rfl, by simp [start], by simp [start]⟩

/-- In every order of what the two sides do, the host is shown the handshake and then what the
pseudo console wrote, and the pseudo console is given what the host typed, each in order and without
a gap; nothing that was read is withheld unless a call failed. The relay ends without a failure only
after its client, and if the pipe is broken by then everything has been shown. -/
theorem run_relays (platform : Platform) {hasOutput inheritCursor : Bool}
    {cursorCalls calls : List (Except UInt32 Nat)} {relay : PtyRelay}
    (sent : ({} : PtyRelay).sendInitialTerminalHandshake hasOutput inheritCursor cursorCalls calls =
      .ok relay) {session : RelaySession}
    (run : Run (step platform) (fun _ _ => True) (start relay) session) :
    let shown := greeting hasOutput inheritCursor ++ session.output.received
    let given := session.input.received.flatMap (HostItem.forwarded platform)
    (∃ part, part <+: session.output.received ∧
      session.relay.hostOutput = greeting hasOutput inheritCursor ++ part) ∧
      session.relay.ptyInput <+: given ∧
      session.relay.sizes = session.input.received.filterMap HostItem.size ∧
      (¬session.Failed → session.relay.hostOutput = shown ∧ session.relay.ptyInput = given) ∧
      (∀ ending, session.ending = some ending →
        session.relay.processExited = true ∨ session.Failed) ∧
      (session.ending = some .broken → session.relay.hostOutput =
        greeting hasOutput inheritCursor ++ session.output.written) := by
  have begun := greeted sent
  subst begun
  have relays : Relays platform (greeting hasOutput inheritCursor) session := by
    apply run.invariant (relays_start platform _)
    intro state event next relays _ steps
    exact relays.step steps
  rcases relays.shown with ⟨shown, shownFront, shownAll, shownSame⟩
  rcases relays.fed with ⟨fed, fedFront, fedAll, fedSame⟩
  refine ⟨⟨shown, shownFront, shownSame⟩, ?_, relays.sizes, ?_, relays.exited, ?_⟩
  · rwa [fedSame]
  · intro sound
    rw [shownSame, fedSame, shownAll sound, fedAll sound]
    exact ⟨rfl, rfl⟩
  · intro broken
    have sound : ¬session.Failed := by
      rintro ⟨error, failed⟩
      rw [broken] at failed
      cases failed
    rw [shownSame, shownAll sound, Pipe.received_eq_written (relays.broken broken).1]

/-- Each side writes a byte after the handshake and before the client exits. -/
theorem run_relays_bytes :
    ∃ relay session, ({} : PtyRelay).sendInitialTerminalHandshake true true [.ok 1] [] =
        .ok relay ∧ Run (step .utf8) (fun _ _ => True) (start relay) session ∧
      session.ending = some .broken ∧ session.output.written = [0x41] ∧
        session.relay.hostOutput = PtyRelay.requestCursor ++ PtyRelay.handshake ++ [0x41] ∧
        session.relay.ptyInput = [0x42] := by
  let first : RelayPoll :=
    { peek := .ok 1, read := .ok [0x41], input := .pipe (.ok 1) (.ok [0x42]) [] }
  let last : RelayPoll := { peek := .error Win32.errorBrokenPipe, process := .signaled }
  let relay : PtyRelay := { hostOutput := PtyRelay.requestCursor ++ PtyRelay.handshake }
  have ends : ∃ session, Run.after (step .utf8) (start relay)
      [.write [0x41], .type [.byte 0x42], .poll first, .closeOutput, .poll last] = some session ∧
        session.ending = some .broken ∧ session.output.written = [0x41] ∧
        session.input.received = [.byte 0x42] := ⟨_, rfl, rfl, rfl, rfl⟩
  rcases ends with ⟨session, went, broken, written, typed⟩
  have run := Run.of_after_true went
  have sent : ({} : PtyRelay).sendInitialTerminalHandshake true true [.ok 1] [] = .ok relay := rfl
  have sound : ¬session.Failed := by
    rintro ⟨error, failed⟩
    rw [broken] at failed
    cases failed
  rcases run_relays .utf8 sent run with ⟨-, -, -, whole, -, shown⟩
  refine ⟨relay, session, sent, run, broken, written, ?_, ?_⟩
  · rw [shown broken, written]
    rfl
  · rw [(whole sound).2, typed]
    rfl

theorem inputTaken_of_closed (closed : session.relay.inputClosed = true) (poll : RelayPoll) :
    PtyRelay.inputTaken platform session.relay poll = [] := by
  have noted : (session.relay.noteSignal poll.signal).inputClosed = true := by
    rcases session.relay.noteSignal_eq poll.signal with ⟨signaled, same, terminated⟩
    rw [same]
    simp only [PtyRelay.inputClosed, Bool.or_eq_true] at closed ⊢
    rcases closed with (exited | already) | eof
    · exact .inl (.inl exited)
    · exact .inl (.inr (terminated already))
    · exact .inr eof
  rw [PtyRelay.inputTaken, PtyRelay.pumps, noted]
  rfl

/-- No input has been taken since some earlier state, and none will be. -/
structure Shut (before session : RelaySession) : Prop where
  received : session.input.received = before.input.received
  ptyInput : session.relay.ptyInput = before.relay.ptyInput
  sizes : session.relay.sizes = before.relay.sizes
  closed : session.ending = none → session.relay.inputClosed = true

theorem Shut.advance {before : RelaySession} (shut : Shut before session)
    (running : session.ending = none) {poll : RelayPoll} {relay : PtyRelay} {failed : Bool}
    (moves : PtyRelay.Moves platform session.relay poll failed relay)
    {ending : Option RelayEnding} (closed : ending = none → relay.inputClosed = true) :
    Shut before (session.advance platform poll relay ending) := by
  have nothing : PtyRelay.inputTaken platform session.relay poll = [] :=
    inputTaken_of_closed (shut.closed running) poll
  constructor
  · rw [RelaySession.advance, nothing]
    exact (congrArg Pipe.received (Pipe.take_zero _)).trans shut.received
  · rcases moves.fed with ⟨part, front, -, same⟩
    rw [nothing] at front
    rw [List.prefix_nil.mp front, List.append_nil] at same
    exact same.trans shut.ptyInput
  · have same := moves.sizes
    rw [nothing, List.filterMap_nil, List.append_nil] at same
    exact same.trans shut.sizes
  · exact closed

theorem Shut.step {before : RelaySession} (shut : Shut before session) {event : RelayEvent}
    (steps : session.step platform event = some next) : Shut before next := by
  cases event with
  | write bytes =>
      simp only [RelaySession.step, Option.ite_none_left_eq_some] at steps
      rcases steps with ⟨-, same⟩
      cases same
      exact ⟨shut.received, shut.ptyInput, shut.sizes, shut.closed⟩
  | type items =>
      simp only [RelaySession.step, Option.ite_none_left_eq_some] at steps
      rcases steps with ⟨-, same⟩
      cases same
      exact ⟨shut.received, shut.ptyInput, shut.sizes, shut.closed⟩
  | closeOutput | closeInput =>
      cases steps
      exact ⟨shut.received, shut.ptyInput, shut.sizes, shut.closed⟩
  | poll poll =>
      simp only [RelaySession.step] at steps
      split at steps
      · cases steps
      · rename_i goes
        simp only [Bool.or_eq_true, not_or, Bool.not_eq_true, Option.isSome_eq_false_iff,
          Option.isNone_iff_eq_none] at goes
        have passes := PtyRelay.pass_passes platform session.relay poll
        generalize session.relay.pass platform poll = result at passes steps
        cases passes with
        | goes moves closed =>
            cases steps
            exact shut.advance goes.1 moves fun _ => closed (shut.closed goes.1)
        | broken moves | drained moves | fails moves =>
            cases steps
            exact shut.advance goes.1 moves (by simp)

/-- Once its client has exited or has been terminated, or the input of the host has ended, the relay
takes nothing from the host any more, in whatever order things happen. -/
theorem run_closed (platform : Platform) {session later : RelaySession}
    (closed : session.relay.inputClosed = true)
    (run : Run (step platform) (fun _ _ => True) session later) :
    later.input.received = session.input.received ∧
      later.relay.ptyInput = session.relay.ptyInput ∧ later.relay.sizes = session.relay.sizes := by
  have shut : Shut session later := by
    refine run.invariant (?_ : Shut session session) ?_
    · exact ⟨rfl, rfl, rfl, fun _ => closed⟩
    · intro state event next shut _ steps
      exact shut.step steps
  exact ⟨shut.received, shut.ptyInput, shut.sizes⟩

/-- The host types on after a signal has terminated the client. -/
theorem run_closed_signal :
    ∃ later, Run (step .utf8) (fun _ _ => True) (start { signaledTermination := true }) later ∧
      later.input.written = [.byte 0x42] ∧ later.relay.ptyInput = [] := by
  let poll : RelayPoll :=
    { peek := .ok 0, input := .pipe (.ok 1) (.ok [0x42]) [] }
  have ends : ∃ later, Run.after (step .utf8) (start { signaledTermination := true })
      [.type [.byte 0x42], .poll poll] = some later ∧ later.input.written = [.byte 0x42] :=
    ⟨_, rfl, rfl⟩
  rcases ends with ⟨later, went, written⟩
  have run := Run.of_after_true went
  exact ⟨later, run, written, (run_closed .utf8 rfl run).2.1⟩

end RelaySession

end Conhost
