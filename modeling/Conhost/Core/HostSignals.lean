import Conhost.Lib.Loop
import Conhost.Server.Message

/-!
# The host-signal pipe

A delegated host sends packets over a pipe: a code, then a payload that begins
with its own size. `HostSignalInputThread` polls the pipe, reads packet after
packet and calls its target; bytes that a payload declares beyond the fields
known here are read and dropped.
-/

namespace Conhost

namespace HostSignals

/-- What one turn of the loop in `read_exact` meets. -/
inductive Poll where
  /-- The stop event is set. -/
  | stop
  /-- `PeekNamedPipe` reports no bytes. -/
  | idle
  /-- `PeekNamedPipe` or `ReadFile` fails. -/
  | fails (error : UInt32)
  /-- At most `available + 1` bytes are reported, and `ReadFile` returns at most `advanced + 1`. -/
  | ready (available advanced : Nat)
deriving DecidableEq

/-- The read end of the pipe: what the writer has sent and the reader has not read, and the polls
to come. After the last of these the writer has closed its end and everything is available. -/
structure Pipe where
  unread : List Byte
  polls : List Poll
deriving DecidableEq

def errorBadLength : UInt32 := 24
def errorBrokenPipe : UInt32 := 109
def errorOperationAborted : UInt32 := 995
def errorCancelled : UInt32 := 1223

/-- `read_exact` -/
def readExact : (unread : List Byte) → (count : Nat) → (polls : List Poll) →
    Pipe × Except UInt32 (List Byte)
  | unread, 0, polls => (⟨unread, polls⟩, .ok [])
  | unread, count + 1, [] =>
      -- All that is left is read in one turn; the next poll finds the pipe broken.
      if unread.length < count + 1 then (⟨[], []⟩, .error errorBrokenPipe)
      else (⟨unread.drop (count + 1), []⟩, .ok (unread.take (count + 1)))
  | unread, _ + 1, .stop :: polls => (⟨unread, polls⟩, .error errorOperationAborted)
  | unread, count + 1, .idle :: polls => readExact unread (count + 1) polls
  | unread, _ + 1, .fails error :: polls => (⟨unread, polls⟩, .error error)
  | unread, count + 1, .ready available advanced :: polls =>
      let toRead := min (min (available + 1) unread.length) (count + 1)
      let read := min toRead (advanced + 1)
      match readExact (unread.drop read) (count + 1 - read) polls with
      | (pipe, .ok rest) => (pipe, .ok (unread.take read ++ rest))
      | failed => failed

def Pipe.read (pipe : Pipe) (count : Nat) : Pipe × Except UInt32 (List Byte) :=
  readExact pipe.unread count pipe.polls

/-- `discard_exact`, through a buffer of 256 bytes. -/
def discardLoop : Loop (Pipe × Nat) (Pipe × Except UInt32 Unit) where
  body state :=
    if state.2 = 0 then .leave (state.1, .ok ())
    else
      match state.1.read (min state.2 256) with
      | (pipe, .error error) => .leave (pipe, .error error)
      | (pipe, .ok _) => .next (pipe, state.2 - min state.2 256)
  measure state := state.2
  decreases := by
    intro state next pass
    split at pass
    · cases pass
    · split at pass
      · cases pass
      · cases pass
        simp only
        omega

structure NotifyAppData where
  sizeInBytes : UInt32
  processId : UInt32
deriving DecidableEq

structure SetForegroundData where
  sizeInBytes : UInt32
  processId : UInt32
  isForeground : Bool
deriving DecidableEq

structure EndTaskData where
  sizeInBytes : UInt32
  processId : UInt32
  eventType : UInt32
  ctrlFlags : UInt32
deriving DecidableEq

/-- The `std::uint32_t` at an offset of a structure in memory. -/
def dwordAt (bytes : List Byte) (offset : Nat) : UInt32 :=
  let byte (index : Nat) : Nat := (bytes.getD (offset + index) 0).toNat
  UInt32.ofNat (byte 0 + 256 * byte 1 + 65536 * byte 2 + 16777216 * byte 3)

/-- The layout of a payload structure: its `sizeof` and its fields. -/
structure Layout (T : Type) where
  size : Nat
  fields : List Byte → T

def notifyApp : Layout NotifyAppData where
  size := 8
  fields bytes := ⟨dwordAt bytes 0, dwordAt bytes 4⟩

def setForeground : Layout SetForegroundData where
  size := 12
  fields bytes := ⟨dwordAt bytes 0, dwordAt bytes 4, bytes.getD 8 0 != 0⟩

def endTask : Layout EndTaskData where
  size := 16
  fields bytes := ⟨dwordAt bytes 0, dwordAt bytes 4, dwordAt bytes 8, dwordAt bytes 12⟩

/-- `receive_typed_packet`; every payload begins with `sizeInBytes`. -/
def receiveTypedPacket {T : Type} (layout : Layout T) (pipe : Pipe) : Pipe × Except UInt32 T :=
  match pipe.read layout.size with
  | (pipe, .error error) => (pipe, .error error)
  | (pipe, .ok payload) =>
      let sizeInBytes := (dwordAt payload 0).toNat
      if sizeInBytes < layout.size then (pipe, .error errorBadLength)
      else
        match discardLoop.run (pipe, sizeInBytes - layout.size) with
        | (pipe, .error error) => (pipe, .error error)
        | (pipe, .ok ()) => (pipe, .ok (layout.fields payload))

/-- The calls of `HostSignalTarget`. -/
inductive TargetCall where
  | notifyConsoleApplication (processId : UInt32)
  | setForeground (processHandleValue : UInt32) (isForeground : Bool)
  | endTask (processId eventType ctrlFlags : UInt32)
  | signalPipeDisconnected
deriving DecidableEq

/-- The state of the thread: the pipe and the calls made so far. -/
structure ThreadState where
  pipe : Pipe
  calls : List TargetCall := []
deriving DecidableEq

/-- The end of the thread after a failed read; a cancelled read is not reported to the target. -/
def ThreadState.fail (state : ThreadState) (pipe : Pipe) (error : UInt32) : ThreadState :=
  if error = errorOperationAborted ∨ error = errorCancelled then { state with pipe := pipe }
  else ⟨pipe, state.calls ++ [.signalPipeDisconnected]⟩

/-- A case of the switch: the payload is received and passed to the target. -/
def receive {T : Type} (layout : Layout T) (call : T → TargetCall) (state : ThreadState)
    (pipe : Pipe) : Pass ThreadState ThreadState :=
  match receiveTypedPacket layout pipe with
  | (pipe, .error error) => .leave (state.fail pipe error)
  | (pipe, .ok payload) => .next ⟨pipe, state.calls ++ [call payload]⟩

/-- The switch over the code of a packet. -/
def dispatch (state : ThreadState) (pipe : Pipe) (code : Byte) : Pass ThreadState ThreadState :=
  match code.toNat with
  | 1 => receive notifyApp (fun data => .notifyConsoleApplication data.processId) state pipe
  | 5 =>
      receive setForeground (fun data => .setForeground data.processId data.isForeground) state pipe
  | 7 =>
      receive endTask (fun data => .endTask data.processId data.eventType data.ctrlFlags) state pipe
  | _ => .leave ⟨pipe, state.calls ++ [.signalPipeDisconnected]⟩

/-- The body of the loop of `thread_proc`. -/
def threadBody (state : ThreadState) : Pass ThreadState ThreadState :=
  match state.pipe.read 1 with
  | (pipe, .error error) => .leave (state.fail pipe error)
  | (pipe, .ok code) => dispatch state pipe (code.getD 0 0)

/-- A read takes bytes off the front of the pipe, as many as it asks for unless it fails. -/
theorem readExact_suffix (polls : List Poll) (unread : List Byte) (count : Nat) :
    (readExact unread count polls).1.unread <:+ unread ∧
      ∀ data, (readExact unread count polls).2 = .ok data →
        data ++ (readExact unread count polls).1.unread = unread ∧ data.length = count := by
  induction polls generalizing unread count with
  | nil =>
      cases count with
      | zero => simp [readExact]
      | succ count =>
          rw [readExact]
          split
          · simp
          · rename_i enough
            refine ⟨List.drop_suffix _ _, ?_⟩
            rintro data ⟨⟩
            exact ⟨List.take_append_drop _ _, by rw [List.length_take]; omega⟩
  | cons poll polls ih =>
      cases count with
      | zero => simp [readExact]
      | succ count =>
          cases poll with
          | stop => simp [readExact]
          | fails error => simp [readExact]
          | idle => exact ih unread (count + 1)
          | ready available advanced =>
              rw [readExact]
              generalize taken : min (min (min (available + 1) unread.length) (count + 1))
                (advanced + 1) = read
              obtain ⟨suffix, exact'⟩ := ih (unread.drop read) (count + 1 - read)
              split
              · rename_i pipe rest found
                rw [found] at suffix exact'
                obtain ⟨whole, length⟩ := exact' rest rfl
                refine ⟨suffix.trans (List.drop_suffix _ _), ?_⟩
                rintro data ⟨⟩
                refine ⟨by rw [List.append_assoc, whole, List.take_append_drop], ?_⟩
                rw [List.length_append, length, List.length_take]
                omega
              · rename_i failed
                refine ⟨suffix.trans (List.drop_suffix _ _), ?_⟩
                intro data found
                exact (failed _ data (Prod.ext rfl found)).elim

theorem Pipe.read_suffix (pipe : Pipe) (count : Nat) :
    (pipe.read count).1.unread <:+ pipe.unread :=
  (readExact_suffix pipe.polls pipe.unread count).1

theorem Pipe.read_ok {pipe rest : Pipe} {count : Nat} {data : List Byte}
    (found : pipe.read count = (rest, .ok data)) :
    data ++ rest.unread = pipe.unread ∧ data.length = count := by
  have exact' := (readExact_suffix pipe.polls pipe.unread count).2 data
  rw [← Pipe.read, found] at exact'
  exact exact' rfl

theorem discardLoop_suffix (pipe : Pipe) (count : Nat) :
    (discardLoop.run (pipe, count)).1.unread <:+ pipe.unread := by
  let Holds (state : Pipe × Nat) (result : Pipe × Except UInt32 Unit) : Prop :=
    result.1.unread <:+ state.1.unread
  change Holds (pipe, count) _
  apply discardLoop.run_induction
  · intro state result pass
    simp only [discardLoop] at pass
    split at pass
    · cases pass
      exact List.suffix_rfl
    · split at pass
      · rename_i found
        cases pass
        have suffix := state.1.read_suffix (min state.2 256)
        rw [found] at suffix
        exact suffix
      · cases pass
  · intro state next result pass holds
    simp only [discardLoop] at pass
    split at pass
    · cases pass
    · split at pass
      · cases pass
      · rename_i found
        cases pass
        have suffix := state.1.read_suffix (min state.2 256)
        rw [found] at suffix
        exact holds.trans suffix

theorem receiveTypedPacket_suffix {T : Type} (layout : Layout T) (pipe : Pipe) :
    (receiveTypedPacket layout pipe).1.unread <:+ pipe.unread := by
  have suffix := pipe.read_suffix layout.size
  rw [receiveTypedPacket]
  split
  · rename_i found
    rw [found] at suffix
    exact suffix
  · rename_i rest payload found
    rw [found] at suffix
    dsimp only
    split
    · exact suffix
    · have suffix' := discardLoop_suffix rest ((dwordAt payload 0).toNat - layout.size)
      split
      · rename_i found'
        rw [found'] at suffix'
        exact suffix'.trans suffix
      · rename_i found'
        rw [found'] at suffix'
        exact suffix'.trans suffix

theorem receive_next {T : Type} {layout : Layout T} {call : T → TargetCall}
    {state next : ThreadState} {pipe : Pipe} (pass : receive layout call state pipe = .next next) :
    next.pipe.unread <:+ pipe.unread := by
  have suffix := receiveTypedPacket_suffix layout pipe
  rw [receive] at pass
  split at pass
  · cases pass
  · rename_i found
    cases pass
    rw [found] at suffix
    exact suffix

/-- The loop of `thread_proc`. -/
def threadLoop : Loop ThreadState ThreadState where
  body := threadBody
  measure state := state.pipe.unread.length
  decreases := by
    intro state next pass
    rw [threadBody] at pass
    split at pass
    · cases pass
    · rename_i pipe code found
      obtain ⟨whole, length⟩ := Pipe.read_ok found
      have size := congrArg List.length whole
      rw [List.length_append, length] at size
      rw [dispatch] at pass
      split at pass
      · have shorter := (receive_next pass).length_le
        omega
      · have shorter := (receive_next pass).length_le
        omega
      · have shorter := (receive_next pass).length_le
        omega
      · cases pass

/-- `thread_proc`: the calls of the target over the life of the thread. -/
def threadProc (pipe : Pipe) : ThreadState := threadLoop.run { pipe := pipe }

inductive HostSignal where
  | notifyApp (processId : UInt32)
  | setForeground (processId : UInt32) (isForeground : Bool)
  | endTask (processId eventType ctrlFlags : UInt32)
deriving DecidableEq

namespace HostSignal

/-- `HostSignals` -/
def code : HostSignal → Byte
  | .notifyApp _ => 1
  | .setForeground _ _ => 5
  | .endTask _ _ _ => 7

/-- The `sizeof` of the payload. -/
def size : HostSignal → Nat
  | .notifyApp _ => 8
  | .setForeground _ _ => 12
  | .endTask _ _ _ => 16

/-- The bytes of the payload behind `sizeInBytes`; three bytes of padding follow the `bool`. -/
def fieldBytes (padding : Vector Byte 3) : HostSignal → List Byte
  | .notifyApp processId => dwordBytes processId
  | .setForeground processId isForeground =>
      dwordBytes processId ++ (if isForeground then 1 else 0) :: padding.toList
  | .endTask processId eventType ctrlFlags =>
      dwordBytes processId ++ dwordBytes eventType ++ dwordBytes ctrlFlags

/-- The call a signal asks for. -/
def call : HostSignal → TargetCall
  | .notifyApp processId => .notifyConsoleApplication processId
  | .setForeground processId isForeground => .setForeground processId isForeground
  | .endTask processId eventType ctrlFlags => .endTask processId eventType ctrlFlags

end HostSignal

/-- A packet of the writer. A later version of the protocol may declare, and send, more bytes than
the structure has. -/
structure Packet where
  signal : HostSignal
  sizeInBytes : UInt32
  padding : Vector Byte 3
  extra : List Byte
  declared : sizeInBytes.toNat = signal.size + extra.length

def Packet.payload (packet : Packet) : List Byte :=
  dwordBytes packet.sizeInBytes ++ packet.signal.fieldBytes packet.padding

/-- `write_host_signal_packet`, and the bytes the declared size adds. -/
def Packet.bytes (packet : Packet) : List Byte :=
  packet.signal.code :: (packet.payload ++ packet.extra)

/-- Nothing stops the reader or fails before the end of the stream. -/
def Undisturbed (polls : List Poll) : Prop :=
  ∀ poll ∈ polls, poll = .idle ∨ ∃ available advanced, poll = .ready available advanced

theorem Undisturbed.tail {poll : Poll} {polls : List Poll} (calm : Undisturbed (poll :: polls)) :
    Undisturbed polls :=
  fun poll mem => calm poll (List.mem_cons_of_mem _ mem)

/-- Bytes that were sent are read, in however many turns. -/
theorem readExact_undisturbed {polls : List Poll} (calm : Undisturbed polls)
    (data rest : List Byte) : ∃ later, Undisturbed later ∧
      readExact (data ++ rest) data.length polls = (⟨rest, later⟩, .ok data) := by
  induction polls generalizing data with
  | nil =>
      refine ⟨[], calm, ?_⟩
      cases data with
      | nil => rfl
      | cons byte data =>
          rw [List.length_cons, readExact, if_neg (by simp), ← List.length_cons, List.drop_left,
            List.take_left]
  | cons poll polls ih =>
      cases data with
      | nil => exact ⟨poll :: polls, calm, rfl⟩
      | cons byte data =>
          rcases calm poll List.mem_cons_self with rfl | ⟨available, advanced, rfl⟩
          · exact ih calm.tail (byte :: data)
          · rw [List.length_cons, readExact, ← List.length_cons]
            generalize taken : min (min (min (available + 1) (byte :: data ++ rest).length)
              (byte :: data).length) (advanced + 1) = read
            have within : read ≤ (byte :: data).length := by omega
            obtain ⟨later, calm', found⟩ := ih calm.tail ((byte :: data).drop read)
            rw [List.length_drop] at found
            refine ⟨later, calm', ?_⟩
            rw [List.drop_append_of_le_length within, List.take_append_of_le_length within, found]
            simp only [List.take_append_drop]

theorem readExact_end {polls : List Poll} (calm : Undisturbed polls) (count : Nat) :
    readExact [] (count + 1) polls = (⟨[], []⟩, .error errorBrokenPipe) := by
  induction polls with
  | nil => rfl
  | cons poll polls ih =>
      rcases calm poll List.mem_cons_self with rfl | ⟨available, advanced, rfl⟩
      · exact ih calm.tail
      · rw [readExact]
        simp only [List.length_nil, Nat.min_zero, Nat.zero_min, List.drop_nil, Nat.sub_zero,
          ih calm.tail]

theorem discardLoop_undisturbed {polls : List Poll} (calm : Undisturbed polls)
    (extra rest : List Byte) : ∃ later, Undisturbed later ∧
      discardLoop.run (⟨extra ++ rest, polls⟩, extra.length) = (⟨rest, later⟩, .ok ()) := by
  induction size : extra.length using Nat.strong_induction_on generalizing extra polls with
  | _ size' ih =>
      subst size
      by_cases empty : extra = []
      · subst empty
        exact ⟨polls, calm, discardLoop.run_of_leave rfl⟩
      · have positive := List.length_pos_of_ne_nil empty
        have short : (extra.take 256).length = min extra.length 256 := by
          rw [List.length_take, Nat.min_comm]
        obtain ⟨later, calm', found⟩ :=
          readExact_undisturbed calm (extra.take 256) (extra.drop 256 ++ rest)
        rw [← List.append_assoc, List.take_append_drop, short] at found
        have left : extra.length - min extra.length 256 = (extra.drop 256).length := by
          rw [List.length_drop]
          omega
        have pass : discardLoop.body (⟨extra ++ rest, polls⟩, extra.length) =
            .next (⟨extra.drop 256 ++ rest, later⟩, (extra.drop 256).length) := by
          simp only [discardLoop, Pipe.read, if_neg positive.ne', found, left]
        rw [discardLoop.run_of_next pass]
        exact ih _ (by rw [List.length_drop]; omega) calm' _ rfl

theorem dwordAt_dwordBytes (value : UInt32) (before after : List Byte) :
    dwordAt (before ++ dwordBytes value ++ after) before.length = value := by
  have bytes : value.toUInt8.toNat + 256 * (value >>> 8).toUInt8.toNat +
      65536 * (value >>> 16).toUInt8.toNat + 16777216 * (value >>> 24).toUInt8.toNat =
        value.toNat := by
    have bound := value.toNat_lt
    simp only [UInt32.toNat_toUInt8, UInt32.toNat_shiftRight, UInt32.toNat_ofNat,
      Nat.shiftRight_eq_div_pow, Nat.reducePow, Nat.reduceMod]
    omega
  have byte (index : Nat) : (before ++ dwordBytes value ++ after).getD (before.length + index) 0 =
      (dwordBytes value ++ after).getD index 0 := by
    rw [List.append_assoc, List.getD_eq_getElem?_getD, List.getD_eq_getElem?_getD,
      List.getElem?_append_right (Nat.le_add_right _ _), Nat.add_sub_cancel_left]
  rw [dwordAt]
  simp only [byte]
  change UInt32.ofNat (value.toUInt8.toNat + 256 * (value >>> 8).toUInt8.toNat +
      65536 * (value >>> 16).toUInt8.toNat + 16777216 * (value >>> 24).toUInt8.toNat) = value
  rw [bytes]
  exact UInt32.ofNat_toNat

theorem length_dwordBytes (value : UInt32) : (dwordBytes value).length = 4 := rfl

theorem receiveTypedPacket_undisturbed {T : Type} (layout : Layout T) {polls : List Poll}
    (calm : Undisturbed polls) {payload extra : List Byte} (rest : List Byte)
    (size : payload.length = layout.size)
    (declared : (dwordAt payload 0).toNat = layout.size + extra.length) :
    ∃ later, Undisturbed later ∧
      receiveTypedPacket layout ⟨payload ++ (extra ++ rest), polls⟩ =
        (⟨rest, later⟩, .ok (layout.fields payload)) := by
  obtain ⟨polls', calm', found⟩ := readExact_undisturbed calm payload (extra ++ rest)
  obtain ⟨later, calm'', dropped⟩ := discardLoop_undisturbed calm' extra rest
  refine ⟨later, calm'', ?_⟩
  rw [size] at found
  rw [receiveTypedPacket, Pipe.read, found]
  dsimp only
  rw [if_neg (by omega), declared, Nat.add_sub_cancel_left, dropped]

theorem receive_undisturbed {T : Type} {layout : Layout T} {call : T → TargetCall}
    {polls : List Poll} (calm : Undisturbed polls) (packet : Packet) (rest : List Byte)
    (state : ThreadState) (size : layout.size = packet.signal.size)
    (length : packet.payload.length = layout.size)
    (fields : call (layout.fields packet.payload) = packet.signal.call) :
    ∃ later, Undisturbed later ∧
      receive layout call state ⟨packet.payload ++ (packet.extra ++ rest), polls⟩ =
        .next ⟨⟨rest, later⟩, state.calls ++ [packet.signal.call]⟩ := by
  have first : dwordAt packet.payload 0 = packet.sizeInBytes :=
    dwordAt_dwordBytes packet.sizeInBytes [] _
  obtain ⟨later, calm', received⟩ := receiveTypedPacket_undisturbed layout calm rest length (by
    rw [first, packet.declared, size])
  refine ⟨later, calm', ?_⟩
  rw [receive, received]
  dsimp only
  rw [fields]

/-- A packet is received as the signal that was sent. -/
theorem dispatch_undisturbed {polls : List Poll} (calm : Undisturbed polls) (packet : Packet)
    (rest : List Byte) (state : ThreadState) : ∃ later, Undisturbed later ∧
      dispatch state ⟨packet.payload ++ (packet.extra ++ rest), polls⟩ packet.signal.code =
        .next ⟨⟨rest, later⟩, state.calls ++ [packet.signal.call]⟩ := by
  have dword (value : UInt32) (before after : List Byte) :=
    dwordAt_dwordBytes value (dwordBytes packet.sizeInBytes ++ before) after
  match packet with
  | ⟨.notifyApp processId, sizeInBytes, padding, extra, declared⟩ =>
      refine receive_undisturbed calm _ rest state rfl rfl ?_
      exact congrArg TargetCall.notifyConsoleApplication (dword processId [] [])
  | ⟨.setForeground processId isForeground, sizeInBytes, padding, extra, declared⟩ =>
      refine receive_undisturbed calm _ rest state rfl ?_ ?_
      · simp [Packet.payload, HostSignal.fieldBytes, length_dwordBytes, setForeground]
      refine congrArg₂ TargetCall.setForeground
        (dword processId [] ((if isForeground then 1 else 0) :: padding.toList)) ?_
      cases isForeground <;> rfl
  | ⟨.endTask processId eventType ctrlFlags, sizeInBytes, padding, extra, declared⟩ =>
      refine receive_undisturbed calm _ rest state rfl rfl ?_
      have first := dword processId [] (dwordBytes eventType ++ dwordBytes ctrlFlags)
      have second := dword eventType (dwordBytes processId) (dwordBytes ctrlFlags)
      have third := dword ctrlFlags (dwordBytes processId ++ dwordBytes eventType) []
      exact (congr (congrArg₂ TargetCall.endTask first second) third)

/-- A packet at the front of the stream becomes a call. -/
theorem threadBody_packet {polls : List Poll} (calm : Undisturbed polls) (packet : Packet)
    (rest : List Byte) (calls : List TargetCall) : ∃ later, Undisturbed later ∧
      threadBody ⟨⟨packet.bytes ++ rest, polls⟩, calls⟩ =
        .next ⟨⟨rest, later⟩, calls ++ [packet.signal.call]⟩ := by
  have stream : packet.bytes ++ rest =
      [packet.signal.code] ++ (packet.payload ++ (packet.extra ++ rest)) := by
    simp [Packet.bytes]
  obtain ⟨polls', calm', found⟩ := readExact_undisturbed calm [packet.signal.code]
    (packet.payload ++ (packet.extra ++ rest))
  rw [← stream, List.length_singleton] at found
  obtain ⟨later, calm'', dispatched⟩ := dispatch_undisturbed calm' packet rest
    ⟨⟨packet.bytes ++ rest, polls⟩, calls⟩
  refine ⟨later, calm'', ?_⟩
  rw [threadBody, Pipe.read]
  dsimp only
  rw [found]
  exact dispatched

theorem threadLoop_packets {polls : List Poll} (calm : Undisturbed polls) (packets : List Packet)
    (calls : List TargetCall) :
    threadLoop.run ⟨⟨packets.flatMap Packet.bytes, polls⟩, calls⟩ =
      ⟨⟨[], []⟩, calls ++ packets.map (·.signal.call) ++ [.signalPipeDisconnected]⟩ := by
  induction packets generalizing polls calls with
  | nil =>
      have ended := readExact_end calm 0
      apply threadLoop.run_of_leave
      change threadBody _ = _
      rw [threadBody, Pipe.read]
      dsimp only
      rw [List.flatMap_nil, ended, List.map_nil, List.append_nil]
      rfl
  | cons packet packets ih =>
      obtain ⟨later, calm', pass⟩ :=
        threadBody_packet calm packet (packets.flatMap Packet.bytes) calls
      rw [List.flatMap_cons, threadLoop.run_of_next pass, ih calm']
      simp

/-- However the bytes of a list of packets are fragmented, the thread calls its target for each of
the packets, in order and with the fields that were sent, and ends with the stream. -/
theorem threadProc_packets (packets : List Packet) (polls : List Poll)
    (calm : Undisturbed polls) :
    threadProc ⟨packets.flatMap Packet.bytes, polls⟩ =
      ⟨⟨[], []⟩, packets.map (·.signal.call) ++ [.signalPipeDisconnected]⟩ := by
  rw [threadProc, threadLoop_packets calm]
  rfl

theorem threadProc_packets_bytewise :
    let packet : Packet := ⟨.endTask 4711 0 1, 18, ⟨#[0, 0, 0], rfl⟩, [0xaa, 0xbb], by decide⟩
    Undisturbed [.ready 0 0, .idle, .ready 9 0] ∧
      threadProc ⟨[packet].flatMap Packet.bytes, [.ready 0 0, .idle, .ready 9 0]⟩ =
        ⟨⟨[], []⟩, [.endTask 4711 0 1, .signalPipeDisconnected]⟩ :=
  have calm : Undisturbed [.ready 0 0, .idle, .ready 9 0] := by
    intro poll mem
    simp only [List.mem_cons, List.not_mem_nil, or_false] at mem
    rcases mem with rfl | rfl | rfl
    · exact .inr ⟨0, 0, rfl⟩
    · exact .inl rfl
    · exact .inr ⟨9, 0, rfl⟩
  ⟨calm, threadProc_packets _ _ calm⟩

/-- A packet whose code has no case in the switch: like every payload, its own begins with the
size that it declares. -/
structure UnknownPacket where
  code : Byte
  sizeInBytes : UInt32
  fields : List Byte
  unknown : code ≠ 1 ∧ code ≠ 5 ∧ code ≠ 7
  declared : sizeInBytes.toNat = 4 + fields.length

def UnknownPacket.payload (packet : UnknownPacket) : List Byte :=
  dwordBytes packet.sizeInBytes ++ packet.fields

/-- A packet of a writer that may be of a later version than the reader. -/
inductive LaterPacket where
  | known (packet : Packet)
  | unknown (packet : UnknownPacket)

namespace LaterPacket

def bytes : LaterPacket → List Byte
  | .known packet => packet.bytes
  | .unknown packet => packet.code :: packet.payload

/-- The call a packet asks of this reader, if it knows the packet. -/
def call? : LaterPacket → Option TargetCall
  | .known packet => some packet.signal.call
  | .unknown _ => none

def IsKnown : LaterPacket → Prop
  | .known _ => True
  | .unknown _ => False

end LaterPacket

/-- The thread passes over what it does not know: the whole stream is read, and the target is
called for the known packets as if the others were absent. -/
def SkipsUnknown (stream : List LaterPacket) (polls : List Poll) : Prop :=
  threadProc ⟨stream.flatMap LaterPacket.bytes, polls⟩ =
    ⟨⟨[], []⟩, stream.filterMap LaterPacket.call? ++ [.signalPipeDisconnected]⟩

theorem dispatch_unknown (packet : UnknownPacket) (state : ThreadState) (pipe : Pipe) :
    dispatch state pipe packet.code = .leave ⟨pipe, state.calls ++ [.signalPipeDisconnected]⟩ := by
  have notCode (code : Byte) (other : packet.code ≠ code) : packet.code.toNat ≠ code.toNat :=
    fun same => other (UInt8.toNat_inj.mp same)
  rcases packet.unknown with ⟨notNotify, notForeground, notEnd⟩
  rw [dispatch]
  split
  · rename_i code
    exact absurd code (notCode 1 notNotify)
  · rename_i code
    exact absurd code (notCode 5 notForeground)
  · rename_i code
    exact absurd code (notCode 7 notEnd)
  · rfl

/-- At an unknown code the thread ends, with the payload still in the pipe. -/
theorem threadLoop_unknown {polls : List Poll} (calm : Undisturbed polls) (packet : UnknownPacket)
    (rest : List Byte) (calls : List TargetCall) : ∃ later,
      threadLoop.run ⟨⟨(LaterPacket.unknown packet).bytes ++ rest, polls⟩, calls⟩ =
        ⟨⟨packet.payload ++ rest, later⟩, calls ++ [.signalPipeDisconnected]⟩ := by
  rcases readExact_undisturbed calm [packet.code] (packet.payload ++ rest) with
    ⟨later, calm', found⟩
  refine ⟨later, ?_⟩
  apply threadLoop.run_of_leave
  change threadBody _ = _
  rw [threadBody, Pipe.read]
  dsimp only [LaterPacket.bytes]
  rw [List.cons_append, ← List.singleton_append, ← List.length_singleton (a := packet.code), found]
  exact dispatch_unknown packet _ _

theorem threadLoop_later {polls : List Poll} (calm : Undisturbed polls) (stream : List LaterPacket)
    (calls : List TargetCall) :
    threadLoop.run ⟨⟨stream.flatMap LaterPacket.bytes, polls⟩, calls⟩ =
        ⟨⟨[], []⟩, calls ++ stream.filterMap LaterPacket.call? ++ [.signalPipeDisconnected]⟩ ↔
      ∀ packet ∈ stream, packet.IsKnown := by
  induction stream generalizing polls calls with
  | nil =>
      have ended := threadLoop_packets calm [] calls
      simpa using ended
  | cons packet stream ih =>
      cases packet with
      | known packet =>
          rcases threadBody_packet calm packet (stream.flatMap LaterPacket.bytes) calls with
            ⟨later, calm', pass⟩
          have step := ih calm' (calls ++ [packet.signal.call])
          rw [List.flatMap_cons, LaterPacket.bytes, threadLoop.run_of_next pass]
          simpa [LaterPacket.call?, LaterPacket.IsKnown] using step
      | unknown packet =>
          rcases threadLoop_unknown calm packet (stream.flatMap LaterPacket.bytes) calls with
            ⟨later, left⟩
          rw [List.flatMap_cons, left]
          simp [LaterPacket.IsKnown, UnknownPacket.payload, dwordBytes]

/-- In a stream that is not cut short from outside, the thread passes over the packets it does not
know exactly when there are none. -/
theorem threadProc_skipsUnknown_iff (stream : List LaterPacket) (polls : List Poll)
    (calm : Undisturbed polls) :
    SkipsUnknown stream polls ↔ ∀ packet ∈ stream, packet.IsKnown := by
  have whole := threadLoop_later calm stream []
  simpa only [SkipsUnknown, threadProc, List.nil_append] using whole

theorem threadProc_skipsUnknown_iff_single :
    let packet : Packet := ⟨.notifyApp 4711, 8, ⟨#[0, 0, 0], rfl⟩, [], by decide⟩
    Undisturbed [.ready 0 0] ∧
      (SkipsUnknown [.known packet] [.ready 0 0] ↔
        ∀ sent ∈ [LaterPacket.known packet], sent.IsKnown) :=
  have calm : Undisturbed [.ready 0 0] := by
    intro poll mem
    exact .inr ⟨0, 0, List.mem_singleton.mp mem⟩
  ⟨calm, threadProc_skipsUnknown_iff _ _ calm⟩

/-- A packet with the code 2 hides the packet behind it. -/
theorem threadProc_stops_at_unknown :
    let unknown : UnknownPacket := ⟨2, 5, [0xaa], by decide, by decide⟩
    let packet : Packet := ⟨.endTask 4711 0 1, 16, ⟨#[0, 0, 0], rfl⟩, [], by decide⟩
    Undisturbed [] ∧ ¬ SkipsUnknown [.unknown unknown, .known packet] [] ∧
      (threadProc ⟨[.unknown unknown, .known packet].flatMap LaterPacket.bytes, []⟩).calls =
        [.signalPipeDisconnected] := by
  have calm : Undisturbed [] := by simp [Undisturbed]
  refine ⟨calm, ?_, ?_⟩
  · intro skips
    have known := (threadLoop_later calm _ []).mp skips
    exact known _ List.mem_cons_self
  · rcases threadLoop_unknown calm ⟨2, 5, [0xaa], by decide, by decide⟩
      ([.known ⟨.endTask 4711 0 1, 16, ⟨#[0, 0, 0], rfl⟩, [], by decide⟩].flatMap
        LaterPacket.bytes) [] with ⟨later, left⟩
    exact congrArg ThreadState.calls left

end HostSignals

end Conhost
