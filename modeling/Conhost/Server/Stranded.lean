import Conhost.Input.Waiting
import Conhost.Server.Completion
import Conhost.Server.Frame

/-!
# Requests that are left behind

Before the loop blocks in `read_io` it should have offered all there is to the
pending requests. A request that has been left pending stays so while its
handle, the input mode and the input code page are left alone and nothing is
in the queue. But the pending requests are not tried again once one of them has
been answered, so what that one leaves in the queue is not offered to the
others.
-/

namespace Conhost

open IoPacket ServerState

namespace IoFunction

/-- The handle of a read that waits, for each kind of read. -/
def Parked (system : System) (mode : InputMode) (codePage : CodePage) (capacity : Nat)
    (handle : ObjectHandle) : IoFunction → Prop
  | .rawRead => ByteRead.Parked capacity ⟨handle, {}⟩
  | .userDefined apiSize (.input (.readConsole unicode _ _)) =>
      apiSize.toNat ≤ descriptorLimit ∧ capacity ≠ 0 ∧
        if mode.lineInput then Cooked.Parked system.toPlatform codePage ⟨handle, {}⟩
        else if unicode then
          UnicodeRead.Parked system.toPlatform { codePage := codePage, capacity := capacity }
            ⟨handle, {}⟩
        else ByteRead.Parked capacity ⟨handle, {}⟩
  | .userDefined apiSize (.input (.getConsoleInput flags _ _)) =>
      apiSize.toNat ≤ descriptorLimit ∧ flags &&& 0xfffc = 0 ∧ capacity / 20 ≠ 0 ∧
        Records.Parked system.toPlatform
          { codePage := codePage
            capacity := capacity / 20
            isPeek := flags &&& 1 != 0
            waitAllowed := flags &&& 2 == 0 } ⟨handle, {}⟩
  | _ => False

theorem Parked.flush {system : System} {mode : InputMode} {codePage : CodePage} {capacity : Nat}
    {handle : ObjectHandle} {function : IoFunction}
    (parked : function.Parked system mode codePage capacity handle) :
    function.Parked system mode codePage capacity handle.flush := by
  unfold Parked at parked ⊢
  split at parked
  · exact .inl rfl
  · obtain ⟨fits, room, -⟩ := parked
    refine ⟨fits, room, ?_⟩
    split
    · exact ⟨rfl, Platform.decodeOneInputToken_nil⟩
    · split
      · exact ⟨rfl, .inl rfl⟩
      · exact .inl rfl
  · obtain ⟨fits, flags, room, wait, -⟩ := parked
    exact ⟨fits, flags, room, wait, rfl, .inl rfl⟩
  · exact parked.elim

end IoFunction

namespace IoPacket

/-- A request that waits, and would wait again if nothing were added to the queue. -/
def Parked (system : System) (packet : IoPacket) (server : ServerState) : Prop :=
  ∃ handle capacity, server.objects packet.object = some handle ∧ handle.kind = .input ∧
    packet.getOutputBuffer = .ok capacity ∧
    packet.function.Parked system server.inputMode server.inputCodePage capacity handle

variable {system : System} {packet other : IoPacket} {before after : ServerState}

theorem Parked.of_same (parked : packet.Parked system before)
    (object : after.objects packet.object = before.objects packet.object ∨
      after.objects packet.object = (before.objects packet.object).map ObjectHandle.flush)
    (mode : after.inputMode = before.inputMode)
    (codePage : after.inputCodePage = before.inputCodePage) : packet.Parked system after := by
  obtain ⟨handle, capacity, found, kind, buffer, waits⟩ := parked
  rw [← mode, ← codePage] at waits
  rcases object with same | flushed
  · exact ⟨handle, capacity, same.trans found, kind, buffer, waits⟩
  · exact ⟨handle.flush, capacity, by rw [flushed, found]; rfl, kind, buffer, waits.flush⟩

/-- What can make a request that waits on another packet's object go on. -/
inductive Disturbs (packet other : IoPacket) (server : ServerState) : Prop where
  | read (reads : IsRead packet.function) (same : packet.object = other.object)
  | close (closes : packet.function = .closeObject) (same : packet.object = other.object)
  | disconnect {handle : ObjectHandle} (leaves : packet.function = .disconnect)
      (found : server.objects other.object = some handle)
      (owned : handle.owningProcess = packet.process)
  | mode (sets : packet.SetsInputMode server)
  | codePage (sets : packet.SetsInputCodePage)

end IoPacket

section Dispatch

variable {environment : Environment} {console next : Console} {packet : IoPacket}

/-- What a message with one buffer has found before its work. -/
theorem withBuffers_output {work : List Byte → Nat → Dispatched} {ended : Console × Outcome}
    (dispatched : packet.withBuffers environment false true work = some (.ok ended)) :
    ∃ capacity, packet.getOutputBuffer = .ok capacity ∧ work [] capacity = some (.ok ended) := by
  simp only [withBuffers, Bool.false_eq_true, if_false, if_true] at dispatched
  split at dispatched
  · cases dispatched
  · rename_i capacity got
    exact ⟨capacity, got, dispatched⟩

theorem ofRead_pending {α : Type} {encode : List α → List Byte} {data : List α → ReplyData}
    {reply : ReadReply α} (pends : Outcome.ofRead encode data reply = .replyPending) :
    reply = .pending := by
  cases reply with
  | pending => rfl
  | complete => cases pends

theorem afterLine_objects {handle : ObjectHandle} {state : CookedState} :
    (InputApi.afterLine console packet.object handle state).server.objects packet.object =
      some state.read.handle := by
  simp only [InputApi.afterLine]
  split <;> simp [ServerState.setObject, ServerState.setScreenBuffer]

section Kinds

variable {handle : ObjectHandle} {capacity fuel : Nat}
  (found : console.server.objects packet.object = some handle) (kind : handle.kind = .input)
  (buffer : packet.getOutputBuffer = .ok capacity)
include found kind buffer

theorem readConsoleRequest_parked {apiSize : UInt32} {unicode processControlZ : Bool}
    {numBytes : Nat}
    (function : packet.function =
      .userDefined apiSize (.input (.readConsole unicode processControlZ numBytes)))
    (fits : apiSize.toNat ≤ descriptorLimit)
    (read : InputApi.readConsoleRequest environment console packet.object handle fuel capacity
      unicode processControlZ = some (.ok (next, .replyPending))) :
    packet.Parked environment.system next.server := by
  have keeps := (readConsoleRequest_meets found kind (function ▸ .readConsole fits) read).keeps
  have mode := keeps.mode (by rintro ⟨⟨size, mode, other⟩, -⟩; simp [function] at other)
  have codePage := keeps.codePage (by rintro ⟨size, codePage, other⟩; simp [function] at other)
  simp only [InputApi.readConsoleRequest] at read
  split at read
  · rename_i lineInput
    split at read
    · cases read
    · cases read
    · rename_i state reply line
      simp only [Option.some.injEq, Except.ok.injEq, Prod.mk.injEq] at read
      obtain ⟨rfl, pends⟩ := read
      cases ofRead_pending pends
      obtain ⟨room, parked, same⟩ := Cooked.readConsole_parked line rfl
      refine ⟨_, capacity, afterLine_objects, same.trans kind, buffer, ?_⟩
      rw [mode, codePage, function]
      exact ⟨fits, room, by rw [if_pos lineInput]; exact parked⟩
  · rename_i raw
    split at read
    · rename_i wide
      simp only [Option.some.injEq, Except.ok.injEq, Prod.mk.injEq] at read
      obtain ⟨rfl, pends⟩ := read
      obtain ⟨room, parked⟩ := UnicodeRead.rawUnicodeRead_parked (ofRead_pending pends)
      refine ⟨_, capacity, Function.update_self .., ?_, buffer, ?_⟩
      · exact (congrArg Prod.fst (UnicodeRead.rawUnicodeRead_steady ..)).trans kind
      rw [mode, codePage, function]
      exact ⟨fits, room, by rw [if_neg raw, if_pos wide]; exact parked⟩
    · rename_i narrow
      simp only [Option.some.injEq, Except.ok.injEq, Prod.mk.injEq] at read
      obtain ⟨rfl, pends⟩ := read
      obtain ⟨room, parked⟩ := ByteRead.rawAnsiRead_parked (ofRead_pending pends)
      refine ⟨_, capacity, Function.update_self .., ?_, buffer, ?_⟩
      · exact (congrArg Prod.fst (ByteRead.rawAnsiRead_steady ..)).trans kind
      rw [mode, codePage, function]
      exact ⟨fits, room, by rw [if_neg raw, if_neg narrow]; exact parked⟩

omit found in
theorem getConsoleInputRequest_parked {apiSize : UInt32} {flags : UInt16} {unicode : Bool}
    {numRecords : Nat}
    (function : packet.function =
      .userDefined apiSize (.input (.getConsoleInput flags unicode numRecords)))
    (fits : apiSize.toNat ≤ descriptorLimit)
    (read : InputApi.getConsoleInputRequest environment console packet.object handle capacity flags
      unicode = (next, .replyPending)) :
    packet.Parked environment.system next.server := by
  simp only [InputApi.getConsoleInputRequest] at read
  split at read
  · cases read
  · rename_i known
    simp only [Prod.mk.injEq] at read
    obtain ⟨rfl, pends⟩ := read
    obtain ⟨room, parked⟩ := Records.getConsoleInput_parked (ofRead_pending pends)
    refine ⟨_, capacity, Function.update_self .., ?_, buffer, ?_⟩
    · exact (congrArg Prod.fst (Records.getConsoleInput_steady ..)).trans kind
    rw [function]
    exact ⟨fits, not_not.mp known, room, parked⟩

end Kinds

/-- A message that has been left pending is parked. -/
theorem dispatchMessage_parked {fuel : Nat}
    (dispatched : dispatchMessage environment console packet fuel =
      some (.ok (next, .replyPending))) : packet.Parked environment.system next.server := by
  obtain ⟨reads, handle, found, kind⟩ := dispatchMessage_pending dispatched
  have finds : console.findHandle packet.object .input = some handle :=
    Console.findHandle_eq_some_iff.mpr ⟨found, kind⟩
  rcases packet with ⟨process, object, function, input, outputSize⟩
  cases reads with
  | rawRead =>
      simp only [dispatchMessage, rawReadRequest, finds] at dispatched
      obtain ⟨capacity, buffer, read⟩ := withBuffers_output dispatched
      simp only [Option.some.injEq, Except.ok.injEq, Prod.mk.injEq] at read
      obtain ⟨rfl, pends⟩ := read
      refine ⟨_, capacity, Function.update_self .., ?_, buffer,
        ByteRead.readLoop_parked _ (ofRead_pending pends)⟩
      exact (congrArg Prod.fst (ByteRead.readLoop_steady ..)).trans kind
  | getConsoleInput fits =>
      simp only [dispatchMessage, Nat.not_lt.mpr fits, if_false, dispatchApi, finds] at dispatched
      obtain ⟨capacity, buffer, read⟩ := withBuffers_output dispatched
      exact getConsoleInputRequest_parked kind buffer rfl fits
        (Except.ok.inj (Option.some.inj read))
  | readConsole fits =>
      simp only [dispatchMessage, Nat.not_lt.mpr fits, if_false, dispatchApi, finds] at dispatched
      obtain ⟨capacity, buffer, read⟩ := withBuffers_output dispatched
      exact readConsoleRequest_parked found kind buffer rfl fits read

/-- A message leaves the requests that wait as they are, unless it disturbs them. -/
theorem dispatchMessage_keeps_parked {system : System} {other : IoPacket} {fuel : Nat}
    {ended : Console × Outcome}
    (dispatched : dispatchMessage environment console packet fuel = some (.ok ended))
    (parked : other.Parked system console.server)
    (quiet : ¬packet.Disturbs other console.server) : other.Parked system ended.1.server := by
  by_cases manages : Manages packet.function
  · obtain ⟨mode, codePage⟩ := dispatchMessage_sameInput dispatched manages
    apply parked.of_same (.inl ?_) mode codePage
    obtain ⟨handle, -, found, -⟩ := parked
    have unfree : console.server.objects other.object ≠ none := by simp [found]
    simp only [dispatchMessage] at dispatched
    split at dispatched
    · rename_i function
      simp [Manages, function] at manages
    · rename_i function
      obtain ⟨server, -⟩ := connectRequest_spec function dispatched
      rw [server]
      exact ((connectClient_spec _ _ _ _ _ _).1 _).resolve_right fun new => unfree new.1
    · rename_i function
      refine ((disconnectRequest_spec dispatched).1 _).resolve_right ?_
      rintro ⟨-, gone, opened, owned⟩
      exact quiet (.disconnect function opened owned)
    · exact ((createObjectRequest_spec dispatched).1 _).resolve_right fun new => unfree new.1
    · rename_i function
      refine ((closeObjectRequest_spec dispatched).1 _).resolve_right ?_
      rintro ⟨same, -⟩
      exact quiet (.close function same.symm)
    all_goals
      rename_i function
      simp [Manages, function] at manages
  · have keeps := (dispatchMessage_ends dispatched manages).keeps
    apply parked.of_same
    · by_cases same : other.object = packet.object
      · rw [same]
        exact keeps.own fun reads => quiet (.read reads same.symm)
      · exact .inl (keeps.others _ same)
    · exact keeps.mode fun sets => quiet (.mode sets)
    · exact keeps.codePage fun sets => quiet (.codePage sets)

end Dispatch

/-- What surrounds the dispatch of a message in an action. -/
def Action.circumstances : Action → Option Circumstances
  | .proceed circumstances => some circumstances
  | .readIo _ circumstances => some circumstances
  | _ => none

namespace LoopState

variable {system : System} {state : LoopState} {message : Message} {circumstances : Circumstances}
  {result : LoopState × Settled}

/-- The conversions are those of one system, and no packet disturbs a pending request. -/
structure Undisturbed (system : System) (state : LoopState) (action : Action) : Prop where
  converts : ∀ circumstances ∈ action.circumstances, circumstances.environment.system = system
  quiet : ∀ packet circumstances, state.receives action = some (packet, circumstances) →
    ∀ message ∈ state.pending, ¬packet.Disturbs message.packet state.console.server

/-- All pending requests wait, each on an object of its own. -/
structure Stalled (system : System) (state : LoopState) : Prop where
  parked : ∀ message ∈ state.pending, message.packet.Parked system state.console.server
  apart : (state.pending.map (·.packet.object)).Nodup

theorem Settles.stalled (settles : state.Settles message circumstances result)
    (stalled : state.Stalled system) (converts : circumstances.environment.system = system)
    (quiet : ∀ other ∈ state.pending, ¬message.packet.Disturbs other.packet state.console.server) :
    result.1.Stalled system := by
  have others : ∀ {ended},
      dispatchMessage circumstances.environment state.console message.packet circumstances.fuel =
        some (.ok ended) →
      ∀ other ∈ state.pending, other.packet.Parked system ended.1.server := by
    intro ended dispatched other waiting
    exact dispatchMessage_keeps_parked dispatched (stalled.parked other waiting)
      (quiet other waiting)
  cases settles with
  | failed => exact ⟨stalled.parked, stalled.apart⟩
  | released dispatched => exact ⟨others dispatched, stalled.apart⟩
  | staged dispatched => exact ⟨others dispatched, stalled.apart⟩
  | queued dispatched =>
      constructor
      · intro other waiting
        rcases List.mem_append.mp waiting with waiting | last
        · exact others dispatched other waiting
        · rw [List.mem_singleton.mp last, ← converts]
          exact dispatchMessage_parked dispatched
      · rw [List.map_append, List.map_singleton, List.nodup_append]
        refine ⟨stalled.apart, by simp, ?_⟩
        intro object taken own last same
        obtain ⟨other, waiting, rfl⟩ := List.mem_map.mp taken
        rw [List.mem_singleton.mp last] at same
        exact quiet other waiting (.read (dispatchMessage_pending dispatched).1 same.symm)

variable {host : HostIo} {packet : Option IoPacket}

/-- The output of a message that is answered. -/
def answerOf : Dispatched → Option (List Byte)
  | some (.ok (_, .complete reply false)) => some reply.output
  | _ => none

end LoopState

end Conhost
