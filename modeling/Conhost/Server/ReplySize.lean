import Conhost.Input.Capacity
import Conhost.Server.Dispatch

/-!
# The size of a reply

Before a message is completed its output is written back to the client, as many
bytes as the information word of the reply says. A word larger than the buffer
would be an error that ends the server. Each handler computes the word for
itself, from records, characters, encoded lengths or terminators.
-/

namespace Conhost

/-- `nt_success` -/
def Status.ntSuccess : Status → Bool
  | .success | .alerted => true
  | _ => false

namespace IoFunction

/-- The functions that call `get_output_buffer`. -/
def takesOutput : IoFunction → Bool
  | .userDefined _ (.getTitle ..) => true
  | .userDefined _ (.screen request) => request.takesOutput
  | .userDefined _ (.global request) => request.takesOutput
  | .userDefined _ (.input request) => request.takesOutput
  | .rawRead => true
  | _ => false

end IoFunction

namespace IoPacket

/-- `release_message_buffers` for a message that has got its output buffer: an information word
larger than the buffer is `ERROR_INVALID_DATA`, and the device may fail to write the output. -/
def releaseMessageBuffers (packet : IoPacket) (writeOutputFails : Bool) (reply : Reply) :
    Except Fault Unit :=
  if reply.status.ntSuccess then
    if packet.outputSize - packet.writeOffset < reply.information then .error .internal
    else if writeOutputFails then .error .primitive
    else .ok ()
  else .ok ()

end IoPacket

/-- A reply whose information word is within a buffer of the given size. -/
def Reply.Fits (size : Nat) (reply : Reply) : Prop :=
  reply.status.ntSuccess = true → reply.information ≤ size

namespace Dispatched

/-- What comes of a message, if it is answered, is within its buffer. -/
def Fits (size : Nat) (result : Dispatched) : Prop :=
  ∀ next reply requestExit, result = some (.ok (next, .complete reply requestExit)) →
    reply.Fits size

theorem fits_answer {size : Nat} {reply : Reply} (fits : reply.Fits size) (console : Console) :
    Fits size (console.answer reply) := by
  intro next reply' requestExit answered
  cases answered
  exact fits

theorem fits_ofRead {α : Type} {encode : List α → List Byte} {data : List α → ReplyData}
    {size : Nat} {next : Console} {read : ReadReply α}
    (fits : (encode read.data).length ≤ size) :
    Fits size (some (.ok (next, .ofRead encode data read))) := by
  intro console reply requestExit answered
  cases read with
  | pending => cases answered
  | complete status items =>
      cases answered
      intro
      exact fits

end Dispatched

open Dispatched

theorem Reply.fits_zero {size : Nat} {reply : Reply} (zero : reply.information = 0) :
    reply.Fits size := by
  intro
  rw [zero]
  exact Nat.zero_le size

/-- The work of a message that takes the output buffer is done with the size of that buffer. -/
theorem IoPacket.fits_withBuffers {packet : IoPacket} {environment : Environment} {input : Bool}
    {work : List Byte → Nat → Dispatched}
    (fits : ∀ bytes capacity, (work bytes capacity).Fits capacity) :
    Fits (packet.outputSize - packet.writeOffset)
      (packet.withBuffers environment input true work) := by
  intro next reply requestExit dispatched
  simp only [withBuffers, if_true, getOutputBuffer] at dispatched
  split at dispatched
  · cases dispatched
  · split at dispatched
    · cases dispatched
    · rename_i capacity got
      split at got
      · cases got
      · cases got
        exact fits _ _ next reply requestExit dispatched

theorem getTitleReply_fits (environment : Environment) (console : Console)
    (unicode original : Bool) (capacity : Nat) :
    (getTitleReply environment console unicode original capacity).Fits capacity := by
  simp only [getTitleReply]
  generalize (if original = true then console.server.title.originalTitle
    else console.server.title.title) = title
  split
  · split
    · exact Reply.fits_zero rfl
    · intro
      simp only
      omega
  · split
    · exact Reply.fits_zero rfl
    · split
      · intro
        simp only
        omega
      · intro
        simp only
        split <;> omega

/-- A region that passes the checks has no more cells than the buffer holds. -/
theorem ScreenBuffer.regionStatus_room {buffer : ScreenBuffer} {region : SmallRect} {bytes : Nat}
    (inside : buffer.regionStatus region bytes = .success) :
    4 * ((region.right - region.left + 1).toNat * (region.bottom - region.top + 1).toNat) ≤
      bytes := by
  simp only [regionStatus] at inside
  split at inside
  · cases inside
  · split at inside
    · cases inside
    · split at inside
      · cases inside
      · split at inside
        · cases inside
        · split at inside
          · cases inside
          · omega

namespace ScreenApi

theorem readConsoleOutputReply_room (buffer : ScreenBuffer) (region : SmallRect) (unicode : Bool)
    (capacity : Nat) :
    4 * (readConsoleOutputReply buffer region unicode capacity).2.length ≤ capacity := by
  simp only [readConsoleOutputReply]
  split
  · rename_i inside
    split
    · rename_i all
      rw [all]
      exact ScreenBuffer.regionStatus_room inside
    · exact Nat.zero_le _
  · exact Nat.zero_le _

theorem handle_fits {request : ScreenApi} (takes : request.takesOutput = true)
    (server : ServerState) (index : Nat) (buffer : ScreenBuffer) (input : List Byte)
    (capacity : Nat) : (request.handle server index buffer input capacity).2.Fits capacity := by
  cases request with
  | readConsoleOutputString origin stringType numRecords =>
      intro
      simp only [handle]
      split
      · exact Nat.le_refl _
      · exact Nat.zero_le _
  | readConsoleOutput region unicode =>
      intro
      exact readConsoleOutputReply_room buffer region unicode capacity
  | getFontInfo numFonts =>
      simp only [handle]
      split
      · exact Reply.fits_zero rfl
      · intro
        simp only
        omega
  | _ => cases takes

end ScreenApi

namespace GlobalApi

variable (system : System) (server : ServerState)

theorem replyWith_fits {body : GlobalApi} {output : List Byte} {capacity : Nat}
    (room : output.length ≤ capacity) : (replyWith body output).Fits capacity := by
  intro
  exact room

theorem processList_fits (capacity : Nat) : (processList server capacity).Fits capacity := by
  simp only [processList]
  generalize (server.processes.entries.map (·.2)).mergeSort _ = processes
  split
  · exact Reply.fits_zero rfl
  · rename_i room
    apply replyWith_fits
    have words : (processes.flatMap fun process => dwordBytes process.pid).length =
        4 * processes.length := by
      rw [List.length_flatMap]
      simp [dwordBytes, Nat.mul_comm]
    omega

theorem getAliasReply_fits (unicode : Bool) (exeLength sourceLength : UInt16) (input : List Byte)
    (capacity : Nat) :
    (getAliasReply system server unicode exeLength sourceLength input capacity).Fits capacity := by
  simp only [getAliasReply]
  split
  · exact Reply.fits_zero rfl
  · split
    · split
      · split
        · exact Reply.fits_zero rfl
        · split
          · exact Reply.fits_zero rfl
          · split
            · exact Reply.fits_zero rfl
            · split
              · intro succeeded
                cases succeeded
              · exact replyWith_fits (by omega)
      · exact Reply.fits_zero rfl
    · exact Reply.fits_zero rfl

/-- What has been written of a list stays within the buffer. -/
theorem dumpEntries_room {capacity : Nat} {entries : List (Option (List Byte))} {output : List Byte}
    (written : dumpEntries capacity entries = .ok output) : output.length ≤ capacity := by
  simp only [dumpEntries] at written
  have start : ([] : List Byte).length ≤ capacity := Nat.zero_le _
  revert start written
  generalize ([] : List Byte) = before
  induction entries generalizing before with
  | nil =>
      intro written start
      cases written
      exact start
  | cons entry entries hypothesis =>
      intro written start
      rw [List.foldlM_cons] at written
      cases entry with
      | none => cases written
      | some bytes =>
          by_cases full : capacity - before.length < bytes.length
          · simp only [if_pos full] at written
            cases written
          · simp only [if_neg full] at written
            refine hypothesis (before ++ bytes) written ?_
            rw [List.length_append]
            omega

theorem dumpReply_fits (body : Nat → GlobalApi) (capacity : Nat)
    (entries : Except Status (List (Option (List Byte)))) :
    (dumpReply body capacity entries).Fits capacity := by
  simp only [dumpReply]
  split
  · exact Reply.fits_zero rfl
  · rename_i output written
    cases entries with
    | error status => cases written
    | ok entries =>
        have room := dumpEntries_room written
        intro
        exact (Nat.min_le_left _ _).trans room

theorem commandHistoryReply_fits (unicode : Bool) (length : Nat) (input : List Byte)
    (capacity : Nat) :
    (commandHistoryReply system server unicode length input capacity).Fits capacity := by
  simp only [commandHistoryReply]
  split
  · exact Reply.fits_zero rfl
  · split
    · exact Reply.fits_zero rfl
    · split
      · exact Reply.fits_zero rfl
      · rename_i output written
        split
        · exact Reply.fits_zero rfl
        · exact replyWith_fits (dumpEntries_room written)

theorem handle_fits {request : GlobalApi} (takes : request.takesOutput = true) (input : List Byte)
    (capacity : Nat) : (request.handle system server input capacity).2.Fits capacity := by
  cases request with
  | getConsoleProcessList count => exact processList_fits server capacity
  | getAlias unicode exeLength sourceLength targetLength =>
      exact getAliasReply_fits system server unicode exeLength sourceLength input capacity
  | getAliases unicode length => exact dumpReply_fits _ capacity _
  | getAliasExes unicode length => exact dumpReply_fits _ capacity _
  | getCommandHistory unicode length =>
      exact commandHistoryReply_fits system server unicode length input capacity
  | _ => cases takes

end GlobalApi

namespace InputApi

variable {environment : Environment} {console : Console} {object : Handle} {handle : ObjectHandle}

theorem length_inputRecordBytes (key : KeyEvent) : (inputRecordBytes key).length = 20 := by
  simp [inputRecordBytes, dwordBytes]

theorem getConsoleInputRequest_fits (capacity : Nat) (flags : UInt16) (unicode : Bool) :
    Fits capacity (some (.ok
      (getConsoleInputRequest environment console object handle capacity flags unicode))) := by
  simp only [getConsoleInputRequest]
  split
  · exact fits_answer (Reply.fits_zero rfl) console
  · refine fits_ofRead ?_
    have room := Records.getConsoleInput_fits environment.system.toPlatform
      { codePage := console.server.inputCodePage
        mode := console.server.inputMode
        processes := console.server.pids
        unicode := unicode
        capacity := capacity / 20
        isPeek := flags &&& 1 != 0
        waitAllowed := flags &&& 2 == 0 } ⟨handle, console.host⟩
    simp only at room
    simp only [List.length_flatMap, length_inputRecordBytes, List.map_const',
      List.sum_replicate_nat]
    omega

theorem readConsoleRequest_fits (fuel capacity : Nat) (unicode processControlZ : Bool) :
    Fits capacity (readConsoleRequest environment console object handle fuel capacity unicode
      processControlZ) := by
  simp only [readConsoleRequest]
  split
  · split
    · intro next reply requestExit answered
      cases answered
    · intro next reply requestExit answered
      cases answered
    · rename_i state reply read
      exact fits_ofRead (Cooked.readConsole_fits read rfl)
  · split
    · refine fits_ofRead ?_
      have room := UnicodeRead.rawUnicodeRead_fits environment.system.toPlatform
        (readCall console.server capacity processControlZ) ⟨handle, console.host⟩
      rw [length_unitBytes]
      simp only [UnicodeRead.maxUnits, readCall] at room ⊢
      omega
    · exact fits_ofRead (ByteRead.rawAnsiRead_fits _ _ _)

theorem handleRequest_fits {request : InputApi} (takes : request.takesOutput = true) (fuel : Nat)
    (input : List Byte) (capacity : Nat) :
    Fits capacity
      (request.handleRequest environment console object handle fuel input capacity) := by
  cases request with
  | getConsoleInput flags unicode numRecords =>
      exact getConsoleInputRequest_fits capacity flags unicode
  | readConsole unicode processControlZ numBytes =>
      exact readConsoleRequest_fits fuel capacity unicode processControlZ
  | _ => cases takes

end InputApi

section Dispatch

variable {environment : Environment} {console : Console} {packet : IoPacket} {fuel : Nat}

theorem dispatchApi_fits {apiSize : UInt32} {api : Api}
    (takes : IoFunction.takesOutput (.userDefined apiSize api) = true) :
    Fits (packet.outputSize - packet.writeOffset)
      (dispatchApi environment console packet fuel api) := by
  have refused : ∀ {api' : Api}, Fits (packet.outputSize - packet.writeOffset)
      (invalidHandle console api') := fits_answer (Reply.fits_zero rfl) console
  cases api with
  | getTitle unicode original length =>
      simp only [dispatchApi]
      split
      · exact refused
      · exact packet.fits_withBuffers fun _ capacity =>
          fits_answer (getTitleReply_fits environment console unicode original capacity) console
  | screen request =>
      have buffered : request.takesOutput = true := takes
      simp only [dispatchApi, buffered]
      split
      · exact refused
      · exact packet.fits_withBuffers fun input capacity =>
          fits_answer (ScreenApi.handle_fits buffered _ _ _ input capacity) _
  | global request =>
      have buffered : request.takesOutput = true := takes
      simp only [dispatchApi, buffered]
      exact packet.fits_withBuffers fun input capacity =>
        fits_answer (GlobalApi.handle_fits _ _ buffered input capacity) _
  | input request =>
      have buffered : request.takesOutput = true := takes
      simp only [dispatchApi, buffered]
      split
      · exact refused
      · exact packet.fits_withBuffers fun input capacity =>
          InputApi.handleRequest_fits buffered fuel input capacity
  | getMode | setMode | setTitle | writeConsole | unsupported => cases takes

theorem dispatchMessage_fits (takes : packet.function.takesOutput = true) :
    Fits (packet.outputSize - packet.writeOffset)
      (dispatchMessage environment console packet fuel) := by
  have refused : ∀ {status : Status}, Fits (packet.outputSize - packet.writeOffset)
      (console.answer { status := status }) := fits_answer (Reply.fits_zero rfl) console
  simp only [dispatchMessage]
  cases function : packet.function with
  | userDefined apiSize api =>
      rw [function] at takes
      simp only
      split
      · exact refused
      · exact dispatchApi_fits takes
  | rawRead =>
      simp only [rawReadRequest]
      split
      · exact refused
      · exact packet.fits_withBuffers fun _ capacity => fits_ofRead (ByteRead.rawRead_fits _ _ _)
  | connect | disconnect | createObject | closeObject | rawFlush | rawWrite | other =>
      rw [function] at takes
      cases takes

/-- The information word of a successful reply is within the output buffer of its message, so the
buffers of a message are always released but for failures of the device. -/
theorem releaseMessageBuffers_ok {next : Console} {reply : Reply} {requestExit : Bool}
    (takes : packet.function.takesOutput = true)
    (dispatched : dispatchMessage environment console packet fuel =
      some (.ok (next, .complete reply requestExit))) :
    (reply.status.ntSuccess = true →
        reply.information ≤ packet.outputSize - packet.writeOffset) ∧
      ∀ writeOutputFails,
        packet.releaseMessageBuffers writeOutputFails reply ≠ .error .internal := by
  have fits : reply.Fits (packet.outputSize - packet.writeOffset) :=
    dispatchMessage_fits takes next reply requestExit dispatched
  refine ⟨fits, ?_⟩
  intro writeOutputFails
  simp only [IoPacket.releaseMessageBuffers]
  split
  · rename_i succeeded
    rw [if_neg (Nat.not_lt.mpr (fits succeeded))]
    split <;> simp
  · simp

/-- A server with a title and one output handle. -/
def titled : Console where
  server :=
    { (ServerState.initial .utf8).setObject 24
        (some { kind := .output, screenBuffer := some 0 }) with
      title := ⟨[wc 'a', wc 'b'], []⟩ }

/-- The request for an ANSI title, with a buffer of three bytes behind the descriptor. -/
def titlePacket : IoPacket where
  process := 8
  object := 24
  function := .userDefined 8 (.getTitle false false 0)
  outputSize := 11

theorem releaseMessageBuffers_ok_title :
    ∃ reply, dispatchMessage (.utf8 0) titled titlePacket 0 =
        some (.ok (titled, .complete reply false)) ∧
      reply.status = .success ∧ reply.information = 3 ∧
      titlePacket.releaseMessageBuffers false reply ≠ .error .internal := by
  let reply : Reply :=
    { Reply.ofApi (.getTitle false false 2) .success with
      information := 3
      output := [bc 'a', bc 'b'] }
  have dispatched : dispatchMessage (.utf8 0) titled titlePacket 0 =
      some (.ok (titled, .complete reply false)) := rfl
  exact ⟨reply, dispatched, rfl, rfl, (releaseMessageBuffers_ok rfl dispatched).2 false⟩

end Dispatch

end Conhost
