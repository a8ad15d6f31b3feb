import Conhost.Input.Lines
import Conhost.Input.RecordStream
import Conhost.Input.Waiting

/-!
# Unicode reads, token by token

What a pass of a raw Unicode read does follows from the token at the front of
the stream and from the room that is left. Text that does not fit is split and
its second unit held back; a repeated key that does not fit is cut off.
-/

namespace Conhost

open Relation (ReflTransGen)

namespace UnicodeRead

variable (platform : Platform) (call : ReadCall)

/-- What is to be done with a token. -/
inductive Action where
  | skip
  | ctrlC
  | interrupt
  | key (unit : WChar) (count : Nat)
  | text (units : List WChar)
deriving DecidableEq

namespace Action

/-- The token delivers nothing and does not end the read. -/
def isSilent : Action → Bool
  | .skip => true
  | .ctrlC => true
  | _ => false

/-- The units of the token where there is room for them. -/
def units : Action → List WChar
  | .key unit count => List.replicate count unit
  | .text units => units
  | _ => []

end Action

def keyAction (key : KeyEvent) : Action :=
  if call.mode.processedInput && key.keyDown && key.matchesCtrlBreak then .interrupt
  else if call.mode.processedInput && key.keyDown && key.matchesCtrlC then .ctrlC
  else if !key.keyDown then .skip
  else if key.unicodeChar = 0 then .skip
  else .key key.unicodeChar (max 1 key.repeatCount.toNat)

def action : Token → Action
  | .ignoredSequence => .skip
  | .keyEvent key => keyAction call key
  | .textUnits chars =>
      if call.mode.processedInput && chars == [3] then .ctrlC else .text chars

/-- The pass that takes a token of the given length. -/
def perform (loop : LoopState) (length : Nat) : Action →
    Pass LoopState (ReadState × ReadReply WChar)
  | .skip => .next (loop.consume length)
  | .ctrlC => .next ((loop.consume length).forward call .ctrlC)
  | .interrupt =>
      .leave ((loop.state.consume length).flushInput.forward call.processes .ctrlBreak,
        .complete .alerted [])
  | .key unit count =>
      .next ⟨loop.state.consume length, loop.written ++
        List.replicate (min count (maxUnits call - loop.written.length)) unit⟩
  | .text units =>
      if maxUnits call - loop.written.length < units.length then
        .leave (finish ⟨(loop.state.consume length).setHeld units[1]?,
          loop.written ++ units.take 1⟩)
      else if (loop.state.consume length).exhausted then
        .leave (finish ⟨loop.state.consume length, loop.written ++ units⟩)
      else .next ⟨loop.state.consume length, loop.written ++ units⟩

variable {platform call} {loop : LoopState}

theorem keyEvent_eq_perform (key : KeyEvent) (length : Nat) :
    keyEvent call (loop.consume length) key = perform call loop length (keyAction call key) := by
  simp only [keyEvent, keyAction]
  repeat' split
  all_goals rfl

theorem textUnits_eq_perform (chars : List WChar) (length : Nat) :
    textUnits call (loop.consume length) chars (overflows call loop chars) =
      perform call loop length (action call (.textUnits chars)) := by
  simp only [textUnits, action]
  split
  · rfl
  · simp only [perform, overflows, decide_eq_true_eq]
    split
    · rfl
    · split
      · rename_i fits exhausted
        rw [if_pos (show (loop.state.consume length).exhausted = true from exhausted)]
        rfl
      · rename_i fits unread
        rw [if_neg (show ¬(loop.state.consume length).exhausted = true from unread)]
        rfl

/-- What a pass does, by the token at the front of the stream. -/
theorem body_token {token : Token} {length : Nat} (room : loop.written.length < maxUnits call)
    (found : (windowDecoder platform call.codePage).decode loop.state.stream =
      .token token length) :
    body platform call loop = perform call loop length (action call token) := by
  change platform.decodeOneInputToken call.codePage (loop.state.stream.take 64) = _ at found
  rw [← ReadState.peekHead_eq] at found
  have unread := ReadState.exhausted_eq_false_of_token found
  rw [body, if_neg (Nat.not_le.mpr room), if_neg (by simp [unread]), found]
  cases token with
  | ignoredSequence => rfl
  | keyEvent key => exact keyEvent_eq_perform key length
  | textUnits chars =>
      have short := (Platform.decodeOneInputToken_text found).2
      have splits : ¬(overflows call loop chars &&
          !(chars.length == 2 && maxUnits call - loop.written.length == 1)) = true := by
        simp only [overflows, Bool.and_eq_true, decide_eq_true_eq, Bool.not_eq_true',
          Bool.and_eq_false_iff, beq_eq_false_iff_ne, not_and, not_or, not_not]
        omega
      simp only [if_neg splits]
      exact textUnits_eq_perform chars length

/-- What a pass does where no token can be taken. -/
theorem body_waiting (room : loop.written.length < maxUnits call)
    (waiting : (windowDecoder platform call.codePage).Waiting loop.state.stream) :
    (loop.written ≠ [] ∧ body platform call loop = .leave (finish loop)) ∨
      (loop.written = [] ∧ ∃ last : ReadState, body platform call loop = .leave last.wait ∧
        last.stream = loop.state.stream ∧
        last.handle.decodedInputPending = loop.state.handle.decodedInputPending) := by
  change platform.decodeOneInputToken call.codePage (loop.state.stream.take 64) = _ at waiting
  rw [← ReadState.peekHead_eq] at waiting
  rw [body, if_neg (Nat.not_le.mpr room), waiting]
  by_cases written : loop.written = []
  · refine .inr ⟨written, ?_⟩
    simp only [written, ne_eq, not_true_eq_false, if_false]
    split
    · exact ⟨loop.state, rfl, rfl, rfl⟩
    · exact ⟨_, rfl, loop.state.stream_drain _, loop.state.decodedInputPending_drain _⟩
  · refine .inl ⟨written, ?_⟩
    simp only [ne_eq, written, not_false_eq_true, if_true, ite_self]

theorem stream_perform {does : Action} {length : Nat} {next : LoopState}
    (pass : perform call loop length does = .next next) :
    next.state.stream = loop.state.stream.drop length := by
  cases does with
  | skip =>
      cases pass
      exact loop.state.stream_consume length
  | ctrlC =>
      cases pass
      exact loop.state.stream_consume length
  | interrupt => cases pass
  | key unit count =>
      cases pass
      exact loop.state.stream_consume length
  | text units =>
      simp only [perform] at pass
      split at pass
      · cases pass
      · split at pass
        · cases pass
        · cases pass
          exact loop.state.stream_consume length

end UnicodeRead

end Conhost
