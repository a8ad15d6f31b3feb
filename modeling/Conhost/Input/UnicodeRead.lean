import Conhost.Input.ByteRead

/-!
# Unicode reads

`ReadConsole` with the Unicode flag and without `ENABLE_LINE_INPUT` returns the
UTF-16 units of text and the characters of key events. Unlike the byte reads it
waits for the end of every unfinished token, however long.
-/

namespace Conhost

namespace UnicodeRead

structure LoopState where
  state : ReadState
  written : List WChar

variable (platform : Platform) (call : ReadCall) (loop : LoopState)

/-- The number of units the output buffer holds. -/
def maxUnits : Nat := call.capacity / 2

def finish : ReadState × ReadReply WChar := (loop.state, .complete .success loop.written)

def LoopState.consume (bytesConsumed : Nat) : LoopState :=
  { loop with state := loop.state.consume bytesConsumed }

def LoopState.forward (event : ControlEvent) : LoopState :=
  { loop with state := loop.state.forward call.processes event }

def keyEvent (key : KeyEvent) : Pass LoopState (ReadState × ReadReply WChar) :=
  if call.mode.processedInput && key.keyDown && key.matchesCtrlBreak then
    .leave (loop.state.flushInput.forward call.processes .ctrlBreak, .complete .alerted [])
  else if call.mode.processedInput && key.keyDown && key.matchesCtrlC then
    .next (loop.forward call .ctrlC)
  else if !key.keyDown then .next loop
  else if key.unicodeChar = 0 then .next loop
  else
    let count := min (max 1 key.repeatCount.toNat) (maxUnits call - loop.written.length)
    .next { loop with written := loop.written ++ List.replicate count key.unicodeChar }

/-- The text of a token; a surrogate pair that does not fit leaves its second unit in the handle. -/
def textUnits (chars : List WChar) (split : Bool) : Pass LoopState (ReadState × ReadReply WChar) :=
  if call.mode.processedInput && chars == [3] then .next (loop.forward call .ctrlC)
  else if split then
    .leave (finish ⟨loop.state.setHeld chars[1]?, loop.written ++ chars.take 1⟩)
  else
    let next : LoopState := { loop with written := loop.written ++ chars }
    if next.state.exhausted then .leave (finish next) else .next next

/-- The units of a text token that do not fit into the buffer. -/
def overflows (chars : List WChar) : Bool :=
  maxUnits call - loop.written.length < chars.length

def body : Pass LoopState (ReadState × ReadReply WChar) :=
  if maxUnits call ≤ loop.written.length then .leave (finish loop)
  else if loop.state.exhausted then
    .leave (if loop.written ≠ [] then finish loop else loop.state.wait)
  else
    match platform.decodeOneInputToken call.codePage loop.state.peekHead with
    | .needMore =>
        .leave (if loop.written ≠ [] then finish loop
          else (loop.state.drain (64 - loop.state.pendingPrefix.length)).wait)
    | .token .ignoredSequence length => .next (loop.consume length)
    | .token (.keyEvent key) length => keyEvent call (loop.consume length) key
    | .token (.textUnits chars) length =>
        if overflows call loop chars &&
            !(chars.length == 2 && maxUnits call - loop.written.length == 1) then
          .leave (finish loop)
        else textUnits call (loop.consume length) chars (overflows call loop chars)

variable {platform call loop}

/-- A pass that continues takes a token off the stream. -/
theorem body_next {next : LoopState} (pass : body platform call loop = .next next) :
    ∃ token length, platform.decodeOneInputToken call.codePage loop.state.peekHead =
        .token token length ∧ next.state.stream = loop.state.stream.drop length := by
  simp only [body] at pass
  split at pass
  · cases pass
  · split at pass
    · cases pass
    · split at pass
      · cases pass
      · rename_i length decoded
        cases pass
        exact ⟨_, length, decoded, by simp [LoopState.consume]⟩
      · rename_i key length decoded
        refine ⟨_, length, decoded, ?_⟩
        simp only [keyEvent] at pass
        split at pass
        · cases pass
        · split at pass
          · cases pass
            simp [LoopState.consume, LoopState.forward]
          · split at pass
            · cases pass
              simp [LoopState.consume]
            · split at pass <;> cases pass <;> simp [LoopState.consume]
      · rename_i chars length decoded
        refine ⟨_, length, decoded, ?_⟩
        split at pass
        · cases pass
        · simp only [textUnits] at pass
          split at pass
          · cases pass
            simp [LoopState.consume, LoopState.forward]
          · split at pass
            · cases pass
            · split at pass <;> cases pass
              simp [LoopState.consume]

variable (platform call)

def readLoop : Loop LoopState (ReadState × ReadReply WChar) where
  body := body platform call
  measure loop := loop.state.stream.length
  decreases := by
    intro loop next pass
    obtain ⟨token, length, decoded, rest⟩ := body_next pass
    have positive := Platform.decodeOneInputToken_positive decoded
    have bounded := Platform.decodeOneInputToken_bounded decoded
    rw [ReadState.peekHead_eq, List.length_take] at bounded
    rw [rest, List.length_drop]
    omega

/-- `ReadConsole` with the Unicode flag and without `ENABLE_LINE_INPUT`. -/
def rawUnicodeRead (state : ReadState) : ReadState × ReadReply WChar :=
  if call.capacity = 0 then (state, .complete .success [])
  else
    let state := if call.mode.processedInput then state.stripCtrlC call.processes else state
    if state.exhausted && state.handle.decodedInputPending.isNone then state.wait
    else if ByteRead.controlZAtFront call state then
      (state.setQueue state.host.inputQueue.tail, .complete .success [])
    else if maxUnits call = 0 then (state, .complete .success [])
    else
      (readLoop platform call).run
        ⟨state.setHeld none, state.handle.decodedInputPending.toList⟩

end UnicodeRead

end Conhost
