import Conhost.Input.Waiting

/-!
# Reads that meet Ctrl+Break

In processed mode a Ctrl+Break key-down ends the read that comes upon it and
empties the input queue and the buffers of the handle. Only a line-input read
also resets the cursor and the insert mode of the line editor.
-/

namespace Conhost

open Relation (ReflTransGen)

/-- A Ctrl+Break key-down that is processed. -/
def KeyEvent.interrupts (mode : InputMode) (key : KeyEvent) : Bool :=
  mode.processedInput && key.keyDown && key.matchesCtrlBreak

/-- Nothing is left in the queue and in the buffers of the handle. -/
structure ReadState.Emptied (state : ReadState) : Prop where
  queue : state.host.inputQueue = []
  held : state.handle.decodedInputPending = none
  drained : state.handle.pendingInputBytes = .clear
  pending : state.handle.cookedReadPending = []
  line : state.handle.cookedLineInProgress = []

theorem ReadState.flushInput_emptied (state : ReadState) : state.flushInput.Emptied :=
  ⟨rfl, rfl, rfl, rfl, rfl⟩

theorem ReadState.Emptied.forwardTimes {state : ReadState} (emptied : state.Emptied)
    (processes : List UInt32) (event : ControlEvent) (count : Nat) :
    (state.forwardTimes processes event count).Emptied :=
  ⟨emptied.queue, emptied.held, emptied.drained, emptied.pending, emptied.line⟩

theorem ReadState.Emptied.forward {state : ReadState} (emptied : state.Emptied)
    (processes : List UInt32) (event : ControlEvent) :
    (state.forward processes event).Emptied :=
  ⟨emptied.queue, emptied.held, emptied.drained, emptied.pending, emptied.line⟩

variable {platform : Platform}

namespace ByteRead

variable {call : ReadCall} {controlZ : Bool} {state : ReadState} {loop : LoopState}

/-- The next token is a Ctrl+Break key-down. -/
def NextBreaks (call : ReadCall) (loop : LoopState) : Prop :=
  loop.written.length < call.capacity ∧ ∃ key length,
    headOutcome loop.state.peekHead = .produced (.keyEvent key) length ∧
      key.interrupts call.mode = true

/-- The loop comes upon a Ctrl+Break key-down. -/
def SeesBreak (platform : Platform) (call : ReadCall) (controlZ : Bool)
    (state : ReadState) : Prop :=
  ∃ last, ReflTransGen (Continues (body platform call controlZ)) ⟨state, []⟩ last ∧
    NextBreaks call last

theorem NextBreaks.body_eq (meets : NextBreaks call loop) : ∃ count,
    body platform call controlZ loop = .leave
      ((loop.state.consume count).flushInput.forward call.processes .ctrlBreak,
        .complete .alerted []) := by
  rcases meets with ⟨room, key, length, produced, interrupts⟩
  refine ⟨length, ?_⟩
  rw [KeyEvent.interrupts] at interrupts
  simp only [body, if_neg (Nat.not_le.mpr room)]
  split
  · rename_i empty
    rw [empty] at produced
    cases produced
  · rename_i first rest head
    rw [head] at produced
    rw [produced]
    simp only [keyEvent, if_pos interrupts]

theorem SeesBreak.readLoop_emptied (sees : SeesBreak platform call controlZ state) :
    ((readLoop platform call controlZ).run ⟨state, []⟩).1.Emptied := by
  rcases sees with ⟨last, path, meets⟩
  rcases meets.body_eq with ⟨count, pass⟩
  rw [(readLoop platform call controlZ).run_of_path path,
    (readLoop platform call controlZ).run_of_leave pass]
  exact (ReadState.flushInput_emptied _).forward _ _

theorem SeesBreak.unread (sees : SeesBreak platform call controlZ state) :
    state.exhausted = false := by
  rw [ReadState.exhausted_eq_false_iff]
  rcases sees with ⟨last, path, meets⟩
  rcases path.cases_head with rfl | ⟨next, first, -⟩
  · rcases meets with ⟨-, key, length, produced, -⟩
    intro empty
    rw [ReadState.peekHead_eq, empty] at produced
    cases produced
  · rcases body_next first with ⟨-, unread, -⟩
    exact unread

/-- A raw `ReadConsole` comes upon a Ctrl+Break key-down. -/
def RawSeesBreak (platform : Platform) (call : ReadCall) (state : ReadState) : Prop :=
  controlZAtFront call (prepared call state) = false ∧
    SeesBreak platform call false (prepared call state)

theorem RawSeesBreak.emptied (sees : RawSeesBreak platform call state) :
    (rawAnsiRead platform call state).1.Emptied := by
  rcases sees with ⟨notEnd, sees⟩
  have room : call.capacity ≠ 0 := by
    rcases sees with ⟨last, -, fits, -⟩
    omega
  rw [rawAnsiRead_eq room, if_neg (by simp [sees.unread]), if_neg (by simp [notEnd])]
  exact sees.readLoop_emptied

end ByteRead

namespace UnicodeRead

variable {call : ReadCall} {state : ReadState} {loop : LoopState}

def NextBreaks (platform : Platform) (call : ReadCall) (loop : LoopState) : Prop :=
  loop.written.length < maxUnits call ∧ ∃ key length,
    platform.decodeOneInputToken call.codePage loop.state.peekHead = .token (.keyEvent key) length ∧
      key.interrupts call.mode = true

/-- A raw Unicode `ReadConsole` comes upon a Ctrl+Break key-down. -/
def SeesBreak (platform : Platform) (call : ReadCall) (state : ReadState) : Prop :=
  let current := ByteRead.prepared call state
  ByteRead.controlZAtFront call current = false ∧
    ∃ last, ReflTransGen (Continues (body platform call))
        ⟨current.setHeld none, current.handle.decodedInputPending.toList⟩ last ∧
      NextBreaks platform call last

theorem NextBreaks.body_eq (meets : NextBreaks platform call loop) : ∃ count,
    body platform call loop = .leave
      ((loop.state.consume count).flushInput.forward call.processes .ctrlBreak,
        .complete .alerted []) := by
  rcases meets with ⟨room, key, length, decoded, interrupts⟩
  refine ⟨length, ?_⟩
  rw [KeyEvent.interrupts] at interrupts
  have unread := ReadState.exhausted_eq_false_of_token decoded
  simp only [body, if_neg (Nat.not_le.mpr room), unread, decoded, keyEvent, if_pos interrupts]
  rfl

theorem SeesBreak.emptied (sees : SeesBreak platform call state) :
    (rawUnicodeRead platform call state).1.Emptied := by
  rcases sees with ⟨notEnd, last, path, meets⟩
  have units : maxUnits call ≠ 0 := by
    have fits := meets.1
    omega
  have room : call.capacity ≠ 0 := by
    intro empty
    exact units (by rw [maxUnits, empty])
  have unread : (ByteRead.prepared call state).exhausted = false := by
    change ((ByteRead.prepared call state).setHeld none).exhausted = false
    rcases path.cases_head with rfl | ⟨next, first, -⟩
    · rcases meets with ⟨-, key, length, decoded, -⟩
      exact ReadState.exhausted_eq_false_of_token decoded
    · rcases body_next first with ⟨token, length, decoded, -⟩
      exact ReadState.exhausted_eq_false_of_token decoded
  rcases meets.body_eq with ⟨count, pass⟩
  have final := (readLoop platform call).run_of_path path
  rw [(readLoop platform call).run_of_leave pass] at final
  rw [rawUnicodeRead_eq room, if_neg (by simp [unread]), if_neg (by simp [notEnd]), if_neg units,
    final]
  exact (ReadState.flushInput_emptied _).forward _ _

end UnicodeRead

namespace Records

variable {call : RecordCall} {state : ReadState} {scan : Scan}

def NextBreaks (platform : Platform) (call : RecordCall) (scan : Scan) : Prop :=
  scan.records.length < call.capacity ∧ ∃ key length,
    platform.decodeOneInputToken call.codePage scan.rest = .token (.keyEvent key) length ∧
      key.interrupts call.mode = true

/-- The scan a pass of `ConsolepGetConsoleInput` begins with. -/
def scanStart (call : RecordCall) (state : ReadState) : Scan :=
  ({ rest := state.window (peekLimit call) } : Scan).push call
    (state.handle.decodedInputPending.toList.map makeSimpleCharacterKeyEvent)

/-- `ConsolepGetConsoleInput` comes upon a Ctrl+Break key-down. -/
def SeesBreak (platform : Platform) (call : RecordCall) (state : ReadState) : Prop :=
  ∃ last, ReflTransGen (Continues (getBody platform call)) (stripped call state) last ∧
    ∃ scan, ReflTransGen (Continues (scanBody platform call)) (scanStart call last) scan ∧
      NextBreaks platform call scan

theorem NextBreaks.scanBody_eq (meets : NextBreaks platform call scan) : ∃ final,
    scanBody platform call scan = .leave final ∧ final.ctrlBreak = true ∧ final.records = [] ∧
      final.bytesConsumed ≠ 0 ∧ call.mode.processedInput = true := by
  rcases meets with ⟨room, key, length, decoded, interrupts⟩
  have positive := Platform.decodeOneInputToken_positive decoded
  simp only [KeyEvent.interrupts, Bool.and_eq_true] at interrupts
  rcases interrupts with ⟨⟨processed, down⟩, isBreak⟩
  have busy : ¬(call.capacity ≤ scan.records.length ∨ scan.rest = []) := by
    rintro (full | empty)
    · omega
    · rw [empty] at decoded
      cases decoded
  refine ⟨{ scan.advance length with ctrlBreak := true, records := [] }, ?_, rfl, rfl, ?_,
    processed⟩
  · simp only [scanBody, if_neg busy, decoded, keyEvent, processed, isBreak, down, Bool.and_self,
      if_true]
  · simp only [Scan.advance]
    omega

theorem NextBreaks.scanWindow_eq
    (path : ReflTransGen (Continues (scanBody platform call)) (scanStart call state) scan)
    (meets : NextBreaks platform call scan) :
    (scanWindow platform call state).ctrlBreak = true ∧
      (scanWindow platform call state).records = [] ∧
      (scanWindow platform call state).bytesConsumed ≠ 0 ∧ call.mode.processedInput = true := by
  rcases meets.scanBody_eq with ⟨final, pass, found⟩
  have run := (scanLoop platform call).run_of_path path
  rw [(scanLoop platform call).run_of_leave pass] at run
  change scanWindow platform call state = final at run
  rwa [run]

theorem commit_emptied (state : ReadState) (processed : call.mode.processedInput = true)
    (interrupted : scan.ctrlBreak = true) : (commit call state scan).Emptied := by
  simp only [commit, processed, interrupted, Bool.and_self, if_true]
  split
  · exact (ReadState.flushInput_emptied _).forward _ _
  · exact ((ReadState.flushInput_emptied _).forward _ _).forwardTimes _ _ _

theorem conclude_emptied (state : ReadState) (processed : call.mode.processedInput = true)
    (interrupted : scan.ctrlBreak = true) : ∃ final reply,
      conclude call state scan = .leave (final, reply) ∧ final.Emptied := by
  have emptied := commit_emptied state processed interrupted
  have exhausted : (commit call state scan).exhausted = true := by
    rw [ReadState.exhausted_iff, ReadState.stream, emptied.queue, ReadState.pendingPrefix,
      emptied.drained]
    rfl
  simp only [conclude]
  split
  · split
    · exact ⟨_, _, rfl, emptied⟩
    · rw [exhausted, emptied.held]
      exact ⟨_, _, rfl, emptied⟩
  · exact ⟨_, _, rfl, emptied⟩

theorem SeesBreak.emptied (sees : SeesBreak platform call state) :
    (getConsoleInput platform call state).1.Emptied := by
  rcases sees with ⟨last, path, scan, scanned, meets⟩
  have room : call.capacity ≠ 0 := by
    have fits := meets.1
    omega
  rcases NextBreaks.scanWindow_eq scanned meets with ⟨interrupted, -, consumed, processed⟩
  have unread : ¬(call.waitAllowed && last.handle.decodedInputPending.isNone &&
      last.exhausted) = true := by
    intro idle
    have bound := scanWindow_consumed platform call last
    simp only [Bool.and_eq_true, ReadState.exhausted_iff] at idle
    rw [idle.2] at bound
    simp only [List.length_nil, Nat.le_zero] at bound
    exact consumed bound
  rcases conclude_emptied (afterScan call last (scanWindow platform call last)) processed
    interrupted with ⟨final, reply, concluded, emptied⟩
  have pass : getBody platform call last = .leave (final, reply) := by
    simp only [getBody, if_neg unread]
    rw [if_neg (by simp [consumed])]
    exact concluded
  rw [getConsoleInput_eq room, (getLoop platform call).run_of_path path,
    (getLoop platform call).run_of_leave pass]
  exact emptied

end Records

namespace Cooked

variable {device : Device} {call : CookedCall} {state : CookedState}

/-- A line-input `ReadConsole` comes upon a Ctrl+Break key-down. -/
def SeesBreak (platform : Platform) (device : Device) (call : CookedCall) (state : CookedState) :
    Prop :=
  call.capacity ≠ 0 ∧ state.read.handle.cookedReadPending = [] ∧
    ∃ last, ReflTransGen (Continues (body platform device call)) (start state) last ∧
      ∃ key length, platform.decodeOneInputToken call.codePage last.read.peekHead =
          .token (.keyEvent key) length ∧ key.interrupts call.mode = true

theorem SeesBreak.emptied {fuel : Nat} {result : Result}
    (sees : SeesBreak platform device call state)
    (read : readConsole platform device call fuel state = some result) :
    result.1.read.Emptied ∧ result.1.read.handle.cookedLineCursor = 0 ∧
      result.1.read.handle.cookedInsertMode = true := by
  rcases sees with ⟨room, empty, last, path, key, length, decoded, interrupts⟩
  rw [readConsole_iterate room empty] at read
  have unread := ReadState.exhausted_eq_false_of_token decoded
  simp only [KeyEvent.interrupts, Bool.and_eq_true] at interrupts
  rcases interrupts with ⟨⟨processed, down⟩, isBreak⟩
  have pass : ∃ final, body platform device call last =
      .leave (final, .ok (.complete .alerted [])) ∧
      final.read.Emptied ∧ final.read.handle.cookedLineCursor = 0 ∧
        final.read.handle.cookedInsertMode = true := by
    simp only [body, unread, decoded, handleToken, EditLine.handleToken, down, processed, isBreak,
      conclude]
    exact ⟨_, rfl, ⟨rfl, rfl, rfl, rfl, rfl⟩, rfl, rfl⟩
  rcases pass with ⟨final, pass, reset⟩
  rw [iterate_of_path path pass read]
  exact reset

end Cooked

end Conhost
