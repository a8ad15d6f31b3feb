import Conhost.Input.Delivery
import Conhost.Input.LineEdit
import Conhost.Screen.VtOutput

/-!
# Line-input reads

`ReadConsole` with `ENABLE_LINE_INPUT` takes tokens off the stream and edits a
line with them until the line is complete, the user interrupts, or the stream
runs dry. The line persists in the handle while the request waits. With
`ENABLE_ECHO_INPUT` the edits are shown on the active screen buffer and written
to the host. Echoed text can be a terminal query that the server answers into
its own input, so nothing bounds the number of passes of the loop.
-/

namespace Conhost

/-- What a line-input read takes from the server and from its message. -/
structure CookedCall extends ReadCall where
  unicode : Bool := true
  outputMode : OutputMode := ⟨0⟩

/-- What a line-input read works on: the handle and the host, the active screen buffer, the title
and the line, without its suffix, that this read has completed. -/
structure CookedState where
  read : ReadState := {}
  screen : Option ScreenBuffer := none
  title : TitleState := {}
  completed : Option (List WChar) := none

namespace Cooked

variable (platform : Platform) (device : Device) (call : CookedCall)

def editLine (handle : ObjectHandle) : EditLine :=
  ⟨handle.cookedLineInProgress, handle.cookedLineCursor, handle.cookedInsertMode⟩

def setHandle (state : CookedState) (update : ObjectHandle → ObjectHandle) : CookedState :=
  { state with read := { state.read with handle := update state.read.handle } }

def setEdit (state : CookedState) (edit : EditLine) : CookedState :=
  setHandle state fun handle =>
    { handle with
      cookedLineInProgress := edit.line
      cookedLineCursor := edit.cursor
      cookedInsertMode := edit.insertMode }

/-- The part of `echo_text` that shows the text on the active screen buffer. A query in the text is
answered into the input queue if there is no output target that would answer it. -/
def showText (text : List WChar) (state : CookedState) : CookedState :=
  match state.screen with
  | none => state
  | some buffer =>
      let shown := applyTextToScreenBuffer buffer text call.outputMode (some state.title)
        (!state.read.host.hasOutput)
      { state with
        screen := some shown.buffer
        title := shown.title.getD state.title
        read := state.read.arrive shown.replies.flatten }

/-- `echo_text` -/
def echoText (text : List WChar) (state : CookedState) : CookedState × Except Fault Unit :=
  if !call.mode.echoInput || text.isEmpty then (state, .ok ())
  else
    let state := showText call text state
    let encoded := platform.wideCharToMultiByte cpUtf8 text
    if intMax < text.length ∨ encoded = [] then (state, .error .internal)
    else
      match state.read.host.writeOutputBytes device encoded with
      | .error fault => (state, .error fault)
      | .ok host => ({ state with read := { state.read with host := host } }, .ok ())

def echoTexts : List (List WChar) → CookedState → CookedState × Except Fault Unit
  | [], state => (state, .ok ())
  | text :: later, state =>
      match echoText platform device call text state with
      | (state, .ok ()) => echoTexts later state
      | failed => failed

/-- The answers to the queries of a shown text that go to the input queue. -/
def showAnswers (text : List WChar) (state : CookedState) : List Byte :=
  match state.screen with
  | none => []
  | some buffer =>
      (applyTextToScreenBuffer buffer text call.outputMode (some state.title)
        (!state.read.host.hasOutput)).replies.flatten

def textAnswers (text : List WChar) (state : CookedState) : List Byte :=
  if !call.mode.echoInput || text.isEmpty then [] else showAnswers call text state

def answers : List (List WChar) → CookedState → List Byte
  | [], _ => []
  | text :: later, state =>
      textAnswers call text state ++
        match echoText platform device call text state with
        | (state, .ok ()) => answers later state
        | (_, .error _) => []

/-- The suffix of a completed line. -/
def newlineSuffix : List WChar := if call.mode.processedInput then [13, 10] else [13]

/-- A token that counts as a line feed after a carriage return. -/
def isLf : Token → Bool
  | .textUnits chars => chars == [10]
  | .keyEvent key => key.keyDown && key.unicodeChar == 10
  | .ignoredSequence => false

/-- The look-ahead after a carriage return: a line feed is taken with it if it has arrived. -/
def skipLf (state : ReadState) : ReadState :=
  match platform.decodeOneInputToken call.codePage state.peekHead with
  | .needMore => state
  | .token token length => if isLf token then state.consume length else state

abbrev Result := CookedState × Except Fault (ReadReply Byte)

/-- The end of a line: the line with its suffix becomes the pending line and is delivered. -/
def finishLine (state : CookedState) : Result :=
  let line := state.read.handle.cookedLineInProgress
  let delivered := Delivery.deliverPending platform call.codePage call.unicode call.capacity
    (line ++ newlineSuffix call)
  (setHandle { state with completed := some line } fun handle =>
      { handle with
        cookedReadPending := delivered.1
        cookedLineInProgress := []
        cookedLineCursor := 0 },
    .ok delivered.2)

/-- What follows the edits and echoes of a token. -/
def conclude (state : CookedState) : EditLine.Outcome → Pass CookedState Result
  | .proceed => .next state
  | .endOfFile => .leave (state, .ok (.complete .success []))
  | .ctrlC =>
      .leave ({ state with read := state.read.forward call.processes .ctrlC },
        .ok (.complete .alerted []))
  | .ctrlBreak =>
      .leave (setHandle { state with
        read := state.read.flushInput.forward call.processes .ctrlBreak }
          fun handle => { handle with cookedLineCursor := 0, cookedInsertMode := true },
        .ok (.complete .alerted []))
  | .newline carriageReturn =>
      let state :=
        if carriageReturn then { state with read := skipLf platform call state.read } else state
      match echoText platform device call (newlineSuffix call) state with
      | (state, .error fault) => .leave (state, .error fault)
      | (state, .ok ()) => .leave (finishLine platform call state)

/-- One token. -/
def handleToken (state : CookedState) (token : Token) : Pass CookedState Result :=
  let effect := (editLine state.read.handle).handleToken call.mode.processedInput
    call.processControlZ token
  match echoTexts platform device call effect.echoes (setEdit state effect.edit) with
  | (state, .error fault) => .leave (state, .error fault)
  | (state, .ok ()) => conclude platform device call state effect.outcome

/-- The read after its loop: the request waits unless no byte can follow. -/
def idle (state : CookedState) : Result :=
  if state.read.host.inputDisconnected then
    (setHandle state fun handle =>
        { handle with
          pendingInputBytes := .clear
          cookedLineInProgress := []
          cookedLineCursor := 0 },
      .ok (.complete .unsuccessful []))
  else (state, .ok .pending)

def body (state : CookedState) : Pass CookedState Result :=
  if state.read.exhausted then .leave (idle state)
  else
    match platform.decodeOneInputToken call.codePage state.read.peekHead with
    | .needMore =>
        .leave (idle { state with
          read := state.read.drain (64 - state.read.pendingPrefix.length) })
    | .token token length =>
        handleToken platform device call { state with read := state.read.consume length } token

/-- The state the loop of a dispatch starts in. -/
def start (state : CookedState) : CookedState :=
  setEdit { state with completed := none } (editLine state.read.handle).normalizeCursor

/-- `ReadConsole` with `ENABLE_LINE_INPUT`, in at most `fuel` passes of its loop. -/
def readConsole (fuel : Nat) (state : CookedState) : Option Result :=
  if call.capacity = 0 then some (state, .ok (.complete .success []))
  else
    let pending := state.read.handle.cookedReadPending
    if pending ≠ [] then
      let delivered := Delivery.deliverPending platform call.codePage call.unicode call.capacity
        pending
      some (setHandle (start state) fun handle => { handle with cookedReadPending := delivered.1 },
        .ok delivered.2)
    else iterate (body platform device call) fuel (start state)

/-- The bytes that arrive while a line-input read waits. -/
def arrive (state : CookedState) (bytes : List Byte) : CookedState :=
  { state with read := state.read.arrive bytes }

variable {platform device call} {state : CookedState}

theorem stream_showText (text : List WChar) (state : CookedState) :
    (showText call text state).read.stream = state.read.stream ++ showAnswers call text state := by
  cases screen : state.screen with
  | none => simp [showText, showAnswers, screen]
  | some buffer => simp [showText, showAnswers, screen]

theorem stream_echoText (text : List WChar) (state : CookedState) :
    (echoText platform device call text state).1.read.stream =
      state.read.stream ++ textAnswers call text state := by
  simp only [echoText, textAnswers]
  split
  · exact (List.append_nil _).symm
  · split
    · exact stream_showText text state
    · split
      · exact stream_showText text state
      · rename_i host written
        rw [← stream_showText text state]
        simp only [HostIo.writeOutputBytes] at written
        split at written
        · cases written
          rfl
        · split at written
          · cases written
          · cases written
            rfl

theorem stream_echoTexts (texts : List (List WChar)) (state : CookedState) :
    (echoTexts platform device call texts state).1.read.stream =
      state.read.stream ++ answers platform device call texts state := by
  induction texts generalizing state with
  | nil => exact (List.append_nil _).symm
  | cons text later hypothesis =>
      have first : (echoText platform device call text state).1.read.stream = _ :=
        stream_echoText text state
      simp only [echoTexts, answers]
      split
      · rename_i next echoed
        rw [echoed] at first
        rw [hypothesis, first, List.append_assoc, echoed]
      · rename_i failed
        rw [first]
        split
        · rename_i next echoed
          exact absurd echoed (failed next)
        · rw [List.append_nil]

@[simp]
theorem stream_start (state : CookedState) : (start state).read.stream = state.read.stream := rfl

theorem peekHead_start (state : CookedState) :
    (start state).read.peekHead = state.read.stream.take 64 :=
  (start state).read.peekHead_eq

theorem readConsole_deliver (room : call.capacity ≠ 0)
    (waiting : state.read.handle.cookedReadPending ≠ []) (fuel : Nat) :
    let delivered := Delivery.deliverPending platform call.codePage call.unicode call.capacity
      state.read.handle.cookedReadPending
    readConsole platform device call fuel state =
      some (setHandle (start state) fun handle => { handle with cookedReadPending := delivered.1 },
        .ok delivered.2) := by
  rw [readConsole, if_neg room]
  simp only [if_pos waiting]

theorem readConsole_iterate (room : call.capacity ≠ 0)
    (empty : state.read.handle.cookedReadPending = []) (fuel : Nat) :
    readConsole platform device call fuel state =
      iterate (body platform device call) fuel (start state) := by
  rw [readConsole, if_neg room]
  simp only [ne_eq, empty, not_true_eq_false, if_false]

section Quiet

variable (quiet : call.mode.echoInput = false)
include quiet

theorem echoText_quiet (text : List WChar) (state : CookedState) :
    echoText platform device call text state = (state, .ok ()) := by
  simp [echoText, quiet]

theorem echoTexts_quiet (texts : List (List WChar)) (state : CookedState) :
    echoTexts platform device call texts state = (state, .ok ()) := by
  induction texts with
  | nil => rfl
  | cons text later hypothesis => simp only [echoTexts, echoText_quiet quiet, hypothesis]

end Quiet

end Cooked

end Conhost
