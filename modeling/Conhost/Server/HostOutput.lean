import Conhost.Input.Conversion
import Conhost.Server.Dispatch

/-!
# Output to the host and to the model

A Unicode `WriteConsole` and the echo of a line-input read send a text two ways:
to a screen buffer, and encoded in UTF-8 to the host. They do so piece by piece,
a request or a call of `echo_text` at a time. This module settles when the bytes
of the pieces are the encoding of their texts taken together.
-/

namespace Conhost

/-- Where output goes: the screen buffers and the title, and the host. -/
@[ext]
structure Sinks where
  screens : List ScreenBuffer
  title : TitleState
  hasOutput : Bool
  output : List Byte

/-- A text passed to `apply_text_to_screen_buffer` for the buffer at `index`, and the bytes passed
to `write_output_bytes` with it. -/
structure OutputPiece where
  index : Nat
  mode : OutputMode
  text : List WChar
  bytes : List Byte

/-- What a piece does to the sinks. -/
def Sinks.feed (sinks : Sinks) (piece : OutputPiece) : Sinks :=
  match sinks.screens[piece.index]? with
  | none => sinks
  | some buffer =>
      let shown := applyTextToScreenBuffer buffer piece.text piece.mode (some sinks.title)
        (!sinks.hasOutput)
      { screens := sinks.screens.set piece.index shown.buffer
        title := shown.title.getD sinks.title
        hasOutput := sinks.hasOutput
        output := if sinks.hasOutput then sinks.output ++ piece.bytes else sinks.output }

def Console.sinks (console : Console) : Sinks where
  screens := console.server.screenBuffers
  title := console.server.title
  hasOutput := console.host.hasOutput
  output := console.host.output

/-- The sinks of a line-input read, the active screen buffer being the one at `index`. -/
def CookedState.sinks (screens : List ScreenBuffer) (index : Nat)
    (state : CookedState) : Sinks where
  screens :=
    match state.screen with
    | some buffer => screens.set index buffer
    | none => screens
  title := state.title
  hasOutput := state.read.host.hasOutput
  output := state.read.host.output

/-- Unicode `WriteConsole` requests that succeed and calls of `echo_text`, in any order. -/
inductive OutputRun (environment : Environment) : Sinks → List OutputPiece → Sinks → Prop where
  | refl (sinks : Sinks) : OutputRun environment sinks [] sinks
  | write {console next : Console} {packet : IoPacket} {fuel index numBytes : Nat} {reply : Reply}
      {exit : Bool} {apiSize : UInt32} {buffer : ScreenBuffer} {input : List Byte}
      (function : packet.function = .userDefined apiSize (.writeConsole true numBytes))
      (found : console.findScreen packet.object = some (index, buffer))
      (received : packet.getInputBuffer environment = .ok input)
      (dispatched : dispatchMessage environment console packet fuel =
        some (.ok (next, .complete reply exit)))
      (success : reply.status = .success) :
      OutputRun environment console.sinks
        [⟨index, console.server.outputMode, ScreenBuffer.words input,
          environment.system.wideCharToMultiByte cpUtf8 (ScreenBuffer.words input)⟩] next.sinks
  | echo {call : CookedCall} {state next : CookedState} {text : List WChar}
      {screens : List ScreenBuffer} {index : Nat} {buffer : ScreenBuffer}
      (active : state.screen = some buffer) (inside : index < screens.length)
      (echoes : call.mode.echoInput = true) (nonempty : text ≠ [])
      (echoed : Cooked.echoText environment.system.toPlatform environment.device call text state =
        (next, .ok ())) :
      OutputRun environment (state.sinks screens index)
        [⟨index, call.outputMode, text, environment.system.wideCharToMultiByte cpUtf8 text⟩]
        (next.sinks screens index)
  | trans {first second third : Sinks} {pieces later : List OutputPiece}
      (before : OutputRun environment first pieces second)
      (after : OutputRun environment second later third) :
      OutputRun environment first (pieces ++ later) third

theorem HostIo.writeOutputBytes_ok {host written : HostIo} {device : Device} {bytes : List Byte}
    (wrote : host.writeOutputBytes device bytes = .ok written) :
    written = { host with
      output := if host.hasOutput then host.output ++ bytes else host.output } := by
  simp only [HostIo.writeOutputBytes] at wrote
  split at wrote
  · rename_i nothing
    cases wrote
    rcases nothing with rfl | none
    · simp
    · rw [if_neg (by simpa using none)]
  · rename_i something
    have on : host.hasOutput = true := by
      simp only [not_or, Bool.not_eq_true', Bool.not_eq_false] at something
      exact something.2
    split at wrote
    · cases wrote
    · cases wrote
      simp [on]

namespace OutputRun

variable {environment : Environment} {start final : Sinks} {pieces : List OutputPiece}

theorem write_sinks {console next : Console} {packet : IoPacket} {fuel index numBytes : Nat}
    {reply : Reply} {exit : Bool} {apiSize : UInt32} {buffer : ScreenBuffer} {input : List Byte}
    (function : packet.function = .userDefined apiSize (.writeConsole true numBytes))
    (found : console.findScreen packet.object = some (index, buffer))
    (received : packet.getInputBuffer environment = .ok input)
    (dispatched : dispatchMessage environment console packet fuel =
      some (.ok (next, .complete reply exit)))
    (success : reply.status = .success) :
    next.sinks = console.sinks.feed ⟨index, console.server.outputMode, ScreenBuffer.words input,
      environment.system.wideCharToMultiByte cpUtf8 (ScreenBuffer.words input)⟩ := by
  have stored : console.server.screenBuffers[index]? = some buffer := by
    simp only [Console.findScreen, Option.bind_eq_some_iff, Option.map_eq_some_iff,
      Prod.mk.injEq] at found
    obtain ⟨handle, -, place, -, buffer', stored, rfl, rfl⟩ := found
    exact stored
  simp only [dispatchMessage, function] at dispatched
  split at dispatched
  · cases dispatched
    cases success
  · simp only [dispatchApi, found, IoPacket.withBuffers, if_true, received, writeConsoleRequest,
      Bool.false_eq_true, if_false] at dispatched
    split at dispatched
    · cases dispatched
      cases success
    · split at dispatched
      · cases dispatched
      · simp only [Console.writeText] at dispatched
        split at dispatched
        · cases dispatched
        · rename_i host wrote
          cases dispatched
          rw [HostIo.writeOutputBytes_ok wrote]
          simp only [Sinks.feed, Console.sinks, stored]
          rfl

theorem echo_sinks {call : CookedCall} {state next : CookedState} {text : List WChar}
    {screens : List ScreenBuffer} {index : Nat} {buffer : ScreenBuffer}
    (active : state.screen = some buffer) (inside : index < screens.length)
    (echoes : call.mode.echoInput = true) (nonempty : text ≠ [])
    (echoed : Cooked.echoText environment.system.toPlatform environment.device call text state =
      (next, .ok ())) :
    next.sinks screens index = (state.sinks screens index).feed
      ⟨index, call.outputMode, text, environment.system.wideCharToMultiByte cpUtf8 text⟩ := by
  have text' : text.isEmpty = false := by simpa using nonempty
  simp only [Cooked.echoText, echoes, Bool.not_true, text', Bool.or_self, Bool.false_eq_true,
    if_false] at echoed
  split at echoed
  · cases echoed
  · split at echoed
    · cases echoed
    · rename_i host wrote
      cases echoed
      rw [HostIo.writeOutputBytes_ok wrote]
      simp only [Sinks.feed, CookedState.sinks, active, List.getElem?_set_self inside,
        Cooked.showText, List.set_set]
      rfl

/-- What a run does to the sinks is what its pieces do. -/
theorem sinks_eq (run : OutputRun environment start pieces final) :
    final = pieces.foldl Sinks.feed start := by
  induction run with
  | refl sinks => rfl
  | write function found received dispatched success =>
      exact write_sinks function found received dispatched success
  | echo active inside echoes nonempty echoed =>
      exact echo_sinks active inside echoes nonempty echoed
  | trans _ _ before after => rw [List.foldl_append, ← before, after]

theorem bytes_eq (run : OutputRun environment start pieces final) :
    ∀ piece ∈ pieces, piece.bytes = environment.system.wideCharToMultiByte cpUtf8 piece.text := by
  induction run with
  | refl sinks => simp
  | write => simp
  | echo => simp
  | trans _ _ before after =>
      intro piece mem
      rcases List.mem_append.mp mem with early | late
      · exact before piece early
      · exact after piece late

end OutputRun

namespace Cooked

variable {environment : Environment} {call : CookedCall} {screens : List ScreenBuffer} {index : Nat}

/-- A line-input read gets from one state to another by echoing, as far as the sinks show. -/
def Reaches (environment : Environment) (screens : List ScreenBuffer) (index : Nat)
    (state next : CookedState) : Prop :=
  next.screen.isSome = state.screen.isSome ∧
    ∃ pieces, OutputRun environment (state.sinks screens index) pieces (next.sinks screens index)

namespace Reaches

variable {state next last : CookedState}

theorem of_eq (screen : next.screen = state.screen)
    (sinks : next.sinks screens index = state.sinks screens index) :
    Reaches environment screens index state next :=
  ⟨by rw [screen], [], sinks ▸ .refl _⟩

theorem of_read {read : ReadState} (hasOutput : read.host.hasOutput = state.read.host.hasOutput)
    (output : read.host.output = state.read.host.output) :
    Reaches environment screens index state { state with read := read } :=
  of_eq rfl (by simp only [CookedState.sinks, hasOutput, output])

theorem trans (before : Reaches environment screens index state next)
    (after : Reaches environment screens index next last) :
    Reaches environment screens index state last := by
  obtain ⟨some, pieces, run⟩ := before
  obtain ⟨some', later, run'⟩ := after
  exact ⟨some'.trans some, pieces ++ later, run.trans run'⟩

theorem echoText (active : state.screen.isSome = true) (inside : index < screens.length)
    {text : List WChar}
    (echoed : Cooked.echoText environment.system.toPlatform environment.device call text state =
      (next, .ok ())) : Reaches environment screens index state next := by
  by_cases quiet : (!call.mode.echoInput || text.isEmpty) = true
  · rw [Cooked.echoText, if_pos quiet] at echoed
    cases echoed
    exact of_eq rfl rfl
  · simp only [Bool.or_eq_true, Bool.not_eq_true', not_or, Bool.not_eq_false] at quiet
    obtain ⟨buffer, screen⟩ := Option.isSome_iff_exists.mp active
    refine ⟨?_, _, .echo screen inside quiet.1 (by simpa using quiet.2) echoed⟩
    rw [Cooked.echoText, if_neg (by simpa using quiet)] at echoed
    simp only [Cooked.showText, screen] at echoed
    split at echoed
    · cases echoed
    · split at echoed
      · cases echoed
      · cases echoed
        rw [screen]
        rfl

theorem echoTexts (inside : index < screens.length) {texts : List (List WChar)}
    (active : state.screen.isSome = true)
    (echoed : Cooked.echoTexts environment.system.toPlatform environment.device call texts state =
      (next, .ok ())) : Reaches environment screens index state next := by
  induction texts generalizing state with
  | nil =>
      cases echoed
      exact of_eq rfl rfl
  | cons text texts ih =>
      rw [Cooked.echoTexts] at echoed
      split at echoed
      · rename_i middle here
        have first := echoText active inside here
        exact first.trans (ih (first.1.trans active) echoed)
      · rename_i other
        exact absurd echoed (other next)

end Reaches

theorem skipLf_sinks (platform : Platform) (call : CookedCall) (state : ReadState) :
    (skipLf platform call state).host.hasOutput = state.host.hasOutput ∧
      (skipLf platform call state).host.output = state.host.output := by
  unfold skipLf
  split
  · exact ⟨rfl, rfl⟩
  · split <;> exact ⟨rfl, rfl⟩

theorem drain_sinks (state : ReadState) (peeked : Nat) :
    (state.drain peeked).host.hasOutput = state.host.hasOutput ∧
      (state.drain peeked).host.output = state.host.output := by
  unfold ReadState.drain
  split <;> exact ⟨rfl, rfl⟩

/-- The state a pass ends in, unless it fails. -/
def ends : Pass CookedState Result → Option CookedState
  | .next state => some state
  | .leave (state, .ok _) => some state
  | .leave (_, .error _) => none

theorem conclude_reaches {state next : CookedState} {outcome : EditLine.Outcome}
    (inside : index < screens.length) (active : state.screen.isSome = true)
    (pass : ends (conclude environment.system.toPlatform environment.device call state outcome) =
      some next) : Reaches environment screens index state next := by
  cases outcome with
  | proceed | endOfFile | ctrlC | ctrlBreak =>
      cases pass
      exact .of_eq rfl rfl
  | newline carriageReturn =>
      simp only [conclude] at pass
      have skipped : Reaches environment screens index state
          (if carriageReturn = true then
            { state with read := skipLf environment.system.toPlatform call state.read }
          else state) := by
        split
        · have same := skipLf_sinks environment.system.toPlatform call state.read
          exact .of_read same.1 same.2
        · exact .of_eq rfl rfl
      split at pass
      · cases pass
      · rename_i middle echoed
        cases pass
        refine (skipped.trans (.echoText ?_ inside echoed)).trans (.of_eq rfl rfl)
        exact skipped.1.trans active

theorem handleToken_reaches {state next : CookedState} {token : Token}
    (inside : index < screens.length) (active : state.screen.isSome = true)
    (pass : ends (handleToken environment.system.toPlatform environment.device call state token) =
      some next) : Reaches environment screens index state next := by
  simp only [handleToken] at pass
  split at pass
  · cases pass
  · rename_i middle echoed
    have edited : Reaches environment screens index state
        (setEdit state ((editLine state.read.handle).handleToken call.mode.processedInput
          call.processControlZ token).edit) := .of_eq rfl rfl
    have shown := edited.trans (.echoTexts inside active echoed)
    exact shown.trans (conclude_reaches inside (shown.1.trans active) pass)

theorem idle_reaches {state next : CookedState} (pass : ends (.leave (idle state)) = some next) :
    Reaches environment screens index state next := by
  simp only [idle] at pass
  split at pass
  · cases pass
    exact .of_eq rfl rfl
  · cases pass
    exact .of_eq rfl rfl

theorem body_reaches {state next : CookedState} (inside : index < screens.length)
    (active : state.screen.isSome = true)
    (pass : ends (body environment.system.toPlatform environment.device call state) = some next) :
    Reaches environment screens index state next := by
  simp only [body] at pass
  split at pass
  · exact idle_reaches pass
  · split at pass
    · have same := drain_sinks state.read (64 - state.read.pendingPrefix.length)
      exact (Reaches.of_read same.1 same.2).trans (idle_reaches pass)
    · rename_i token length decoded
      have consumed : Reaches environment screens index state
          { state with read := state.read.consume length } := .of_read rfl rfl
      exact consumed.trans (handleToken_reaches inside active pass)

theorem iterate_reaches {fuel : Nat} {state next : CookedState} {reply : ReadReply Byte}
    (inside : index < screens.length) (active : state.screen.isSome = true)
    (result : iterate (body environment.system.toPlatform environment.device call) fuel state =
      some (next, .ok reply)) : Reaches environment screens index state next := by
  induction fuel generalizing state with
  | zero => cases result
  | succ fuel ih =>
      rw [iterate] at result
      split at result
      · rename_i value pass
        cases result
        exact body_reaches inside active (by rw [pass]; rfl)
      · rename_i middle pass
        have first : Reaches environment screens index state middle :=
          body_reaches inside active (by rw [pass]; rfl)
        exact first.trans (ih (first.1.trans active) result)

/-- A line-input read feeds the sinks by calls of `echo_text` alone. -/
theorem readConsole_reaches {fuel : Nat} {state next : CookedState} {reply : ReadReply Byte}
    (inside : index < screens.length) (active : state.screen.isSome = true)
    (result : readConsole environment.system.toPlatform environment.device call fuel state =
      some (next, .ok reply)) : Reaches environment screens index state next := by
  simp only [readConsole] at result
  split at result
  · cases result
    exact .of_eq rfl rfl
  · split at result
    · cases result
      exact .of_eq rfl rfl
    · have started : Reaches environment screens index state (start state) := .of_eq rfl rfl
      exact started.trans (iterate_reaches inside active result)

end Cooked

/-- A dispatch of a line-input read is a run of calls of `echo_text`. -/
theorem readConsoleRequest_outputRun {environment : Environment} {console next : Console}
    {object : Handle} {handle : ObjectHandle} {fuel capacity index : Nat}
    {unicode processControlZ : Bool} {outcome : Outcome}
    (line : console.server.inputMode.lineInput = true)
    (active : console.server.activeScreenBuffer = some index)
    (inside : index < console.server.screenBuffers.length)
    (dispatched : InputApi.readConsoleRequest environment console object handle fuel capacity
      unicode processControlZ = some (.ok (next, outcome))) :
    ∃ pieces, OutputRun environment console.sinks pieces next.sinks := by
  have screen : console.server.activeBuffer = some console.server.screenBuffers[index] := by
    simp [ServerState.activeBuffer, active, ServerState.screenBuffer, inside]
  have started : (InputApi.lineState console handle).sinks console.server.screenBuffers index =
      console.sinks := by
    simp [CookedState.sinks, InputApi.lineState, screen, Console.sinks]
  simp only [InputApi.readConsoleRequest, line, if_true] at dispatched
  split at dispatched
  · cases dispatched
  · cases dispatched
  · rename_i state reply result
    cases dispatched
    obtain ⟨some, pieces, run⟩ : Cooked.Reaches environment console.server.screenBuffers index
        (InputApi.lineState console handle) state :=
      Cooked.readConsole_reaches inside (by simp [InputApi.lineState, screen]) result
    have shown : state.screen.isSome = true := by
      rw [some]
      simp [InputApi.lineState, screen]
    obtain ⟨buffer, stored⟩ := Option.isSome_iff_exists.mp shown
    rw [started] at run
    refine ⟨pieces, ?_⟩
    have ended : (InputApi.afterLine console object handle state).sinks =
        state.sinks console.server.screenBuffers index := by
      simp only [InputApi.afterLine, Console.sinks, CookedState.sinks, stored,
        ServerState.setObject, active]
      rfl
    rw [ended]
    exact run

namespace OutputRun

variable {environment : Environment} {start final : Sinks} {pieces : List OutputPiece}

/-- The host gets the UTF-8 encoding of the text that the screen buffers get exactly if no piece
cuts a surrogate pair. -/
theorem hostOutput_eq_iff (run : OutputRun environment start pieces final)
    (replaces : environment.system.ReplacesLoneSurrogates) {text : List Char}
    (whole : pieces.flatMap (·.text) = utf16Code.encode text) :
    final = pieces.foldl Sinks.feed start ∧
      (pieces.flatMap (·.bytes) = utf8Code.encode text ↔
        ∀ piece ∈ pieces, utf16Code.WellFormed piece.text) := by
  refine ⟨run.sinks_eq, ?_⟩
  have bytes : pieces.flatMap (·.bytes) = (pieces.map (·.text)).flatMap utf16ToUtf8 := by
    rw [List.flatMap_map]
    apply List.flatMap_congr
    intro piece mem
    rw [run.bytes_eq piece mem]
    exact replaces piece.text
  have flat : (pieces.map (·.text)).flatten = utf16Code.encode text := by
    rw [← List.flatMap_def]
    exact whole
  have encoded : utf8Code.encode text = utf16ToUtf8 (pieces.map (·.text)).flatten := by
    rw [flat, utf16ToUtf8, SymbolCode.lossy_encode]
  rw [bytes, encoded, flatMap_utf16ToUtf8_eq_iff ⟨text, flat⟩]
  simp

end OutputRun

/-- A server with one input handle and an active screen of two cells; the given bytes are typed. -/
def typing (bytes : List Byte) : Console where
  server :=
    { ServerState.initial .utf8 with
      screenBuffers := [twoCells]
      objects := fun id => if id = 16 then some { kind := .input } else none }
  host := { inputQueue := bytes }

/-- A Unicode `ReadConsole` with a descriptor of eight bytes. -/
def readPacket : IoPacket where
  process := 8
  object := 16
  function := .userDefined 8 (.input (.readConsole true false 0))
  input := List.replicate 16 0
  outputSize := 72

/-- What a dispatch has sent to the host and what the screens show. -/
def Dispatched.shown : Dispatched → Option (List Byte × List WChar)
  | some (.ok (next, _)) =>
      some (next.host.output, next.server.screenBuffers.flatMap fun buffer =>
        buffer.cells.map (·.character))
  | _ => none

/-- A line-input read in which a user types into the console above. -/
def typingState : CookedState := InputApi.lineState (typing []) { kind := .input }

def typingCall : CookedCall := InputApi.lineCall (typing []).server 64 true false

/-- The state after a text has been echoed. -/
def typed (text : List WChar) (state : CookedState) : CookedState :=
  (Cooked.echoText .utf8 ⟨fun _ _ => false⟩ typingCall text state).1

theorem typed_run {text : List WChar} {state : CookedState} {buffer : ScreenBuffer}
    (active : state.screen = some buffer) (nonempty : text ≠ [])
    (echoed : Cooked.echoText .utf8 ⟨fun _ _ => false⟩ typingCall text state =
      (typed text state, .ok ())) :
    OutputRun (.utf8 0) (state.sinks [twoCells] 0)
      [⟨0, typingCall.outputMode, text, Platform.utf8.wideCharToMultiByte cpUtf8 text⟩]
      ((typed text state).sinks [twoCells] 0) :=
  .echo active (by decide) (by decide) nonempty echoed

/-- The runs in which two units are typed. -/
theorem typed_twice (first second : WChar)
    (before : Cooked.echoText .utf8 ⟨fun _ _ => false⟩ typingCall [first] typingState =
      (typed [first] typingState, .ok ()))
    {buffer : ScreenBuffer} (active : (typed [first] typingState).screen = some buffer)
    (after : Cooked.echoText .utf8 ⟨fun _ _ => false⟩ typingCall [second]
        (typed [first] typingState) = (typed [second] (typed [first] typingState), .ok ())) :
    OutputRun (.utf8 0) (typing []).sinks
      [⟨0, typingCall.outputMode, [first], Platform.utf8.wideCharToMultiByte cpUtf8 [first]⟩,
        ⟨0, typingCall.outputMode, [second], Platform.utf8.wideCharToMultiByte cpUtf8 [second]⟩]
      ((typed [second] (typed [first] typingState)).sinks [twoCells] 0) := by
  have run : OutputRun (.utf8 0) (typingState.sinks [twoCells] 0) _ _ :=
    (typed_run rfl (by simp) before).trans (typed_run active (by simp) after)
  exact run

/-- Two letters that are echoed one by one. -/
theorem hostOutput_eq_letters :
    [⟨0, typingCall.outputMode, [0x61], Platform.utf8.wideCharToMultiByte cpUtf8 [0x61]⟩,
        (⟨0, typingCall.outputMode, [0x62], Platform.utf8.wideCharToMultiByte cpUtf8 [0x62]⟩ :
          OutputPiece)].flatMap (·.bytes) =
      utf8Code.encode [Char.ofNat 0x61, Char.ofNat 0x62] := by
  have letter (unit : WChar) (plain : unit.toNat < 0xd800) : utf16Code.WellFormed [unit] :=
    ⟨[Char.ofNat unit.toNat], by simp [utf16Code_word_plain (.inl plain)]⟩
  have run := typed_twice 0x61 0x62 rfl rfl rfl
  refine (run.hostOutput_eq_iff Platform.utf8_replacesLoneSurrogates (by decide)).2.mpr ?_
  intro piece mem
  simp only [List.mem_cons, List.not_mem_nil, or_false] at mem
  rcases mem with rfl | rfl
  · exact letter _ (by decide)
  · exact letter _ (by decide)

/-- U+1F600 is typed. Its two units are echoed one by one: the screen gets them, the host gets two
replacement characters. -/
theorem not_hostOutput_eq_typed :
    (dispatchMessage (.utf8 0) (typing [0xf0, 0x9f, 0x98, 0x80]) readPacket 3).shown =
        some ([0xef, 0xbf, 0xbd, 0xef, 0xbf, 0xbd], [0xd83d, 0xde00]) ∧
      ∃ pieces final, OutputRun (.utf8 0) (typing []).sinks pieces final ∧
        pieces.map (·.text) = [[0xd83d], [0xde00]] ∧
        pieces.flatMap (·.text) = utf16Code.encode [Char.ofNat 0x1f600] ∧
        pieces.flatMap (·.bytes) ≠ utf8Code.encode [Char.ofNat 0x1f600] := by
  refine ⟨by decide +kernel, _, _, typed_twice 0xd83d 0xde00 rfl rfl rfl, rfl, by decide, ?_⟩
  decide

end Conhost
