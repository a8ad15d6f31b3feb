import Conhost.Server.Dispatch

/-!
# Faults that clients can cause

An error of `dispatch_message` ends the server, so it should come from a call
of the device or the host that failed. The server raises errors of its own if
a client's buffer ends before the place it is read or written at, if the text
of a Unicode write is empty, and if a line edit echoes more text than one
conversion takes.
-/

namespace Conhost

/-- `WideCharToMultiByte` to UTF-8 fails exactly when given no units. -/
structure ConvertsToUtf8 (platform : Platform) : Prop where
  nil : platform.wideCharToMultiByte cpUtf8 [] = []
  ne_nil : ∀ {units}, units ≠ [] → platform.wideCharToMultiByte cpUtf8 units ≠ []

theorem HostIo.writeOutputBytes_ne_internal (host : HostIo) (device : Device) (bytes : List Byte) :
    host.writeOutputBytes device bytes ≠ .error .internal := by
  simp only [HostIo.writeOutputBytes]
  split
  · simp
  · split <;> simp

namespace Cooked

variable {platform : Platform} {device : Device} {call : CookedCall} {state : CookedState}

variable (platform device call) in
/-- One of the texts is too long for one conversion, and those before it are echoed. -/
def EchoTooLong (texts : List (List WChar)) (state : CookedState) : Prop :=
  call.mode.echoInput = true ∧ ∃ before text after, texts = before ++ text :: after ∧
    intMax < text.length ∧ (echoTexts platform device call before state).2 = .ok ()

theorem echoText_internal_iff (converts : ConvertsToUtf8 platform) (device : Device)
    (call : CookedCall) (state : CookedState) (text : List WChar) :
    (echoText platform device call text state).2 = .error .internal ↔
      call.mode.echoInput = true ∧ intMax < text.length := by
  simp only [echoText]
  split
  · rename_i silent
    simp only [Bool.or_eq_true, Bool.not_eq_true', List.isEmpty_iff] at silent
    rcases silent with silent | rfl
    · simp [silent]
    · simp
  · rename_i shown
    simp only [Bool.or_eq_true, Bool.not_eq_true', List.isEmpty_iff, not_or,
      Bool.not_eq_false] at shown
    have encoded := converts.ne_nil shown.2
    simp only [encoded, or_false]
    split
    · rename_i long
      simp [shown.1, long]
    · rename_i short
      have sound := (showText call text state).read.host.writeOutputBytes_ne_internal device
        (platform.wideCharToMultiByte cpUtf8 text)
      split
      · rename_i fault failed
        rw [failed] at sound
        simpa [short] using sound
      · simp [short]

theorem echoTexts_internal_iff (converts : ConvertsToUtf8 platform) (device : Device)
    (call : CookedCall) (state : CookedState) (texts : List (List WChar)) :
    (echoTexts platform device call texts state).2 = .error .internal ↔
      EchoTooLong platform device call texts state := by
  induction texts generalizing state with
  | nil => simp [echoTexts, EchoTooLong]
  | cons text later hypothesis =>
      have single := echoText_internal_iff converts device call state text
      rcases echoed : echoText platform device call text state with ⟨next, fault | ⟨⟩⟩
      · -- The first text fails: nothing after it counts.
        simp only [echoTexts, echoed] at single ⊢
        rw [single]
        constructor
        · rintro ⟨echoes, long⟩
          exact ⟨echoes, [], text, later, rfl, long, rfl⟩
        · rintro ⟨echoes, before, long, after, split, exceeds, written⟩
          cases before with
          | nil =>
              cases split
              exact ⟨echoes, exceeds⟩
          | cons first before =>
              cases split
              simp [echoTexts, echoed] at written
      · simp only [echoTexts, echoed] at single ⊢
        rw [hypothesis]
        constructor
        · rintro ⟨echoes, before, long, after, rfl, exceeds, written⟩
          refine ⟨echoes, text :: before, long, after, rfl, exceeds, ?_⟩
          simpa [echoTexts, echoed] using written
        · rintro ⟨echoes, before, long, after, split, exceeds, written⟩
          cases before with
          | nil =>
              cases split
              exact absurd (single.mpr ⟨echoes, exceeds⟩) (by simp)
          | cons first before =>
              cases split
              exact ⟨echoes, before, long, after, rfl, exceeds,
                by simpa [echoTexts, echoed] using written⟩

variable (platform device call) in
/-- The next token of the loop makes an edit that echoes too much. -/
def TokenTooLong (state : CookedState) : Prop :=
  state.read.exhausted = false ∧ ∃ token length,
    platform.decodeOneInputToken call.codePage state.read.peekHead = .token token length ∧
      let consumed : CookedState := { state with read := state.read.consume length }
      let effect := (editLine consumed.read.handle).handleToken call.mode.processedInput
        call.processControlZ token
      EchoTooLong platform device call effect.echoes (setEdit consumed effect.edit)

theorem conclude_ne_internal (converts : ConvertsToUtf8 platform) (outcome : EditLine.Outcome)
    (final : CookedState) : conclude platform device call state outcome ≠
      .leave (final, .error .internal) := by
  cases outcome with
  | newline carriageReturn =>
      simp only [conclude]
      split
      · rename_i next fault failed
        intro same
        cases same
        have long := echoText_internal_iff converts device call
          (if carriageReturn then { state with read := skipLf platform call state.read } else state)
          (newlineSuffix call)
        rw [failed] at long
        have exceeds := (long.mp rfl).2
        simp only [newlineSuffix] at exceeds
        split at exceeds <;> simp [intMax] at exceeds
      · simp [finishLine]
  | proceed => simp [conclude]
  | endOfFile => simp [conclude]
  | ctrlC => simp [conclude]
  | ctrlBreak => simp [conclude]

theorem body_internal_iff (converts : ConvertsToUtf8 platform) :
    (∃ final, body platform device call state = .leave (final, .error .internal)) ↔
      TokenTooLong platform device call state := by
  simp only [body, TokenTooLong]
  have idles : ∀ state final, idle state ≠ (final, .error .internal) := by
    intro state final
    simp only [idle]
    split <;> simp
  split
  · rename_i exhausted
    simp [exhausted, idles]
  · rename_i unread
    split
    · rename_i waiting
      simp [waiting, idles]
    · rename_i token length decoded
      simp only [decoded, Decoded.token.injEq, handleToken]
      have texts := echoTexts_internal_iff converts device call
        (setEdit { state with read := state.read.consume length }
          ((editLine (state.read.consume length).handle).handleToken call.mode.processedInput
            call.processControlZ token).edit)
        ((editLine (state.read.consume length).handle).handleToken call.mode.processedInput
          call.processControlZ token).echoes
      constructor
      · rintro ⟨final, pass⟩
        refine ⟨by simpa using unread, token, length, ⟨rfl, rfl⟩, texts.mp ?_⟩
        split at pass
        · rename_i next fault failed
          cases pass
          rw [failed]
        · exact absurd pass (conclude_ne_internal converts _ _)
      · rintro ⟨-, other, count, ⟨rfl, rfl⟩, long⟩
        have failed := texts.mpr long
        split
        · rename_i next fault echoed
          rw [echoed] at failed
          cases failed
          exact ⟨next, rfl⟩
        · rename_i next echoed
          rw [echoed] at failed
          cases failed

variable (platform device call) in
/-- In every state the loop of a read passes through, the next edit can be echoed. -/
def EchoesFit (state : CookedState) : Prop :=
  call.capacity ≠ 0 → state.read.handle.cookedReadPending = [] → ∀ next,
    Relation.ReflTransGen (Continues (body platform device call)) (start state) next →
      ¬TokenTooLong platform device call next

theorem readConsole_internal_iff (converts : ConvertsToUtf8 platform) (device : Device)
    (call : CookedCall) (state : CookedState) :
    (∃ fuel final, readConsole platform device call fuel state = some (final, .error .internal)) ↔
      ¬EchoesFit platform device call state := by
  by_cases room : call.capacity = 0
  · simp [readConsole, EchoesFit, room]
  by_cases empty : state.read.handle.cookedReadPending = []
  · simp only [EchoesFit, room, empty, readConsole_iterate room empty, not_false_eq_true, ne_eq,
      forall_const, not_forall, not_not, exists_prop, ← body_internal_iff converts]
    constructor
    · rintro ⟨fuel, final, result⟩
      obtain ⟨last, path, leaves⟩ := exists_iterate_iff.mp ⟨fuel, result⟩
      exact ⟨last, path, final, leaves⟩
    · rintro ⟨last, path, final, leaves⟩
      obtain ⟨fuel, result⟩ := exists_iterate_iff.mpr ⟨last, path, leaves⟩
      exact ⟨fuel, final, result⟩
  · simp [readConsole_deliver room empty, EchoesFit, empty]

end Cooked

namespace IoPacket

variable {packet : IoPacket} {environment : Environment}

variable (packet environment) in
/-- The client's buffers reach to where they are read and written. The output buffer is asked for
last, so it does not matter once the device has failed to read the input. -/
structure BuffersFit (takesInput takesOutput : Bool) : Prop where
  reads : takesInput = true → packet.readOffset ≤ packet.input.length
  writes : takesOutput = true →
    (takesInput = true → environment.readInputFails = true →
      packet.input.length ≤ packet.readOffset) →
        packet.writeOffset ≤ packet.outputSize

theorem getInputBuffer_internal_iff (packet : IoPacket) (environment : Environment) :
    packet.getInputBuffer environment = .error .internal ↔
      ¬packet.readOffset ≤ packet.input.length := by
  simp only [getInputBuffer]
  split
  · rename_i short
    simpa using short
  · rename_i reaches
    split
    · simpa using reaches
    · split <;> simpa using reaches

variable (packet environment) in
/-- The buffers a branch works with. -/
structure Gets (takesInput takesOutput : Bool) (bytes : List Byte) (capacity : Nat) : Prop where
  input : (if takesInput then packet.getInputBuffer environment else .ok []) = .ok bytes
  output : (if takesOutput then packet.getOutputBuffer else .ok 0) = .ok capacity

theorem reads_of_got {takesInput : Bool} {bytes : List Byte}
    (got : (if takesInput then packet.getInputBuffer environment else .ok []) = .ok bytes) :
    takesInput = true → packet.readOffset ≤ packet.input.length ∧
      (environment.readInputFails = true → packet.input.length ≤ packet.readOffset) := by
  rintro rfl
  simp only [if_true, getInputBuffer] at got
  split at got
  · cases got
  · split at got
    · exact ⟨by omega, fun _ => by omega⟩
    · split at got
      · cases got
      · rename_i succeeds
        exact ⟨by omega, fun fails => absurd fails succeeds⟩

theorem getInputBuffer_primitive (failed : packet.getInputBuffer environment = .error .primitive) :
    environment.readInputFails = true ∧ packet.readOffset < packet.input.length := by
  simp only [getInputBuffer] at failed
  split at failed
  · cases failed
  · split at failed
    · cases failed
    · split at failed
      · rename_i fails
        exact ⟨fails, by omega⟩
      · cases failed

/-- A branch is isolated if the buffers reach far enough and its work is. -/
theorem withBuffers_isolated_iff {takesInput takesOutput : Bool}
    {work : List Byte → Nat → Dispatched} :
    packet.withBuffers environment takesInput takesOutput work ≠ some (.error .internal) ↔
      packet.BuffersFit environment takesInput takesOutput ∧
        ∀ {bytes capacity}, packet.Gets environment takesInput takesOutput bytes capacity →
          work bytes capacity ≠ some (.error .internal) := by
  simp only [withBuffers]
  split
  · rename_i fault failed
    have nothing : ∀ {bytes capacity},
        ¬packet.Gets environment takesInput takesOutput bytes capacity := by
      rintro bytes capacity ⟨got, -⟩
      rw [failed] at got
      cases got
    simp only [nothing, false_implies, implies_true, and_true]
    cases takesInput with
    | false => simp at failed
    | true =>
        rw [if_pos rfl] at failed
        cases fault with
        | internal =>
            refine iff_of_false (by simp) fun fits => ?_
            exact (packet.getInputBuffer_internal_iff environment).mp failed (fits.reads rfl)
        | primitive =>
            obtain ⟨fails, longer⟩ := getInputBuffer_primitive failed
            refine iff_of_true (by simp) ⟨fun _ => longer.le, fun _ read => ?_⟩
            exact absurd (read rfl fails) (by omega)
  · rename_i bytes got
    have reaches := reads_of_got got
    split
    · rename_i fault failed
      cases takesOutput with
      | false => simp at failed
      | true =>
          simp only [if_true, getOutputBuffer] at failed
          split at failed
          · rename_i short
            cases failed
            refine iff_of_false (by simp) ?_
            rintro ⟨⟨-, fits⟩, -⟩
            have long := fits rfl fun takes => (reaches takes).2
            omega
          · cases failed
    · rename_i capacity room
      have fits : packet.BuffersFit environment takesInput takesOutput := by
        refine ⟨fun takes => (reaches takes).1, ?_⟩
        rintro rfl -
        simp only [if_true, getOutputBuffer] at room
        split at room
        · cases room
        · omega
      constructor
      · intro sound
        refine ⟨fits, ?_⟩
        rintro bytes' capacity' ⟨got', room'⟩
        rw [got] at got'
        rw [room] at room'
        cases got'
        cases room'
        exact sound
      · rintro ⟨-, works⟩
        exact works ⟨got, room⟩

theorem withBuffers_isolated_iff_fit {takesInput takesOutput : Bool}
    {work : List Byte → Nat → Dispatched}
    (works : ∀ bytes capacity, work bytes capacity ≠ some (.error .internal)) :
    packet.withBuffers environment takesInput takesOutput work ≠ some (.error .internal) ↔
      packet.BuffersFit environment takesInput takesOutput := by
  rw [withBuffers_isolated_iff]
  exact and_iff_left fun {bytes capacity} _ => works bytes capacity

end IoPacket

namespace Console

variable {console : Console}

theorem answer_isolated (console : Console) (reply : Reply) :
    console.answer reply ≠ some (.error .internal) := by
  simp [answer]

theorem writeText_isolated (console : Console) (device : Device) (index : Nat)
    (buffer : ScreenBuffer) (bytes : List Byte) (text : List WChar) (reply : Reply) :
    console.writeText device index buffer bytes text reply ≠ some (.error .internal) := by
  have sound := console.host.writeOutputBytes_ne_internal device bytes
  simp only [writeText]
  split
  · rename_i fault failed
    rw [failed] at sound
    simpa using sound
  · exact answer_isolated _ _

end Console

theorem words_eq_nil_iff {bytes : List Byte} (even : bytes.length % 2 = 0) :
    ScreenBuffer.words bytes = [] ↔ bytes = [] := by
  match bytes with
  | [] => simp [ScreenBuffer.words]
  | [byte] => simp at even
  | low :: high :: rest => simp [ScreenBuffer.words]

section Branches

variable {environment : Environment} {console : Console} {packet : IoPacket}

theorem writeConsoleRequest_isolated_iff (converts : ConvertsToUtf8 environment.system.toPlatform)
    (index : Nat) (buffer : ScreenBuffer) (unicode : Bool) (input : List Byte) :
    writeConsoleRequest environment console index buffer unicode input ≠ some (.error .internal) ↔
      (unicode = true → input ≠ []) := by
  simp only [writeConsoleRequest]
  cases unicode with
  | false =>
      simp only [Bool.false_eq_true, if_false, false_implies, iff_true]
      split
      · exact console.answer_isolated _
      · exact console.writeText_isolated _ _ _ _ _ _
  | true =>
      simp only [if_true, true_implies]
      split
      · rename_i odd
        refine iff_of_true (console.answer_isolated _) ?_
        rintro rfl
        simp at odd
      · rename_i even
        have text := words_eq_nil_iff (not_not.mp even)
        split
        · rename_i unconverted
          refine iff_of_false (by simp) (not_not.mpr (text.mp ?_))
          by_contra nonempty
          exact converts.ne_nil nonempty unconverted
        · rename_i converted
          refine iff_of_true (console.writeText_isolated _ _ _ _ _ _) ?_
          rintro rfl
          exact converted converts.nil

theorem readConsoleRequest_isolated_iff (converts : ConvertsToUtf8 environment.system.toPlatform)
    (object : Handle) (handle : ObjectHandle) (capacity : Nat) (unicode processControlZ : Bool) :
    (∀ fuel, InputApi.readConsoleRequest environment console object handle fuel capacity unicode
      processControlZ ≠ some (.error .internal)) ↔
      (console.server.inputMode.lineInput = true →
        Cooked.EchoesFit environment.system.toPlatform environment.device
          (InputApi.lineCall console.server capacity unicode processControlZ)
          (InputApi.lineState console handle)) := by
  have internal := Cooked.readConsole_internal_iff converts environment.device
    (InputApi.lineCall console.server capacity unicode processControlZ)
    (InputApi.lineState console handle)
  by_cases line : console.server.inputMode.lineInput = true
  · rw [← not_iff_not]
    simp only [line, true_implies, ← internal, not_forall, not_not, ne_eq]
    apply exists_congr
    intro fuel
    simp only [InputApi.readConsoleRequest, line, if_true]
    split
    · simp_all
    · rename_i final fault result
      simp [result]
    · rename_i final reply result
      simp [result]
  · refine iff_of_true (fun fuel => ?_) fun line' => absurd line' line
    simp only [InputApi.readConsoleRequest, line, Bool.false_eq_true, if_false]
    split <;> simp

variable (environment console packet) in
/-- What a request asks of its client: buffers that reach far enough, a text for a Unicode write,
and, of a line-input read, edits that can be echoed. A request whose handle is refused asks
nothing. -/
def Api.Answerable : Api → Prop
  | .getMode _ => True
  | .setMode _ => True
  | .unsupported => True
  | .getTitle _ _ _ =>
      (console.findHandle packet.object .output).isSome = true →
        packet.BuffersFit environment false true
  | .setTitle _ =>
      (console.findHandle packet.object .output).isSome = true →
        packet.BuffersFit environment true false
  | .writeConsole unicode _ =>
      (console.findScreen packet.object).isSome = true →
        packet.BuffersFit environment true false ∧
          (unicode = true → packet.input.length ≠ packet.readOffset)
  | .screen request =>
      (console.findScreen packet.object).isSome = true →
        packet.BuffersFit environment request.takesInput request.takesOutput
  | .global request => packet.BuffersFit environment request.takesInput request.takesOutput
  | .input (.readConsole unicode processControlZ _) =>
      ∀ handle, console.findHandle packet.object .input = some handle →
        packet.writeOffset ≤ packet.outputSize ∧
          (console.server.inputMode.lineInput = true →
            Cooked.EchoesFit environment.system.toPlatform environment.device
              (InputApi.lineCall console.server (packet.outputSize - packet.writeOffset) unicode
                processControlZ) (InputApi.lineState console handle))
  | .input request =>
      (console.findHandle packet.object .input).isSome = true →
        packet.BuffersFit environment request.takesInput request.takesOutput

variable (environment console packet) in
def IoPacket.Answerable : Prop :=
  match packet.function with
  | .userDefined apiSize api =>
      apiSize.toNat ≤ descriptorLimit → api.Answerable environment console packet
  | _ => True

/-- A request whose handle is refused is isolated. -/
theorem invalidHandle_isolated (api : Api) {Fits : Prop} :
    invalidHandle console api ≠ some (.error .internal) ↔
      (Option.isSome (none : Option Unit) → Fits) :=
  iff_of_true (console.answer_isolated _) nofun

theorem writeConsole_isolated_iff (converts : ConvertsToUtf8 environment.system.toPlatform)
    (index : Nat) (buffer : ScreenBuffer) (unicode : Bool) :
    packet.withBuffers environment true false (fun input _ =>
      writeConsoleRequest environment console index buffer unicode input) ≠
        some (.error .internal) ↔
      packet.BuffersFit environment true false ∧
        (unicode = true → packet.input.length ≠ packet.readOffset) := by
  simp only [IoPacket.withBuffers_isolated_iff, writeConsoleRequest_isolated_iff converts]
  refine and_congr_right fun fits => ?_
  have reaches := fits.reads rfl
  constructor
  · intro texts wide same
    refine texts ⟨?_, rfl⟩ wide rfl
    simp [IoPacket.getInputBuffer, same]
  · rintro text bytes capacity ⟨got, -⟩ wide rfl
    simp only [if_true, IoPacket.getInputBuffer, Nat.not_lt.mpr reaches, if_false, text wide] at got
    split at got
    · cases got
    · simp only [Except.ok.injEq, List.drop_eq_nil_iff] at got
      exact text wide (Nat.le_antisymm got reaches)

theorem readConsole_isolated_iff (converts : ConvertsToUtf8 environment.system.toPlatform)
    (handle : ObjectHandle) (unicode processControlZ : Bool) (numBytes : Nat) :
    (∀ fuel, packet.withBuffers environment false true (fun input capacity =>
      (InputApi.readConsole unicode processControlZ numBytes).handleRequest environment console
        packet.object handle fuel input capacity) ≠ some (.error .internal)) ↔
      packet.writeOffset ≤ packet.outputSize ∧
        (console.server.inputMode.lineInput = true →
          Cooked.EchoesFit environment.system.toPlatform environment.device
            (InputApi.lineCall console.server (packet.outputSize - packet.writeOffset) unicode
              processControlZ) (InputApi.lineState console handle)) := by
  simp only [IoPacket.withBuffers_isolated_iff, InputApi.handleRequest,
    ← readConsoleRequest_isolated_iff converts packet.object]
  constructor
  · intro sound
    have room := (sound 0).1.writes rfl (by simp)
    refine ⟨room, fun fuel => (sound fuel).2 ⟨rfl, ?_⟩⟩
    simp [IoPacket.getOutputBuffer, room]
  · rintro ⟨room, sound⟩ fuel
    refine ⟨⟨by simp, fun _ _ => room⟩, ?_⟩
    rintro bytes capacity ⟨-, got⟩
    simp only [if_true, IoPacket.getOutputBuffer, Nat.not_lt.mpr room, if_false,
      Except.ok.injEq] at got
    subst got
    exact sound fuel

theorem inputRequest_isolated_iff (handle : ObjectHandle) (request : InputApi)
    (works : ∀ fuel bytes capacity, request.handleRequest environment console packet.object handle
      fuel bytes capacity ≠ some (.error .internal)) :
    (∀ fuel, packet.withBuffers environment request.takesInput request.takesOutput
      (fun input capacity => request.handleRequest environment console packet.object handle fuel
        input capacity) ≠ some (.error .internal)) ↔
      packet.BuffersFit environment request.takesInput request.takesOutput := by
  simp only [IoPacket.withBuffers_isolated_iff_fit (works _), forall_const]

theorem dispatchApi_isolated_iff (converts : ConvertsToUtf8 environment.system.toPlatform)
    (api : Api) :
    (∀ fuel, dispatchApi environment console packet fuel api ≠ some (.error .internal)) ↔
      api.Answerable environment console packet := by
  cases api with
  | getMode mode =>
      simp only [dispatchApi, Api.Answerable, iff_true]
      intro fuel
      split <;> exact Console.answer_isolated _ _
  | setMode mode =>
      simp only [dispatchApi, Api.Answerable, iff_true]
      intro fuel
      split <;> exact Console.answer_isolated _ _
  | getTitle unicode original length =>
      simp only [dispatchApi, Api.Answerable, forall_const]
      cases console.findHandle packet.object .output with
      | none => exact invalidHandle_isolated _
      | some handle =>
          simpa using IoPacket.withBuffers_isolated_iff_fit fun _ _ => Console.answer_isolated _ _
  | setTitle unicode =>
      simp only [dispatchApi, Api.Answerable, forall_const]
      cases console.findHandle packet.object .output with
      | none => exact invalidHandle_isolated _
      | some handle =>
          simpa using IoPacket.withBuffers_isolated_iff_fit fun _ _ => Console.answer_isolated _ _
  | writeConsole unicode numBytes =>
      simp only [dispatchApi, Api.Answerable, forall_const]
      cases console.findScreen packet.object with
      | none => exact invalidHandle_isolated _
      | some screen => simpa using writeConsole_isolated_iff converts screen.1 screen.2 unicode
  | screen request =>
      simp only [dispatchApi, Api.Answerable, forall_const]
      cases console.findScreen packet.object with
      | none => exact invalidHandle_isolated _
      | some screen =>
          simpa using IoPacket.withBuffers_isolated_iff_fit fun _ _ => Console.answer_isolated _ _
  | global request =>
      simp only [dispatchApi, Api.Answerable, forall_const]
      exact IoPacket.withBuffers_isolated_iff_fit fun _ _ => Console.answer_isolated _ _
  | input request =>
      simp only [dispatchApi]
      cases found : console.findHandle packet.object .input with
      | none =>
          refine iff_of_true (fun _ => console.answer_isolated _) ?_
          cases request <;> simp [Api.Answerable, found]
      | some handle =>
          cases request with
          | readConsole unicode processControlZ numBytes =>
              simp only [Api.Answerable, found, Option.some.injEq, forall_eq']
              exact readConsole_isolated_iff converts handle unicode processControlZ numBytes
          | flushInputBuffer =>
              simpa [Api.Answerable, found] using
                inputRequest_isolated_iff handle .flushInputBuffer
                  (by simp [InputApi.handleRequest])
          | writeConsoleInput unicode append numRecords =>
              simpa [Api.Answerable, found] using
                inputRequest_isolated_iff handle (.writeConsoleInput unicode append numRecords)
                  (by simp [InputApi.handleRequest])
          | getNumberOfInputEvents readyEvents =>
              simpa [Api.Answerable, found] using
                inputRequest_isolated_iff handle (.getNumberOfInputEvents readyEvents)
                  (by simp [InputApi.handleRequest])
          | getConsoleInput flags unicode numRecords =>
              simpa [Api.Answerable, found] using
                inputRequest_isolated_iff handle (.getConsoleInput flags unicode numRecords)
                  (by simp [InputApi.handleRequest])
  | unsupported =>
      simp only [dispatchApi, Api.Answerable, iff_true]
      exact fun _ => Console.answer_isolated _ _

end Branches

theorem IoPacket.withBuffers_raw_isolated {environment : Environment} {packet : IoPacket}
    {takesInput takesOutput : Bool} {work : List Byte → Nat → Dispatched}
    (raw : packet.readOffset = 0 ∧ packet.writeOffset = 0)
    (works : ∀ bytes capacity, work bytes capacity ≠ some (.error .internal)) :
    packet.withBuffers environment takesInput takesOutput work ≠ some (.error .internal) := by
  rw [withBuffers_isolated_iff_fit works]
  refine ⟨fun _ => ?_, fun _ _ => ?_⟩
  · rw [raw.1]
    exact Nat.zero_le _
  · rw [raw.2]
    exact Nat.zero_le _

/-- The server ends by an error of its own exactly if a client asks for it. -/
theorem dispatchMessage_isolated_iff (environment : Environment) (console : Console)
    (packet : IoPacket) (converts : ConvertsToUtf8 environment.system.toPlatform) :
    (∀ fuel, dispatchMessage environment console packet fuel ≠ some (.error .internal)) ↔
      packet.Answerable environment console := by
  rcases packet with ⟨process, object, function, input, outputSize⟩
  cases function with
  | userDefined apiSize api =>
      simp only [dispatchMessage, IoPacket.Answerable]
      split
      · rename_i large
        exact iff_of_true (fun _ => console.answer_isolated _) fun small => absurd large (by omega)
      · rename_i small
        rw [dispatchApi_isolated_iff converts]
        exact ⟨fun answerable _ => answerable, fun answerable => answerable (by omega)⟩
  | connect =>
      simp only [dispatchMessage, connectRequest, IoPacket.Answerable, iff_true, forall_const]
      exact IoPacket.withBuffers_raw_isolated ⟨rfl, rfl⟩ fun _ _ => Console.answer_isolated _ _
  | disconnect => simp [dispatchMessage, disconnectRequest, IoPacket.Answerable]
  | createObject type shareMode desiredAccess =>
      simp only [dispatchMessage, createObjectRequest, IoPacket.Answerable, iff_true, forall_const]
      split
      · exact Console.answer_isolated _ _
      · split
        · exact Console.answer_isolated _ _
        · split <;> exact Console.answer_isolated _ _
  | closeObject =>
      simp only [dispatchMessage, closeObjectRequest, IoPacket.Answerable, iff_true, forall_const]
      split <;> exact Console.answer_isolated _ _
  | rawFlush =>
      simp only [dispatchMessage, rawFlushRequest, IoPacket.Answerable, iff_true, forall_const]
      split <;> exact Console.answer_isolated _ _
  | rawWrite =>
      simp only [dispatchMessage, rawWriteRequest, IoPacket.Answerable, iff_true, forall_const]
      split
      · exact Console.answer_isolated _ _
      · refine IoPacket.withBuffers_raw_isolated ⟨rfl, rfl⟩ fun bytes _ => ?_
        split
        · exact Console.answer_isolated _ _
        · exact Console.writeText_isolated _ _ _ _ _ _ _
  | rawRead =>
      simp only [dispatchMessage, rawReadRequest, IoPacket.Answerable, iff_true, forall_const]
      split
      · exact Console.answer_isolated _ _
      · exact IoPacket.withBuffers_raw_isolated ⟨rfl, rfl⟩ fun _ _ => by simp
  | other =>
      simp only [dispatchMessage, IoPacket.Answerable, iff_true, forall_const]
      exact Console.answer_isolated _ _

theorem utf8_convertsToUtf8 : ConvertsToUtf8 .utf8 where
  nil := rfl
  ne_nil := fun nonempty => Delivery.wideToUtf8_ne_nil nonempty

/-- A server with one output handle. -/
def oneOutput : Console where
  server := (ServerState.initial .utf8).setObject 24
    (some { kind := .output, screenBuffer := some 0 })

/-- A Unicode write of the given text, in a packet with a descriptor of eight bytes. -/
def writePacket (text : List WChar) : IoPacket where
  process := 8
  object := 24
  function := .userDefined 8 (.writeConsole true 0)
  input := List.replicate 16 0 ++ unitBytes text
  outputSize := 8

theorem dispatchMessage_isolated_iff_letter : ConvertsToUtf8 System.utf8.toPlatform ∧
    ∀ fuel, dispatchMessage (.utf8 0) oneOutput (writePacket [wc 'a']) fuel ≠
      some (.error .internal) := by
  refine ⟨utf8_convertsToUtf8, ?_⟩
  apply (dispatchMessage_isolated_iff (.utf8 0) oneOutput (writePacket [wc 'a'])
    utf8_convertsToUtf8).mpr
  intro small found
  refine ⟨⟨fun _ => ?_, fun output => nomatch output⟩, fun _ => ?_⟩
  · decide
  · decide

/-- An empty text ends the server although nothing has failed. -/
theorem dispatchMessage_emptyText :
    dispatchMessage (.utf8 0) oneOutput (writePacket []) 0 = some (.error .internal) := rfl

end Conhost
