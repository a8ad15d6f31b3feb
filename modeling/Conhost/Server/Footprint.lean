import Conhost.Server.Frame

/-!
# What a message works on

All messages share one server, its screen buffers and its handles. A message
changes the screen buffer its object refers to and its object. Only the echo of
a line-input read goes elsewhere, to the active screen buffer.
-/

namespace Conhost

namespace Cooked

variable {platform : Platform} {device : Device} {call : CookedCall}

section Quiet

variable (quiet : call.mode.echoInput = false)
include quiet

theorem conclude_quiet (state : CookedState) (outcome : EditLine.Outcome) :
    (conclude platform device call state outcome).Keeps CookedState.screen (·.1.screen)
      state.screen := by
  cases outcome with
  | proceed | endOfFile | ctrlC | ctrlBreak => exact rfl
  | newline carriageReturn =>
      simp only [conclude, echoText_quiet quiet]
      cases carriageReturn <;> exact rfl

theorem body_quiet (state : CookedState) :
    (body platform device call state).Keeps CookedState.screen (·.1.screen) state.screen := by
  have idles : ∀ current : CookedState, (idle current).1.screen = current.screen := by
    intro current
    simp only [idle]
    split <;> rfl
  simp only [body]
  split
  · exact idles state
  · split
    · exact idles _
    · simp only [handleToken, echoTexts_quiet quiet]
      exact conclude_quiet quiet _ _

/-- Without echo a read leaves the screen alone. -/
theorem readConsole_quiet {fuel : Nat} {state : CookedState} {result : Result}
    (read : readConsole platform device call fuel state = some result) :
    result.1.screen = state.screen := by
  simp only [readConsole] at read
  split at read
  · cases read
    rfl
  · split at read
    · cases read
      rfl
    · have kept := iterate_unchanged (body_quiet quiet) read
      exact kept

end Quiet

end Cooked

namespace IoPacket

/-- The screen buffers a message may change: the one its object refers to, and the active one if the
message is a line-input read with echo. -/
inductive Shows (packet : IoPacket) (server : ServerState) (index : Nat) : Prop where
  | own {handle : ObjectHandle} (found : server.objects packet.object = some handle)
      (output : handle.kind = .output) (refers : handle.screenBuffer = some index)
  | echo {apiSize : UInt32} {unicode processControlZ : Bool} {numBytes : Nat}
      (reads : packet.function =
        .userDefined apiSize (.input (.readConsole unicode processControlZ numBytes)))
      (line : server.inputMode.lineInput = true) (echoes : server.inputMode.echoInput = true)
      (active : server.activeScreenBuffer = some index)

/-- The other screen buffers are as they were. -/
def KeepsScreens (packet : IoPacket) (before after : ServerState) : Prop :=
  ∀ index, ¬packet.Shows before index → after.screenBuffers[index]? = before.screenBuffers[index]?

/-- What holds of everything that can come of a dispatch. -/
def Spares (packet : IoPacket) (before : ServerState) (result : Dispatched) : Prop :=
  ∀ ended, result = some (.ok ended) → packet.KeepsScreens before ended.1.server

variable {packet : IoPacket} {before after : ServerState} {next : Console}

theorem keepsScreens_of_eq (same : after.screenBuffers = before.screenBuffers) :
    packet.KeepsScreens before after := by
  intro index _
  rw [same]

theorem keepsScreens_of_set {index : Nat} {buffer : ScreenBuffer}
    (shows : packet.Shows before index)
    (changed : after.screenBuffers = before.screenBuffers.set index buffer) :
    packet.KeepsScreens before after := by
  intro other hidden
  rw [changed, List.getElem?_set_ne]
  rintro rfl
  exact hidden shows

theorem answer_spares {reply : Reply} (keeps : packet.KeepsScreens before next.server) :
    packet.Spares before (next.answer reply) := by
  rintro ended ⟨⟩
  exact keeps

theorem withBuffers_spares {environment : Environment} {input output : Bool}
    {work : List Byte → Nat → Dispatched}
    (spares : ∀ bytes capacity, packet.Spares before (work bytes capacity)) :
    packet.Spares before (packet.withBuffers environment input output work) := by
  intro ended dispatched
  simp only [withBuffers] at dispatched
  split at dispatched
  · cases dispatched
  · split at dispatched
    · cases dispatched
    · exact spares _ _ ended dispatched

end IoPacket

open IoPacket

variable {environment : Environment} {console : Console} {packet : IoPacket}

theorem Console.findScreen_eq_some {object : Handle} {index : Nat} {buffer : ScreenBuffer}
    (found : console.findScreen object = some (index, buffer)) :
    ∃ handle, console.server.objects object = some handle ∧ handle.kind = .output ∧
      handle.screenBuffer = some index := by
  simp only [Console.findScreen, Option.bind_eq_some_iff, Option.map_eq_some_iff] at found
  obtain ⟨handle, found, place, refers, _, _, same⟩ := found
  cases same
  obtain ⟨found, kind⟩ := Console.findHandle_eq_some_iff.mp found
  exact ⟨handle, found, kind, refers⟩

theorem Console.shows_of_findScreen {index : Nat} {buffer : ScreenBuffer}
    (found : console.findScreen packet.object = some (index, buffer)) :
    packet.Shows console.server index := by
  obtain ⟨handle, found, output, refers⟩ := Console.findScreen_eq_some found
  exact .own found output refers

section Screen

variable {index : Nat} {buffer : ScreenBuffer} (shows : packet.Shows console.server index)
include shows

theorem Console.writeText_spares {device : Device} {bytes : List Byte} {text : List WChar}
    {reply : Reply} : packet.Spares console.server
      (console.writeText device index buffer bytes text reply) := by
  intro ended dispatched
  simp only [Console.writeText] at dispatched
  split at dispatched
  · cases dispatched
  · cases dispatched
    exact keepsScreens_of_set shows rfl

theorem writeConsoleRequest_spares {unicode : Bool} {input : List Byte} :
    packet.Spares console.server
      (writeConsoleRequest environment console index buffer unicode input) := by
  have refused : ∀ reply, packet.Spares console.server (console.answer reply) :=
    fun reply => answer_spares (keepsScreens_of_eq rfl)
  simp only [writeConsoleRequest]
  split
  · split
    · exact refused _
    · split
      · rintro ended ⟨⟩
      · exact Console.writeText_spares shows
  · split
    · exact refused _
    · exact Console.writeText_spares shows

theorem ScreenApi.handle_spares (request : ScreenApi) (input : List Byte) (capacity : Nat) :
    packet.KeepsScreens console.server
      (request.handle console.server index buffer input capacity).1 := by
  cases request <;> simp only [ScreenApi.handle, store, setFont] <;>
    first
      | exact keepsScreens_of_eq rfl
      | exact keepsScreens_of_set shows rfl
      | (split <;> exact keepsScreens_of_eq rfl)

end Screen

theorem GlobalApi.handle_screens (request : GlobalApi) (system : System) (server : ServerState)
    (input : List Byte) (capacity : Nat) :
    (request.handle system server input capacity).1.screenBuffers = server.screenBuffers := by
  cases request with
  | setCp output codePage => cases output <;> rfl
  | addAlias =>
      simp only [GlobalApi.handle, addAliasRequest]
      repeat' split
      all_goals rfl
  | expungeCommandHistory | setNumberOfCommands =>
      simp only [GlobalApi.handle]
      split <;> rfl
  | _ => rfl

section Input

variable {handle : ObjectHandle}

theorem afterLine_screens (state : CookedState) :
    (InputApi.afterLine console packet.object handle state).server.screenBuffers =
      match console.server.activeScreenBuffer, state.screen with
      | some index, some buffer => console.server.screenBuffers.set index buffer
      | _, _ => console.server.screenBuffers := by
  simp only [InputApi.afterLine, ServerState.setObject]
  cases console.server.activeScreenBuffer <;> cases state.screen <;> rfl

/-- A line-input read changes the active screen buffer only if it echoes. -/
theorem afterLine_spares {apiSize : UInt32} {unicode processControlZ : Bool} {numBytes : Nat}
    (function : packet.function =
      .userDefined apiSize (.input (.readConsole unicode processControlZ numBytes)))
    (line : console.server.inputMode.lineInput = true) {state : CookedState}
    (quiet : console.server.inputMode.echoInput = false →
      state.screen = console.server.activeBuffer) :
    packet.KeepsScreens console.server
      (InputApi.afterLine console packet.object handle state).server := by
  have screens := @afterLine_screens console packet handle state
  cases active : console.server.activeScreenBuffer with
  | none =>
      simp only [active] at screens
      exact keepsScreens_of_eq screens
  | some index =>
      cases shown : state.screen with
      | none =>
          simp only [active, shown] at screens
          exact keepsScreens_of_eq screens
      | some buffer =>
          simp only [active, shown] at screens
          cases echoes : console.server.inputMode.echoInput with
          | true => exact keepsScreens_of_set (.echo function line echoes active) screens
          | false =>
              have same : console.server.screenBuffers[index]? = some buffer := by
                have kept := quiet echoes
                simpa [shown, ServerState.activeBuffer, active, ServerState.screenBuffer]
                  using kept.symm
              intro other _
              rw [screens]
              by_cases here : index = other
              · subst here
                have inside := (List.getElem?_eq_some_iff.mp same).1
                rw [List.getElem?_set_self inside, same]
              · rw [List.getElem?_set_ne here]

theorem readConsoleRequest_spares {apiSize : UInt32} {fuel capacity numBytes : Nat}
    {unicode processControlZ : Bool}
    (function : packet.function =
      .userDefined apiSize (.input (.readConsole unicode processControlZ numBytes))) :
    packet.Spares console.server
      (InputApi.readConsoleRequest environment console packet.object handle fuel capacity unicode
        processControlZ) := by
  intro ended dispatched
  simp only [InputApi.readConsoleRequest] at dispatched
  split at dispatched
  · rename_i line
    split at dispatched
    · cases dispatched
    · cases dispatched
    · rename_i state reply read
      cases dispatched
      exact afterLine_spares function line fun quiet => Cooked.readConsole_quiet quiet read
  · split at dispatched <;> cases dispatched <;> exact keepsScreens_of_eq rfl

theorem handleRequest_spares {apiSize : UInt32} {request : InputApi} {fuel capacity : Nat}
    {input : List Byte} (function : packet.function = .userDefined apiSize (.input request)) :
    packet.Spares console.server
      (request.handleRequest environment console packet.object handle fuel input capacity) := by
  intro ended dispatched
  cases request with
  | flushInputBuffer | getNumberOfInputEvents =>
      cases dispatched
      exact keepsScreens_of_eq rfl
  | writeConsoleInput unicode append numRecords =>
      cases dispatched
      apply keepsScreens_of_eq
      simp only [InputApi.writeConsoleInputRequest]
      split
      · rfl
      · cases append <;> rfl
  | getConsoleInput flags unicode numRecords =>
      cases dispatched
      apply keepsScreens_of_eq
      simp only [InputApi.getConsoleInputRequest]
      split <;> rfl
  | readConsole unicode processControlZ numBytes =>
      exact readConsoleRequest_spares function ended dispatched

end Input

theorem dispatchApi_spares {apiSize : UInt32} {api : Api} {fuel : Nat}
    (function : packet.function = .userDefined apiSize api) :
    packet.Spares console.server (dispatchApi environment console packet fuel api) := by
  have unchanged : ∀ reply, packet.Spares console.server (console.answer reply) :=
    fun reply => answer_spares (keepsScreens_of_eq rfl)
  cases api with
  | getMode =>
      simp only [dispatchApi]
      split <;> exact unchanged _
  | setMode mode =>
      simp only [dispatchApi]
      split
      · exact unchanged _
      · apply answer_spares
        apply keepsScreens_of_eq
        split
        · rfl
        · simp only [setOutputMode]
          split <;> rfl
  | getTitle =>
      simp only [dispatchApi]
      split
      · exact unchanged _
      · exact withBuffers_spares fun _ _ => unchanged _
  | setTitle unicode =>
      simp only [dispatchApi]
      split
      · exact unchanged _
      · refine withBuffers_spares fun input _ => answer_spares (keepsScreens_of_eq ?_)
        simp only [setTitleRequest]
        repeat' split
        all_goals rfl
  | writeConsole =>
      simp only [dispatchApi]
      split
      · exact unchanged _
      · rename_i index buffer found
        have shows : packet.Shows console.server index := Console.shows_of_findScreen found
        exact withBuffers_spares fun _ _ => writeConsoleRequest_spares shows
  | screen request =>
      simp only [dispatchApi]
      split
      · exact unchanged _
      · rename_i index buffer found
        have shows : packet.Shows console.server index := Console.shows_of_findScreen found
        exact withBuffers_spares fun _ _ =>
          answer_spares (ScreenApi.handle_spares shows request _ _)
  | global request =>
      exact withBuffers_spares fun _ _ =>
        answer_spares (keepsScreens_of_eq (GlobalApi.handle_screens request _ _ _ _))
  | input request =>
      simp only [dispatchApi]
      split
      · exact unchanged _
      · exact withBuffers_spares fun _ _ => handleRequest_spares function
  | unsupported => exact unchanged _

theorem dispatchMessage_spares {fuel : Nat} (other : ¬Manages packet.function) :
    packet.Spares console.server (dispatchMessage environment console packet fuel) := by
  have unchanged : ∀ reply, packet.Spares console.server (console.answer reply) :=
    fun reply => answer_spares (keepsScreens_of_eq rfl)
  simp only [dispatchMessage]
  cases function : packet.function with
  | userDefined apiSize api =>
      simp only
      split
      · exact unchanged _
      · exact dispatchApi_spares function
  | connect | disconnect | createObject | closeObject => simp [Manages, function] at other
  | rawFlush =>
      simp only [rawFlushRequest]
      split
      · exact unchanged _
      · exact answer_spares (keepsScreens_of_eq rfl)
  | rawWrite =>
      simp only [rawWriteRequest]
      split
      · exact unchanged _
      · rename_i index buffer found
        refine withBuffers_spares fun input _ => ?_
        split
        · exact unchanged _
        · exact Console.writeText_spares (Console.shows_of_findScreen found)
  | rawRead =>
      simp only [rawReadRequest]
      split
      · exact unchanged _
      · refine withBuffers_spares fun _ capacity => ?_
        rintro ended ⟨⟩
        exact keepsScreens_of_eq rfl
  | other => exact unchanged _

open ServerState

theorem ServerState.connectClient_screens (state : ServerState) (allocate : Allocator)
    (system : System) (pid tid : UInt32) (appName : List WChar) :
    (state.connectClient allocate system pid tid appName).1.screenBuffers =
      state.screenBuffers := by
  simp only [connectClient]
  split
  · rfl
  · split
    · rfl
    · split
      · rfl
      · rename_i opened input created
        obtain ⟨-, -, -, object, rfl⟩ := createObject_grows created
        split
        · simp only [closeObject]
          split <;> rfl
        · rename_i complete output finished
          obtain ⟨-, -, -, object', rfl⟩ := createObject_grows finished
          rfl

theorem newObject_screens {type : ObjectType} {shareMode desiredAccess : UInt32}
    {next : ServerState} {object : ObjectHandle}
    (made : newObject console packet type shareMode desiredAccess = .ok (next, object)) :
    console.server.screenBuffers <+: next.screenBuffers := by
  simp only [newObject] at made
  split at made
  · cases made
    exact List.prefix_rfl
  · cases made
    exact List.prefix_rfl
  · simp only [createScreenBufferLikeActive] at made
    split at made
    · cases made
    · rename_i server index template
      cases made
      obtain ⟨template, -, rfl, -⟩ := by
        simpa only [Option.map_eq_some_iff, Prod.mk.injEq] using template
      exact List.prefix_append _ _
  · cases made

/-- A message that manages clients or objects at most adds a screen buffer. -/
theorem dispatchMessage_prefix {fuel : Nat} {ended : Console × Outcome}
    (dispatched : dispatchMessage environment console packet fuel = some (.ok ended))
    (manages : Manages packet.function) :
    console.server.screenBuffers <+: ended.1.server.screenBuffers := by
  simp only [dispatchMessage] at dispatched
  split at dispatched
  · rename_i function
    simp [Manages, function] at manages
  · rename_i function
    obtain ⟨server, -⟩ := connectRequest_spec function dispatched
    rw [server, connectedState, connectClient_screens]
  · cases dispatched
    simp only [disconnectClient]
    split <;> exact List.prefix_rfl
  · simp only [createObjectRequest] at dispatched
    split at dispatched
    · cases dispatched
      exact List.prefix_rfl
    · rename_i server object made
      have longer := newObject_screens made
      split at dispatched
      · cases dispatched
        exact List.prefix_rfl
      · split at dispatched
        · cases dispatched
          exact List.prefix_rfl
        · rename_i opened id created
          cases dispatched
          obtain ⟨-, -, -, object', rfl⟩ := createObject_grows created
          exact longer
  · simp only [closeObjectRequest, closeObject] at dispatched
    split at dispatched
    · cases dispatched
      exact List.prefix_rfl
    · rename_i server closed
      cases dispatched
      split at closed
      · cases closed
        exact List.prefix_rfl
      · cases closed
  all_goals
    rename_i function
    simp [Manages, function] at manages

/-- What can become of a screen buffer. -/
theorem dispatchMessage_screen {fuel index : Nat} {ended : Console × Outcome}
    {buffer : ScreenBuffer}
    (dispatched : dispatchMessage environment console packet fuel = some (.ok ended))
    (present : console.server.screenBuffer index = some buffer) :
    ended.1.server.screenBuffer index = some buffer ∨
      ¬Manages packet.function ∧ packet.Shows console.server index := by
  by_cases manages : Manages packet.function
  · obtain ⟨added, longer⟩ := dispatchMessage_prefix dispatched manages
    have inside : index < console.server.screenBuffers.length :=
      (List.getElem?_eq_some_iff.mp present).1
    left
    rw [screenBuffer, ← longer, List.getElem?_append_left inside]
    exact present
  · by_cases shows : packet.Shows console.server index
    · exact .inr ⟨manages, shows⟩
    · exact .inl ((dispatchMessage_spares manages ended dispatched index shows).trans present)

/-- What can become of a handle. -/
theorem dispatchMessage_handle {fuel : Nat} {ended : Console × Outcome} {id : Handle}
    {handle : ObjectHandle}
    (dispatched : dispatchMessage environment console packet fuel = some (.ok ended))
    (present : console.server.objects id = some handle) :
    ended.1.server.objects id = some handle ∨
      (¬Manages packet.function ∧ id = packet.object) ∨
      ended.1.server.objects id = none ∧
        (packet.function = .disconnect ∧ handle.owningProcess = packet.process ∨
          packet.function = .closeObject ∧ id = packet.object) := by
  by_cases manages : Manages packet.function
  · simp only [dispatchMessage] at dispatched
    split at dispatched
    · rename_i function
      simp [Manages, function] at manages
    · rename_i function
      obtain ⟨server, -⟩ := connectRequest_spec function dispatched
      rw [server]
      rcases (connectClient_spec _ _ _ _ _ _).1 id with same | ⟨free, -⟩
      · exact .inl (by rw [connectedState, same, present])
      · rw [present] at free
        cases free
    · rename_i function
      rcases (disconnectRequest_spec dispatched).1 id with same | ⟨gone, owned, found, owns⟩
      · exact .inl (by rw [same, present])
      · rw [present] at found
        cases found
        exact .inr (.inr ⟨gone, .inl ⟨function, owns⟩⟩)
    · rcases (createObjectRequest_spec dispatched).1 id with same | ⟨free, -⟩
      · exact .inl (by rw [same, present])
      · rw [present] at free
        cases free
    · rename_i function
      rcases (closeObjectRequest_spec dispatched).1 id with same | ⟨named, gone⟩
      · exact .inl (by rw [same, present])
      · exact .inr (.inr ⟨gone, .inr ⟨function, named⟩⟩)
    all_goals
      rename_i function
      simp [Manages, function] at manages
  · by_cases own : id = packet.object
    · exact .inr (.inl ⟨manages, own⟩)
    · have keeps := (dispatchMessage_ends dispatched manages).keeps
      exact .inl (by rw [keeps.others id own, present])

/-- A message changes no screen buffer but the one its object refers to and, for a line-input read
with echo, the active one; it changes no handle but its object, which only a disconnection or a
close takes away; and only a connection or the creation of an object adds handles. -/
theorem dispatchMessage_footprint {fuel : Nat} {next : Console} {outcome : Outcome}
    (dispatched : dispatchMessage environment console packet fuel = some (.ok (next, outcome))) :
    (∀ index buffer, console.server.screenBuffer index = some buffer →
      next.server.screenBuffer index = some buffer ∨
        ¬Manages packet.function ∧ packet.Shows console.server index) ∧
    (∀ id handle, console.server.objects id = some handle →
      next.server.objects id = some handle ∨
        (¬Manages packet.function ∧ id = packet.object) ∨
        next.server.objects id = none ∧
          (packet.function = .disconnect ∧ handle.owningProcess = packet.process ∨
            packet.function = .closeObject ∧ id = packet.object)) ∧
    (∀ id, console.server.objects id = none →
      next.server.objects id = none ∨ Creates packet.function) := by
  refine ⟨?_, ?_, ?_⟩
  · intro index buffer present
    exact dispatchMessage_screen dispatched present
  · intro id handle present
    exact dispatchMessage_handle dispatched present
  · intro id absent
    rcases dispatchMessage_objects dispatched id with same | gone | ⟨-, creates, -⟩
    · rw [absent] at same
      exact .inl (Option.isSome_eq_false_iff.mp same |> Option.isNone_iff_eq_none.mp)
    · exact .inl gone
    · exact .inr creates

theorem dispatchMessage_footprint_close :
    let handle : ObjectHandle := { kind := .output, screenBuffer := some 0 }
    let server := ((ServerState.initial .utf8).setObject 24 (some handle)).setObject 32
        (some handle)
    let packet : IoPacket := { process := 8, object := 24, function := .closeObject }
    ∃ next outcome,
      dispatchMessage (.utf8 0) { server := server } packet 0 = some (.ok (next, outcome)) ∧
        next.server.objects 32 = some handle := by
  intro handle server packet
  have dispatched : dispatchMessage (.utf8 0) { server := server } packet 0 =
      some (.ok ({ server := server.setObject 24 none }, .complete {} false)) := rfl
  refine ⟨_, _, dispatched, ?_⟩
  rcases (dispatchMessage_footprint dispatched).2.1 32 handle rfl with
    kept | ⟨manages, -⟩ | ⟨-, ⟨disconnects, -⟩ | ⟨-, named⟩⟩
  · exact kept
  · exact absurd trivial manages
  · cases disconnects
  · cases named

end Conhost
