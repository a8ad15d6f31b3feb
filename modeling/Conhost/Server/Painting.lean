import Conhost.Screen.Snapshot
import Conhost.Server.Footprint

/-!
# What a message does to the screens

A message changes at most one screen buffer, by an operation that counts; it
adds a buffer that is like the active one, or it makes another buffer the active
one. Nothing else that a message does can be seen.
-/

namespace Conhost

/-- A buffer has gone through operations that count and keep it well formed. -/
structure ScreenBuffer.Redrawn (before after : ScreenBuffer) : Prop where
  counts : before.Counts after
  valid : before.WellFormed → after.WellFormed

theorem ScreenBuffer.Redrawn.refl (buffer : ScreenBuffer) : buffer.Redrawn buffer :=
  ⟨.refl buffer, id⟩

theorem ScreenBuffer.Redrawn.trans {before middle after : ScreenBuffer}
    (first : before.Redrawn middle) (second : middle.Redrawn after) : before.Redrawn after :=
  ⟨first.counts.trans second.counts, second.valid ∘ first.valid⟩

theorem ScreenRequest.apply_redrawn (buffer : ScreenBuffer) (request : ScreenRequest) :
    buffer.Redrawn (request.apply buffer) :=
  ⟨request.apply_counts buffer, fun valid => request.apply_wellFormed valid⟩

namespace ServerState

/-- The screens before and after a message. -/
inductive Paints (before after : ServerState) : Prop where
  | same (screens : after.screenBuffers = before.screenBuffers)
      (active : after.activeScreenBuffer = before.activeScreenBuffer)
  | redrawn {index : Nat} {buffer next : ScreenBuffer}
      (present : before.screenBuffer index = some buffer) (redrawn : buffer.Redrawn next)
      (screens : after.screenBuffers = before.screenBuffers.set index next)
      (active : after.activeScreenBuffer = before.activeScreenBuffer)
  | activated {index : Nat} {buffer : ScreenBuffer}
      (present : before.screenBuffer index = some buffer)
      (screens : after.screenBuffers = before.screenBuffers)
      (active : after.activeScreenBuffer = some index)
  | added {template : ScreenBuffer} (present : before.activeBuffer = some template)
      (screens : after.screenBuffers = before.screenBuffers ++ [template.createBlankLike])
      (active : after.activeScreenBuffer = before.activeScreenBuffer)

/-- There is an active screen buffer, and all of them are well formed. -/
structure Sound (server : ServerState) : Prop where
  active : ∃ buffer, server.activeBuffer = some buffer
  valid : ∀ index buffer, server.screenBuffer index = some buffer → buffer.WellFormed

theorem initial_sound (system : System) : (initial system).Sound where
  active := ⟨_, rfl⟩
  valid := by
    intro index buffer present
    cases index with
    | zero =>
        cases present
        apply ScreenBuffer.create_wellFormed
        constructor <;> decide
    | succ index => cases present

namespace Paints

variable {before after : ServerState}

/-- No screen buffer goes away, and none changes without a count. -/
theorem counts (paints : before.Paints after) {index : Nat} {buffer : ScreenBuffer}
    (present : before.screenBuffer index = some buffer) :
    ∃ next, after.screenBuffer index = some next ∧ buffer.Redrawn next := by
  have inside : index < before.screenBuffers.length := (List.getElem?_eq_some_iff.mp present).1
  cases paints with
  | same screens | activated _ screens =>
      exact ⟨buffer, by rw [screenBuffer, screens]; exact present, .refl buffer⟩
  | redrawn there redrawn screens active =>
      rename_i place old next
      simp only [screenBuffer, screens]
      by_cases here : place = index
      · subst here
        cases there.symm.trans present
        exact ⟨next, List.getElem?_set_self inside, redrawn⟩
      · exact ⟨buffer, (List.getElem?_set_ne here).trans present, .refl buffer⟩
  | added _ screens =>
      refine ⟨buffer, ?_, .refl buffer⟩
      rw [screenBuffer, screens, List.getElem?_append_left inside]
      exact present

theorem activeBuffer_isSome (paints : before.Paints after)
    (sound : ∃ buffer, before.activeBuffer = some buffer) :
    ∃ buffer, after.activeBuffer = some buffer := by
  have active : ∃ index buffer, after.activeScreenBuffer = some index ∧
      before.screenBuffer index = some buffer := by
    obtain ⟨buffer, found⟩ := sound
    obtain ⟨index, active, present⟩ := Option.bind_eq_some_iff.mp found
    cases paints with
    | same _ same | redrawn _ _ _ same | added _ _ same =>
        exact ⟨index, buffer, same.trans active, present⟩
    | activated there _ active => exact ⟨_, _, active, there⟩
  obtain ⟨index, buffer, active, present⟩ := active
  obtain ⟨next, shown, -⟩ := paints.counts present
  exact ⟨next, by rw [activeBuffer, active]; exact shown⟩

theorem sound (paints : before.Paints after) (sound : before.Sound) : after.Sound where
  active := paints.activeBuffer_isSome sound.active
  valid := by
    intro index buffer present
    cases paints with
    | same screens | activated _ screens =>
        rw [screenBuffer, screens] at present
        exact sound.valid index buffer present
    | redrawn there redrawn screens active =>
        rename_i place old next
        rw [screenBuffer, screens] at present
        by_cases here : place = index
        · subst here
          have inside := (List.getElem?_eq_some_iff.mp there).1
          rw [List.getElem?_set_self inside] at present
          cases present
          exact redrawn.valid (sound.valid place old there)
        · rw [List.getElem?_set_ne here] at present
          exact sound.valid index buffer present
    | added found screens active =>
        rename_i template
        obtain ⟨place, -, there⟩ := Option.bind_eq_some_iff.mp found
        rw [screenBuffer, screens] at present
        rcases List.mem_append.mp (List.mem_of_getElem? present) with old | new
        · obtain ⟨at', found⟩ := List.mem_iff_getElem?.mp old
          exact sound.valid at' buffer found
        · rw [List.mem_singleton.mp new]
          exact ScreenBuffer.create_wellFormed (sound.valid place template there).core.size

end Paints

end ServerState

namespace Cooked

variable {platform : Platform} {device : Device} {call : CookedCall}

/-- The screen of a line-input read has at most been redrawn. -/
abbrev Echoed (before : Option ScreenBuffer) (state : CookedState) : Prop :=
  Option.Rel ScreenBuffer.Redrawn before state.screen

variable {before : Option ScreenBuffer} {state : CookedState}

theorem showText_echoed (echoed : Echoed before state) (text : List WChar) :
    Echoed before (showText call text state) := by
  simp only [Echoed, showText]
  cases shown : state.screen with
  | none =>
      simp only [shown]
      rw [Echoed, shown] at echoed
      exact echoed
  | some buffer =>
      rw [Echoed, shown] at echoed
      cases echoed with
      | some redrawn =>
          exact .some (redrawn.trans (ScreenRequest.apply_redrawn buffer
            (.writeText text call.outputMode (some state.title) (!state.read.host.hasOutput))))

theorem echoText_echoed (echoed : Echoed before state) (text : List WChar) :
    Echoed before (echoText platform device call text state).1 := by
  simp only [echoText]
  split
  · exact echoed
  · have shown : Echoed before (showText call text state) := showText_echoed echoed text
    split
    · exact shown
    · split <;> exact shown

theorem echoTexts_echoed (texts : List (List WChar)) (echoed : Echoed before state) :
    Echoed before (echoTexts platform device call texts state).1 := by
  induction texts generalizing state with
  | nil => exact echoed
  | cons text later hypothesis =>
      have shown : Echoed before (echoText platform device call text state).1 :=
        echoText_echoed echoed text
      simp only [echoTexts]
      split
      · rename_i next ends
        rw [ends] at shown
        exact hypothesis shown
      · exact shown

theorem conclude_echoed (echoed : Echoed before state) (outcome : EditLine.Outcome) :
    (conclude platform device call state outcome).Meets (Echoed before)
      (fun result => Echoed before result.1) := by
  cases outcome with
  | proceed | endOfFile | ctrlC | ctrlBreak => exact echoed
  | newline carriageReturn =>
      simp only [conclude]
      generalize skips : (if carriageReturn then
        { state with read := skipLf platform call state.read } else state) = skipped
      have same : Echoed before skipped := by
        rw [← skips]
        split <;> exact echoed
      have shown : Echoed before
          (echoText platform device call (newlineSuffix call) skipped).1 :=
        echoText_echoed same _
      split
      all_goals
        rename_i next ends
        rw [ends] at shown
        exact shown

theorem body_echoed (echoed : Echoed before state) :
    (body platform device call state).Meets (Echoed before)
      (fun result => Echoed before result.1) := by
  have idles : ∀ {current : CookedState}, Echoed before current →
      Echoed before (idle current).1 := by
    intro current echoed
    simp only [idle]
    split <;> exact echoed
  simp only [body]
  split
  · exact idles echoed
  · split
    · exact idles echoed
    · rename_i token length decoded
      simp only [handleToken]
      generalize (editLine _).handleToken call.mode.processedInput call.processControlZ token =
        effect
      have shown : Echoed before (echoTexts platform device call effect.echoes
          (setEdit { state with read := state.read.consume length } effect.edit)).1 :=
        echoTexts_echoed effect.echoes echoed
      split
      all_goals
        rename_i next ends
        rw [ends] at shown
      · exact shown
      · exact conclude_echoed shown effect.outcome

/-- A line-input read does to the screen what echoes do. -/
theorem readConsole_echoed {fuel : Nat} {result : Result}
    (read : readConsole platform device call fuel state = some result) :
    Echoed state.screen result.1 := by
  have unchanged : Echoed state.screen state := by
    rw [Echoed]
    cases state.screen with
    | none => exact .none
    | some buffer => exact .some (.refl buffer)
  simp only [readConsole] at read
  split at read
  · cases read
    exact unchanged
  · split at read
    · cases read
      exact unchanged
    · have begins : Echoed state.screen (start state) := unchanged
      exact iterate_invariant (fun echoed => body_echoed echoed) begins read

end Cooked

open ServerState IoPacket

variable {environment : Environment} {console : Console} {packet : IoPacket}

/-- What can be seen of everything that can come of a dispatch. -/
def Dispatched.Paints (before : ServerState) (result : Dispatched) : Prop :=
  ∀ ended, result = some (.ok ended) → before.Paints ended.1.server

theorem answer_paints {before : ServerState} {next : Console} {reply : Reply}
    (paints : before.Paints next.server) : Dispatched.Paints before (next.answer reply) := by
  rintro ended ⟨⟩
  exact paints

theorem withBuffers_paints {before : ServerState} {input output : Bool}
    {work : List Byte → Nat → Dispatched}
    (paints : ∀ bytes capacity, Dispatched.Paints before (work bytes capacity)) :
    Dispatched.Paints before (packet.withBuffers environment input output work) := by
  intro ended dispatched
  simp only [withBuffers] at dispatched
  split at dispatched
  · cases dispatched
  · split at dispatched
    · cases dispatched
    · exact paints _ _ ended dispatched

theorem Console.findScreen_present {object : Handle} {index : Nat} {buffer : ScreenBuffer}
    (found : console.findScreen object = some (index, buffer)) :
    console.server.screenBuffer index = some buffer := by
  simp only [Console.findScreen, Option.bind_eq_some_iff, Option.map_eq_some_iff] at found
  obtain ⟨handle, -, place, -, shown, present, same⟩ := found
  cases same
  exact present

section Screen

variable {server : ServerState} {index : Nat} {buffer : ScreenBuffer}

theorem request_paints (present : server.screenBuffer index = some buffer)
    (request : ScreenRequest) :
    server.Paints (server.setScreenBuffer index (request.apply buffer)) :=
  .redrawn present (request.apply_redrawn buffer) rfl rfl

theorem ScreenApi.handle_paints (present : server.screenBuffer index = some buffer)
    (request : ScreenApi) (input : List Byte) (capacity : Nat) :
    server.Paints (request.handle server index buffer input capacity).1 := by
  cases request with
  | setCursorInfo size visible => exact request_paints present (.setCursorInfo size visible)
  | setScreenBufferInfo body => exact request_paints present (.setScreenBufferInfo body)
  | setScreenBufferSize size => exact request_paints present (.setScreenBufferSize size)
  | setCursorPosition position => exact request_paints present (.setCursorPosition position)
  | scrollScreenBuffer body => exact request_paints present (.scroll body)
  | setTextAttribute attributes => exact request_paints present (.setTextAttribute attributes)
  | setWindowInfo absolute window => exact request_paints present (.setWindowInfo absolute window)
  | fillConsoleOutput origin elementType element length =>
      exact request_paints present (.fill origin elementType element length)
  | writeConsoleOutput region unicode =>
      exact request_paints present (.writeOutput region unicode input)
  | writeConsoleOutputString origin stringType =>
      exact request_paints present (.writeOutputString origin stringType input)
  | setActiveScreenBuffer => exact .activated present rfl rfl
  | getFontInfo | getFontSize | charType =>
      simp only [ScreenApi.handle]
      split <;> exact .same rfl rfl
  | getCursorInfo | getScreenBufferInfo | getLargestWindowSize | readConsoleOutputString
  | readConsoleOutput | getCurrentFont | setCurrentFont | setDisplayMode => exact .same rfl rfl

theorem Console.writeText_paints (present : console.server.screenBuffer index = some buffer)
    {device : Device} {bytes : List Byte} {text : List WChar} {reply : Reply} :
    Dispatched.Paints console.server
      (console.writeText device index buffer bytes text reply) := by
  intro ended dispatched
  simp only [Console.writeText] at dispatched
  split at dispatched
  · cases dispatched
  · rename_i host wrote
    cases dispatched
    exact .redrawn present (ScreenRequest.apply_redrawn buffer (.writeText text
      console.server.outputMode (some console.server.title) (!host.hasOutput))) rfl rfl

theorem writeConsoleRequest_paints (present : console.server.screenBuffer index = some buffer)
    {unicode : Bool} {input : List Byte} :
    Dispatched.Paints console.server
      (writeConsoleRequest environment console index buffer unicode input) := by
  have refused : ∀ reply, Dispatched.Paints console.server (console.answer reply) :=
    fun reply => answer_paints (.same rfl rfl)
  simp only [writeConsoleRequest]
  split
  · split
    · exact refused _
    · split
      · rintro ended ⟨⟩
      · exact Console.writeText_paints present
  · split
    · exact refused _
    · exact Console.writeText_paints present

end Screen

theorem GlobalApi.handle_active (request : GlobalApi) (system : System) (server : ServerState)
    (input : List Byte) (capacity : Nat) :
    (request.handle system server input capacity).1.activeScreenBuffer =
      server.activeScreenBuffer := by
  cases request with
  | setCp output codePage => cases output <;> rfl
  | addAlias =>
      simp only [GlobalApi.handle, addAliasRequest]
      repeat' split
      all_goals rfl
  | expungeCommandHistory | setNumberOfCommands =>
      simp only [GlobalApi.handle]
      split <;> rfl
  | _ => rfl

section Input

variable {handle : ObjectHandle}

/-- A line-input read shows its echo on the active screen buffer. -/
theorem afterLine_paints {state : CookedState}
    (echoed : Cooked.Echoed console.server.activeBuffer state) :
    console.server.Paints (InputApi.afterLine console packet.object handle state).server := by
  have screens := @afterLine_screens console packet handle state
  have active : (InputApi.afterLine console packet.object handle state).server.activeScreenBuffer =
      console.server.activeScreenBuffer := by
    simp only [InputApi.afterLine]
    split <;> rfl
  cases place : console.server.activeScreenBuffer with
  | none =>
      simp only [place] at screens
      exact .same screens active
  | some index =>
      cases shown : state.screen with
      | none =>
          simp only [place, shown] at screens
          exact .same screens active
      | some next =>
          simp only [place, shown] at screens
          rw [Cooked.Echoed, shown] at echoed
          generalize found : console.server.activeBuffer = buffer at echoed
          cases echoed with
          | some redrawn =>
              rw [activeBuffer, place] at found
              exact .redrawn found redrawn screens active

theorem handleRequest_paints {request : InputApi} {fuel capacity : Nat} {input : List Byte} :
    Dispatched.Paints console.server
      (request.handleRequest environment console packet.object handle fuel input capacity) := by
  intro ended dispatched
  cases request with
  | flushInputBuffer | getNumberOfInputEvents =>
      cases dispatched
      exact .same rfl rfl
  | writeConsoleInput unicode append numRecords =>
      cases dispatched
      simp only [InputApi.writeConsoleInputRequest]
      split
      · exact .same rfl rfl
      · cases append <;> exact .same rfl rfl
  | getConsoleInput flags unicode numRecords =>
      cases dispatched
      simp only [InputApi.getConsoleInputRequest]
      split <;> exact .same rfl rfl
  | readConsole unicode processControlZ numBytes =>
      simp only [InputApi.handleRequest, InputApi.readConsoleRequest] at dispatched
      split at dispatched
      · split at dispatched
        · cases dispatched
        · cases dispatched
        · rename_i state reply read
          cases dispatched
          exact afterLine_paints (Cooked.readConsole_echoed read)
      · split at dispatched <;> cases dispatched <;> exact .same rfl rfl

end Input

theorem dispatchApi_paints {api : Api} {fuel : Nat} :
    Dispatched.Paints console.server (dispatchApi environment console packet fuel api) := by
  have unchanged : ∀ reply, Dispatched.Paints console.server (console.answer reply) :=
    fun reply => answer_paints (.same rfl rfl)
  cases api with
  | getMode =>
      simp only [dispatchApi]
      split <;> exact unchanged _
  | setMode mode =>
      simp only [dispatchApi]
      split
      · exact unchanged _
      · apply answer_paints
        split
        · exact .same rfl rfl
        · simp only [setOutputMode]
          split <;> exact .same rfl rfl
  | getTitle =>
      simp only [dispatchApi]
      split
      · exact unchanged _
      · exact withBuffers_paints fun _ _ => unchanged _
  | setTitle unicode =>
      simp only [dispatchApi]
      split
      · exact unchanged _
      · refine withBuffers_paints fun input _ => answer_paints ?_
        simp only [setTitleRequest]
        repeat' split
        all_goals exact .same rfl rfl
  | writeConsole =>
      simp only [dispatchApi]
      split
      · exact unchanged _
      · rename_i found
        exact withBuffers_paints fun _ _ =>
          writeConsoleRequest_paints (Console.findScreen_present found)
  | screen request =>
      simp only [dispatchApi]
      split
      · exact unchanged _
      · rename_i found
        exact withBuffers_paints fun _ _ =>
          answer_paints (ScreenApi.handle_paints (Console.findScreen_present found) request _ _)
  | global request =>
      exact withBuffers_paints fun _ _ => answer_paints
        (.same (GlobalApi.handle_screens request _ _ _ _) (GlobalApi.handle_active request _ _ _ _))
  | input request =>
      simp only [dispatchApi]
      split
      · exact unchanged _
      · exact withBuffers_paints fun _ _ => handleRequest_paints
  | unsupported => exact unchanged _

theorem ServerState.connectClient_active (state : ServerState) (allocate : Allocator)
    (system : System) (pid tid : UInt32) (appName : List WChar) :
    (state.connectClient allocate system pid tid appName).1.activeScreenBuffer =
      state.activeScreenBuffer := by
  simp only [connectClient]
  split
  · rfl
  · split
    · rfl
    · split
      · rfl
      · rename_i opened input created
        obtain ⟨-, -, -, object, rfl⟩ := createObject_grows created
        split
        · simp only [closeObject]
          split <;> rfl
        · rename_i complete output finished
          obtain ⟨-, -, -, object', rfl⟩ := createObject_grows finished
          rfl

theorem newObject_paints {type : ObjectType} {shareMode desiredAccess : UInt32}
    {next : ServerState} {object : ObjectHandle}
    (made : newObject console packet type shareMode desiredAccess = .ok (next, object)) :
    console.server.Paints next := by
  simp only [newObject] at made
  split at made
  · cases made
    exact .same rfl rfl
  · cases made
    exact .same rfl rfl
  · split at made
    · cases made
    · rename_i server index created
      cases made
      simp only [createScreenBufferLikeActive, Option.map_eq_some_iff, Prod.mk.injEq] at created
      obtain ⟨template, found, rfl, -⟩ := created
      exact .added found rfl rfl
  · cases made

/-- The screens after a message. -/
theorem dispatchMessage_paints {fuel : Nat} :
    Dispatched.Paints console.server (dispatchMessage environment console packet fuel) := by
  have unchanged : ∀ reply, Dispatched.Paints console.server (console.answer reply) :=
    fun reply => answer_paints (.same rfl rfl)
  simp only [dispatchMessage]
  split
  · split
    · exact unchanged _
    · exact dispatchApi_paints
  · exact withBuffers_paints fun input _ => answer_paints
      (.same (connectClient_screens _ _ _ _ _ _) (connectClient_active _ _ _ _ _ _))
  · rintro ended ⟨⟩
    simp only [disconnectClient]
    split <;> exact .same rfl rfl
  · simp only [createObjectRequest]
    split
    · exact unchanged _
    · rename_i server object made
      have made := newObject_paints made
      split
      · exact unchanged _
      · split
        · exact unchanged _
        · rename_i opened id created
          obtain ⟨-, -, -, object', rfl⟩ := createObject_grows created
          apply answer_paints
          cases made with
          | same screens active => exact .same screens active
          | redrawn present redrawn screens active => exact .redrawn present redrawn screens active
          | activated present screens active => exact .activated present screens active
          | added present screens active => exact .added present screens active
  · simp only [closeObjectRequest, closeObject]
    split
    · exact unchanged _
    · rename_i server closed
      split at closed
      · cases closed
        exact answer_paints (.same rfl rfl)
      · cases closed
  · simp only [rawFlushRequest]
    split
    · exact unchanged _
    · exact answer_paints (.same rfl rfl)
  · simp only [rawWriteRequest]
    split
    · exact unchanged _
    · rename_i found
      refine withBuffers_paints fun input _ => ?_
      split
      · exact unchanged _
      · exact Console.writeText_paints (Console.findScreen_present found)
  · simp only [rawReadRequest]
    split
    · exact unchanged _
    · refine withBuffers_paints fun _ capacity => ?_
      rintro ended ⟨⟩
      exact .same rfl rfl
  · exact unchanged _

end Conhost
