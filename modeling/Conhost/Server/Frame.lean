import Conhost.Server.Dispatch

/-!
# What a message leaves alone

Clients and objects come and go with four functions of the driver. All other
messages work on the object they name, and of what the reads of other clients
depend on they can change the input mode and the input code page only. Only a
read can be left pending, and only if the object it names is an input handle.
-/

namespace Conhost

namespace IoPacket

/-- The requests that can wait for input. -/
inductive IsRead : IoFunction → Prop where
  | rawRead : IsRead .rawRead
  | getConsoleInput {apiSize : UInt32} {flags : UInt16} {unicode : Bool} {numRecords : Nat}
      (fits : apiSize.toNat ≤ descriptorLimit) :
      IsRead (.userDefined apiSize (.input (.getConsoleInput flags unicode numRecords)))
  | readConsole {apiSize : UInt32} {unicode processControlZ : Bool} {numBytes : Nat}
      (fits : apiSize.toNat ≤ descriptorLimit) :
      IsRead (.userDefined apiSize (.input (.readConsole unicode processControlZ numBytes)))

/-- The requests that add or remove clients and objects. -/
def Manages : IoFunction → Prop
  | .connect | .disconnect | .createObject .. | .closeObject => True
  | _ => False

/-- The requests that create objects. -/
def Creates : IoFunction → Prop
  | .connect | .createObject .. => True
  | _ => False

/-- A request that sets the console input mode. -/
def SetsInputMode (packet : IoPacket) (server : ServerState) : Prop :=
  (∃ apiSize mode, packet.function = .userDefined apiSize (.setMode mode)) ∧
    ∃ handle, server.objects packet.object = some handle ∧ handle.kind = .input

/-- A request that sets the input code page. -/
def SetsInputCodePage (packet : IoPacket) : Prop :=
  ∃ apiSize codePage, packet.function = .userDefined apiSize (.global (.setCp false codePage))

/-- What a message that manages no objects leaves alone. -/
structure Keeps (packet : IoPacket) (before after : ServerState) : Prop where
  processes : after.processes = before.processes
  others : ∀ id, id ≠ packet.object → after.objects id = before.objects id
  present : (after.objects packet.object).isSome = (before.objects packet.object).isSome
  own : ¬IsRead packet.function →
    after.objects packet.object = before.objects packet.object ∨
      after.objects packet.object = (before.objects packet.object).map ObjectHandle.flush
  mode : ¬packet.SetsInputMode before → after.inputMode = before.inputMode
  codePage : ¬packet.SetsInputCodePage → after.inputCodePage = before.inputCodePage

/-- What holds of a message that manages no objects, once it has been dispatched. -/
structure Ends (packet : IoPacket) (before : ServerState) (result : Console × Outcome) :
    Prop where
  keeps : packet.Keeps before result.1.server
  stays : ∀ {reply requestExit}, result.2 = .complete reply requestExit → requestExit = false
  waits : result.2 = .replyPending →
    IsRead packet.function ∧
      ∃ handle, before.findObject packet.object = some handle ∧ handle.kind = .input

variable {packet : IoPacket} {before after : ServerState} {next : Console}

theorem keeps_refl (packet : IoPacket) (server : ServerState) : packet.Keeps server server where
  processes := rfl
  others _ _ := rfl
  present := rfl
  own _ := .inl rfl
  mode _ := rfl
  codePage _ := rfl

/-- A change that has nothing to do with objects or input. -/
theorem keeps_of_eq (processes : after.processes = before.processes)
    (objects : after.objects = before.objects) (mode : after.inputMode = before.inputMode)
    (codePage : after.inputCodePage = before.inputCodePage) : packet.Keeps before after where
  processes := processes
  others _ _ := by rw [objects]
  present := by rw [objects]
  own _ := .inl (by rw [objects])
  mode _ := mode
  codePage _ := codePage

/-- The handle of a read is put back. -/
theorem keeps_setObject {handle : ObjectHandle} (reads : IsRead packet.function)
    (present : (before.objects packet.object).isSome)
    (processes : after.processes = before.processes)
    (objects : after.objects = Function.update before.objects packet.object (some handle))
    (mode : after.inputMode = before.inputMode)
    (codePage : after.inputCodePage = before.inputCodePage) : packet.Keeps before after where
  processes := processes
  others id apart := by rw [objects, Function.update_of_ne apart]
  present := by rw [objects, Function.update_self, present]; rfl
  own other := absurd reads other
  mode _ := mode
  codePage _ := codePage

theorem keeps_flush {handle : ObjectHandle} (found : before.objects packet.object = some handle)
    (processes : after.processes = before.processes)
    (objects : after.objects = Function.update before.objects packet.object (some handle.flush))
    (mode : after.inputMode = before.inputMode)
    (codePage : after.inputCodePage = before.inputCodePage) : packet.Keeps before after where
  processes := processes
  others id apart := by rw [objects, Function.update_of_ne apart]
  present := by rw [objects, Function.update_self, found]; rfl
  own _ := .inr (by rw [objects, Function.update_self, found]; rfl)
  mode _ := mode
  codePage _ := codePage

/-- What holds of everything that can come of a dispatch. -/
def Meets (result : Dispatched) (packet : IoPacket) (before : ServerState) : Prop :=
  ∀ {ended}, result = some (.ok ended) → packet.Ends before ended

theorem answer_meets {reply : Reply} (keeps : packet.Keeps before next.server) :
    Meets (next.answer reply) packet before := by
  intro ended dispatched
  cases dispatched
  exact ⟨keeps, by rintro _ _ ⟨⟩; rfl, by rintro ⟨⟩⟩

theorem withBuffers_meets {environment : Environment} {input output : Bool}
    {work : List Byte → Nat → Dispatched}
    (meets : ∀ bytes capacity, Meets (work bytes capacity) packet before) :
    Meets (packet.withBuffers environment input output work) packet before := by
  intro ended dispatched
  simp only [withBuffers] at dispatched
  split at dispatched
  · cases dispatched
  · split at dispatched
    · cases dispatched
    · exact meets _ _ dispatched

end IoPacket

open IoPacket

variable {environment : Environment} {console : Console} {packet : IoPacket}

theorem Console.showText_keeps (packet : IoPacket) (console : Console) (index : Nat)
    (buffer : ScreenBuffer) (text : List WChar) :
    packet.Keeps console.server (console.showText index buffer text).server :=
  keeps_of_eq rfl rfl rfl rfl

theorem Console.writeText_meets {device : Device} {index : Nat} {buffer : ScreenBuffer}
    {bytes : List Byte} {text : List WChar} {reply : Reply} :
    Meets (console.writeText device index buffer bytes text reply) packet console.server := by
  intro ended dispatched
  simp only [Console.writeText] at dispatched
  split at dispatched
  · cases dispatched
  · rename_i host written
    have keeps := Console.showText_keeps packet { console with host := host } index
      buffer text
    exact answer_meets keeps dispatched

theorem writeConsoleRequest_meets {index : Nat} {buffer : ScreenBuffer} {unicode : Bool}
    {input : List Byte} :
    Meets (writeConsoleRequest environment console index buffer unicode input) packet
      console.server := by
  intro ended dispatched
  simp only [writeConsoleRequest] at dispatched
  split at dispatched
  · split at dispatched
    · exact answer_meets (keeps_refl _ _) dispatched
    · split at dispatched
      · cases dispatched
      · exact Console.writeText_meets dispatched
  · split at dispatched
    · exact answer_meets (keeps_refl _ _) dispatched
    · exact Console.writeText_meets dispatched

theorem ScreenApi.handle_keeps (request : ScreenApi) (server : ServerState) (index : Nat)
    (buffer : ScreenBuffer) (input : List Byte) (capacity : Nat) :
    packet.Keeps server (request.handle server index buffer input capacity).1 := by
  cases request <;> simp only [ScreenApi.handle, store, setFont] <;>
    first
      | exact keeps_of_eq rfl rfl rfl rfl
      | (split <;> exact keeps_of_eq rfl rfl rfl rfl)

theorem GlobalApi.handle_keeps {apiSize : UInt32} {request : GlobalApi}
    (function : packet.function = .userDefined apiSize (.global request)) (system : System)
    (server : ServerState) (input : List Byte) (capacity : Nat) :
    packet.Keeps server (request.handle system server input capacity).1 := by
  cases request with
  | setCp output codePage =>
      cases output
      · exact ⟨rfl, fun _ _ => rfl, rfl, fun _ => .inl rfl, fun _ => rfl,
          fun other => absurd ⟨_, _, function⟩ other⟩
      · exact keeps_of_eq rfl rfl rfl rfl
  | addAlias =>
      simp only [GlobalApi.handle, addAliasRequest]
      repeat' split
      all_goals exact keeps_of_eq rfl rfl rfl rfl
  | expungeCommandHistory | setNumberOfCommands =>
      simp only [GlobalApi.handle]
      split <;> exact keeps_of_eq rfl rfl rfl rfl
  | _ => exact keeps_of_eq rfl rfl rfl rfl

theorem setMode_keeps {apiSize mode : UInt32} {handle : ObjectHandle}
    (function : packet.function = .userDefined apiSize (.setMode mode))
    (found : console.server.objects packet.object = some handle) :
    packet.Keeps console.server
      (if handle.kind = .input then setInputMode console mode
        else setOutputMode console mode).1.server := by
  split
  · rename_i kind
    exact ⟨rfl, fun _ _ => rfl, rfl, fun _ => .inl rfl,
      fun other => absurd ⟨⟨_, _, function⟩, handle, found, kind⟩ other, fun _ => rfl⟩
  · simp only [setOutputMode]
    split <;> exact keeps_of_eq rfl rfl rfl rfl

section Input

variable {handle : ObjectHandle} (found : console.server.objects packet.object = some handle)
  (kind : handle.kind = .input)
include found

theorem afterRead_keeps (reads : IsRead packet.function) (state : ReadState) :
    packet.Keeps console.server (console.afterRead packet.object state).server :=
  keeps_setObject reads (by simp [found]) rfl rfl rfl rfl

theorem afterLine_keeps (reads : IsRead packet.function) (state : CookedState) :
    packet.Keeps console.server (InputApi.afterLine console packet.object handle state).server := by
  have objects : (InputApi.afterLine console packet.object handle state).server.objects =
      Function.update console.server.objects packet.object (some state.read.handle) := by
    simp only [InputApi.afterLine]
    split <;> rfl
  have processes : (InputApi.afterLine console packet.object handle state).server.processes =
      console.server.processes := by
    simp only [InputApi.afterLine]
    split <;> rfl
  have mode : (InputApi.afterLine console packet.object handle state).server.inputMode =
      console.server.inputMode := by
    simp only [InputApi.afterLine]
    split <;> rfl
  have codePage : (InputApi.afterLine console packet.object handle state).server.inputCodePage =
      console.server.inputCodePage := by
    simp only [InputApi.afterLine]
    split <;> rfl
  exact keeps_setObject reads (by simp [found]) processes objects mode codePage

theorem flushRequest_keeps :
    packet.Keeps console.server (InputApi.flushRequest console packet.object handle).server :=
  keeps_flush found rfl rfl rfl rfl

include kind

/-- A read ends, or waits on an input handle. -/
theorem ofRead_ends {α : Type} {encode : List α → List Byte} {data : List α → ReplyData}
    {next : Console} {reply : ReadReply α} (reads : IsRead packet.function)
    (keeps : packet.Keeps console.server next.server) :
    packet.Ends console.server (next, .ofRead encode data reply) where
  keeps := keeps
  stays := by
    intro answer requestExit ends
    cases reply with
    | pending => cases ends
    | complete => cases ends; rfl
  waits _ := ⟨reads, handle, found, kind⟩

theorem readConsoleRequest_meets {fuel capacity : Nat} {unicode processControlZ : Bool}
    (reads : IsRead packet.function) :
    Meets (InputApi.readConsoleRequest environment console packet.object handle fuel capacity
      unicode processControlZ) packet console.server := by
  intro ended dispatched
  simp only [InputApi.readConsoleRequest] at dispatched
  split at dispatched
  · split at dispatched
    · cases dispatched
    · cases dispatched
    · cases dispatched
      exact ofRead_ends found kind reads (afterLine_keeps found reads _)
  · split at dispatched
    · cases dispatched
      exact ofRead_ends found kind reads (afterRead_keeps found reads _)
    · cases dispatched
      exact ofRead_ends found kind reads (afterRead_keeps found reads _)

theorem handleRequest_meets {apiSize : UInt32} {request : InputApi} {fuel capacity : Nat}
    {input : List Byte} (function : packet.function = .userDefined apiSize (.input request))
    (fits : apiSize.toNat ≤ descriptorLimit) :
    Meets (request.handleRequest environment console packet.object handle fuel input capacity)
      packet console.server := by
  intro ended dispatched
  cases request with
  | flushInputBuffer =>
      cases dispatched
      exact answer_meets (flushRequest_keeps found) rfl
  | writeConsoleInput unicode append numRecords =>
      cases dispatched
      refine answer_meets ?_ rfl
      simp only [InputApi.writeConsoleInputRequest]
      split
      · exact keeps_refl _ _
      · cases append
        · exact keeps_flush found rfl rfl rfl rfl
        · exact keeps_refl _ _
  | getNumberOfInputEvents =>
      cases dispatched
      exact answer_meets (keeps_refl _ _) rfl
  | getConsoleInput flags unicode numRecords =>
      have reads : IsRead packet.function := function ▸ .getConsoleInput fits
      cases dispatched
      simp only [InputApi.getConsoleInputRequest]
      split
      · exact answer_meets (keeps_refl _ _) rfl
      · exact ofRead_ends found kind reads (afterRead_keeps found reads _)
  | readConsole unicode processControlZ numBytes =>
      exact readConsoleRequest_meets found kind (function ▸ .readConsole fits) dispatched

end Input

theorem Console.findHandle_eq_some_iff {object : Handle} {kind : ObjectKind}
    {handle : ObjectHandle} : console.findHandle object kind = some handle ↔
      console.server.objects object = some handle ∧ handle.kind = kind := by
  simp [Console.findHandle, ServerState.findObject, Option.filter_eq_some_iff]

theorem dispatchApi_meets {apiSize : UInt32} {api : Api} {fuel : Nat}
    (function : packet.function = .userDefined apiSize api)
    (fits : apiSize.toNat ≤ descriptorLimit) :
    Meets (dispatchApi environment console packet fuel api) packet console.server := by
  intro ended dispatched
  have unchanged : ∀ {reply}, Meets (console.answer reply) packet console.server :=
    answer_meets (keeps_refl _ _)
  cases api with
  | getMode =>
      simp only [dispatchApi] at dispatched
      split at dispatched
      · exact unchanged dispatched
      · exact unchanged dispatched
  | setMode mode =>
      simp only [dispatchApi] at dispatched
      split at dispatched
      · exact unchanged dispatched
      · rename_i handle found
        exact answer_meets (setMode_keeps function found) dispatched
  | getTitle =>
      simp only [dispatchApi] at dispatched
      split at dispatched
      · exact unchanged dispatched
      · exact withBuffers_meets (fun _ _ => unchanged) dispatched
  | setTitle unicode =>
      simp only [dispatchApi] at dispatched
      split at dispatched
      · exact unchanged dispatched
      · refine withBuffers_meets (fun input _ => answer_meets ?_) dispatched
        simp only [setTitleRequest]
        repeat' split
        all_goals exact keeps_of_eq rfl rfl rfl rfl
  | writeConsole =>
      simp only [dispatchApi] at dispatched
      split at dispatched
      · exact unchanged dispatched
      · exact withBuffers_meets (fun _ _ => writeConsoleRequest_meets) dispatched
  | screen request =>
      simp only [dispatchApi] at dispatched
      split at dispatched
      · exact unchanged dispatched
      · exact withBuffers_meets (fun _ _ => answer_meets (request.handle_keeps _ _ _ _ _))
          dispatched
  | global request =>
      exact withBuffers_meets
        (fun _ _ => answer_meets (GlobalApi.handle_keeps function _ _ _ _)) dispatched
  | input request =>
      simp only [dispatchApi] at dispatched
      split at dispatched
      · exact unchanged dispatched
      · rename_i handle found
        obtain ⟨found, kind⟩ := Console.findHandle_eq_some_iff.mp found
        exact withBuffers_meets (fun _ _ => handleRequest_meets found kind function fits) dispatched
  | unsupported => exact unchanged dispatched

/-- The frame of every message that manages no objects. -/
theorem dispatchMessage_ends {fuel : Nat} {ended : Console × Outcome}
    (dispatched : dispatchMessage environment console packet fuel = some (.ok ended))
    (other : ¬Manages packet.function) : packet.Ends console.server ended := by
  have unchanged : ∀ {reply}, Meets (console.answer reply) packet console.server :=
    answer_meets (keeps_refl _ _)
  simp only [dispatchMessage] at dispatched
  split at dispatched
  · rename_i apiSize api function
    split at dispatched
    · exact unchanged dispatched
    · rename_i fits
      exact dispatchApi_meets function (Nat.not_lt.mp fits) dispatched
  · rename_i function
    simp [Manages, function] at other
  · rename_i function
    simp [Manages, function] at other
  · rename_i function
    simp [Manages, function] at other
  · rename_i function
    simp [Manages, function] at other
  · simp only [rawFlushRequest] at dispatched
    split at dispatched
    · exact unchanged dispatched
    · rename_i handle found
      exact answer_meets (flushRequest_keeps (Console.findHandle_eq_some_iff.mp found).1) dispatched
  · simp only [rawWriteRequest] at dispatched
    split at dispatched
    · exact unchanged dispatched
    · refine withBuffers_meets (fun input _ => ?_) dispatched
      split
      · exact unchanged
      · exact Console.writeText_meets
  · rename_i function
    simp only [rawReadRequest] at dispatched
    split at dispatched
    · exact unchanged dispatched
    · rename_i handle found
      obtain ⟨found, kind⟩ := Console.findHandle_eq_some_iff.mp found
      have reads : IsRead packet.function := function ▸ .rawRead
      refine withBuffers_meets (fun _ capacity => ?_) dispatched
      intro ended read
      cases read
      exact ofRead_ends found kind reads (afterRead_keeps found reads _)
  · exact unchanged dispatched

namespace ServerState

variable {state next : ServerState} {allocate : Allocator}

/-- Objects are added at addresses at which there was none. -/
def Grows (allocate : Allocator) (before after : ServerState) : Prop :=
  ∀ id, after.objects id = before.objects id ∨
    (before.objects id = none ∧ ∃ server, allocate server = some id)

theorem grows_of_eq (objects : next.objects = state.objects) : Grows allocate state next := by
  intro id
  exact .inl (by rw [objects])

theorem Grows.trans {last : ServerState} (first : Grows allocate state next)
    (second : Grows allocate next last) : Grows allocate state last := by
  intro id
  rcases second id with same | ⟨empty, address⟩
  · rw [same]
    exact first id
  · rcases first id with same | created
    · exact .inr ⟨same ▸ empty, address⟩
    · exact .inr created

theorem createObject_grows {object : ObjectHandle} {id : Handle}
    (created : state.createObject allocate object = some (next, id)) :
    Grows allocate state next ∧ state.objects id = none ∧ next.processes = state.processes ∧
      ∃ object, next = state.setObject id (some object) := by
  simp only [createObject] at created
  generalize (if object.kind = .output ∧ object.screenBuffer = none then
    { object with screenBuffer := state.activeScreenBuffer } else object) = placed at created
  split at created
  · cases created
  · split at created
    · cases created
    · rename_i address allocated
      split at created
      · cases created
      · rename_i free
        cases created
        have free : state.objects id = none := by simpa [findObject] using free
        refine ⟨?_, free, rfl, _, rfl⟩
        intro other
        by_cases same : other = id
        · subst same
          exact .inr ⟨free, _, allocated⟩
        · exact .inl (by simp [setObject, Function.update_of_ne same])

/-- The settings that reads depend on are the same. -/
def SameInput (before after : ServerState) : Prop :=
  after.inputMode = before.inputMode ∧ after.inputCodePage = before.inputCodePage

theorem createObject_sameInput {object : ObjectHandle} {id : Handle}
    (created : state.createObject allocate object = some (next, id)) : SameInput state next := by
  obtain ⟨-, -, -, object, rfl⟩ := createObject_grows created
  exact ⟨rfl, rfl⟩

theorem connectClient_sameInput (state : ServerState) (allocate : Allocator) (system : System)
    (pid tid : UInt32) (appName : List WChar) :
    SameInput state (state.connectClient allocate system pid tid appName).1 := by
  simp only [connectClient]
  split
  · exact ⟨rfl, rfl⟩
  · split
    · exact ⟨rfl, rfl⟩
    · split
      · exact ⟨rfl, rfl⟩
      · rename_i opened input created
        obtain ⟨-, -, -, object, rfl⟩ := createObject_grows created
        split
        · simp only [closeObject]
          split <;> exact ⟨rfl, rfl⟩
        · rename_i complete output finished
          obtain ⟨-, -, -, object', rfl⟩ := createObject_grows finished
          exact ⟨rfl, rfl⟩

theorem erase_insert {id : Handle} {process : ProcessState}
    {processes : AList fun _ : Handle => ProcessState} (absent : id ∉ processes) :
    (processes.insert id process).erase id = processes := by
  rw [AList.insert_of_notMem absent]
  apply AList.ext
  exact List.kerase_cons_eq rfl

/-- A connection leaves the objects of other clients alone, and adds no client if it fails. -/
theorem connectClient_spec (state : ServerState) (allocate : Allocator) (system : System)
    (pid tid : UInt32) (appName : List WChar) :
    Grows allocate state (state.connectClient allocate system pid tid appName).1 ∧
      ((state.connectClient allocate system pid tid appName).2 = none →
        (state.connectClient allocate system pid tid appName).1.processCount =
          state.processCount) := by
  simp only [connectClient]
  split
  · exact ⟨grows_of_eq rfl, fun _ => rfl⟩
  · rename_i process allocated
    split
    · exact ⟨grows_of_eq rfl, fun _ => rfl⟩
    · rename_i absent
      have absent : process ∉ state.processes := by simpa [hasProcess] using absent
      split
      · exact ⟨grows_of_eq rfl, fun _ => congrArg (·.entries.length) (erase_insert absent)⟩
      · rename_i opened input created
        obtain ⟨grows, free, processes, object, rfl⟩ := createObject_grows created
        split
        · constructor
          · apply grows_of_eq
            simp [closeObject, findObject, setObject, eraseProcess, Function.update_idem]
            exact Function.update_eq_self_iff.mpr free.symm
          · intro _
            simp only [closeObject, findObject, setObject, Function.update_self, Option.isSome_some,
              if_true, Option.getD_some, eraseProcess, processCount]
            exact congrArg (·.entries.length) (erase_insert absent)
        · rename_i complete output finished
          obtain ⟨grows', -⟩ := createObject_grows finished
          exact ⟨grows.trans grows', by simp⟩

theorem newObject_spec {type : ObjectType} {shareMode desiredAccess : UInt32}
    {object : ObjectHandle}
    (made : newObject console packet type shareMode desiredAccess = .ok (next, object)) :
    next.objects = console.server.objects ∧ next.processes = console.server.processes ∧
      SameInput console.server next := by
  simp only [newObject] at made
  split at made
  · cases made
    exact ⟨rfl, rfl, rfl, rfl⟩
  · cases made
    exact ⟨rfl, rfl, rfl, rfl⟩
  · simp only [createScreenBufferLikeActive] at made
    split at made
    · cases made
    · rename_i server index template
      cases made
      obtain ⟨-, -, rfl, -⟩ := by
        simpa only [Option.map_eq_some_iff, Prod.mk.injEq] using template
      exact ⟨rfl, rfl, rfl, rfl⟩
  · cases made

end ServerState

open ServerState

theorem createObjectRequest_spec {type : ObjectType} {shareMode desiredAccess : UInt32}
    {ended : Console × Outcome}
    (dispatched : createObjectRequest environment console packet type shareMode desiredAccess =
      some (.ok ended)) :
    Grows environment.allocate console.server ended.1.server ∧
      ended.1.server.processes = console.server.processes ∧
      ∃ reply, ended.2 = .complete reply false := by
  simp only [createObjectRequest] at dispatched
  split at dispatched
  · cases dispatched
    exact ⟨grows_of_eq rfl, rfl, _, rfl⟩
  · rename_i server object made
    obtain ⟨objects, processes, -⟩ := newObject_spec made
    split at dispatched
    · cases dispatched
      exact ⟨grows_of_eq rfl, rfl, _, rfl⟩
    · split at dispatched
      · cases dispatched
        exact ⟨grows_of_eq rfl, rfl, _, rfl⟩
      · rename_i opened id created
        cases dispatched
        obtain ⟨grows, -, same, -⟩ := createObject_grows created
        exact ⟨(grows_of_eq objects).trans grows, same.trans processes, _, rfl⟩

theorem closeObjectRequest_spec {ended : Console × Outcome}
    (dispatched : closeObjectRequest console packet = some (.ok ended)) :
    (∀ id, ended.1.server.objects id = console.server.objects id ∨
        id = packet.object ∧ ended.1.server.objects id = none) ∧
      ended.1.server.processes = console.server.processes ∧
      ∃ reply, ended.2 = .complete reply false := by
  simp only [closeObjectRequest, closeObject] at dispatched
  split at dispatched
  · cases dispatched
    exact ⟨fun _ => .inl rfl, rfl, _, rfl⟩
  · rename_i server closed
    cases dispatched
    split at closed
    · cases closed
      refine ⟨?_, rfl, _, rfl⟩
      intro id
      by_cases same : id = packet.object
      · exact .inr ⟨same, by simp [same, setObject]⟩
      · exact .inl (by simp [setObject, Function.update_of_ne same])
    · cases closed

theorem disconnectRequest_spec {ended : Console × Outcome}
    (dispatched : disconnectRequest console packet = some (.ok ended)) :
    (∀ id, ended.1.server.objects id = console.server.objects id ∨
        ended.1.server.objects id = none ∧
          ∃ handle, console.server.objects id = some handle ∧
            handle.owningProcess = packet.process) ∧
      ended.1.server.processCount ≤ console.server.processCount ∧
      ∃ reply, ended.2 = .complete reply (ended.1.server.processCount == 0) := by
  simp only [disconnectRequest] at dispatched
  cases dispatched
  simp only [disconnectClient]
  split
  · refine ⟨?_, ?_, _, rfl⟩
    · intro id
      cases owned : console.server.objects id with
      | none => exact .inl (by simp [owned])
      | some handle =>
          by_cases same : handle.owningProcess = packet.process
          · exact .inr ⟨by simp [owned, same], handle, rfl, same⟩
          · exact .inl (by simp [owned, same])
    · exact (List.kerase_sublist _ _).length_le
  · exact ⟨fun _ => .inl rfl, Nat.le_refl _, _, rfl⟩

/-- What `console_io_connect` gives the server. -/
def connectedState (environment : Environment) (console : Console) (packet : IoPacket) :
    ServerState × Option ConnectionInformation :=
  console.server.connectClient environment.allocate environment.system (clientId packet.process)
    (clientId packet.object) (applicationName packet.input)

theorem connectRequest_spec {ended : Console × Outcome} (function : packet.function = .connect)
    (dispatched : connectRequest environment console packet = some (.ok ended)) :
    ended.1.server = (connectedState environment console packet).1 ∧
      ∃ reply, ended.2 = .complete reply false := by
  simp only [connectRequest, withBuffers, if_true, Bool.false_eq_true, if_false] at dispatched
  split at dispatched
  · cases dispatched
  · rename_i bytes got
    have whole : bytes = packet.input := by
      simp only [getInputBuffer, readOffset, function] at got
      split at got
      · cases got
      · split at got
        · rename_i empty
          cases got
          exact (List.eq_nil_of_length_eq_zero empty).symm
        · split at got
          · cases got
          · cases got
            rfl
    cases dispatched
    subst whole
    exact ⟨rfl, _, rfl⟩

/-- Adding and removing clients and objects changes no settings. -/
theorem dispatchMessage_sameInput {fuel : Nat} {ended : Console × Outcome}
    (dispatched : dispatchMessage environment console packet fuel = some (.ok ended))
    (manages : Manages packet.function) : SameInput console.server ended.1.server := by
  simp only [dispatchMessage] at dispatched
  split at dispatched
  · rename_i function
    simp [Manages, function] at manages
  · rename_i function
    obtain ⟨server, -⟩ := connectRequest_spec function dispatched
    rw [server]
    exact connectClient_sameInput _ _ _ _ _ _
  · cases dispatched
    simp only [disconnectClient]
    split <;> exact ⟨rfl, rfl⟩
  · simp only [createObjectRequest] at dispatched
    split at dispatched
    · cases dispatched
      exact ⟨rfl, rfl⟩
    · rename_i server object made
      obtain ⟨-, -, mode, codePage⟩ := newObject_spec made
      split at dispatched
      · cases dispatched
        exact ⟨rfl, rfl⟩
      · split at dispatched
        · cases dispatched
          exact ⟨rfl, rfl⟩
        · rename_i opened id created
          cases dispatched
          obtain ⟨mode', codePage'⟩ := createObject_sameInput created
          exact ⟨mode'.trans mode, codePage'.trans codePage⟩
  · simp only [closeObjectRequest, closeObject] at dispatched
    split at dispatched
    · cases dispatched
      exact ⟨rfl, rfl⟩
    · rename_i server closed
      cases dispatched
      split at closed
      · cases closed
        exact ⟨rfl, rfl⟩
      · cases closed
  all_goals
    rename_i function
    simp [Manages, function] at manages

/-- What can become of the objects. -/
theorem dispatchMessage_objects {fuel : Nat} {ended : Console × Outcome}
    (dispatched : dispatchMessage environment console packet fuel = some (.ok ended))
    (id : Handle) :
    (ended.1.server.objects id).isSome = (console.server.objects id).isSome ∨
      ended.1.server.objects id = none ∨
      (console.server.objects id = none ∧ Creates packet.function ∧
        ∃ server, environment.allocate server = some id) := by
  by_cases manages : Manages packet.function
  · simp only [dispatchMessage] at dispatched
    split at dispatched
    · rename_i function
      simp [Manages, function] at manages
    · rename_i function
      obtain ⟨server, -⟩ := connectRequest_spec function dispatched
      rw [server]
      rcases (connectClient_spec _ _ _ _ _ _).1 id with same | ⟨free, address⟩
      · exact .inl (by rw [connectedState, same])
      · exact .inr (.inr ⟨free, by simp [Creates, function], address⟩)
    · rcases (disconnectRequest_spec dispatched).1 id with same | ⟨gone, -⟩
      · exact .inl (by rw [same])
      · exact .inr (.inl gone)
    · rename_i function
      rcases (createObjectRequest_spec dispatched).1 id with same | ⟨free, address⟩
      · exact .inl (by rw [same])
      · exact .inr (.inr ⟨free, by simp [Creates, function], address⟩)
    · rcases (closeObjectRequest_spec dispatched).1 id with same | ⟨-, gone⟩
      · exact .inl (by rw [same])
      · exact .inr (.inl gone)
    all_goals
      rename_i function
      simp [Manages, function] at manages
  · have keeps := (dispatchMessage_ends dispatched manages).keeps
    by_cases own : id = packet.object
    · subst own
      exact .inl keeps.present
    · exact .inl (by rw [keeps.others id own])

/-- Clients are added by a connection only, and a message asks for the end of the loop only when
the last client is gone. -/
theorem dispatchMessage_processCount {fuel : Nat} {ended : Console × Outcome}
    (dispatched : dispatchMessage environment console packet fuel = some (.ok ended)) :
    (ended.1.server.processCount ≤ console.server.processCount ∨
        packet.function = .connect ∧ (connectedState environment console packet).2.isSome) ∧
      ∀ {reply}, ended.2 = .complete reply true → ended.1.server.processCount = 0 := by
  by_cases manages : Manages packet.function
  · simp only [dispatchMessage] at dispatched
    split at dispatched
    · rename_i function
      simp [Manages, function] at manages
    · rename_i function
      obtain ⟨server, reply, outcome⟩ := connectRequest_spec function dispatched
      rw [outcome, server]
      refine ⟨?_, by rintro _ ⟨⟩⟩
      cases accepted : (connectedState environment console packet).2 with
      | none => exact .inl (Nat.le_of_eq ((connectClient_spec _ _ _ _ _ _).2 accepted))
      | some info => exact .inr ⟨function, rfl⟩
    · obtain ⟨-, fewer, reply, outcome⟩ := disconnectRequest_spec dispatched
      refine ⟨.inl fewer, ?_⟩
      intro other ends
      rw [outcome] at ends
      injection ends with _ none
      simpa using none
    · obtain ⟨-, same, reply, outcome⟩ := createObjectRequest_spec dispatched
      rw [outcome]
      exact ⟨.inl (by simp [processCount, same]), by rintro _ ⟨⟩⟩
    · obtain ⟨-, same, reply, outcome⟩ := closeObjectRequest_spec dispatched
      rw [outcome]
      exact ⟨.inl (by simp [processCount, same]), by rintro _ ⟨⟩⟩
    all_goals
      rename_i function
      simp [Manages, function] at manages
  · have ends := dispatchMessage_ends dispatched manages
    exact ⟨.inl (by simp [processCount, ends.keeps.processes]), fun exits => by
      have := ends.stays exits
      cases this⟩

/-- A message is left pending only if it is a read of an input handle. -/
theorem dispatchMessage_pending {fuel : Nat} {next : Console}
    (dispatched : dispatchMessage environment console packet fuel =
      some (.ok (next, .replyPending))) :
    IsRead packet.function ∧
      ∃ handle, console.server.objects packet.object = some handle ∧ handle.kind = .input := by
  by_cases manages : Manages packet.function
  · simp only [dispatchMessage] at dispatched
    split at dispatched
    · rename_i function
      simp [Manages, function] at manages
    · rename_i function
      obtain ⟨-, reply, outcome⟩ := connectRequest_spec function dispatched
      cases outcome
    · obtain ⟨-, -, reply, outcome⟩ := disconnectRequest_spec dispatched
      cases outcome
    · obtain ⟨-, -, reply, outcome⟩ := createObjectRequest_spec dispatched
      cases outcome
    · obtain ⟨-, -, reply, outcome⟩ := closeObjectRequest_spec dispatched
      cases outcome
    all_goals
      rename_i function
      simp [Manages, function] at manages
  · exact (dispatchMessage_ends dispatched manages).waits rfl

end Conhost
