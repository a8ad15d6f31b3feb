import Conhost.Server.Frame
import Conhost.Server.HistoryOwners

/-!
# The tables of clients, objects and histories

A client that connects is entered into three tables, in several steps each of
which can fail for want of memory. What a failed connection has entered is
taken out again, and a disconnection clears what the client had.
-/

namespace Conhost

open CommandHistoryPool IoPacket

namespace ServerState

/-- Every object has its process, every output object has its screen buffer, and every history that
is allocated is the only one of its process. -/
structure Integrity (server : ServerState) : Prop where
  owned : ∀ id handle, server.objects id = some handle →
    server.hasProcess handle.owningProcess = true
  shown : ∀ id handle, server.objects id = some handle → handle.kind = .output →
    ∃ index buffer, handle.screenBuffer = some index ∧ server.screenBuffer index = some buffer
  active : ∀ index, server.activeScreenBuffer = some index →
    ∃ buffer, server.screenBuffer index = some buffer
  connected : ∀ process ∈ owners server.commandHistories, server.hasProcess process = true
  unique : (owners server.commandHistories).Nodup

theorem initial_integrity (system : System) : (initial system).Integrity where
  owned := by rintro _ _ ⟨⟩
  shown := by rintro _ _ ⟨⟩
  active := by
    rintro _ ⟨⟩
    exact ⟨_, rfl⟩
  connected := by simp [initial, owners]
  unique := by simp [initial, owners]

variable {state next : ServerState} {allocate : Allocator} {system : System}

/-- The processes, objects, histories and screen buffers of two states are the same. -/
structure SameTables (before after : ServerState) : Prop where
  processes : after.processes = before.processes
  objects : after.objects = before.objects
  histories : after.commandHistories = before.commandHistories
  screens : after.screenBuffers = before.screenBuffers
  active : after.activeScreenBuffer = before.activeScreenBuffer

theorem Integrity.of_sameTables (integrity : state.Integrity) (same : SameTables state next) :
    next.Integrity where
  owned := by
    intro id handle found
    rw [same.objects] at found
    have owned := integrity.owned id handle found
    rwa [hasProcess, ← same.processes] at owned
  shown := by
    intro id handle found
    rw [same.objects] at found
    have shown := integrity.shown id handle found
    simp only [screenBuffer, same.screens] at shown ⊢
    exact shown
  active := by
    have active := integrity.active
    simp only [screenBuffer, same.screens, same.active] at active ⊢
    exact active
  connected := by
    have connected := integrity.connected
    simp only [hasProcess, same.processes, same.histories] at connected ⊢
    exact connected
  unique := by
    rw [same.histories]
    exact integrity.unique

/-- What `create_object` adds. -/
theorem createObject_placed {object : ObjectHandle} {id : Handle}
    (created : state.createObject allocate object = some (next, id)) :
    ∃ placed : ObjectHandle, next = state.setObject id (some placed) ∧ state.objects id = none ∧
      placed.owningProcess = object.owningProcess ∧
      (placed.kind = .output → ∃ index, placed.screenBuffer = some index ∧
        (object.screenBuffer = some index ∨ state.activeScreenBuffer = some index)) := by
  obtain ⟨-, free, -⟩ := createObject_grows created
  simp only [createObject] at created
  by_cases default : object.kind = .output ∧ object.screenBuffer = none
  · simp only [if_pos default] at created
    split at created
    · cases created
    · rename_i complete
      split at created
      · cases created
      · split at created
        · cases created
        · cases created
          refine ⟨_, rfl, free, rfl, ?_⟩
          intro output
          simp only [default.1, true_and] at complete
          obtain ⟨index, active⟩ := Option.ne_none_iff_exists'.mp complete
          exact ⟨index, active, .inr active⟩
  · simp only [if_neg default] at created
    split at created
    · cases created
    · split at created
      · cases created
      · cases created
        refine ⟨_, rfl, free, rfl, ?_⟩
        intro output
        rw [not_and] at default
        obtain ⟨index, refers⟩ := Option.ne_none_iff_exists'.mp (default output)
        exact ⟨index, refers, .inl refers⟩

/-- An object of a client, with a screen buffer of the server. -/
theorem Integrity.setObject (integrity : state.Integrity) {id : Handle} {object : ObjectHandle}
    (owned : state.hasProcess object.owningProcess = true)
    (shown : object.kind = .output →
      ∃ index buffer, object.screenBuffer = some index ∧ state.screenBuffer index = some buffer) :
    (state.setObject id (some object)).Integrity where
  owned := by
    intro other handle found
    by_cases same : other = id
    · subst same
      simp only [ServerState.setObject, Function.update_self, Option.some.injEq] at found
      subst found
      exact owned
    · simp only [ServerState.setObject, Function.update_of_ne same] at found
      exact integrity.owned other handle found
  shown := by
    intro other handle found
    by_cases same : other = id
    · subst same
      simp only [ServerState.setObject, Function.update_self, Option.some.injEq] at found
      subst found
      exact shown
    · simp only [ServerState.setObject, Function.update_of_ne same] at found
      exact integrity.shown other handle found
  active := integrity.active
  connected := integrity.connected
  unique := integrity.unique

theorem Integrity.createObject (integrity : state.Integrity) {object : ObjectHandle} {id : Handle}
    (created : state.createObject allocate object = some (next, id))
    (owned : state.hasProcess object.owningProcess = true)
    (valid : ∀ index, object.screenBuffer = some index →
      ∃ buffer, state.screenBuffer index = some buffer) : next.Integrity := by
  obtain ⟨placed, rfl, -, owner, screen⟩ := createObject_placed created
  refine integrity.setObject (by rwa [owner]) ?_
  intro output
  obtain ⟨index, refers, given | active⟩ := screen output
  · obtain ⟨buffer, present⟩ := valid index given
    exact ⟨index, buffer, refers, present⟩
  · obtain ⟨buffer, present⟩ := integrity.active index active
    exact ⟨index, buffer, refers, present⟩

theorem hasProcess_insertProcess (id process : Handle) (pid tid : UInt32) :
    (state.insertProcess id pid tid).hasProcess process = true ↔
      process = id ∨ state.hasProcess process = true := by
  simp [hasProcess, insertProcess, AList.mem_insert]

theorem Integrity.insertProcess (integrity : state.Integrity) (id : Handle) (pid tid : UInt32) :
    (state.insertProcess id pid tid).Integrity where
  owned := by
    intro object handle found
    exact (hasProcess_insertProcess _ _ _ _).mpr (.inr (integrity.owned object handle found))
  shown := integrity.shown
  active := integrity.active
  connected := by
    intro process owns
    exact (hasProcess_insertProcess _ _ _ _).mpr (.inr (integrity.connected process owns))
  unique := integrity.unique

/-- `connect_client` with any allocation failing, also those of the command history. -/
def tryConnectClient (state : ServerState) (failures : HistoryFailures) (allocate : Allocator)
    (system : System) (pid tid : UInt32) (appName : List WChar) :
    ServerState × Option ConnectionInformation :=
  match state.connectClient allocate system pid tid appName with
  | (connected, none) => (connected, none)
  | (connected, some info) =>
      ({ connected with
        commandHistories := state.commandHistories.tryAllocateForProcess system failures appName
          info.process state.historyBufferCount.toNat state.historyBufferSize.toNat }, some info)

/-- The states a connection that succeeds goes through. -/
structure Connects (state : ServerState) (allocate : Allocator) (system : System)
    (pid tid : UInt32) (appName : List WChar) (info : ConnectionInformation)
    (opened complete : ServerState) : Prop where
  absent : state.hasProcess info.process = false
  input : (state.insertProcess info.process pid tid).createObject allocate
    (standardHandle .input info.process) = some (opened, info.input)
  output : opened.createObject allocate (standardHandle .output info.process) =
    some (complete, info.output)
  ends : state.connectClient allocate system pid tid appName =
    (complete.finishConnect system info appName, some info)

theorem connectClient_connects {pid tid : UInt32} {appName : List WChar}
    {connected : ServerState} {info : ConnectionInformation}
    (accepted : state.connectClient allocate system pid tid appName = (connected, some info)) :
    ∃ opened complete, state.Connects allocate system pid tid appName info opened complete := by
  have ends := accepted
  simp only [connectClient] at accepted
  split at accepted
  · cases accepted
  · split at accepted
    · cases accepted
    · rename_i absent
      split at accepted
      · cases accepted
      · rename_i opened input created
        split at accepted
        · cases accepted
        · rename_i complete output finished
          cases accepted
          exact ⟨opened, complete, by simpa using absent, created, finished, ends⟩

theorem createObject_histories {object : ObjectHandle} {id : Handle}
    (created : state.createObject allocate object = some (next, id)) :
    next.commandHistories = state.commandHistories ∧
      next.historyBufferCount = state.historyBufferCount ∧
      next.historyBufferSize = state.historyBufferSize := by
  obtain ⟨placed, rfl, -⟩ := createObject_placed created
  exact ⟨rfl, rfl, rfl⟩

/-- Where no allocation of a history fails this is `connect_client`. -/
theorem tryConnectClient_none (state : ServerState) (allocate : Allocator) (system : System)
    (pid tid : UInt32) (appName : List WChar) :
    state.tryConnectClient {} allocate system pid tid appName =
      state.connectClient allocate system pid tid appName := by
  simp only [tryConnectClient]
  split
  · rename_i refused
    exact refused.symm
  · rename_i connected info accepted
    obtain ⟨opened, complete, steps⟩ := connectClient_connects accepted
    obtain ⟨histories, count, size⟩ := createObject_histories steps.input
    obtain ⟨histories', count', size'⟩ := createObject_histories steps.output
    have ended := (Prod.mk.inj (accepted.symm.trans steps.ends)).1
    subst ended
    rw [steps.ends, tryAllocateForProcess_none]
    have same : state.commandHistories.allocateForProcess system appName info.process
        state.historyBufferCount.toNat state.historyBufferSize.toNat =
        (complete.finishConnect system info appName).commandHistories := by
      simp only [finishConnect, histories', count', size', histories, count, size, insertProcess]
    rw [same]

/-- A connection that fails leaves the tables as they were. -/
theorem connectClient_failed {pid tid : UInt32} {appName : List WChar} {failed : ServerState}
    (refused : state.connectClient allocate system pid tid appName = (failed, none)) :
    SameTables state failed := by
  simp only [connectClient] at refused
  split at refused
  · cases refused
    exact ⟨rfl, rfl, rfl, rfl, rfl⟩
  · rename_i process allocated
    split at refused
    · cases refused
      exact ⟨rfl, rfl, rfl, rfl, rfl⟩
    · rename_i absent
      have absent : process ∉ state.processes := by simpa [hasProcess] using absent
      have erased : (state.insertProcess process pid tid).processes.erase process =
          state.processes := erase_insert absent
      split at refused
      · cases refused
        exact ⟨erased, rfl, rfl, rfl, rfl⟩
      · rename_i opened input created
        obtain ⟨placed, rfl, free, -⟩ := createObject_placed created
        split at refused
        · cases refused
          have closed : ((state.insertProcess process pid tid).setObject input
              (some placed)).closeObject input =
                some (((state.insertProcess process pid tid).setObject input
                  (some placed)).setObject input none) := by
            simp [closeObject, findObject, setObject]
          rw [closed]
          refine ⟨erased, ?_, rfl, rfl, rfl⟩
          simp only [Option.getD_some, eraseProcess, setObject, Function.update_idem]
          exact Function.update_eq_self_iff.mpr free.symm
        · cases refused

theorem mem_processes_finishConnect (system : System) (info : ConnectionInformation)
    (appName : List WChar) (process : Handle) :
    process ∈ (state.finishConnect system info appName).processes ↔ process ∈ state.processes := by
  simp only [finishConnect]
  cases state.processes.lookup info.process with
  | none => rfl
  | some _ => exact AList.mem_replace

/-- A client without a history is given one, or none. -/
theorem Integrity.assign (integrity : state.Integrity) {process : Handle}
    {histories : CommandHistoryPool} (client : state.hasProcess process = true)
    (fresh : process ∉ owners state.commandHistories)
    (given : owners histories = owners state.commandHistories ∨
      owners histories = process :: owners state.commandHistories) :
    ({ state with commandHistories := histories } : ServerState).Integrity where
  owned := integrity.owned
  shown := integrity.shown
  active := integrity.active
  connected := by
    intro other owns
    rcases given with same | added
    · exact integrity.connected other (same ▸ owns)
    · rw [added] at owns
      rcases List.mem_cons.mp owns with rfl | owns
      · exact client
      · exact integrity.connected other owns
  unique := by
    rcases given with same | added
    · rw [same]
      exact integrity.unique
    · rw [added]
      exact List.nodup_cons.mpr ⟨fresh, integrity.unique⟩

theorem Integrity.withProcesses (integrity : state.Integrity)
    {processes : AList fun _ : Handle => ProcessState}
    (same : ∀ process, state.hasProcess process = true → process ∈ processes) :
    ({ state with processes := processes } : ServerState).Integrity where
  owned := by
    intro id handle found
    exact decide_eq_true (same _ (integrity.owned id handle found))
  shown := integrity.shown
  active := integrity.active
  connected := by
    intro process owns
    exact decide_eq_true (same _ (integrity.connected process owns))
  unique := integrity.unique

theorem Integrity.tryConnectClient (integrity : state.Integrity) (failures : HistoryFailures)
    (allocate : Allocator) (system : System) (pid tid : UInt32) (appName : List WChar) :
    (state.tryConnectClient failures allocate system pid tid appName).1.Integrity := by
  simp only [ServerState.tryConnectClient]
  split
  · rename_i failed refused
    exact integrity.of_sameTables (connectClient_failed refused)
  · rename_i connected info accepted
    obtain ⟨opened, complete, steps⟩ := connectClient_connects accepted
    have client : (state.insertProcess info.process pid tid).hasProcess info.process = true :=
      (hasProcess_insertProcess _ _ _ _).mpr (.inl rfl)
    have begun := integrity.insertProcess info.process pid tid
    have opens : opened.Integrity := begun.createObject steps.input client (by rintro _ ⟨⟩)
    obtain ⟨placed, rfl, -⟩ := createObject_placed steps.input
    have completes : complete.Integrity := opens.createObject steps.output client (by rintro _ ⟨⟩)
    obtain ⟨placed', rfl, -⟩ := createObject_placed steps.output
    have fresh : info.process ∉ owners state.commandHistories := by
      intro owns
      have present := integrity.connected _ owns
      rw [steps.absent] at present
      cases present
    have ended : connected = ServerState.finishConnect _ system info appName :=
      (Prod.mk.inj (accepted.symm.trans steps.ends)).1
    subst ended
    have finished := completes.withProcesses fun process present =>
      (mem_processes_finishConnect system info appName process).mpr
        (of_decide_eq_true present)
    have listed := (mem_processes_finishConnect system info appName info.process).mpr
      (of_decide_eq_true client)
    exact finished.assign (decide_eq_true listed) fresh
      (owners_tryAllocateForProcess system state.commandHistories failures appName info.process _ _)

/-- What is left when a client is gone. -/
def without (state : ServerState) (process : Handle) : ServerState :=
  { state with
    commandHistories := state.commandHistories.map (released process)
    objects := fun id => (state.objects id).filter (·.owningProcess != process)
    processes := state.processes.erase process }

/-- A disconnection takes out the client's objects and frees its history. -/
theorem disconnectClient_eq (integrity : state.Integrity) {process : Handle}
    (client : state.hasProcess process = true) :
    state.disconnectClient process = some (state.without process) := by
  simp only [disconnectClient, if_pos client, without,
    freeForProcess_eq_map integrity.unique process]

theorem Integrity.without (integrity : state.Integrity) (process : Handle) :
    (state.without process).Integrity where
  owned := by
    intro id handle found
    obtain ⟨present, other⟩ := Option.filter_eq_some_iff.mp found
    have client := of_decide_eq_true (integrity.owned id handle present)
    exact decide_eq_true (AList.mem_erase.mpr ⟨by simpa using other, client⟩)
  shown := by
    intro id handle found
    exact integrity.shown id handle (Option.filter_eq_some_iff.mp found).1
  active := integrity.active
  connected := by
    intro owner owns
    simp only [ServerState.without, owners_map_released, List.mem_filter, decide_eq_true_eq] at owns
    have client := of_decide_eq_true (integrity.connected owner owns.1)
    exact decide_eq_true (AList.mem_erase.mpr ⟨owns.2, client⟩)
  unique := by
    simp only [ServerState.without, owners_map_released]
    exact integrity.unique.filter _

theorem Integrity.closeObject (integrity : state.Integrity) (id : Handle) :
    (state.setObject id none).Integrity where
  owned := by
    intro other handle found
    by_cases same : other = id
    · simp [same, ServerState.setObject] at found
    · simp only [ServerState.setObject, Function.update_of_ne same] at found
      exact integrity.owned other handle found
  shown := by
    intro other handle found
    by_cases same : other = id
    · simp [same, ServerState.setObject] at found
    · simp only [ServerState.setObject, Function.update_of_ne same] at found
      exact integrity.shown other handle found
  active := integrity.active
  connected := integrity.connected
  unique := integrity.unique

theorem Integrity.addScreen (integrity : state.Integrity) (buffer : ScreenBuffer) :
    ({ state with screenBuffers := state.screenBuffers ++ [buffer] } : ServerState).Integrity := by
  have kept : ∀ {index buffer'}, state.screenBuffer index = some buffer' →
      (state.screenBuffers ++ [buffer])[index]? = some buffer' := by
    intro index buffer' present
    rw [List.getElem?_append_left (List.getElem?_eq_some_iff.mp present).1]
    exact present
  refine ⟨integrity.owned, ?_, ?_, integrity.connected, integrity.unique⟩
  · intro id handle found output
    obtain ⟨index, buffer', refers, present⟩ := integrity.shown id handle found output
    exact ⟨index, buffer', refers, kept present⟩
  · intro index active
    obtain ⟨buffer', present⟩ := integrity.active index active
    exact ⟨buffer', kept present⟩

end ServerState

open ServerState

variable {console : Console} {packet : IoPacket}

/-- An object to be created has a screen buffer of the server, or none. -/
theorem newObject_valid {type : ObjectType} {shareMode desiredAccess : UInt32}
    {server : ServerState} {object : ObjectHandle} (integrity : console.server.Integrity)
    (made : newObject console packet type shareMode desiredAccess = .ok (server, object)) :
    server.Integrity ∧ object.owningProcess = packet.process ∧
      ∀ index, object.screenBuffer = some index →
        ∃ buffer, server.screenBuffer index = some buffer := by
  simp only [newObject] at made
  split at made
  · cases made
    exact ⟨integrity, rfl, by rintro _ ⟨⟩⟩
  · cases made
    exact ⟨integrity, rfl, integrity.active⟩
  · simp only [createScreenBufferLikeActive] at made
    split at made
    · cases made
    · rename_i server index created
      cases made
      obtain ⟨template, -, same⟩ := Option.map_eq_some_iff.mp created
      cases same
      refine ⟨integrity.addScreen _, rfl, ?_⟩
      rintro _ ⟨⟩
      exact ⟨template.createBlankLike, by simp [screenBuffer]⟩
  · cases made

theorem createObjectRequest_integrity {environment : Environment} {type : ObjectType}
    {shareMode desiredAccess : UInt32} {ended : Console × Outcome}
    (integrity : console.server.Integrity)
    (dispatched : createObjectRequest environment console packet type shareMode desiredAccess =
      some (.ok ended)) : ended.1.server.Integrity := by
  simp only [createObjectRequest] at dispatched
  split at dispatched
  · cases dispatched
    exact integrity
  · rename_i server object made
    obtain ⟨kept, owner, valid⟩ := newObject_valid integrity made
    split at dispatched
    · cases dispatched
      exact integrity
    · rename_i client
      split at dispatched
      · cases dispatched
        exact integrity
      · rename_i next id created
        cases dispatched
        exact kept.createObject created (by simpa [owner] using client) valid

/-- The allocations of a request that fail, besides those of the allocator. -/
structure Failures extends HistoryFailures where
  screenBuffer : Bool := false
deriving DecidableEq

/-- A request that adds or removes clients and objects, and what surrounds it. -/
structure TableRequest where
  environment : Environment
  packet : IoPacket
  failures : Failures := {}
  manages : Manages packet.function

namespace TableRequest

variable (request : TableRequest) (console : Console)

/-- What `connect_client` does for a request. -/
def connects : ServerState × Option ConnectionInformation :=
  console.server.tryConnectClient request.failures.toHistoryFailures request.environment.allocate
    request.environment.system (clientId request.packet.process) (clientId request.packet.object)
    (applicationName request.packet.input)

/-- The dispatch of a request, with the given allocations failing. -/
def serve : Console :=
  match dispatchMessage request.environment console request.packet 0 with
  | some (.ok (next, _)) =>
      match request.packet.function with
      | .connect => { next with server := (request.connects console).1 }
      | .createObject type _ desiredAccess =>
          if request.failures.screenBuffer ∧ type.resolve desiredAccess = .newOutput then console
          else next
      | _ => next
  | _ => console

variable {request console}

/-- Where nothing fails this is the dispatch. -/
theorem serve_eq {next : Console} {outcome : Outcome} (plain : request.failures = {})
    (dispatched : dispatchMessage request.environment console request.packet 0 =
      some (.ok (next, outcome))) : request.serve console = next := by
  simp only [serve, dispatched]
  split
  · rename_i function
    have ended := dispatched
    simp only [dispatchMessage, function] at ended
    obtain ⟨server, -⟩ := connectRequest_spec function ended
    simp only at server
    simp only [connects, plain, tryConnectClient_none]
    rw [← connectedState, ← server]
  · simp [plain]
  · rfl

theorem serve_connect (console : Console) (function : request.packet.function = .connect) :
    (request.serve console).server = console.server ∨
      (request.serve console).server = (request.connects console).1 := by
  simp only [serve]
  split
  · right
    simp only [function]
  · exact .inl rfl

theorem serve_disconnect (integrity : console.server.Integrity)
    (function : request.packet.function = .disconnect)
    (client : console.server.hasProcess request.packet.process = true) :
    (request.serve console).server = console.server.without request.packet.process := by
  simp only [serve, dispatchMessage, function, disconnectRequest,
    disconnectClient_eq integrity client, Option.getD_some]

/-- Every request keeps the tables in order. -/
theorem serve_integrity (request : TableRequest) (integrity : console.server.Integrity) :
    (request.serve console).server.Integrity := by
  cases function : request.packet.function with
  | connect =>
      rcases serve_connect console function with same | connected
      · rw [same]
        exact integrity
      · rw [connected]
        exact integrity.tryConnectClient _ _ _ _ _ _
  | disconnect =>
      cases client : console.server.hasProcess request.packet.process with
      | true =>
          rw [serve_disconnect integrity function client]
          exact integrity.without _
      | false =>
          simp only [serve, dispatchMessage, function, disconnectRequest, disconnectClient, client]
          exact integrity
  | createObject type shareMode desiredAccess =>
      simp only [serve]
      split
      · rename_i next outcome dispatched
        simp only [function]
        simp only [dispatchMessage, function] at dispatched
        split
        · exact integrity
        · exact createObjectRequest_integrity integrity dispatched
      · exact integrity
  | closeObject =>
      simp only [serve, dispatchMessage, function, closeObjectRequest, ServerState.closeObject]
      split
      · rename_i next outcome dispatched
        split at dispatched
        · cases dispatched
          exact integrity
        · rename_i server closed
          cases dispatched
          split at closed
          · cases closed
            exact integrity.closeObject _
          · cases closed
      · exact integrity
  | rawWrite | rawRead | rawFlush | userDefined | other =>
      have manages := request.manages
      simp [Manages, function] at manages

theorem run_integrity (requests : List TableRequest) (integrity : console.server.Integrity) :
    (requests.foldl (fun console request => request.serve console) console).server.Integrity := by
  induction requests generalizing console with
  | nil => exact integrity
  | cons request later hypothesis => exact hypothesis (serve_integrity request integrity)

/-- A failed connection leaves the tables as they were. -/
theorem serve_refused (function : request.packet.function = .connect)
    (refused : (request.connects console).2 = none) :
    SameTables console.server (request.serve console).server := by
  rcases serve_connect console function with same | connected
  · rw [same]
    exact ⟨rfl, rfl, rfl, rfl, rfl⟩
  · rw [connected]
    simp only [connects, ServerState.tryConnectClient] at refused ⊢
    split at refused
    · rename_i failed failing
      exact connectClient_failed failing
    · cases refused

/-- After any requests, with any allocations failing, the tables are in order; a connection that
fails then leaves them as they are, and a disconnection takes out the client, its objects and its
history and nothing else. -/
theorem tables_hold (system : System) (host : HostIo) (requests : List TableRequest) :
    let console := requests.foldl (fun console request => request.serve console)
      { server := .initial system, host := host }
    console.server.Integrity ∧
      (∀ request : TableRequest, request.packet.function = .connect →
        (request.connects console).2 = none →
          SameTables console.server (request.serve console).server) ∧
      (∀ request : TableRequest, request.packet.function = .disconnect →
        console.server.hasProcess request.packet.process = true →
          (request.serve console).server = console.server.without request.packet.process) := by
  intro console
  have integrity : console.server.Integrity := run_integrity requests (initial_integrity system)
  exact ⟨integrity, fun request => serve_refused, fun request => serve_disconnect integrity⟩

/-- Four addresses, of which a client takes three. -/
def fourPlaces : Environment where
  system := .utf8
  device := ⟨fun _ _ => false⟩
  allocate server := (List.range 4).find? fun address =>
    (server.findObject address).isNone && !server.hasProcess address

def connecting : TableRequest where
  environment := fourPlaces
  packet := { process := 0, object := 0, function := .connect }
  manages := trivial

def leaving : TableRequest where
  environment := fourPlaces
  packet := { process := 0, object := 0, function := .disconnect }
  manages := trivial

/-- A client has connected. A second one, for whose objects there is no room, leaves the tables as
they are, and the first one is taken out. -/
theorem tables_hold_connected :
    let console := [connecting].foldl (fun console request => request.serve console)
      { server := .initial .utf8, host := {} }
    console.server.processCount = 1 ∧ (connecting.connects console).2 = none ∧
      SameTables console.server (connecting.serve console).server ∧
        (leaving.serve console).server = console.server.without 0 := by
  intro console
  rcases tables_hold .utf8 {} [connecting] with ⟨-, refused, leaves⟩
  have full : (connecting.connects console).2 = none := by decide +kernel
  have client : console.server.hasProcess 0 = true := by decide +kernel
  exact ⟨by decide +kernel, full, refused connecting rfl full, leaves leaving rfl client⟩

end TableRequest

end Conhost
