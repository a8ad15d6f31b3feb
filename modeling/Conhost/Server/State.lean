import Mathlib.Data.List.AList
import Conhost.Input.Handle
import Conhost.Screen.VtOutput
import Conhost.Server.History

/-!
# The state of the server

`ServerState` holds the connected processes, the objects they have opened and
everything the console API can set. Handles are addresses of heap objects, so
the allocator chooses them: it may return any address, also one that was freed
before, or fail.
-/

namespace Conhost

structure ProcessState where
  pid : UInt32
  tid : UInt32
  connectSequence : Nat
  inputHandle : Handle := 0
  outputHandle : Handle := 0
deriving DecidableEq

/-- The font settings, which the server only stores. -/
structure Font where
  index : UInt32 := 0
  size : Coord := ⟨8, 16⟩
  family : UInt32 := 0x30
  weight : UInt32 := 400
  faceName : Vector WChar 32 :=
    ⟨#[wc 'C', wc 'o', wc 'n', wc 's', wc 'o', wc 'l', wc 'a', wc 's', 0, 0, 0, 0, 0, 0, 0, 0,
      0, 0, 0, 0, 0, 0, 0, 0, 0, 0, 0, 0, 0, 0, 0, 0], rfl⟩

/-- `apply_current_font` -/
def Font.apply (font body : Font) : Font where
  index := 0
  size := if 0 < body.size.x ∧ 0 < body.size.y then body.size else font.size
  family := if body.family ≠ 0 then body.family else font.family
  weight := if body.weight ≠ 0 then body.weight else font.weight
  faceName := if body.faceName[0] ≠ 0 then body.faceName.set 31 0 else font.faceName

/-- The aliases of one executable, by their sources. -/
abbrev AliasTable := AList fun _ : List WChar => List WChar

/-- `_aliases`, by executable. -/
abbrev Aliases := AList fun _ : List WChar => AliasTable

namespace Aliases

/-- `set_alias` with a source that is not empty; an empty target removes the alias. -/
def setAlias (aliases : Aliases) (exeName source target : List WChar) : Aliases :=
  if target = [] then
    match aliases.lookup exeName with
    | none => aliases
    | some table =>
        if source ∈ table then
          if (table.erase source).entries.isEmpty then aliases.erase exeName
          else aliases.replace exeName (table.erase source)
        else aliases
  else
    match aliases.lookup exeName with
    | none => aliases.insert exeName (AList.insert source target ∅)
    | some table => aliases.replace exeName (table.insert source target)

def tryGetAlias (aliases : Aliases) (exeName source : List WChar) : Option (List WChar) :=
  ((aliases.lookup exeName).bind (·.lookup source)).filter (!·.isEmpty)

/-- `for_each_alias` -/
def aliasesOf (aliases : Aliases) (exeName : List WChar) : List (List WChar × List WChar) :=
  match aliases.lookup exeName with
  | none => []
  | some table => table.entries.map fun entry => (entry.1, entry.2)

end Aliases

/-- The settings that requests read and set and that nothing else depends on. -/
structure Settings where
  font : Font := {}
  cursorBlink : Bool := true
  cursorDbEnable : Bool := false
  nlsMode : UInt32 := 0
  menuClose : Bool := true
  keyShortcutsEnabled : Bool := false
  reservedKeys : UInt8 := 0
  os2Registered : Bool := false
  os2OemFormat : Bool := false

/-- `ServerState`. A screen buffer is shared by the handles that name its place in
`screenBuffers`. -/
structure ServerState where
  processes : AList fun _ : Handle => ProcessState := ∅
  objects : Handle → Option ObjectHandle := fun _ => none
  screenBuffers : List ScreenBuffer := []
  mainScreenBuffer : Option Nat := none
  activeScreenBuffer : Option Nat := none
  aliases : Aliases := ∅
  inputMode : InputMode := ⟨0x97⟩
  outputMode : OutputMode := ⟨0x3⟩
  inputCodePage : CodePage
  outputCodePage : CodePage
  title : TitleState := {}
  historyBufferSize : UInt32 := 50
  historyBufferCount : UInt32 := 4
  historyFlags : UInt32 := 0
  commandHistories : CommandHistoryPool := []
  settings : Settings := {}
  nextConnectSequence : Nat := 1

/-- The address of the next heap object, `none` if the allocation fails. -/
abbrev Allocator := ServerState → Option Handle

/-- `ConnectionInformation` -/
structure ConnectionInformation where
  process : Handle
  input : Handle
  output : Handle
deriving DecidableEq

namespace ServerState

/-- The constructor of `ServerState`. -/
def initial (system : System) : ServerState where
  screenBuffers := [ScreenBuffer.create ScreenBuffer.defaultSettings]
  mainScreenBuffer := some 0
  activeScreenBuffer := some 0
  inputCodePage := system.getOemCp
  outputCodePage := system.getOemCp

variable (state : ServerState)

def processCount : Nat := state.processes.entries.length

def hasProcess (process : Handle) : Bool := process ∈ state.processes

def findObject (id : Handle) : Option ObjectHandle := state.objects id

/-- The process identifiers in the order of `for_each_process`. -/
def pids : List UInt32 := state.processes.entries.map (·.2.pid)

def setObject (id : Handle) (handle : Option ObjectHandle) : ServerState :=
  { state with objects := Function.update state.objects id handle }

def screenBuffer (index : Nat) : Option ScreenBuffer := state.screenBuffers[index]?

def setScreenBuffer (index : Nat) (buffer : ScreenBuffer) : ServerState :=
  { state with screenBuffers := state.screenBuffers.set index buffer }

/-- `active_screen_buffer()` -/
def activeBuffer : Option ScreenBuffer := state.activeScreenBuffer.bind state.screenBuffer

def setActiveScreenBuffer (index : Nat) : ServerState :=
  { state with
    activeScreenBuffer := some index
    mainScreenBuffer := state.mainScreenBuffer <|> some index }

/-- `create_screen_buffer_like_active` -/
def createScreenBufferLikeActive : Option (ServerState × Nat) :=
  state.activeBuffer.map fun template =>
    ({ state with screenBuffers := state.screenBuffers ++ [ScreenBuffer.createBlankLike template] },
      state.screenBuffers.length)

variable (allocate : Allocator)

/-- `create_object`; an output handle without a screen buffer gets the active one. -/
def createObject (object : ObjectHandle) : Option (ServerState × Handle) :=
  let object :=
    if object.kind = .output ∧ object.screenBuffer = none then
      { object with screenBuffer := state.activeScreenBuffer }
    else object
  if object.kind = .output ∧ object.screenBuffer = none then none
  else
    match allocate state with
    | none => none
    | some id =>
        if (state.findObject id).isSome then none else some (state.setObject id (some object), id)

def closeObject (id : Handle) : Option ServerState :=
  if (state.findObject id).isSome then some (state.setObject id none) else none

def eraseProcess (process : Handle) : ServerState :=
  { state with processes := state.processes.erase process }

/-- The handles a new client is given. -/
def standardHandle (kind : ObjectKind) (process : Handle) : ObjectHandle :=
  { kind := kind, desiredAccess := 0xc0000000, shareMode := 3, owningProcess := process }

/-- The state with a new process that has no handles yet. -/
def insertProcess (id : Handle) (pid tid : UInt32) : ServerState :=
  { state with
    processes := state.processes.insert id ⟨pid, tid, state.nextConnectSequence, 0, 0⟩
    nextConnectSequence := state.nextConnectSequence + 1 }

/-- The handles of a new process, and its command history. -/
def finishConnect (system : System) (info : ConnectionInformation) (appName : List WChar) :
    ServerState :=
  { state with
    processes :=
      match state.processes.lookup info.process with
      | none => state.processes
      | some process =>
          state.processes.replace info.process
            { process with inputHandle := info.input, outputHandle := info.output }
    commandHistories := state.commandHistories.allocateForProcess system appName info.process
      state.historyBufferCount.toNat state.historyBufferSize.toNat }

/-- `connect_client`; a connection that fails leaves the sequence number behind, nothing else. -/
def connectClient (system : System) (pid tid : UInt32) (appName : List WChar) :
    ServerState × Option ConnectionInformation :=
  match allocate state with
  | none => (state, none)
  | some process =>
      if state.hasProcess process then
        ({ state with nextConnectSequence := state.nextConnectSequence + 1 }, none)
      else
        let connected := state.insertProcess process pid tid
        match connected.createObject allocate (standardHandle .input process) with
        | none => (connected.eraseProcess process, none)
        | some (opened, input) =>
            match opened.createObject allocate (standardHandle .output process) with
            | none =>
                (((opened.closeObject input).getD opened).eraseProcess process, none)
            | some (complete, output) =>
                let info : ConnectionInformation := ⟨process, input, output⟩
                (complete.finishConnect system info appName, some info)

/-- `disconnect_client` -/
def disconnectClient (process : Handle) : Option ServerState :=
  if state.hasProcess process then
    some { state with
      commandHistories := state.commandHistories.freeForProcess process
      objects := fun id => (state.objects id).filter (·.owningProcess != process)
      processes := state.processes.erase process }
  else none

end ServerState

end Conhost
