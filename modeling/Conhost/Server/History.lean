import Conhost.Input.Delivery

/-!
# Command histories

Every connected process may own one command history. The histories of
processes that have left stay in the pool and are taken over by a later process
of the same application, or by any other once the pool is full. The list is
kept in the order of last use.
-/

namespace Conhost

/-- The functions of the operating system that `dispatch_message` calls besides the conversions. -/
structure System extends Platform where
  getOemCp : CodePage
  /-- `CompareStringOrdinal` ignoring case returns `CSTR_EQUAL`. -/
  compareStringOrdinal : List WChar → List WChar → Bool
  /-- `LCMapStringEx` with `LCMAP_LOWERCASE`; an empty result is a failed call. -/
  lcMapLowercase : List WChar → List WChar
  getUserDefaultLangId : UInt16
  /-- `none` if `GetKeyboardLayoutNameW` fails. -/
  getKeyboardLayoutName : Option (List WChar)
  /-- `GetSystemMetrics(SM_CMOUSEBUTTONS)` -/
  mouseButtons : Int

/-- The lower case of an ASCII letter. -/
def lowerCase (unit : WChar) : WChar := if wc 'A' ≤ unit ∧ unit ≤ wc 'Z' then unit + 32 else unit

/-- A system with UTF-8 code pages that folds the case of ASCII letters. -/
def System.utf8 : System where
  toPlatform := .utf8
  getOemCp := cpUtf8
  compareStringOrdinal left right := left.map lowerCase == right.map lowerCase
  lcMapLowercase units := units.map lowerCase
  getUserDefaultLangId := 0x0409
  getKeyboardLayoutName := none
  mouseButtons := 3

structure CommandHistory where
  commands : List (List WChar) := []
  maxCommands : Nat := 0
  appName : List WChar := []
  processHandle : Handle := 0
  allocated : Bool := false
deriving DecidableEq

namespace CommandHistory

variable (history : CommandHistory)

/-- `app_name_matches`; the lengths passed to `CompareStringOrdinal` are `int`s. -/
def appNameMatches (system : System) (other : List WChar) : Bool :=
  if intMax < history.appName.length ∨ intMax < other.length then false
  else system.compareStringOrdinal history.appName other

def assignProcess (process : Handle) : CommandHistory :=
  { history with processHandle := process, allocated := true }

def releaseProcess : CommandHistory := { history with allocated := false, processHandle := 0 }

def clearCommands : CommandHistory := { history with commands := [] }

/-- `realloc` cuts off the newest commands. -/
def realloc (maxCommands : Nat) : CommandHistory :=
  { history with maxCommands := maxCommands, commands := history.commands.take maxCommands }

def add (command : List WChar) (suppressDuplicates : Bool) : CommandHistory :=
  if history.maxCommands = 0 ∨ command = [] then history
  else if history.commands.getLast? = some command then history
  else
    let kept := if suppressDuplicates then history.commands.erase command else history.commands
    let room := if kept.length = history.maxCommands then kept.tail else kept
    { history with commands := room ++ [command] }

end CommandHistory

/-- `CommandHistoryPool`, the most recently used history first. -/
abbrev CommandHistoryPool := List CommandHistory

namespace CommandHistoryPool

variable (system : System) (pool : CommandHistoryPool)

def resizeAll (maxCommands : Nat) : CommandHistoryPool := pool.map (·.realloc maxCommands)

/-- `splice` of an entry to the front, after a change to it. -/
def moveToFront (index : Nat) (change : CommandHistory → CommandHistory) : CommandHistoryPool :=
  match pool[index]? with
  | none => pool
  | some history => change history :: pool.eraseIdx index

/-- The choice between two entries that are free, in the order of the list. -/
def preferred (best : Option (CommandHistory × Nat)) (entry : CommandHistory × Nat) :
    Option (CommandHistory × Nat) :=
  if entry.1.allocated then best
  else
    match best with
    | none => some entry
    | some chosen =>
        if entry.1.commands.isEmpty || !chosen.1.commands.isEmpty then some entry else best

def allocateForProcess (appName : List WChar) (process : Handle)
    (maxHistories defaultMaxCommands : Nat) : CommandHistoryPool :=
  match pool.findIdx? fun entry => !entry.allocated && entry.appNameMatches system appName with
  | some index => pool.moveToFront index (·.assignProcess process)
  | none =>
      if pool.length < maxHistories then
        (({ appName := appName } : CommandHistory).realloc defaultMaxCommands).assignProcess process
          :: pool
      else
        match pool.zipIdx.foldl preferred none with
        | none => pool
        | some (_, index) =>
            pool.moveToFront index fun history =>
              { history.clearCommands with appName := appName }.assignProcess process

/-- Whether an entry is the history of a process. -/
def ownedBy (process : Handle) (history : CommandHistory) : Bool :=
  history.allocated && history.processHandle == process

/-- Whether an entry is found under the name of an executable. -/
def namedBy (exeName : List WChar) (history : CommandHistory) : Bool :=
  history.allocated && history.appNameMatches system exeName

def updateFirst (found : CommandHistory → Bool) (change : CommandHistory → CommandHistory) :
    CommandHistoryPool → CommandHistoryPool
  | [] => []
  | history :: later =>
      if found history then change history :: later
      else history :: updateFirst found change later

def freeForProcess (process : Handle) : CommandHistoryPool :=
  updateFirst (ownedBy process) (·.releaseProcess) pool

def addForProcess (process : Handle) (command : List WChar) (suppressDuplicates : Bool) :
    CommandHistoryPool :=
  updateFirst (ownedBy process) (·.add command suppressDuplicates) pool

def findByExe (exeName : List WChar) : Option CommandHistory := pool.find? (namedBy system exeName)

def expungeByExe (exeName : List WChar) : CommandHistoryPool :=
  updateFirst (namedBy system exeName) (·.clearCommands) pool

def setNumberOfCommandsByExe (exeName : List WChar) (maxCommands : Nat) : CommandHistoryPool :=
  match pool.findIdx? (namedBy system exeName) with
  | none => pool
  | some index => pool.moveToFront index (·.realloc maxCommands)

end CommandHistoryPool

end Conhost
