import Conhost.Server.Message

/-!
# The requests without a handle

Code pages, control events, settings, aliases and command histories. The names
and texts of alias and history requests stand in the client's input buffer, in
UTF-16 or in the output code page. A request for a list is refused if one of
its entries cannot be converted, or if the list does not fit the output buffer.
-/

namespace Conhost

namespace GlobalApi

/-- The requests that call `get_input_buffer`. -/
def takesInput : GlobalApi → Bool
  | .addAlias .. => true
  | .getAlias .. => true
  | .getAliasesLength .. => true
  | .getAliases .. => true
  | .expungeCommandHistory .. => true
  | .setNumberOfCommands .. => true
  | .getCommandHistoryLength .. => true
  | .getCommandHistory .. => true
  | _ => false

/-- The requests that call `get_output_buffer`. -/
def takesOutput : GlobalApi → Bool
  | .getConsoleProcessList .. => true
  | .getAlias .. => true
  | .getAliases .. => true
  | .getAliasExes .. => true
  | .getCommandHistory .. => true
  | _ => false

abbrev reply (body : GlobalApi) (status : Status) : Reply := Reply.ofApi (.global body) status

/-- A reply with output, of which everything is reported. -/
def replyWith (body : GlobalApi) (output : List Byte) : Reply :=
  { reply body .success with information := output.length, output := output }

variable (system : System) (server : ServerState)

/-- `ConsolepGenerateCtrlEvent` -/
def sendCtrlEvent (host : HostIo) (ctrlEvent processGroupId : UInt32) : Option HostIo :=
  let receivers := server.pids.filter fun pid => processGroupId == 0 || pid == processGroupId
  if ctrlEvent = 0 then some (host.forward receivers .ctrlC)
  else if ctrlEvent = 1 then some (host.forward receivers .ctrlBreak)
  else none

/-- `ConsolepGetKeyboardLayoutName`; the layout name has eight characters. -/
def keyboardLayoutName (ansi : Bool) : List Byte :=
  let layout := system.getKeyboardLayoutName.getD ("00000409".toList.map wc ++ [0])
  if ansi then layout.map fun unit => if unit ≤ 0x7f then unit.toUInt8 else bc '?'
  else unitBytes layout

/-- `ConsolepGetConsoleProcessList`: the latest process first, all or nothing. -/
def processList (capacity : Nat) : Reply :=
  let processes := (server.processes.entries.map (·.2)).mergeSort fun left right =>
    decide (right.connectSequence ≤ left.connectSequence)
  let total := processes.length
  let body : GlobalApi := .getConsoleProcessList (clampUlong total)
  if capacity / 4 < total then reply body .success
  else replyWith body (processes.flatMap fun process => dwordBytes process.pid)

/-- The number of bytes of an alignment; only the lengths of UTF-16 names are aligned. -/
def aligned (unicode : Bool) (length : UInt16) : Bool := !unicode || length.toNat % 2 == 0

/-- A name in the input of an alias request. -/
def decodeName (unicode : Bool) (bytes : List Byte) : Option (List WChar) :=
  decodeConsoleString system.toPlatform unicode bytes server.outputCodePage

/-- `ConsolepAddAlias` -/
def addAliasRequest (unicode : Bool) (exeLength sourceLength targetLength : UInt16)
    (input : List Byte) : ServerState × Status :=
  let exe := exeLength.toNat
  let source := sourceLength.toNat
  let target := targetLength.toNat
  if input.length < exe + source + target ∨
      !(aligned unicode exeLength && aligned unicode sourceLength && aligned unicode targetLength)
  then (server, .invalidParameter)
  else
    match decodeName system server unicode (input.take exe),
      decodeName system server unicode ((input.drop exe).take source),
      decodeName system server unicode ((input.drop (exe + source)).take target) with
    | some exeName, some sourceName, some targetName =>
        if sourceName = [] then (server, .invalidParameter)
        else
          match foldToLowerInvariant system exeName, foldToLowerInvariant system sourceName with
          | some exeNorm, some sourceNorm =>
              if sourceNorm = [] then (server, .unsuccessful)
              else
                ({ server with aliases := server.aliases.setAlias exeNorm sourceNorm targetName },
                  .success)
          | _, _ => (server, .unsuccessful)
    | _, _, _ => (server, .invalidParameter)

/-- The target of an alias as it is returned: with a NUL, in the encoding of the request. -/
def targetBytes (unicode : Bool) (target : List WChar) : Option (List Byte) :=
  if unicode then some (unitBytes (target ++ [0]))
  else (wideToMultiByte system.toPlatform server.outputCodePage target).map (· ++ [0])

/-- `ConsolepGetAlias` -/
def getAliasReply (unicode : Bool) (exeLength sourceLength : UInt16) (input : List Byte)
    (capacity : Nat) : Reply :=
  let exe := exeLength.toNat
  let source := sourceLength.toNat
  let body (targetLength : Nat) : GlobalApi := .getAlias unicode exeLength sourceLength targetLength
  if input.length < exe + source ∨ !(aligned unicode exeLength && aligned unicode sourceLength) then
    reply (body 0) .invalidParameter
  else
    match decodeName system server unicode (input.take exe),
      decodeName system server unicode ((input.drop exe).take source) with
    | some exeName, some sourceName =>
        match foldToLowerInvariant system exeName, foldToLowerInvariant system sourceName with
        | some exeNorm, some sourceNorm =>
            match server.aliases.tryGetAlias exeNorm sourceNorm with
            | none => reply (body 0) .unsuccessful
            | some target =>
                match targetBytes system server unicode target with
                | none => reply (body 0) .invalidParameter
                | some bytes =>
                    if 0xffff < bytes.length then reply (body 0) .invalidParameter
                    else if capacity < bytes.length then
                      { reply (body bytes.length) .bufferTooSmall with information := bytes.length }
                    else replyWith (body bytes.length) bytes
        | _, _ => reply (body 0) .unsuccessful
    | _, _ => reply (body 0) .invalidParameter

/-- The entries of a list, each `none` if it cannot be converted, in an output buffer. -/
def dumpEntries (capacity : Nat) (entries : List (Option (List Byte))) :
    Except Status (List Byte) :=
  entries.foldlM
    (fun written entry =>
      match entry with
      | none => .error .invalidParameter
      | some bytes =>
          if capacity - written.length < bytes.length then .error .bufferTooSmall
          else .ok (written ++ bytes))
    []

/-- The size of a list, `none` if an entry cannot be converted. -/
def totalBytes (entries : List (Option (List Byte))) : Option Nat :=
  entries.foldlM (fun total entry => entry.map fun bytes => total + bytes.length) 0

/-- A name or a command with its NUL. -/
def textEntry (unicode : Bool) (text : List WChar) : Option (List Byte) :=
  targetBytes system server unicode text

/-- The entry of an alias: source, an equals sign, target and a NUL. -/
def aliasEntry (unicode : Bool) (entry : List WChar × List WChar) : Option (List Byte) :=
  if unicode then some (unitBytes (entry.1 ++ [wc '='] ++ entry.2 ++ [0]))
  else
    match wideToMultiByte system.toPlatform server.outputCodePage entry.1,
      wideToMultiByte system.toPlatform server.outputCodePage entry.2 with
    | some source, some target => some (source ++ [bc '='] ++ target ++ [0])
    | _, _ => none

/-- The entries `ConsolepGetAliases` returns, or the status it fails with. -/
def aliasEntries (unicode : Bool) (input : List Byte) : Except Status (List (Option (List Byte))) :=
  match decodeName system server unicode input with
  | none => .error .invalidParameter
  | some exeName =>
      match foldToLowerInvariant system exeName with
      | none => .error .unsuccessful
      | some exeNorm =>
          .ok ((server.aliases.aliasesOf exeNorm).map (aliasEntry system server unicode))

def aliasExeEntries (unicode : Bool) : List (Option (List Byte)) :=
  server.aliases.keys.map (textEntry system server unicode)

/-- The answer to the request for the size of a list. -/
def lengthReply (body : Nat → GlobalApi) (entries : Except Status (List (Option (List Byte)))) :
    Reply :=
  match entries with
  | .error status => reply (body 0) status
  | .ok entries =>
      match totalBytes entries with
      | none => reply (body 0) .invalidParameter
      | some total => reply (body (clampUlong total)) .success

/-- The answer to the request for a list. -/
def dumpReply (body : Nat → GlobalApi) (capacity : Nat)
    (entries : Except Status (List (Option (List Byte)))) : Reply :=
  match entries.bind (dumpEntries capacity) with
  | .error status => reply (body 0) status
  | .ok output =>
      { reply (body (clampUlong output.length)) .success with
        information := clampUlong output.length
        output := output }

/-- The executable named by the whole input of a history request. -/
def historyExe (unicode : Bool) (input : List Byte) : Option (List WChar) :=
  (decodeName system server unicode input).map trimNuls

/-- The commands of an executable, as they are returned. -/
def historyEntries (unicode : Bool) (exeName : List WChar) : List (Option (List Byte)) :=
  ((server.commandHistories.findByExe system exeName).map (·.commands)).getD []
    |>.map (textEntry system server unicode)

/-- `ConsolepGetCommandHistoryLength`; the size is not reported if it is no `ULONG`. -/
def commandHistoryLengthReply (unicode : Bool) (length : Nat) (input : List Byte) : Reply :=
  let body := GlobalApi.getCommandHistoryLength unicode
  match historyExe system server unicode input with
  | none => reply (body length) .invalidParameter
  | some exeName =>
      match totalBytes (historyEntries system server unicode exeName) with
      | none => reply (body length) .invalidParameter
      | some total =>
          if 0xffffffff < total then reply (body length) .invalidParameter
          else reply (body total) .success

/-- `ConsolepGetCommandHistory` -/
def commandHistoryReply (unicode : Bool) (length : Nat) (input : List Byte) (capacity : Nat) :
    Reply :=
  let body := GlobalApi.getCommandHistory unicode
  match historyExe system server unicode input with
  | none => reply (body length) .invalidParameter
  | some exeName =>
      if unicode ∧ capacity % 2 ≠ 0 then reply (body length) .invalidParameter
      else
        match dumpEntries capacity (historyEntries system server unicode exeName) with
        | .error status => reply (body length) status
        | .ok output =>
            if 0xffffffff < output.length then reply (body length) .invalidParameter
            else replyWith (body output.length) output

def updateSettings (update : Settings → Settings) : ServerState :=
  { server with settings := update server.settings }

def setHistoryInfo (bufferSize bufferCount flags : UInt32) : ServerState :=
  { server with
    historyBufferSize := bufferSize
    historyBufferCount := bufferCount
    historyFlags := flags
    commandHistories := server.commandHistories.resizeAll bufferSize.toNat }

/-- The change a request makes to the server, and its reply. -/
def handle (input : List Byte) (capacity : Nat) (request : GlobalApi) : ServerState × Reply :=
  match request with
  | .getCp output _ =>
      (server,
        reply (.getCp output (if output then server.outputCodePage else server.inputCodePage))
          .success)
  | .setCp output codePage =>
      (if output then { server with outputCodePage := codePage }
        else { server with inputCodePage := codePage }, reply request .success)
  | .generateCtrlEvent ctrlEvent _ =>
      (server, reply request (if ctrlEvent ≤ 1 then .success else .invalidParameter))
  | .getLangId _ => (server, reply (.getLangId system.getUserDefaultLangId) .success)
  | .notifyLastClose => (server, reply request .success)
  | .getNumberOfFonts _ => (server, reply (.getNumberOfFonts 1) .success)
  | .setFont => (server, reply request .success)
  | .setKeyShortcuts enabled reservedKeys =>
      (updateSettings server fun settings =>
        { settings with keyShortcutsEnabled := enabled, reservedKeys := reservedKeys },
        reply request .success)
  | .setMenuClose enable =>
      (updateSettings server fun settings => { settings with menuClose := enable },
        reply request .success)
  | .setLocalEudc => (server, reply request .success)
  | .setCursorMode blink dbEnable =>
      (updateSettings server fun settings =>
        { settings with cursorBlink := blink, cursorDbEnable := dbEnable }, reply request .success)
  | .getCursorMode _ _ =>
      (server, reply (.getCursorMode server.settings.cursorBlink server.settings.cursorDbEnable)
        .success)
  | .registerOs2 register =>
      (updateSettings server fun settings => { settings with os2Registered := register },
        reply request .success)
  | .setOs2OemFormat enabled =>
      (updateSettings server fun settings => { settings with os2OemFormat := enabled },
        reply request .success)
  | .getNlsMode _ _ => (server, reply (.getNlsMode true server.settings.nlsMode) .success)
  | .setNlsMode _ mode =>
      (updateSettings server fun settings => { settings with nlsMode := mode },
        reply (.setNlsMode true mode) .success)
  | .getConsoleWindow _ => (server, reply (.getConsoleWindow 0) .success)
  | .getDisplayMode _ => (server, reply (.getDisplayMode 0) .success)
  | .getKeyboardLayoutName ansi _ =>
      (server, reply (.getKeyboardLayoutName ansi (keyboardLayoutName system ansi)) .success)
  | .getMouseInfo _ => (server, reply (.getMouseInfo system.mouseButtons.toNat) .success)
  | .getSelectionInfo => (server, reply request .success)
  | .getConsoleProcessList _ => (server, processList server capacity)
  | .addAlias unicode exeLength sourceLength targetLength =>
      let added := addAliasRequest system server unicode exeLength sourceLength targetLength input
      (added.1, reply request added.2)
  | .getAlias unicode exeLength sourceLength _ =>
      (server, getAliasReply system server unicode exeLength sourceLength input capacity)
  | .getAliasesLength unicode _ =>
      (server, lengthReply (.getAliasesLength unicode) (aliasEntries system server unicode input))
  | .getAliases unicode _ =>
      (server,
        dumpReply (.getAliases unicode) capacity (aliasEntries system server unicode input))
  | .getAliasExesLength unicode _ =>
      (server,
        lengthReply (.getAliasExesLength unicode) (.ok (aliasExeEntries system server unicode)))
  | .getAliasExes unicode _ =>
      (server,
        dumpReply (.getAliasExes unicode) capacity (.ok (aliasExeEntries system server unicode)))
  | .getHistory _ _ _ =>
      (server, reply (.getHistory server.historyBufferSize server.historyBufferCount
        server.historyFlags) .success)
  | .setHistory bufferSize bufferCount flags =>
      (setHistoryInfo server bufferSize bufferCount flags, reply request .success)
  | .expungeCommandHistory unicode =>
      match historyExe system server unicode input with
      | none => (server, reply request .invalidParameter)
      | some exeName =>
          ({ server with
            commandHistories := server.commandHistories.expungeByExe system exeName },
            reply request .success)
  | .setNumberOfCommands unicode numCommands =>
      match historyExe system server unicode input with
      | none => (server, reply request .invalidParameter)
      | some exeName =>
          ({ server with
            commandHistories := server.commandHistories.setNumberOfCommandsByExe system exeName
              numCommands.toNat }, reply request .success)
  | .getCommandHistoryLength unicode length =>
      (server, commandHistoryLengthReply system server unicode length input)
  | .getCommandHistory unicode length =>
      (server, commandHistoryReply system server unicode length input capacity)

/-- The control events a request sends. -/
def sendEvents (host : HostIo) : GlobalApi → HostIo
  | .generateCtrlEvent ctrlEvent processGroupId =>
      (sendCtrlEvent server host ctrlEvent processGroupId).getD host
  | _ => host

end GlobalApi

end Conhost
