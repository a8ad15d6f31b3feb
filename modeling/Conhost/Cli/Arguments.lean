import Conhost.Cli.CommandLine
import Conhost.Core.FastNumber

/-!
# Command-line arguments of the host

`ConsoleArguments::parse` consumes the options of the host from left to right,
up to `--` or the first token that is no option, and writes the tokens from
there on back into one command line for the client.
-/

namespace Conhost

namespace Cli

/-- A wide string literal. -/
def wide (text : String) : Token :=
  text.toList.map fun ch => UInt16.ofNat ch.toNat

def vtModeArg : Token := wide "--vtmode"
def headlessArg : Token := wide "--headless"
def serverHandleArg : Token := wide "--server"
def signalHandleArg : Token := wide "--signal"
def handlePrefix : Token := wide "0x"
def clientCommandlineArg : Token := wide "--"
def forceV1Arg : Token := wide "-ForceV1"
def forceNoHandoffArg : Token := wide "-ForceNoHandoff"
def filepathLeaderPrefix : Token := wide "\\??\\"
def widthArg : Token := wide "--width"
def heightArg : Token := wide "--height"
def inheritCursorArg : Token := wide "--inheritcursor"
def featureArg : Token := wide "--feature"
def featurePtyArg : Token := wide "pty"
def comServerArg : Token := wide "-Embedding"
def comServerSlashArg : Token := wide "/Embedding"
def delegatedWindowArg : Token := wide "--delegated-window"
def textMeasurementArg : Token := wide "--textMeasurement"

/-- The failures of `parse`. -/
inductive ParseError where
  | commandLineToArgvFailed
  | tokensRemain
  | expectedValue
  | malformedShort
  | unsupportedFeature
  | handleAlreadySet
  | invalidHandle
  | handleOutOfRange
  | clientIndexOutOfRange
  | expectedSeparator
deriving DecidableEq

def ParseError.message : ParseError → String
  | .commandLineToArgvFailed => "CommandLineToArgvW failed"
  | .tokensRemain => "Unexpected tokens remaining after parse"
  | .expectedValue => "Expected value after argument"
  | .malformedShort => "Short argument was out of range or malformed"
  | .unsupportedFeature => "Unsupported --feature value"
  | .handleAlreadySet => "Handle value was already set"
  | .invalidHandle => "Invalid handle value"
  | .handleOutOfRange => "Handle value was out of range"
  | .clientIndexOutOfRange => "Client command line index out of range"
  | .expectedSeparator => "Expected -- token for explicit client command line"

/-- What the options of the host set. -/
structure HostOptions where
  vtInHandle : Nat
  vtOutHandle : Nat
  textMeasurement : Token := []
  forceNoHandoff : Bool := false
  forceV1 : Bool := false
  vtModeRequested : Bool := false
  headless : Bool := false
  width : Int := 0
  height : Int := 0
  runAsComServer : Bool := false
  delegatedWindow : Bool := false
  createServerHandle : Bool := true
  serverHandle : Nat := 0
  signalHandle : Nat := 0
  inheritCursor : Bool := false
deriving DecidableEq

/-- `ConsoleArguments` -/
structure ConsoleArguments where
  commandLine : List WChar
  clientCommandLine : List WChar := []
  options : HostOptions
deriving DecidableEq

/-- `starts_with` -/
def startsWith (text start : Token) : Bool :=
  start.isPrefixOf text

/-- `parse_handle_arg`, with the value the handle already has -/
def parseHandleArg (handleText : Token) (handleValue : Nat) : Except ParseError Nat :=
  if handleValue ≠ 0 then .error .handleAlreadySet
  else
    match FastNumber.parseHexU64 handleText true with
    | .error _ => .error .invalidHandle
    | .ok parsed =>
        if parsed = 0 then .error .invalidHandle
        else if parsed > FastNumber.uint64Max then .error .handleOutOfRange
        else .ok parsed

/-- The conversion of `get_short_argument` -/
def parseShort (text : Token) : Except ParseError Int :=
  match FastNumber.parseI16 text with
  | .error _ => .error .malformedShort
  | .ok parsed => .ok parsed

/-- The check of `handle_feature_value` -/
def checkFeature (value : Token) (options : HostOptions) : Except ParseError HostOptions :=
  if value ≠ featurePtyArg then .error .unsupportedFeature else .ok options

def setServerHandle (value : Token) (options : HostOptions) : Except ParseError HostOptions :=
  (parseHandleArg value options.serverHandle).map fun handle =>
    { options with serverHandle := handle, createServerHandle := false }

def setSignalHandle (value : Token) (options : HostOptions) : Except ParseError HostOptions :=
  (parseHandleArg value options.signalHandle).map fun handle =>
    { options with signalHandle := handle }

/-- What an option of the host does: alone, or with the token after it. -/
inductive HostOption where
  | alone (apply : HostOptions → Except ParseError HostOptions)
  | withValue (apply : Token → HostOptions → Except ParseError HostOptions)

/-- The option that a token is, by the tests of `parse_tokens` in their order. -/
def hostOption (arg : Token) : Option HostOption :=
  if startsWith arg handlePrefix || arg = serverHandleArg then
    if arg = serverHandleArg then some (.withValue setServerHandle)
    else some (.alone (setServerHandle arg))
  else if arg = signalHandleArg then some (.withValue setSignalHandle)
  else if arg = forceV1Arg then some (.alone fun options => .ok { options with forceV1 := true })
  else if arg = forceNoHandoffArg then
    some (.alone fun options => .ok { options with forceNoHandoff := true })
  else if arg = comServerArg then
    some (.alone fun options => .ok { options with runAsComServer := true })
  else if arg = comServerSlashArg then
    some (.alone fun options => .ok { options with runAsComServer := true })
  else if arg = delegatedWindowArg then
    some (.alone fun options => .ok { options with delegatedWindow := true })
  else if startsWith arg filepathLeaderPrefix then some (.alone .ok)
  else if arg = widthArg then
    some (.withValue fun value options =>
      (parseShort value).map fun width => { options with width := width })
  else if arg = heightArg then
    some (.withValue fun value options =>
      (parseShort value).map fun height => { options with height := height })
  else if arg = featureArg then some (.withValue checkFeature)
  else if arg = headlessArg then some (.alone fun options => .ok { options with headless := true })
  else if arg = vtModeArg then
    some (.alone fun options => .ok { options with vtModeRequested := true })
  else if arg = inheritCursorArg then
    some (.alone fun options => .ok { options with inheritCursor := true })
  else if arg = textMeasurementArg then
    some (.withValue fun value options => .ok { options with textMeasurement := value })
  else none

/-- The loop of `escape_argument`: what it appends for the characters, and the length of the run
of backslashes at the end. -/
def escapeCharacters : (slashCount : Nat) → Token → List WChar × Nat
  | slashCount, [] => ([], slashCount)
  | slashCount, ch :: arg =>
      if ch = charBackslash then
        let rest := escapeCharacters (slashCount + 1) arg
        (charBackslash :: rest.1, rest.2)
      else if ch = charQuote then
        let rest := escapeCharacters 0 arg
        (List.replicate slashCount charBackslash ++ charBackslash :: charQuote :: rest.1, rest.2)
      else
        let rest := escapeCharacters 0 arg
        (ch :: rest.1, rest.2)

/-- `escape_argument` -/
def escapeArgument (arg : Token) : List WChar :=
  if arg = [] then [charQuote, charQuote]
  else
    let hasSpace := arg.any isBlank
    let size := arg.length + arg.countP (fun ch => ch == charQuote || ch == charBackslash) +
      (if hasSpace then 2 else 0)
    if size = arg.length then arg
    else
      let (escaped, slashCount) := escapeCharacters 0 arg
      if hasSpace then
        charQuote :: (escaped ++ (List.replicate slashCount charBackslash ++ [charQuote]))
      else escaped

/-- The loop of `set_client_command_line` -/
def joinArguments : List Token → List WChar
  | [] => []
  | [arg] => escapeArgument arg
  | arg :: args => escapeArgument arg ++ charSpace :: joinArguments args

/-- `set_client_command_line`: the client command line, and the tokens left. -/
def setClientCommandLine (skipFirstToken : Bool) :
    List Token → Except ParseError (List WChar × List Token)
  | [] => .error .clientIndexOutOfRange
  | first :: rest =>
      if skipFirstToken then
        if first ≠ clientCommandlineArg then .error .expectedSeparator
        else .ok (joinArguments rest, [])
      else .ok (joinArguments (first :: rest), [])

/-- `parse_tokens`: the options, the client command line and the tokens left. The source's index
never leaves zero. -/
def parseTokens (options : HostOptions) :
    List Token → Except ParseError (HostOptions × List WChar × List Token)
  | [] => .ok (options, [], [])
  | arg :: args =>
      match hostOption arg with
      | some (.alone apply) =>
          match apply options with
          | .error error => .error error
          | .ok options => parseTokens options args
      | some (.withValue apply) =>
          match args with
          | [] => .error .expectedValue
          | value :: args =>
              match apply value options with
              | .error error => .error error
              | .ok options => parseTokens options args
      | none =>
          match setClientCommandLine (arg = clientCommandlineArg) (arg :: args) with
          | .error error => .error error
          | .ok (client, left) => .ok (options, client, left)

/-- `ConsoleArguments::parse` -/
def parse (environment : Environment) (commandLine : List WChar) (stdIn stdOut : Nat) :
    Except ParseError ConsoleArguments :=
  let initial : HostOptions := { vtInHandle := stdIn, vtOutHandle := stdOut }
  if commandLine = [] then .ok { commandLine := commandLine, options := initial }
  else
    match commandLineToArgvW environment commandLine with
    | none => .error .commandLineToArgvFailed
    | some argv =>
        match parseTokens initial (argv.drop 1) with
        | .error error => .error error
        | .ok (options, client, left) =>
            if left ≠ [] then .error .tokensRemain
            else .ok { commandLine := commandLine, clientCommandLine := client, options := options }

end Cli

end Conhost
