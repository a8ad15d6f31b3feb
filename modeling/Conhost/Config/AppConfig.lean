import Conhost.Cli.Arguments
import Conhost.Core.NumberParsers
import Conhost.Input.Decode

/-!
# The configuration at startup

`ConfigLoader` of `config/app_config.cpp`: a configuration is read from the user's file, from a
file that the environment names, and from environment variables.
-/

namespace Conhost

namespace Config

open Cli (wide)

/-- `oc::logging::LogLevel` -/
inductive LogLevel where
  | trace
  | debug
  | info
  | warning
  | error
deriving DecidableEq

/-- `ConfigError` -/
structure ConfigError where
  message : String
  win32Error : UInt32
deriving DecidableEq

/-- `AppConfig` with its defaults -/
structure AppConfig where
  minimumLogLevel : LogLevel := .info
  localeOverride : List WChar := []
  dryRun : Bool := false
  enableDebugSink : Bool := true
  enableFileLogging : Bool := false
  logDirectoryPath : List WChar := []
  breakOnStart : Bool := false
  preferPseudoconsole : Bool := true
  holdWindowOnExit : Bool := false
  allowEmbeddingPassthrough : Bool := true
  enableLegacyConhostPath : Bool := true
  embeddingWaitTimeoutMs : UInt32 := 0
deriving DecidableEq

def kConfigPathEnv : List WChar := wide "OPENCONSOLE_NEW_CONFIG"
def kUserProfileEnv : List WChar := wide "USERPROFILE"
def kHomeEnv : List WChar := wide "HOME"
def kHomeDriveEnv : List WChar := wide "HOMEDRIVE"
def kHomePathEnv : List WChar := wide "HOMEPATH"
def kDefaultUserConfigName : List WChar := wide ".conhost"
def kLocaleEnv : List WChar := wide "OPENCONSOLE_NEW_LOCALE"
def kDryRunEnv : List WChar := wide "OPENCONSOLE_NEW_DRY_RUN"
def kLogLevelEnv : List WChar := wide "OPENCONSOLE_NEW_LOG_LEVEL"
def kLogDirEnv : List WChar := wide "OPENCONSOLE_NEW_LOG_DIR"
def kLegacyLogFileEnv : List WChar := wide "OPENCONSOLE_NEW_LOG_FILE"
def kEnableFileLoggingEnv : List WChar := wide "OPENCONSOLE_NEW_ENABLE_FILE_LOGGING"
def kBreakOnStartEnv : List WChar := wide "OPENCONSOLE_NEW_BREAK_ON_START"
def kDebugSinkEnv : List WChar := wide "OPENCONSOLE_NEW_DEBUG_SINK"
def kPreferPtyEnv : List WChar := wide "OPENCONSOLE_NEW_PREFER_PTY"
def kHoldOnExitEnv : List WChar := wide "OPENCONSOLE_NEW_HOLD_ON_EXIT"
def kEmbeddingPassthroughEnv : List WChar := wide "OPENCONSOLE_NEW_ALLOW_EMBEDDING_PASSTHROUGH"
def kLegacyPathEnv : List WChar := wide "OPENCONSOLE_NEW_ENABLE_LEGACY_PATH"
def kEmbeddingWaitEnv : List WChar := wide "OPENCONSOLE_NEW_EMBEDDING_WAIT_MS"

/-- What the system answers about a path: an error of one of the calls, or the bytes of the
file -/
inductive FileAccess where
  | unopened (error : UInt32)
  | unsized (error : UInt32)
  | unread (error : UInt32)
  | contents (bytes : List Byte)

/-- The system at startup: the values of the environment variables that exist, and the files -/
structure System where
  platform : Platform
  environment : List WChar → Option (List WChar)
  file : List WChar → FileAccess

def isTrimmed (ch : WChar) : Bool := ch == wc ' ' || ch == wc '\t' || ch == 13 || ch == 10

/-- `trim` -/
def trim (value : List WChar) : List WChar :=
  ((value.dropWhile isTrimmed).reverse.dropWhile isTrimmed).reverse

/-- `parse_log_level` -/
def parseLogLevel (text : List WChar) : LogLevel :=
  if text = wide "trace" then .trace
  else if text = wide "debug" then .debug
  else if text = wide "warning" then .warning
  else if text = wide "error" then .error
  else .info

/-- `parse_bool` -/
def parseBool (text : List WChar) : Bool :=
  text == wide "1" || text == wide "true" || text == wide "TRUE" || text == wide "on" ||
    text == wide "ON"

/-- `parse_dword_or_default` -/
def parseDwordOrDefault (text : List WChar) (fallback : UInt32) : UInt32 :=
  match FastNumber.Machine.parseU32 text with
  | .error _ => fallback
  | .ok parsed => parsed

/-- `read_environment`: a variable without a value is as good as none. -/
def System.readEnvironment (system : System) (name : List WChar) : Option (List WChar) :=
  match system.environment name with
  | none => none
  | some value => if value = [] then none else some value

def maxFileSize : Nat := 2 * 1024 * 1024

def errorFileNotFound : UInt32 := 2
def errorPathNotFound : UInt32 := 3
def errorBadFormat : UInt32 := 11
def errorFileTooLarge : UInt32 := 223
def errorNoUnicodeTranslation : UInt32 := 1113

/-- The words of a little-endian text; half a word at the end is dropped. -/
def littleEndianWords : List Byte → List WChar
  | low :: high :: bytes => (low.toUInt16 ||| high.toUInt16 <<< 8) :: littleEndianWords bytes
  | _ => []

/-- `read_config_file` -/
def System.readConfigFile (system : System) (path : List WChar) :
    Except ConfigError (List WChar) :=
  match system.file path with
  | .unopened error => .error ⟨"CreateFileW failed for config path", error⟩
  | .unsized error => .error ⟨"GetFileSizeEx failed for config path", error⟩
  | .unread error => .error ⟨"ReadFile failed for config path", error⟩
  | .contents bytes =>
      if bytes.length > maxFileSize then .error ⟨"Config file size is invalid", errorFileTooLarge⟩
      else
        match bytes with
        | 0xff :: 0xfe :: text => .ok (littleEndianWords text)
        | [] => .ok []
        | bytes =>
            match system.platform.multiByteToWideChar cpUtf8 true bytes with
            | [] => .error ⟨"Config is not UTF-8/UTF-16LE text", errorNoUnicodeTranslation⟩
            | wide => .ok wide

/-- `append_path_component` -/
def appendPathComponent (base component : List WChar) : List WChar :=
  match base.getLast? with
  | none => component
  | some tail =>
      if tail ≠ wc '\\' ∧ tail ≠ wc '/' then base ++ wc '\\' :: component else base ++ component

/-- `directory_from_path` -/
def directoryFromPath (value : List WChar) : List WChar :=
  let reversed := (trim value).reverse.dropWhile fun ch => ch ≠ wc '\\' && ch ≠ wc '/'
  reversed.tail.reverse

/-- `resolve_default_user_config_path` -/
def System.resolveDefaultUserConfigPath (system : System) : Option (List WChar) :=
  match system.readEnvironment kUserProfileEnv with
  | some userProfile => some (appendPathComponent userProfile kDefaultUserConfigName)
  | none =>
      match system.readEnvironment kHomeEnv with
      | some home => some (appendPathComponent home kDefaultUserConfigName)
      | none =>
          match system.readEnvironment kHomeDriveEnv, system.readEnvironment kHomePathEnv with
          | some homeDrive, some homePath =>
              some (appendPathComponent (homeDrive ++ homePath) kDefaultUserConfigName)
          | _, _ => none

/-- `is_missing_file_error` -/
def isMissingFileError (error : UInt32) : Bool :=
  error == errorFileNotFound || error == errorPathNotFound

/-- `apply_key_value` -/
def applyKeyValue (config : AppConfig) (key value : List WChar) : AppConfig :=
  let key := trim key
  let value := trim value
  if key = wide "locale" then { config with localeOverride := value }
  else if key = wide "dry_run" then { config with dryRun := parseBool value }
  else if key = wide "log_level" then { config with minimumLogLevel := parseLogLevel value }
  else if key = wide "log_dir" then
    { config with logDirectoryPath := value, enableFileLogging := !value.isEmpty }
  else if key = wide "enable_file_logging" ∨ key = wide "file_logging" then
    { config with enableFileLogging := parseBool value }
  else if key = wide "break_on_start" then { config with breakOnStart := parseBool value }
  else if key = wide "debug_sink" then { config with enableDebugSink := parseBool value }
  else if key = wide "prefer_pseudoconsole" then
    { config with preferPseudoconsole := parseBool value }
  else if key = wide "hold_on_exit" ∨ key = wide "hold_window_on_exit" then
    { config with holdWindowOnExit := parseBool value }
  else if key = wide "allow_embedding_passthrough" then
    { config with allowEmbeddingPassthrough := parseBool value }
  else if key = wide "enable_legacy_conhost_path" then
    { config with enableLegacyConhostPath := parseBool value }
  else if key = wide "embedding_wait_timeout_ms" then
    { config with
      embeddingWaitTimeoutMs := parseDwordOrDefault value config.embeddingWaitTimeoutMs }
  else config

/-- The text between line feeds; a line feed at the end begins no line. -/
def lines : List WChar → List (List WChar)
  | [] => []
  | ch :: text =>
      if ch = 10 then [] :: lines text
      else
        match lines text with
        | [] => [[ch]]
        | line :: more => (ch :: line) :: more

/-- An iteration of the loop of `parse_text` -/
def applyLine (config : AppConfig) (line : List WChar) : Except ConfigError AppConfig :=
  let line := trim line
  match line with
  | [] => .ok config
  | first :: _ =>
      if first = wc '#' ∨ first = wc ';' then .ok config
      else if wc '=' ∉ line then .error ⟨"Invalid config line (missing '=')", errorBadFormat⟩
      else
        .ok (applyKeyValue config (line.takeWhile (· ≠ wc '='))
          (line.dropWhile (· ≠ wc '=')).tail)

/-- `ConfigLoader::parse_text` -/
def parseText (text : List WChar) : Except ConfigError AppConfig :=
  (lines text).foldlM applyLine {}

/-- `load_config_file_into` -/
def System.loadConfigFileInto (system : System) (config : AppConfig) (configPath : List WChar)
    (allowMissingFile : Bool) : Except ConfigError AppConfig :=
  match system.readConfigFile configPath with
  | .error error =>
      if allowMissingFile && isMissingFileError error.win32Error then .ok config
      else .error error
  | .ok text => parseText text

/-- A setting that is changed if there is a value -/
def overrideWith (value : Option (List WChar)) (change : AppConfig → List WChar → AppConfig)
    (config : AppConfig) : AppConfig :=
  match value with
  | some value => change config value
  | none => config

/-- The variables that name the directory of the log -/
def System.overrideLogDirectory (system : System) (config : AppConfig) : AppConfig :=
  let set (path : List WChar) : AppConfig :=
    { config with logDirectoryPath := path, enableFileLogging := !path.isEmpty }
  match system.readEnvironment kLogDirEnv with
  | some value => set (trim value)
  | none =>
      match system.readEnvironment kLegacyLogFileEnv with
      | some value => set (directoryFromPath value)
      | none => config

/-- `apply_environment_overrides` -/
def System.applyEnvironmentOverrides (system : System) (config : AppConfig) : AppConfig :=
  let read := system.readEnvironment
  let config := overrideWith (read kLocaleEnv)
    (fun config value => { config with localeOverride := value }) config
  let config := overrideWith (read kDryRunEnv)
    (fun config value => { config with dryRun := parseBool value }) config
  let config := overrideWith (read kLogLevelEnv)
    (fun config value => { config with minimumLogLevel := parseLogLevel value }) config
  let config := system.overrideLogDirectory config
  let config := overrideWith (read kEnableFileLoggingEnv)
    (fun config value => { config with enableFileLogging := parseBool value }) config
  let config := overrideWith (read kBreakOnStartEnv)
    (fun config value => { config with breakOnStart := parseBool value }) config
  let config := overrideWith (read kDebugSinkEnv)
    (fun config value => { config with enableDebugSink := parseBool value }) config
  let config := overrideWith (read kPreferPtyEnv)
    (fun config value => { config with preferPseudoconsole := parseBool value }) config
  let config := overrideWith (read kHoldOnExitEnv)
    (fun config value => { config with holdWindowOnExit := parseBool value }) config
  let config := overrideWith (read kEmbeddingPassthroughEnv)
    (fun config value => { config with allowEmbeddingPassthrough := parseBool value }) config
  let config := overrideWith (read kLegacyPathEnv)
    (fun config value => { config with enableLegacyConhostPath := parseBool value }) config
  overrideWith (read kEmbeddingWaitEnv)
    (fun config value =>
      { config with
        embeddingWaitTimeoutMs := parseDwordOrDefault value config.embeddingWaitTimeoutMs })
    config

/-- `ConfigLoader::load` -/
def System.load (system : System) : Except ConfigError AppConfig :=
  let user :=
    match system.resolveDefaultUserConfigPath with
    | some userConfigPath => system.loadConfigFileInto {} userConfigPath true
    | none => .ok {}
  user.bind fun config =>
    let explicit :=
      match system.readEnvironment kConfigPathEnv with
      | some configPath => system.loadConfigFileInto config configPath false
      | none => .ok config
    explicit.map system.applyEnvironmentOverrides

end Config

end Conhost
