import Conhost.Config.AppConfig
import Conhost.Lib.Layer

/-!
# Where a setting comes from

Each source of the configuration is a layer over the defaults: the settings it mentions and their
values. The environment is applied over the configuration it finds. A file is not: it is parsed
over the defaults, and the result takes the place of the configuration, so a file that the
environment names hides what the user's file says.
-/

namespace Conhost

namespace Config

open Cli (wide)

/-- The settings of an `AppConfig` -/
inductive Setting where
  | minimumLogLevel
  | localeOverride
  | dryRun
  | enableDebugSink
  | enableFileLogging
  | logDirectoryPath
  | breakOnStart
  | preferPseudoconsole
  | holdWindowOnExit
  | allowEmbeddingPassthrough
  | enableLegacyConhostPath
  | embeddingWaitTimeoutMs
deriving DecidableEq

inductive SettingValue where
  | level (value : LogLevel)
  | text (value : List WChar)
  | flag (value : Bool)
  | number (value : UInt32)
deriving DecidableEq

def AppConfig.value (config : AppConfig) : Setting → SettingValue
  | .minimumLogLevel => .level config.minimumLogLevel
  | .localeOverride => .text config.localeOverride
  | .dryRun => .flag config.dryRun
  | .enableDebugSink => .flag config.enableDebugSink
  | .enableFileLogging => .flag config.enableFileLogging
  | .logDirectoryPath => .text config.logDirectoryPath
  | .breakOnStart => .flag config.breakOnStart
  | .preferPseudoconsole => .flag config.preferPseudoconsole
  | .holdWindowOnExit => .flag config.holdWindowOnExit
  | .allowEmbeddingPassthrough => .flag config.allowEmbeddingPassthrough
  | .enableLegacyConhostPath => .flag config.enableLegacyConhostPath
  | .embeddingWaitTimeoutMs => .number config.embeddingWaitTimeoutMs

abbrev Source := Layer Setting SettingValue

def flagSource (setting : Setting) (value : List WChar) : Source :=
  .single setting (.flag (parseBool value))

/-- A directory for the log also says whether there is one. -/
def logDirectorySource (path : List WChar) : Source :=
  Layer.atop (.single .enableFileLogging (.flag !path.isEmpty))
    (.single .logDirectoryPath (.text path))

/-- What is no number sets nothing. -/
def waitSource (value : List WChar) : Source :=
  match FastNumber.Machine.parseU32 value with
  | .ok parsed => .single .embeddingWaitTimeoutMs (.number parsed)
  | .error _ => .empty

/-- What a key of a file says -/
def keySource (key value : List WChar) : Source :=
  let key := trim key
  let value := trim value
  if key = wide "locale" then .single .localeOverride (.text value)
  else if key = wide "dry_run" then flagSource .dryRun value
  else if key = wide "log_level" then .single .minimumLogLevel (.level (parseLogLevel value))
  else if key = wide "log_dir" then logDirectorySource value
  else if key = wide "enable_file_logging" ∨ key = wide "file_logging" then
    flagSource .enableFileLogging value
  else if key = wide "break_on_start" then flagSource .breakOnStart value
  else if key = wide "debug_sink" then flagSource .enableDebugSink value
  else if key = wide "prefer_pseudoconsole" then flagSource .preferPseudoconsole value
  else if key = wide "hold_on_exit" ∨ key = wide "hold_window_on_exit" then
    flagSource .holdWindowOnExit value
  else if key = wide "allow_embedding_passthrough" then
    flagSource .allowEmbeddingPassthrough value
  else if key = wide "enable_legacy_conhost_path" then flagSource .enableLegacyConhostPath value
  else if key = wide "embedding_wait_timeout_ms" then waitSource value
  else .empty

/-- What a line of a file says -/
def lineSource (line : List WChar) : Source :=
  let line := trim line
  match line with
  | [] => .empty
  | first :: _ =>
      if first = wc '#' ∨ first = wc ';' ∨ wc '=' ∉ line then .empty
      else keySource (line.takeWhile (· ≠ wc '=')) (line.dropWhile (· ≠ wc '=')).tail

/-- What the text of a file says, a later line over an earlier one -/
def textSource (text : List WChar) : Source :=
  (lines text).foldl (fun source line => (lineSource line).atop source) .empty

namespace System

variable (system : System)

/-- What a variable says, if it has a value -/
def variableSource (name : List WChar) (source : List WChar → Source) : Source :=
  match system.readEnvironment name with
  | some value => source value
  | none => .empty

/-- What the variables for the directory of the log say -/
def directorySource : Source :=
  match system.readEnvironment kLogDirEnv with
  | some value => logDirectorySource (trim value)
  | none => system.variableSource kLegacyLogFileEnv (logDirectorySource <| directoryFromPath ·)

/-- What the environment variables say -/
def environmentSource : Source :=
  Layer.atop (system.variableSource kEmbeddingWaitEnv waitSource) <|
  Layer.atop (system.variableSource kLegacyPathEnv (flagSource .enableLegacyConhostPath)) <|
  Layer.atop
    (system.variableSource kEmbeddingPassthroughEnv (flagSource .allowEmbeddingPassthrough)) <|
  Layer.atop (system.variableSource kHoldOnExitEnv (flagSource .holdWindowOnExit)) <|
  Layer.atop (system.variableSource kPreferPtyEnv (flagSource .preferPseudoconsole)) <|
  Layer.atop (system.variableSource kDebugSinkEnv (flagSource .enableDebugSink)) <|
  Layer.atop (system.variableSource kBreakOnStartEnv (flagSource .breakOnStart)) <|
  Layer.atop (system.variableSource kEnableFileLoggingEnv (flagSource .enableFileLogging)) <|
  Layer.atop system.directorySource <|
  Layer.atop (system.variableSource kLogLevelEnv
    fun value => .single .minimumLogLevel (.level (parseLogLevel value))) <|
  Layer.atop (system.variableSource kDryRunEnv (flagSource .dryRun)) <|
  system.variableSource kLocaleEnv fun value => .single .localeOverride (.text value)

/-- What a file says, if it can be read -/
def fileSource (path : List WChar) : Source :=
  match system.readConfigFile path with
  | .ok text => textSource text
  | .error _ => .empty

/-- What the user's file says -/
def userSource : Source :=
  match system.resolveDefaultUserConfigPath with
  | some path => system.fileSource path
  | none => .empty

/-- What the file says that the environment names, if it names one -/
def explicitSource : Option Source :=
  (system.readEnvironment kConfigPathEnv).map system.fileSource

/-- The value of a setting by the last source that sets it -/
def expected : Setting → SettingValue :=
  (Layer.atop system.environmentSource
    (Layer.atop (system.explicitSource.getD .empty) system.userSource)).applyTo
      ({} : AppConfig).value

end System

/-- A change that applies a source to every configuration -/
def Applies (change : AppConfig → AppConfig) (source : Source) : Prop :=
  ∀ config, (change config).value = source.applyTo config.value

namespace Applies

variable {change first second : AppConfig → AppConfig} {source earlier later : Source}

theorem id : Applies (fun config => config) .empty := fun _ => rfl

theorem of_values
    (set : ∀ config setting, (change config).value setting =
      source.applyTo config.value setting) : Applies change source :=
  fun config => funext (set config)

theorem ite {condition : Prop} [Decidable condition] (applies : Applies first earlier)
    (applies' : Applies second later) :
    Applies (fun config => if condition then first config else second config)
      (if condition then earlier else later) := by
  split
  · exact applies
  · exact applies'

/-- A change that is made if a variable has a value -/
theorem overrideWith {system : System} {name : List WChar} {source : List WChar → Source}
    {change : AppConfig → List WChar → AppConfig}
    (applies : ∀ value, Applies (fun config => change config value) (source value)) :
    Applies (Config.overrideWith (system.readEnvironment name) change)
      (system.variableSource name source) := by
  unfold Config.overrideWith System.variableSource
  cases system.readEnvironment name with
  | none => exact .id
  | some value => exact applies value

end Applies

theorem applies_wait (value : List WChar) :
    Applies (fun config => { config with
      embeddingWaitTimeoutMs := parseDwordOrDefault value config.embeddingWaitTimeoutMs })
      (waitSource value) := by
  unfold parseDwordOrDefault waitSource
  cases FastNumber.Machine.parseU32 value with
  | error code => exact .id
  | ok parsed =>
      intro config
      funext setting
      cases setting <;> rfl

theorem applies_logDirectory (path : List WChar) :
    Applies (fun config => { config with
      logDirectoryPath := path, enableFileLogging := !path.isEmpty })
      (logDirectorySource path) := by
  intro config
  funext setting
  cases setting <;> rfl

theorem applies_keyValue (key value : List WChar) :
    Applies (applyKeyValue · key value) (keySource key value) := by
  refine .ite (.of_values fun config setting => ?_) <| .ite (.of_values fun config setting => ?_) <|
    .ite (.of_values fun config setting => ?_) <| .ite (applies_logDirectory (trim value)) <|
    .ite (.of_values fun config setting => ?_) <| .ite (.of_values fun config setting => ?_) <|
    .ite (.of_values fun config setting => ?_) <| .ite (.of_values fun config setting => ?_) <|
    .ite (.of_values fun config setting => ?_) <| .ite (.of_values fun config setting => ?_) <|
    .ite (.of_values fun config setting => ?_) <| .ite (applies_wait (trim value)) .id
  all_goals cases setting <;> rfl

/-- A line of a file that is read -/
theorem applyLine_value {config next : AppConfig} {line : List WChar}
    (applied : applyLine config line = .ok next) :
    next.value = (lineSource line).applyTo config.value := by
  unfold applyLine at applied
  unfold lineSource
  generalize trim line = trimmed at applied ⊢
  cases trimmed with
  | nil =>
      cases applied
      rfl
  | cons first rest =>
      simp only at applied ⊢
      split at applied
      · rename_i comment
        cases applied
        rw [if_pos (comment.imp_right .inl)]
        rfl
      · rename_i noComment
        split at applied
        · cases applied
        · rename_i separated
          cases applied
          rw [if_neg (by tauto)]
          exact applies_keyValue _ _ config

theorem foldlM_applyLine {base : Setting → SettingValue} (texts : List (List WChar))
    {config last : AppConfig} {source : Source} (before : config.value = source.applyTo base)
    (applied : texts.foldlM applyLine config = .ok last) :
    last.value = (texts.foldl (fun source line => (lineSource line).atop source) source).applyTo
      base := by
  induction texts generalizing config source with
  | nil =>
      cases applied
      exact before
  | cons line later ih =>
      rw [List.foldlM_cons] at applied
      cases first : applyLine config line with
      | error error =>
          rw [first] at applied
          cases applied
      | ok next =>
          rw [first] at applied
          refine ih ?_ applied
          rw [Layer.atop_applyTo, ← before]
          exact applyLine_value first

/-- What is read from a file is what it says over the defaults. -/
theorem parseText_value {text : List WChar} {config : AppConfig}
    (parsed : parseText text = .ok config) :
    config.value = (textSource text).applyTo ({} : AppConfig).value :=
  foldlM_applyLine (lines text) rfl parsed

theorem applies_environment (system : System) :
    Applies system.applyEnvironmentOverrides system.environmentSource := by
  have directory : Applies system.overrideLogDirectory system.directorySource := by
    unfold System.overrideLogDirectory System.directorySource System.variableSource
    cases system.readEnvironment kLogDirEnv with
    | some value => exact applies_logDirectory _
    | none =>
        cases system.readEnvironment kLegacyLogFileEnv with
        | some value => exact applies_logDirectory _
        | none => exact .id
  intro config
  simp only [System.environmentSource, Layer.atop_applyTo]
  -- From the last variable to the first one
  refine (Applies.overrideWith applies_wait _).trans (congrArg _ ?_)
  iterate 7
    refine (Applies.overrideWith (fun value => .of_values fun config setting => by
      cases setting <;> rfl) _).trans (congrArg _ ?_)
  refine (directory _).trans (congrArg _ ?_)
  iterate 2
    refine (Applies.overrideWith (fun value => .of_values fun config setting => by
      cases setting <;> rfl) _).trans (congrArg _ ?_)
  exact Applies.overrideWith (fun value => .of_values fun config setting => by
    cases setting <;> rfl) _

variable {system : System} {config : AppConfig}

theorem loadConfigFileInto_user (path : List WChar)
    (loaded : system.loadConfigFileInto {} path true = .ok config) :
    config.value = (system.fileSource path).applyTo ({} : AppConfig).value := by
  unfold System.loadConfigFileInto at loaded
  unfold System.fileSource
  cases read : system.readConfigFile path with
  | ok text =>
      rw [read] at loaded
      exact parseText_value loaded
  | error error =>
      rw [read] at loaded
      simp only at loaded
      split at loaded
      · cases loaded
        rfl
      · cases loaded

/-- The file that the environment names takes the place of what was loaded before. -/
theorem loadConfigFileInto_explicit {before : AppConfig} (path : List WChar)
    (loaded : system.loadConfigFileInto before path false = .ok config) :
    config.value = (system.fileSource path).applyTo ({} : AppConfig).value := by
  unfold System.loadConfigFileInto at loaded
  unfold System.fileSource
  cases read : system.readConfigFile path with
  | ok text =>
      rw [read] at loaded
      exact parseText_value loaded
  | error error =>
      rw [read] at loaded
      cases loaded

theorem exists_of_bind_ok {ε α β : Type} {first : Except ε α} {second : α → Except ε β} {last : β}
    (succeeds : first.bind second = .ok last) :
    ∃ middle, first = .ok middle ∧ second middle = .ok last := by
  cases first with
  | error error => cases succeeds
  | ok middle => exact ⟨middle, rfl, succeeds⟩

/-- What `load` returns: the environment over one of the files -/
theorem load_value (loaded : system.load = .ok config) :
    config.value = (Layer.atop system.environmentSource
      (system.explicitSource.getD system.userSource)).applyTo ({} : AppConfig).value := by
  unfold System.load at loaded
  obtain ⟨user, fromUser, rest⟩ := exists_of_bind_ok loaded
  have userValue : user.value = system.userSource.applyTo ({} : AppConfig).value := by
    unfold System.userSource
    cases path : system.resolveDefaultUserConfigPath with
    | none =>
        rw [path] at fromUser
        cases fromUser
        rfl
    | some path' =>
        rw [path] at fromUser
        exact loadConfigFileInto_user path' fromUser
  rw [Layer.atop_applyTo]
  unfold System.explicitSource
  cases named : system.readEnvironment kConfigPathEnv with
  | none =>
      rw [named] at rest
      cases rest
      rw [applies_environment, userValue]
      rfl
  | some path =>
      rw [named] at rest
      simp only at rest
      cases explicit : system.loadConfigFileInto user path false with
      | error error =>
          rw [explicit] at rest
          cases rest
      | ok fromFile =>
          rw [explicit] at rest
          cases rest
          rw [applies_environment, loadConfigFileInto_explicit path explicit]
          rfl

/-- Every setting has the value of the last source that sets it if and only if the user's file
sets nothing to a value of its own that the file named by the environment, if there is one, and
the variables leave alone. -/
theorem load_expected_iff (system : System) (config : AppConfig)
    (loaded : system.load = .ok config) :
    (∀ setting, config.value setting = system.expected setting) ↔
      ∀ explicit, system.explicitSource = some explicit → ∀ setting,
        (system.environmentSource setting).isSome ∨ (explicit setting).isSome ∨
          system.userSource setting = none ∨
          system.userSource setting = some (({} : AppConfig).value setting) := by
  rw [load_value loaded]
  unfold System.expected
  cases system.explicitSource with
  | none => simp
  | some explicit =>
      simp only [Option.getD_some, Option.some.injEq, forall_eq']
      refine forall_congr' fun setting => ?_
      rw [← Layer.atop_assoc, Layer.applyTo_without_iff, Layer.isSome_atop, or_assoc]

/-- A system with a user's file and perhaps a file that the environment names, both in ASCII -/
def twoFiles (user : String) (explicit : Option String) : System where
  platform :=
    { isDbcsLeadByteEx := fun _ _ => false
      multiByteToWideChar := fun _ _ bytes => bytes.map (·.toUInt16)
      wideCharToMultiByte := fun _ units => units.map (·.toUInt8) }
  environment name :=
    if name = kUserProfileEnv then some (wide "C:\\u")
    else if name = kConfigPathEnv then explicit.map fun _ => wide "C:\\x"
    else none
  file path :=
    let contents (text : String) : FileAccess := .contents ((wide text).map (·.toUInt8))
    if path = wide "C:\\u\\.conhost" then contents user
    else
      match explicit with
      | some text => if path = wide "C:\\x" then contents text else .unopened errorFileNotFound
      | none => .unopened errorFileNotFound

theorem load_expected_userFile :
    (twoFiles "dry_run=1" none).load = .ok { dryRun := true } ∧
      ({ dryRun := true } : AppConfig).value .dryRun =
        (twoFiles "dry_run=1" none).expected .dryRun := by
  have loaded : (twoFiles "dry_run=1" none).load = .ok { dryRun := true } := rfl
  refine ⟨loaded, ?_⟩
  apply (load_expected_iff (twoFiles "dry_run=1" none) { dryRun := true } loaded).mpr
  intro explicit named
  cases named

/-- A file that sets only the locale undoes what the user's file says of `dry_run`. -/
theorem load_forgets_userFile :
    (twoFiles "dry_run=1" (some "locale=en-US")).load =
        .ok { localeOverride := wide "en-US" } ∧
      ({ localeOverride := wide "en-US" } : AppConfig).value .dryRun ≠
        (twoFiles "dry_run=1" (some "locale=en-US")).expected .dryRun := by
  refine ⟨rfl, ?_⟩
  decide

end Config

end Conhost
