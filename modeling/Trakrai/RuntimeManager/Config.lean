import Mathlib.Data.List.Sort
import Trakrai.Lib.GoPath
import Trakrai.Lib.Json
import Trakrai.Lib.Quote

namespace Trakrai.RuntimeManager
open Lib

def ServiceName : String := "runtime-manager"

def kinds : List String := ["asset", "binary", "wheel", "zip"]

/-- What the manager has of its configuration file, as `LoadConfig` leaves it, and where it runs. -/
structure Settings where
  binaryDir : String
  configDir : String
  logDir : String
  rootDir : String
  scriptDir : String
  stateFile : String
  versionDir : String
  unitDirectory : String
  rootDir_clean : goClean rootDir = rootDir
  /-- The working directory of the manager. -/
  cwd : String
  cwd_rooted : isRooted cwd = true
  /-- `strings.ToLower`. -/
  toLower : String → String
  toLower_kind : ∀ kind ∈ kinds, toLower kind = kind
  print : GoPrint

/-- The environment stands in the order in which the map is read. -/
structure ManagedServiceConfig where
  after : List String := []
  allowControl : Bool := false
  allowUpdate : Bool := false
  core : Bool := false
  description : String := ""
  displayName : String := ""
  enabled : Bool := false
  environment : List (String × String) := []
  environmentFiles : List String := []
  execStart : List String := []
  group : String := ""
  installPath : String := ""
  kind : String := ""
  logPath : String := ""
  name : String := ""
  requires : List String := []
  restart : String := ""
  restartSec : Int := 0
  scriptPath : String := ""
  setupCommand : List String := []
  systemdUnit : String := ""
  user : String := ""
  versionCommand : List String := []
  versionFile : String := ""
  wantedBy : String := ""
  workingDirectory : String := ""
deriving DecidableEq, Repr

def cleanOptionalPath (path : String) : String :=
  if goTrimSpace path = "" then "" else goClean (goTrimSpace path)

def cleanPathList (values : List String) : List String :=
  (values.map cleanOptionalPath).filter (· ≠ "")

def cleanStringList (values : List String) : List String :=
  (values.map goTrimSpace).filter (· ≠ "")

def cleanEnvironmentMap (values : List (String × String)) : List (String × String) :=
  ((values.map fun entry => (goTrimSpace entry.1, goTrimSpace entry.2)).filter (·.1 ≠ "")).foldl
    (fun cleaned entry => setKey cleaned entry.1 entry.2) []

section
variable (cfg : Settings) (service : ManagedServiceConfig)

def cleanKind : String :=
  let kind := cfg.toLower (goTrimSpace service.kind)
  if kind = "" then "binary" else kind

/-- The part of `normalizeManagedService` that trims and cleans what is given. -/
def cleanFields : ManagedServiceConfig :=
  { service with
    name := goTrimSpace service.name
    displayName := if service.displayName = "" then goTrimSpace service.name else service.displayName
    kind := cleanKind cfg service
    description := goTrimSpace service.description
    group := goTrimSpace service.group
    installPath := cleanOptionalPath service.installPath
    logPath := cleanOptionalPath service.logPath
    restart := goTrimSpace service.restart
    scriptPath := cleanOptionalPath service.scriptPath
    systemdUnit := goTrimSpace service.systemdUnit
    user := goTrimSpace service.user
    versionFile := cleanOptionalPath service.versionFile
    wantedBy := goTrimSpace service.wantedBy
    workingDirectory := cleanOptionalPath service.workingDirectory
    after := cleanStringList service.after
    environmentFiles := cleanPathList service.environmentFiles
    execStart := cleanStringList service.execStart
    requires := cleanStringList service.requires
    setupCommand := cleanStringList service.setupCommand
    versionCommand := cleanStringList service.versionCommand
    environment := cleanEnvironmentMap service.environment }

def withInstallPath : ManagedServiceConfig :=
  if service.installPath ≠ "" then service
  else if service.kind = "binary" then
    { service with installPath := goJoin cfg.binaryDir service.name }
  else if service.kind = "asset" ∨ service.kind = "zip" then
    { service with installPath := goJoin cfg.rootDir service.name }
  else service

def defaultWorkingDirectory : String :=
  if service.kind = "binary" ∧ service.installPath ≠ "" then goDir service.installPath else cfg.rootDir

def orDefault (value default : String) : String := if value = "" then default else value

def orNeeded (needed : Bool) (command default : List String) : List String :=
  if command = [] ∧ needed then default else command

def withUnitDefaults : ManagedServiceConfig :=
  if service.execStart ≠ [] then
    { service with
      systemdUnit := orDefault service.systemdUnit ("trakrai-" ++ service.name ++ ".service")
      scriptPath := orDefault service.scriptPath
        (goJoin cfg.scriptDir ("start-" ++ service.name ++ ".sh"))
      logPath := orDefault service.logPath (goJoin cfg.logDir (service.name ++ ".log"))
      versionFile := orDefault service.versionFile (goJoin cfg.versionDir (service.name ++ ".txt"))
      workingDirectory := orDefault service.workingDirectory (defaultWorkingDirectory cfg service)
      restart := orDefault service.restart "always"
      restartSec := if service.restartSec ≤ 0 then 2 else service.restartSec
      wantedBy := orDefault service.wantedBy "multi-user.target"
      after := if service.after = [] then ["network-online.target"] else service.after }
  else
    { service with
      allowControl := false, enabled := false, restart := "", restartSec := 0
      scriptPath := "", systemdUnit := "" }

def withCommandDefaults : ManagedServiceConfig :=
  { service with
    versionCommand := orNeeded (service.kind == "binary" && service.installPath != "")
      service.versionCommand ["\x7b\x7binstall_path\x7d\x7d", "--version"]
    setupCommand := orNeeded (service.kind == "wheel" && service.allowUpdate) service.setupCommand
      ["python3", "-m", "pip", "install", "--no-deps", "--force-reinstall",
        "\x7b\x7bartifact_path\x7d\x7d"] }

def checkService : Except String Unit :=
  if service.allowControl ∧ service.execStart = [] then .error "allow_control requires exec_start"
  else if service.allowUpdate ∧ service.kind = "binary" ∧ service.installPath = "" then
    .error "install_path is required for binary updates"
  else if service.allowUpdate ∧ (service.kind = "asset" ∨ service.kind = "zip") ∧
      service.installPath = "" then
    .error "install_path is required for zip updates"
  else if service.allowUpdate ∧ service.kind = "wheel" ∧ service.setupCommand = [] then
    .error "setup_command is required for wheel updates"
  else if service.execStart ≠ [] ∧ service.versionCommand = [] then
    .error ("version_command is required for systemd-managed " ++ service.kind ++ " services")
  else .ok ()

def withDefaults : ManagedServiceConfig :=
  withCommandDefaults (withUnitDefaults cfg (withInstallPath cfg (cleanFields cfg service)))

def normalizeManagedService : Except String ManagedServiceConfig :=
  if goTrimSpace service.name = "" then .error "name is required"
  else if cleanKind cfg service ∉ kinds then
    .error ("kind " ++ goQuote cfg.print (cleanKind cfg service) ++ " is not supported")
  else (checkService (withDefaults cfg service)).map fun _ => withDefaults cfg service

end

def normalizeFrom (cfg : Settings) (index : Nat) (seen : List String) :
    List ManagedServiceConfig → Except String (List ManagedServiceConfig)
  | [] => .ok []
  | service :: rest =>
    match normalizeManagedService cfg service with
    | .error error => .error ("services[" ++ toString index ++ "]: " ++ error)
    | .ok service =>
      if cfg.toLower service.name ∈ seen then
        .error ("duplicate managed service " ++ goQuote cfg.print service.name)
      else
        (normalizeFrom cfg (index + 1) (cfg.toLower service.name :: seen) rest).map (service :: ·)

def sortByName (services : List ManagedServiceConfig) : List ManagedServiceConfig :=
  services.insertionSort fun a b => a.name ≤ b.name

def normalizeManagedServices (cfg : Settings) (services : List ManagedServiceConfig) :
    Except String (List ManagedServiceConfig) :=
  (normalizeFrom cfg 0 [] services).map sortByName

/-- The configuration. `LoadConfig` has normalized its services. -/
structure Config extends Settings where
  services : List ManagedServiceConfig
  normalized : ∃ raw, normalizeManagedServices toSettings raw = .ok services

def ManagedServiceConfig.paths (service : ManagedServiceConfig) : List String :=
  [service.installPath, service.logPath, service.scriptPath, service.versionFile,
    service.workingDirectory] ++ service.environmentFiles

theorem ManagedServiceConfig.mem_paths {service : ManagedServiceConfig} :
    path ∈ service.paths ↔ path = service.installPath ∨ path = service.logPath ∨
      path = service.scriptPath ∨ path = service.versionFile ∨ path = service.workingDirectory ∨
      path ∈ service.environmentFiles := by
  simp [ManagedServiceConfig.paths]

/-- No path of a definition begins or ends with white space. -/
def ManagedServiceConfig.Trimmed (service : ManagedServiceConfig) : Prop :=
  ∀ path ∈ service.paths, goTrimSpace path = path

instance (service : ManagedServiceConfig) : Decidable service.Trimmed :=
  inferInstanceAs (Decidable (∀ path ∈ service.paths, goTrimSpace path = path))

end Trakrai.RuntimeManager
