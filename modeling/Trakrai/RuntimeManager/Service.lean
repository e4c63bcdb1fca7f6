import Trakrai.Lib.FileSystem
import Trakrai.Lib.Transition
import Trakrai.RuntimeManager.Normalization

namespace Trakrai.RuntimeManager
open List Lib Process

/-- The registry of the manager, by the names in lower case. -/
structure Registry (cfg : Settings) where
  entries : List (String × ManagedServiceConfig)
  keyed : ∀ entry ∈ entries, entry.1 = cfg.toLower entry.2.name
  nodup : (entries.map Prod.fst).Nodup

namespace Registry
variable {cfg : Settings}

def empty : Registry cfg := ⟨[], nofun, nodup_nil⟩

section
variable (registry : Registry cfg)

/-- `listManagedServices`. -/
def list : List ManagedServiceConfig :=
  sortByName (registry.entries.map Prod.snd)

/-- `lookupServiceOptional`. -/
def lookup (name : String) : Option ManagedServiceConfig :=
  registry.entries.lookup (cfg.toLower (goTrimSpace name))

theorem keyed_setKey
    (h : ∀ entry ∈ fields, entry.1 = cfg.toLower entry.2.name) (service : ManagedServiceConfig) :
    ∀ entry ∈ setKey fields (cfg.toLower service.name) service,
      entry.1 = cfg.toLower entry.2.name := by
  intro entry he
  have hfold : entry ∈ [(cfg.toLower service.name, service)].foldl
      (fun cleaned entry => setKey cleaned entry.1 entry.2) fields := he
  exact forall_foldl_setKey h (forall_mem_singleton.2 rfl) entry hfold

/-- `storeManagedService`. -/
def store (service : ManagedServiceConfig) : Registry cfg where
  entries := setKey registry.entries (cfg.toLower service.name) service
  keyed := keyed_setKey registry.keyed service
  nodup := nodup_setKey registry.nodup _ _

/-- `deleteManagedService`. -/
def delete (name : String) : Registry cfg where
  entries := registry.entries.filter (·.1 ≠ cfg.toLower (goTrimSpace name))
  keyed := fun entry he => registry.keyed entry (mem_filter.1 he).1
  nodup := registry.nodup.sublist (filter_sublist.map _)

end

/-- The registry that `NewService` builds. -/
def ofServices (cfg : Settings) (services : List ManagedServiceConfig) : Registry cfg :=
  services.foldl store empty

section
variable {registry : Registry cfg}

theorem mem_list {service : ManagedServiceConfig} :
    service ∈ registry.list ↔ (cfg.toLower service.name, service) ∈ registry.entries := by
  rw [list, (sortByName_perm _).mem_iff, mem_map]
  constructor
  · rintro ⟨entry, he, rfl⟩
    rw [← registry.keyed entry he]
    exact he
  · intro he
    exact ⟨_, he, rfl⟩

theorem nodup_keys (registry : Registry cfg) : (keys cfg registry.list).Nodup := by
  have hkeys : keys cfg (registry.entries.map Prod.snd) = registry.entries.map Prod.fst := by
    rw [keys, map_map]
    exact map_congr_left fun entry he => (registry.keyed entry he).symm
  have hperm : (keys cfg registry.list).Perm (keys cfg (registry.entries.map Prod.snd)) :=
    (sortByName_perm _).map _
  rw [hperm.nodup_iff, hkeys]
  exact registry.nodup

theorem eq_of_key {a b : ManagedServiceConfig} (ha : a ∈ registry.list)
    (hb : b ∈ registry.list) (hkey : cfg.toLower a.name = cfg.toLower b.name) : a = b := by
  have hla := lookup_of_mem registry.nodup (mem_list.1 ha)
  have hlb := lookup_of_mem registry.nodup (mem_list.1 hb)
  rw [hkey, hlb, Option.some.injEq] at hla
  exact hla.symm

theorem lookup_eq_some_iff {name : String}
    {service : ManagedServiceConfig} :
    registry.lookup name = some service ↔
      service ∈ registry.list ∧ cfg.toLower service.name = cfg.toLower (goTrimSpace name) := by
  rw [mem_list, lookup]
  constructor
  · intro h
    have he := mem_of_lookup h
    have hkey := registry.keyed _ he
    exact ⟨hkey ▸ he, hkey.symm⟩
  · rintro ⟨he, hkey⟩
    exact lookup_of_mem registry.nodup (hkey ▸ he)

theorem mem_store {service other : ManagedServiceConfig} :
    other ∈ (registry.store service).list ↔ other = service ∨
      (other ∈ registry.list ∧ cfg.toLower other.name ≠ cfg.toLower service.name) := by
  have hmem {registry : Registry cfg} {other : ManagedServiceConfig} : other ∈ registry.list ↔
      registry.entries.lookup (cfg.toLower other.name) = some other := by
    rw [mem_list]
    exact ⟨lookup_of_mem registry.nodup, mem_of_lookup⟩
  rw [hmem, hmem, store, lookup_setKey]
  by_cases hkey : cfg.toLower other.name = cfg.toLower service.name
  · simp only [hkey, if_true, Option.some.injEq, ne_eq, not_true, and_false, or_false]
    exact eq_comm
  · rw [if_neg hkey]
    constructor
    · exact fun h => .inr ⟨h, hkey⟩
    · rintro (rfl | h)
      · exact absurd rfl hkey
      · exact h.1

theorem mem_delete {name : String} {other : ManagedServiceConfig} :
    other ∈ (registry.delete name).list ↔
      other ∈ registry.list ∧ cfg.toLower other.name ≠ cfg.toLower (goTrimSpace name) := by
  rw [mem_list, mem_list, delete, mem_filter]
  simp

theorem list_store_of_mem {service : ManagedServiceConfig}
    (h : service ∈ registry.list) : (registry.store service).list = registry.list := by
  have hentry := mem_list.1 h
  have hany : registry.entries.any (·.1 == cfg.toLower service.name) :=
    any_key_iff.2 ⟨_, hentry, rfl⟩
  have hset : registry.entries.map
      (setWhere Prod.fst (cfg.toLower service.name) fun entry => (entry.1, service)) =
        registry.entries := by
    conv_rhs => rw [← map_id registry.entries]
    apply map_congr_left
    intro entry he
    rw [setWhere]
    split
    · rename_i hkey
      have hlookup := lookup_of_mem registry.nodup he
      rw [hkey, lookup_of_mem registry.nodup hentry, Option.some.injEq] at hlookup
      exact Prod.ext rfl hlookup
    · rfl
  have hentries : (registry.store service).entries = registry.entries := by
    change setKey registry.entries (cfg.toLower service.name) service = registry.entries
    rw [setKey, if_pos hany, hset]
  exact congrArg (fun entries => sortByName (entries.map Prod.snd)) hentries

theorem list_delete_of_lookup {name : String}
    (h : registry.lookup name = none) : (registry.delete name).list = registry.list := by
  have hfilter : registry.entries.filter (·.1 ≠ cfg.toLower (goTrimSpace name)) = registry.entries := by
    rw [filter_eq_self]
    intro entry he
    rw [decide_eq_true_iff]
    intro hkey
    rw [lookup, ← hkey, lookup_of_mem registry.nodup he] at h
    cases h
  exact congrArg (fun entries => sortByName (entries.map Prod.snd)) hfilter

end

theorem list_ofServices (hkeys : (keys cfg services).Nodup) (horder : InOrder services): (ofServices cfg services).list = services := by
  have hfold (services : List ManagedServiceConfig) (registry : Registry cfg)
      (h : (registry.entries.map Prod.fst ++ keys cfg services).Nodup) :
      (services.foldl store registry).entries =
        registry.entries ++ services.map fun service => (cfg.toLower service.name, service) := by
    induction services generalizing registry with
    | nil => simp
    | cons service services ih =>
      have hnew : ¬ registry.entries.any (·.1 == cfg.toLower service.name) := by
        rw [any_key_iff]
        rintro ⟨entry, he, hkey⟩
        rw [nodup_append] at h
        exact h.2.2 entry.1 (mem_map_of_mem he) _ (mem_cons_self ..) hkey
      have hentries : (registry.store service).entries =
          registry.entries ++ [(cfg.toLower service.name, service)] := by
        change setKey registry.entries (cfg.toLower service.name) service = _
        rw [setKey, if_neg hnew]
      have hnext : ((registry.store service).entries.map Prod.fst ++ keys cfg services).Nodup := by
        rw [hentries, map_append, append_assoc]
        exact h
      rw [foldl_cons, ih _ hnext, hentries, append_assoc]
      rfl
  rw [list, ofServices, hfold services empty (by simpa [empty] using hkeys)]
  simp only [empty, nil_append, map_map]
  exact (congrArg sortByName (map_id services)).trans horder.sortByName_eq

end Registry

inductive Content where
  /-- The text of an object with a list of services. -/
  | state (services : List ManagedServiceConfig)
  /-- The text of a list of services. -/
  | legacy (services : List ManagedServiceConfig)
  | blank
  | script (service : ManagedServiceConfig)
  | unit (service : ManagedServiceConfig)
  | versionRecord (serviceName summary : String)
  | other (text : String)
deriving DecidableEq

/-- What `loadManagedServicesFromState` makes of the state file, and whether the services are those
of the configuration. -/
def loadManagedServicesFromState (cfg : Config) :
    Option Content → Except String (List ManagedServiceConfig × Bool)
  | none => .ok (cfg.services, true)
  | some .blank => .ok ([], false)
  | some (.state services) | some (.legacy services) =>
    (normalizeManagedServices cfg.toSettings services).map (·, false)
  | some _ => .error ("parse managed service state " ++ goQuote cfg.print cfg.stateFile)

/-- What the manager meets outside during a command: the calls that fail, the version that the
version file or the version command of the service tells, whether the unit is active, and what the
archive of an update holds. -/
structure Outside where
  faults : Nat → List String → Option (Fault Content) := fun _ _ => none
  version : Option String := none
  active : Bool := false
  archive : Except String (List String → Option Content) := .ok fun _ => none

abbrev Step (cfg : Config) := Process Content (Registry cfg.toSettings)

section
variable (cfg : Config)

def Config.at (path : String) : List String := locate cfg.cwd path

def Config.stateAt : List String := cfg.at cfg.stateFile

def systemdUnitPath (unit : String) : String := goJoin cfg.unitDirectory unit

def versionRecordPath (serviceName : String) : String :=
  goJoin cfg.versionDir (serviceName ++ ".json")

def removeFileIfExists (path : String) : Step cfg Unit :=
  onlyIf (path ≠ "") (remove (cfg.at path))

def saveManagedServices : Step cfg Unit := do
  let registry ← load
  context "write managed service state: " (replace cfg.stateAt (.state registry.list))

/-- The calls of `systemctl`, and `systemctl daemon-reload`. -/
def systemctl : Step cfg Unit := run

def makeParent (path : String) : Step cfg Unit := check (cfg.at (goDir path))

def makeParentIf (path text : String) : Step cfg Unit :=
  onlyIf (path ≠ "") (context text (makeParent cfg path))

section
variable (service : ManagedServiceConfig)

def switchUnit : Step cfg Unit :=
  if service.enabled then context ("enable " ++ service.systemdUnit ++ ": ") (systemctl cfg)
  else attempt (systemctl cfg)

def writeWrapperScript : Step cfg Unit :=
  if service.scriptPath = "" then
    Process.ofExcept (.error ("render wrapper script for " ++ service.name ++ ": script_path is required"))
  else
    context ("write wrapper script for " ++ service.name ++ ": ")
      (replace (cfg.at service.scriptPath) (.script service))

def writeUnit : Step cfg Unit := do
  writeWrapperScript cfg service
  context ("write systemd unit for " ++ service.name ++ ": ")
    (replace (cfg.at (systemdUnitPath cfg service.systemdUnit)) (.unit service))
  context ("daemon-reload after updating " ++ service.name ++ ": ") (systemctl cfg)
  switchUnit cfg service

def reconcileServiceDefinition : Step cfg Unit :=
  onlyIf (service.execStart ≠ []) do
    makeParentIf cfg service.logPath ("create log directory for " ++ service.name ++ ": ")
    makeParentIf cfg service.versionFile ("create version directory for " ++ service.name ++ ": ")
    makeParentIf cfg service.scriptPath ("create script directory for " ++ service.name ++ ": ")
    writeUnit cfg service

def runtimeIdentityChanged (previous next : ManagedServiceConfig) : Bool :=
  previous.systemdUnit != next.systemdUnit || previous.scriptPath != next.scriptPath ||
    (!previous.execStart.isEmpty && next.execStart.isEmpty)

def removeUnit : Step cfg Unit :=
  onlyIf (service.systemdUnit ≠ "") do
    attempt (systemctl cfg)
    attempt (systemctl cfg)
    context ("remove systemd unit for " ++ service.name ++ ": ")
      (removeFileIfExists cfg (systemdUnitPath cfg service.systemdUnit))

def reloadUnits : Step cfg Unit :=
  onlyIf (service.systemdUnit ≠ "")
    (context ("daemon-reload after removing " ++ service.name ++ ": ") (systemctl cfg))

def removeServiceSystemdArtifacts : Step cfg Unit := do
  removeUnit cfg service
  context ("remove wrapper script for " ++ service.name ++ ": ")
    (removeFileIfExists cfg service.scriptPath)
  reloadUnits cfg service

def removeInstallPath : Step cfg Unit :=
  onlyIf (service.installPath ≠ "")
    (context ("remove install path " ++ goQuote cfg.print service.installPath ++ ": ")
      (removeAll (cfg.at service.installPath)))

def purgeManagedServiceFiles : Step cfg Unit := do
  removeInstallPath cfg service
  context ("remove log path " ++ goQuote cfg.print service.logPath ++ ": ")
    (removeFileIfExists cfg service.logPath)

def removeVersionArtifacts (serviceName versionFile : String) : Step cfg Unit := do
  removeFileIfExists cfg versionFile
  removeFileIfExists cfg (versionRecordPath cfg serviceName)

/-- The part of `resolveVersion` and `inspectManagedService` that changes a file. -/
def inspectManagedService (version : Option String) : Step cfg Unit :=
  match version with
  | none => pure ()
  | some summary =>
    attempt (replace (cfg.at (versionRecordPath cfg service.name)) (.versionRecord service.name summary))

/-- What `handleUpsertService` does about the previous definition of the service. -/
def removePrevious (previous : Option ManagedServiceConfig) (service : ManagedServiceConfig) :
    Step cfg Unit :=
  match previous with
  | none => pure ()
  | some previous =>
    onlyIf (runtimeIdentityChanged previous service) (removeServiceSystemdArtifacts cfg previous)

/-- `handleUpsertService` under the lock. -/
def upsertService (out : Outside) (service : ManagedServiceConfig) : Step cfg Unit := do
  let registry ← load
  removePrevious cfg (registry.lookup service.name) service
  store (registry.store service)
  saveManagedServices cfg
  reconcileServiceDefinition cfg service
  inspectManagedService cfg service out.version

/-- What `handleRemoveService` removes before it saves. -/
def removeArtifacts (purgeFiles : Bool) : Step cfg Unit := do
  removeServiceSystemdArtifacts cfg service
  onlyIf purgeFiles (purgeManagedServiceFiles cfg service)
  attempt (removeVersionArtifacts cfg service.name service.versionFile)

/-- `handleRemoveService` under the lock. -/
def removeService (purgeFiles : Bool) : Step cfg Unit := do
  removeArtifacts cfg service purgeFiles
  let registry ← load
  store (registry.delete service.name)
  saveManagedServices cfg

end

def lookupService (name : String) : Step cfg ManagedServiceConfig := do
  let registry ← load
  match registry.lookup name with
  | some service => pure service
  | none =>
    Process.ofExcept (.error ("managed service " ++ goQuote cfg.print (goTrimSpace name) ++
      " is not configured"))

def restartService (name : String) : Step cfg Unit := do
  let service ← lookupService cfg name
  if ¬ service.allowControl ∨ service.systemdUnit = "" then
    Process.ofExcept (.error ("service control is disabled for " ++ service.name))
  else systemctl cfg

def restartAll : List String → Step cfg Unit
  | [] => pure ()
  | name :: names => do
    restartService cfg name
    restartAll names

/-- `handlePutConfig` under the lock. -/
def putConfig (path : String) (content : Content) (restartServices : List String) : Step cfg Unit := do
  context ("write config " ++ goBase path ++ ": ") (overwrite (cfg.at path) content)
  restartAll cfg (cleanStringList restartServices)

def installBinary (artifactPath installPath : String) : Step cfg Unit :=
  if installPath = "" then Process.ofExcept (.error "install_path is required")
  else do
    context "create install directory: " (makeParent cfg installPath)
    match ← look (cfg.at artifactPath) with
    | none => Process.ofExcept (.error ("open source file " ++ goQuote cfg.print artifactPath))
    | some content => context "replace binary: " (replace (cfg.at installPath) content)

def installZip (out : Outside) (installPath : String) : Step cfg Unit :=
  if installPath = "" then Process.ofExcept (.error "install_path is required")
  else do
    context "create install parent directory: " (makeParent cfg installPath)
    let tree ← Process.ofExcept out.archive
    context "remove previous install path: " (removeAll (cfg.at installPath))
    context "activate extracted archive: " (mount (cfg.at installPath) tree)

def runSetupCommand : Step cfg Unit := context "setup command failed: " run

def installArtifact (out : Outside) (service : ManagedServiceConfig) (artifactPath : String) :
    Step cfg Unit :=
  if service.kind = "asset" ∨ service.kind = "zip" then installZip cfg out service.installPath
  else if service.kind = "binary" then installBinary cfg artifactPath service.installPath
  else if service.kind = "wheel" then
    if service.setupCommand = [] then
      Process.ofExcept (.error "setup_command is required for wheel updates")
    else runSetupCommand cfg
  else Process.ofExcept (.error ("unsupported update kind " ++ goQuote cfg.print service.kind))

def applyUpdate (out : Outside) (service : ManagedServiceConfig) (artifactPath : String) :
    Step cfg Unit := do
  let wasActive : Bool := service.systemdUnit ≠ "" ∧ out.active
  onlyIf wasActive (context "stop service before update: " (systemctl cfg))
  installArtifact cfg out service artifactPath
  onlyIf (service.setupCommand ≠ [] ∧ service.kind ≠ "wheel") (runSetupCommand cfg)
  onlyIf wasActive (context "start service after update: " (systemctl cfg))
  inspectManagedService cfg service out.version

/-- `handleUpdateService` from the lock on. -/
def updateService (out : Outside) (service : ManagedServiceConfig) (artifactPath : String) :
    Step cfg Unit :=
  deferring (applyUpdate cfg out service artifactPath) (remove (cfg.at artifactPath))

end

inductive Request where
  | upsert (definition : ManagedServiceConfig)
  | remove (serviceName : String) (purgeFiles : Bool)
  /-- The content, if there is one, is what the parser says of it or the formatted text. -/
  | putConfig (configName : String) (content : Option (Except String Content))
      (createIfMissing : Bool) (restartServices : List String)
  /-- Last what `prepareUpdateArtifact` gives. -/
  | update (serviceName remotePath localPath : String) (artifact : Except String String)

/-- What is left of a command when it waits for the lock. -/
inductive Job where
  | upsert (service : ManagedServiceConfig)
  | remove (service : ManagedServiceConfig) (purgeFiles : Bool)
  | putConfig (path : String) (content : Content) (restartServices : List String)
  | update (service : ManagedServiceConfig) (artifactPath : String)
deriving DecidableEq

/-- The candidate lies in the tree of the root, by `filepath.Rel`. -/
def isPathWithinRoot (root candidate : String) : Bool :=
  isRooted root == isRooted candidate && (goSegments root).isPrefixOf (goSegments candidate) &&
    (goSegments candidate)[(goSegments root).length]? != some ".."

section
variable (cfg : Config)

def resolveConfigPath (configName : String) (createIfMissing : Bool) : Step cfg String :=
  let name := goBase (goTrimSpace configName)
  let configPath := goJoin cfg.configDir name
  if name = "" ∨ '/' ∈ name.toList ∨ name = "." then
    Process.ofExcept (.error "configName is required")
  else if name = goBase cfg.stateFile then pure cfg.stateFile
  else if ¬ isPathWithinRoot cfg.configDir configPath then
    Process.ofExcept (.error ("config " ++ goQuote cfg.print name ++ " escapes config dir"))
  else do
    context ("stat config " ++ goQuote cfg.print name ++ ": ") (check (cfg.at configPath))
    let file ← look (cfg.at configPath)
    if file.isSome ∨ createIfMissing then pure configPath
    else Process.ofExcept (.error ("config " ++ goQuote cfg.print name ++ " does not exist"))

def normalizeConfigWrite (configName : String) (content : Option (Except String Content))
    (createIfMissing : Bool) : Step cfg (String × Content) := do
  let path ← resolveConfigPath cfg configName createIfMissing
  match content with
  | none => Process.ofExcept (.error "content is required")
  | some content =>
    let content ← context "invalid JSON content: " (Process.ofExcept content)
    pure (path, content)

def checkUpdate (service : ManagedServiceConfig) (remotePath localPath : String) : Except String Unit :=
  if ¬ service.allowUpdate then .error "updates are disabled for this service"
  else if service.name = ServiceName then
    .error "runtime-manager self-updates are disabled from the UI"
  else if goTrimSpace remotePath = "" ∧ goTrimSpace localPath = "" then
    .error "either remotePath or localPath is required"
  else if goTrimSpace remotePath ≠ "" ∧ goTrimSpace localPath ≠ "" then
    .error "remotePath and localPath are mutually exclusive"
  else .ok ()

def prepare : Request → Step cfg Job
  | .upsert definition => do
    let service ← Process.ofExcept (normalizeManagedService cfg.toSettings definition)
    pure (.upsert service)
  | .remove serviceName purgeFiles => do
    let service ← lookupService cfg serviceName
    if service.name = ServiceName then
      Process.ofExcept (.error "runtime-manager cannot remove itself")
    else pure (.remove service purgeFiles)
  | .putConfig configName content createIfMissing restartServices => do
    let target ← normalizeConfigWrite cfg configName content createIfMissing
    pure (.putConfig target.1 target.2 restartServices)
  | .update serviceName remotePath localPath artifact => do
    let service ← lookupService cfg serviceName
    Process.ofExcept (checkUpdate service remotePath localPath)
    let artifactPath ← Process.ofExcept artifact
    pure (.update service artifactPath)

/-- What the handlers do under the lock. -/
def perform (out : Outside) : Job → Step cfg Unit
  | .upsert service => upsertService cfg out service
  | .remove service purgeFiles => removeService cfg service purgeFiles
  | .putConfig path content restartServices => putConfig cfg path content restartServices
  | .update service artifactPath => updateService cfg out service artifactPath

/-- The manager: its files and registry, and the commands that wait for the lock. -/
structure State where
  world : World Content (Registry cfg.toSettings)
  waiting : List Job

inductive Event where
  | accept (request : Request) (out : Outside)
  | perform (job : Job) (out : Outside)

def meeting (out : Outside) (world : World Content (Registry cfg.toSettings)) :
    World Content (Registry cfg.toSettings) := { world with calls := 0, faults := out.faults }

def after (s : State cfg) : Event → State cfg
  | .accept request out =>
    match (prepare cfg request).exec (meeting cfg out s.world) with
    | (.ok job, world) => { world, waiting := s.waiting ++ [job] }
    | (.error _, world) => { s with world }
  | .perform job out =>
    { world := ((perform cfg out job).exec (meeting cfg out s.world)).2
      waiting := s.waiting.erase job }

/-- Only a command that waits takes the lock. -/
def Enabled (s : State cfg) : Event → Prop
  | .accept _ _ => True
  | .perform job _ => job ∈ s.waiting

/-- `NewService`: the registry is what the state file says. The result is whether it comes from the
configuration instead. -/
def newService : Step cfg Bool := do
  context "read managed service state: " (check cfg.stateAt)
  let file ← look cfg.stateAt
  let loaded ← Process.ofExcept (loadManagedServicesFromState cfg file)
  store (.ofServices cfg.toSettings loaded.1)
  pure loaded.2

def reconcileAllManagedServices : List ManagedServiceConfig → Step cfg Unit
  | [] => pure ()
  | service :: services => do
    attempt (reconcileServiceDefinition cfg service)
    reconcileAllManagedServices services

/-- The start of the program, up to the point from which it takes commands. -/
def startManager : Step cfg Unit := do
  let seededFromConfig ← newService cfg
  onlyIf seededFromConfig (context "persist managed services: " (saveManagedServices cfg))
  let registry ← load
  reconcileAllManagedServices cfg registry.list

def manager : System (State cfg) Event :=
  .guarded
    (fun s => s.waiting = [] ∧ ∃ out world, (startManager cfg).exec (meeting cfg out world) = (.ok (), s.world))
    (Enabled cfg) (after cfg)

end

end Trakrai.RuntimeManager
