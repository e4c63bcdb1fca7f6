import Trakrai.RuntimeManager.Service

namespace Trakrai.RuntimeManager
open Lib Process

section
variable (cfg : Config) (service : ManagedServiceConfig)

section
variable (path : List String)

def UnitFiles : Prop :=
  (service.systemdUnit ≠ "" ∧ path = cfg.at (systemdUnitPath cfg service.systemdUnit)) ∨
    (service.scriptPath ≠ "" ∧ path = cfg.at service.scriptPath)

def InstallFiles : Prop :=
  service.installPath ≠ "" ∧ cfg.at service.installPath <+: path

def LogFile : Prop :=
  service.logPath ≠ "" ∧ path = cfg.at service.logPath

def VersionRecordFile : Prop :=
  path = cfg.at (versionRecordPath cfg service.name)

def VersionFiles : Prop :=
  (service.versionFile ≠ "" ∧ path = cfg.at service.versionFile) ∨ VersionRecordFile cfg service path

def Owns : Prop :=
  UnitFiles cfg service path ∨ InstallFiles cfg service path ∨ LogFile cfg service path ∨
    VersionFiles cfg service path

end

end

section
variable {cfg : Config} {service : ManagedServiceConfig} {region : List String → Prop}

theorem keeps_systemctl : Keeps (Within region) (systemctl cfg) := keeps_run

theorem keeps_ofExcept (x : Except String α) :
    Keeps (Within region) (Process.ofExcept x : Step cfg α) := .ofExcept .refl x

theorem keeps_pure (a : α) : Keeps (Within region) (pure a : Step cfg α) := .pure .refl a

theorem keeps_makeParentIf (path text : String) :
    Keeps (Within region) (makeParentIf cfg path text) :=
  .onlyIf .refl fun _ => keeps_check.context

theorem keeps_removeFileIfExists (h : path ≠ "" → region (cfg.at path)) :
    Keeps (Within region) (removeFileIfExists cfg path) :=
  .onlyIf .refl fun hpath => keeps_remove (h hpath)

theorem keeps_switchUnit : Keeps (Within region) (switchUnit cfg service) := by
  rw [switchUnit]
  split
  · exact keeps_systemctl.context
  · exact keeps_systemctl.attempt

theorem Normal.systemdUnit_ne (h : Normal cfg.toSettings service) (hexec : service.execStart ≠ []) :
    service.systemdUnit ≠ "" := by
  rw [← h.unit, withUnitDefaults, if_pos hexec]
  exact orDefault_ne_empty (by simp)

theorem keeps_writeUnit (hunit : service.systemdUnit ≠ "") :
    Keeps (Within (UnitFiles cfg service)) (writeUnit cfg service) := by
  have hscript : Keeps (Within (UnitFiles cfg service)) (writeWrapperScript cfg service) := by
    rw [writeWrapperScript]
    split
    · exact keeps_ofExcept _
    · exact (keeps_replace (.inr ⟨‹_›, rfl⟩)).context
  apply Keeps.bind .trans hscript
  intro _
  apply Keeps.bind .trans (keeps_replace (.inl ⟨hunit, rfl⟩)).context
  intro _
  exact Keeps.bind .trans keeps_systemctl.context fun _ => keeps_switchUnit

theorem keeps_reconcile (h : Normal cfg.toSettings service) :
    Keeps (Within fun path => service.execStart ≠ [] ∧ UnitFiles cfg service path)
      (reconcileServiceDefinition cfg service) := by
  refine Keeps.onlyIf .refl fun hexec => ?_
  apply Keeps.bind .trans (keeps_makeParentIf _ _)
  intro _
  apply Keeps.bind .trans (keeps_makeParentIf _ _)
  intro _
  apply Keeps.bind .trans (keeps_makeParentIf _ _)
  intro _
  exact (keeps_writeUnit (h.systemdUnit_ne hexec)).within fun _ hp => ⟨hexec, hp⟩

theorem keeps_removeUnit : Keeps (Within (UnitFiles cfg service)) (removeUnit cfg service) := by
  refine Keeps.onlyIf .refl fun hne => ?_
  apply Keeps.bind .trans keeps_systemctl.attempt
  intro _
  apply Keeps.bind .trans keeps_systemctl.attempt
  intro _
  exact (keeps_removeFileIfExists fun _ => .inl ⟨hne, rfl⟩).context

theorem keeps_removeScript : Keeps (Within (UnitFiles cfg service))
    (removeFileIfExists cfg service.scriptPath) :=
  keeps_removeFileIfExists fun hscript => .inr ⟨hscript, rfl⟩

theorem keeps_removeServiceSystemdArtifacts :
    Keeps (Within (UnitFiles cfg service)) (removeServiceSystemdArtifacts cfg service) := by
  apply Keeps.bind .trans keeps_removeUnit
  intro _
  apply Keeps.bind .trans keeps_removeScript.context
  intro _
  exact Keeps.onlyIf .refl fun _ => keeps_systemctl.context

theorem keeps_removeInstallPath :
    Keeps (Within (InstallFiles cfg service)) (removeInstallPath cfg service) := by
  refine Keeps.onlyIf .refl fun hne => ?_
  exact (keeps_removeAll fun other hother => ⟨hne, hother⟩).context

theorem keeps_purgeManagedServiceFiles :
    Keeps (Within fun path => InstallFiles cfg service path ∨ LogFile cfg service path)
      (purgeManagedServiceFiles cfg service) := by
  apply Keeps.bind .trans (keeps_removeInstallPath.within fun _ hp => .inl hp)
  intro _
  exact (keeps_removeFileIfExists fun hlog => .inr ⟨hlog, rfl⟩).context

theorem keeps_removeVersionArtifacts : Keeps (Within (VersionFiles cfg service))
      (removeVersionArtifacts cfg service.name service.versionFile) := by
  apply Keeps.bind .trans (keeps_removeFileIfExists fun hfile => .inl ⟨hfile, rfl⟩)
  intro _
  exact keeps_removeFileIfExists fun _ => .inr rfl

theorem keeps_inspect (version : Option String) :
    Keeps (Within fun path => version.isSome ∧ VersionRecordFile cfg service path)
      (inspectManagedService cfg service version) := by
  cases version with
  | none => exact keeps_pure ()
  | some summary => exact (keeps_replace ⟨rfl, rfl⟩).attempt

theorem keeps_removePrevious (previous : Option ManagedServiceConfig) :
    Keeps (Within fun path => ∃ old, previous = some old ∧ runtimeIdentityChanged old service ∧
      UnitFiles cfg old path) (removePrevious cfg previous service) := by
  cases previous with
  | none => exact keeps_pure ()
  | some old =>
    refine Keeps.onlyIf .refl fun hchanged => ?_
    exact keeps_removeServiceSystemdArtifacts.within fun _ hp => ⟨old, rfl, hchanged, hp⟩

theorem keeps_removeArtifacts (purgeFiles : Bool) :
    Keeps (Within fun path => UnitFiles cfg service path ∨
      (purgeFiles ∧ (InstallFiles cfg service path ∨ LogFile cfg service path)) ∨
        VersionFiles cfg service path) (removeArtifacts cfg service purgeFiles) := by
  apply Keeps.bind .trans (keeps_removeServiceSystemdArtifacts.within fun _ hp => .inl hp)
  intro _
  refine Keeps.bind .trans (Keeps.onlyIf .refl fun hpurge => ?_) fun _ => ?_
  · exact keeps_purgeManagedServiceFiles.within fun _ hp => .inr (.inl ⟨hpurge, hp⟩)
  · exact (keeps_removeVersionArtifacts.within fun _ hp => .inr (.inr hp)).attempt

theorem keeps_save : Keeps (Within (· = cfg.stateAt)) (saveManagedServices cfg) :=
  Keeps.bind .trans (.load .refl) fun _ => .context (keeps_replace rfl)

theorem keeps_lookupService (name : String) : Keeps (Within region) (lookupService cfg name) := by
  refine Keeps.bind .trans (.load .refl) fun registry => ?_
  split
  · exact keeps_pure _
  · exact keeps_ofExcept _

theorem keeps_restartAll (names : List String) : Keeps (Within region) (restartAll cfg names) := by
  induction names with
  | nil => exact keeps_pure ()
  | cons name names ih =>
    refine Keeps.bind .trans (.bind .trans (keeps_lookupService name) ?_) fun _ => ih
    intro service
    split
    · exact keeps_ofExcept _
    · exact keeps_systemctl

theorem keeps_putConfig (path : String) (content : Content) (restartServices : List String) :
    Keeps (Within (· = cfg.at path)) (putConfig cfg path content restartServices) :=
  Keeps.bind .trans (.context (keeps_overwrite rfl)) fun _ => keeps_restartAll _

def UpdateFiles (cfg : Config) (out : Outside) (service : ManagedServiceConfig) (artifactPath : String)
    (path : List String) : Prop :=
  InstallFiles cfg service path ∨ (out.version.isSome ∧ VersionRecordFile cfg service path) ∨
    path = cfg.at artifactPath

theorem keeps_installArtifact (out : Outside) (artifactPath : String) :
    Keeps (Within (InstallFiles cfg service)) (installArtifact cfg out service artifactPath) := by
  rw [installArtifact]
  split
  · rw [installZip]
    split
    · exact keeps_ofExcept _
    · have htree (other : List String) (hother : cfg.at service.installPath <+: other) :
          InstallFiles cfg service other := ⟨‹_›, hother⟩
      apply Keeps.bind .trans keeps_check.context
      intro _
      apply Keeps.bind .trans (keeps_ofExcept _)
      intro tree
      apply Keeps.bind .trans (keeps_removeAll htree).context
      intro _
      exact (keeps_mount htree).context
  · split
    · rw [installBinary]
      split
      · exact keeps_ofExcept _
      · apply Keeps.bind .trans keeps_check.context
        intro _
        refine Keeps.bind .trans (.look .refl _) fun file => ?_
        cases file with
        | none => exact keeps_ofExcept _
        | some content => exact (keeps_replace ⟨‹_›, List.prefix_refl _⟩).context
    · split
      · split
        · exact keeps_ofExcept _
        · exact keeps_run.context
      · exact keeps_ofExcept _

theorem keeps_updateService (out : Outside) (artifactPath : String) :
    Keeps (Within (UpdateFiles cfg out service artifactPath))
      (updateService cfg out service artifactPath) := by
  refine .deferring .trans ?_ (keeps_remove (.inr (.inr rfl)))
  refine Keeps.bind .trans (.onlyIf .refl fun _ => keeps_systemctl.context) fun _ => ?_
  apply Keeps.bind .trans ((keeps_installArtifact out artifactPath).within fun _ hp => .inl hp)
  intro _
  refine Keeps.bind .trans (.onlyIf .refl fun _ => keeps_run.context) fun _ => ?_
  refine Keeps.bind .trans (.onlyIf .refl fun _ => keeps_systemctl.context) fun _ => ?_
  exact (keeps_inspect out.version).within fun _ hp => .inr (.inl hp)

theorem keeps_resolveConfigPath (configName : String) (createIfMissing : Bool) :
    Keeps (Within region) (resolveConfigPath cfg configName createIfMissing) := by
  rw [resolveConfigPath]
  split
  · exact keeps_ofExcept _
  · split
    · exact keeps_pure _
    · split
      · exact keeps_ofExcept _
      · apply Keeps.bind .trans keeps_check.context
        intro _
        refine Keeps.bind .trans (.look .refl _) fun file => ?_
        split
        · exact keeps_pure _
        · exact keeps_ofExcept _

theorem keeps_prepare (request : Request) : Keeps (Within region) (prepare cfg request) := by
  cases request with
  | upsert definition => exact Keeps.bind .trans (keeps_ofExcept _) fun _ => keeps_pure _
  | remove serviceName purgeFiles =>
    refine Keeps.bind .trans (keeps_lookupService _) fun service => ?_
    split
    · exact keeps_ofExcept _
    · exact keeps_pure _
  | putConfig configName content createIfMissing restartServices =>
    refine Keeps.bind .trans (.bind .trans (keeps_resolveConfigPath _ _) fun path => ?_)
      fun _ => keeps_pure _
    cases content with
    | none => exact keeps_ofExcept _
    | some content => exact Keeps.bind .trans (keeps_ofExcept _).context fun _ => keeps_pure _
  | update serviceName remotePath localPath artifact =>
    refine Keeps.bind .trans (keeps_lookupService _) fun service => ?_
    refine Keeps.bind .trans (keeps_ofExcept _) fun _ => ?_
    exact Keeps.bind .trans (keeps_ofExcept _) fun _ => keeps_pure _

def Prepared (cfg : Config) (registry : Registry cfg.toSettings) (request : Request) : Job → Prop
  | .upsert service => ∃ definition, request = .upsert definition ∧
      normalizeManagedService cfg.toSettings definition = .ok service
  | .remove service _ | .update service _ => service ∈ registry.list
  | .putConfig _ _ _ => True

theorem meets_lookupService (name : String) :
    Meets (fun w => w.memory = registry) (lookupService cfg name)
      (fun service _ => service ∈ registry.list) (fun _ => True) := by
  refine .bind (Q := fun memory _ => memory = registry) (fun _ hw => hw) fun memory => ?_
  cases hlookup : memory.lookup name with
  | none => exact .ofExcept (fun _ _ h => by cases h) fun _ _ => trivial
  | some service =>
    refine .pure ?_
    rintro _ rfl
    exact (Registry.lookup_eq_some_iff.1 hlookup).1

theorem meets_prepare (request : Request) :
    Meets (fun w => w.memory = registry) (prepare cfg request)
      (fun job _ => Prepared cfg registry request job) (fun _ => True) := by
  cases request with
  | upsert definition =>
    refine .bind (Q := fun service _ =>
      normalizeManagedService cfg.toSettings definition = .ok service) ?_ fun service => ?_
    · exact .ofExcept (fun _ _ h _ => h) fun _ _ => trivial
    · exact .pure fun _ h => ⟨definition, rfl, h⟩
  | remove serviceName purgeFiles =>
    refine .bind (meets_lookupService _) fun service => ?_
    split
    · exact .ofExcept (fun _ _ h => by cases h) fun _ _ => trivial
    · exact .pure fun _ h => h
  | putConfig configName content createIfMissing restartServices =>
    exact .bind .trivial fun _ => .pure fun _ _ => trivial
  | update serviceName remotePath localPath artifact =>
    refine .bind (meets_lookupService _) fun service => ?_
    refine .bind (Q := fun _ _ => service ∈ registry.list) ?_ fun _ => ?_
    · exact .ofExcept (fun _ _ _ h => h) fun _ _ => trivial
    refine .bind (Q := fun _ _ => service ∈ registry.list) ?_ fun _ => ?_
    · exact .ofExcept (fun _ _ _ h => h) fun _ _ => trivial
    · exact .pure fun _ h => h

end

end Trakrai.RuntimeManager
