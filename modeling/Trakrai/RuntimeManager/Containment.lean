import Trakrai.Lib.Descent
import Trakrai.RuntimeManager.Artifacts

namespace Trakrai.RuntimeManager
open List Lib

/-- The directories are clean, as `LoadConfig` leaves them. -/
def Loaded (cfg : Config) : Prop :=
  ∀ dir ∈ [cfg.unitDirectory, cfg.scriptDir, cfg.logDir, cfg.versionDir, cfg.binaryDir], goClean dir = dir

structure LeftToDefaults (service : ManagedServiceConfig) : Prop where
  unit : goTrimSpace service.systemdUnit = ""
  script : goTrimSpace service.scriptPath = ""
  log : goTrimSpace service.logPath = ""
  version : goTrimSpace service.versionFile = ""
  install : goTrimSpace service.installPath = ""

section
variable (cfg : Config)

def Inside (dir path : String) : Prop := cfg.at dir <+: cfg.at path

def StrictlyInside (dir path : String) : Prop := Inside cfg dir path ∧ cfg.at dir ≠ cfg.at path

def DirectlyIn (dir path : String) : Prop := ∃ name, cfg.at path = cfg.at dir ++ [name]

def installHome (kind : String) : String := if kind = "binary" then cfg.binaryDir else cfg.rootDir

/-- The files of a normalized definition lie where its paths are meant to lead. -/
structure FilesContained (service normalized : ManagedServiceConfig) : Prop where
  unit : LeftToDefaults service → normalized.systemdUnit ≠ "" →
    DirectlyIn cfg cfg.unitDirectory (systemdUnitPath cfg normalized.systemdUnit)
  script : LeftToDefaults service → normalized.scriptPath ≠ "" →
    StrictlyInside cfg cfg.scriptDir normalized.scriptPath
  log : LeftToDefaults service → normalized.logPath ≠ "" →
    StrictlyInside cfg cfg.logDir normalized.logPath
  version : LeftToDefaults service → normalized.versionFile ≠ "" →
    StrictlyInside cfg cfg.versionDir normalized.versionFile
  install : LeftToDefaults service → normalized.installPath ≠ "" →
    StrictlyInside cfg (installHome cfg normalized.kind) normalized.installPath
  explicitUnit : goTrimSpace service.systemdUnit ≠ "" → normalized.systemdUnit ≠ "" →
    Inside cfg cfg.unitDirectory (systemdUnitPath cfg normalized.systemdUnit)

/-- From the directory, the text comes back to it and goes on: after its steps up it names the
directories that these leave, and something below. -/
def ComesBack (dir text : String) : Prop :=
  leaves (cfg.at dir) text <+: stepsDown text ∧ leaves (cfg.at dir) text ≠ stepsDown text

structure NamesContained (service : ManagedServiceConfig) : Prop where
  unit : LeftToDefaults service → cleanStringList service.execStart ≠ [] →
    ∃ name, stepsDown ("trakrai-" ++ goTrimSpace service.name ++ ".service") =
      leaves (cfg.at cfg.unitDirectory) ("trakrai-" ++ goTrimSpace service.name ++ ".service") ++ [name]
  script : LeftToDefaults service → cleanStringList service.execStart ≠ [] →
    ComesBack cfg cfg.scriptDir ("start-" ++ goTrimSpace service.name ++ ".sh")
  log : LeftToDefaults service → cleanStringList service.execStart ≠ [] →
    ComesBack cfg cfg.logDir (goTrimSpace service.name ++ ".log")
  version : LeftToDefaults service → cleanStringList service.execStart ≠ [] →
    ComesBack cfg cfg.versionDir (goTrimSpace service.name ++ ".txt")
  install : LeftToDefaults service → cleanKind cfg.toSettings service ≠ "wheel" →
    ComesBack cfg (installHome cfg (cleanKind cfg.toSettings service)) (goTrimSpace service.name)
  explicitUnit : goTrimSpace service.systemdUnit ≠ "" → cleanStringList service.execStart ≠ [] →
    leaves (cfg.at cfg.unitDirectory) (goTrimSpace service.systemdUnit) <+:
      stepsDown (goTrimSpace service.systemdUnit)

end

section
variable {cfg : Config} {service normalized : ManagedServiceConfig} {dir text : String}

theorem dir_ne_empty (hclean : goClean dir = dir) : dir ≠ "" := by
  rw [← hclean]
  exact goClean_ne_empty _

theorem inside_goJoin_iff (hclean : goClean dir = dir) (text : String) :
    Inside cfg dir (goJoin dir text) ↔ leaves (cfg.at dir) text <+: stepsDown text :=
  within_goJoin_iff cfg.cwd_rooted (dir_ne_empty hclean) text

theorem strictlyInside_goJoin_iff (hclean : goClean dir = dir) (text : String) :
    StrictlyInside cfg dir (goJoin dir text) ↔ ComesBack cfg dir text :=
  and_congr (inside_goJoin_iff hclean text)
    (not_congr (goJoin_eq_iff cfg.cwd_rooted (dir_ne_empty hclean) text))

theorem directlyIn_goJoin_iff (hclean : goClean dir = dir) (text : String) :
    DirectlyIn cfg dir (goJoin dir text) ↔
      ∃ name, stepsDown text = leaves (cfg.at dir) text ++ [name] :=
  directly_goJoin_iff cfg.cwd_rooted (dir_ne_empty hclean) text

theorem cleanOptionalPath_of_blank (h : goTrimSpace path = "") : cleanOptionalPath path = "" := if_pos h

theorem orDefault_of_blank (h : value = "") (fallback : String) :
    orDefault value fallback = fallback := if_pos h

section
variable (cfg : Settings)

theorem withInstallPath_frame (service : ManagedServiceConfig) :
    ∃ path, withInstallPath cfg service = { service with installPath := path } := by
  rw [withInstallPath]
  by_cases hgiven : service.installPath ≠ ""
  · rw [if_pos hgiven]
    exact ⟨service.installPath, rfl⟩
  · rw [if_neg hgiven]
    by_cases hbinary : service.kind = "binary"
    · rw [if_pos hbinary]
      exact ⟨_, rfl⟩
    · rw [if_neg hbinary]
      by_cases hzip : service.kind = "asset" ∨ service.kind = "zip"
      · rw [if_pos hzip]
        exact ⟨_, rfl⟩
      · rw [if_neg hzip]
        exact ⟨service.installPath, rfl⟩

theorem withUnitDefaults_started (hexec : service.execStart ≠ []) :
    (withUnitDefaults cfg service).systemdUnit =
        orDefault service.systemdUnit ("trakrai-" ++ service.name ++ ".service") ∧
      (withUnitDefaults cfg service).scriptPath =
        orDefault service.scriptPath (goJoin cfg.scriptDir ("start-" ++ service.name ++ ".sh")) ∧
      (withUnitDefaults cfg service).logPath =
        orDefault service.logPath (goJoin cfg.logDir (service.name ++ ".log")) ∧
      (withUnitDefaults cfg service).versionFile =
        orDefault service.versionFile (goJoin cfg.versionDir (service.name ++ ".txt")) := by
  rw [withUnitDefaults, if_pos hexec]
  exact ⟨rfl, rfl, rfl, rfl⟩

theorem withUnitDefaults_idle (hexec : service.execStart = []) :
    (withUnitDefaults cfg service).systemdUnit = "" ∧ (withUnitDefaults cfg service).scriptPath = "" ∧
      (withUnitDefaults cfg service).logPath = service.logPath ∧
      (withUnitDefaults cfg service).versionFile = service.versionFile := by
  rw [withUnitDefaults, if_neg (not_not.2 hexec)]
  exact ⟨rfl, rfl, rfl, rfl⟩

section
variable (service : ManagedServiceConfig)

theorem withUnitDefaults_frame :
    (withUnitDefaults cfg service).kind = service.kind ∧
      (withUnitDefaults cfg service).installPath = service.installPath := by
  rw [withUnitDefaults]
  by_cases hexec : service.execStart ≠ []
  · rw [if_pos hexec]
    exact ⟨rfl, rfl⟩
  · rw [if_neg hexec]
    exact ⟨rfl, rfl⟩

/-- A definition with its texts cleaned and its install path chosen, before the defaults of its unit. -/
structure Chosen (cfg : Settings) (service chosen : ManagedServiceConfig) : Prop where
  name : chosen.name = goTrimSpace service.name
  kind : chosen.kind = cleanKind cfg service
  systemdUnit : chosen.systemdUnit = goTrimSpace service.systemdUnit
  scriptPath : chosen.scriptPath = cleanOptionalPath service.scriptPath
  logPath : chosen.logPath = cleanOptionalPath service.logPath
  versionFile : chosen.versionFile = cleanOptionalPath service.versionFile
  execStart : chosen.execStart = cleanStringList service.execStart

theorem chosen_withInstallPath :
    Chosen cfg service (withInstallPath cfg (cleanFields cfg service)) := by
  obtain ⟨path, hframe⟩ := withInstallPath_frame cfg (cleanFields cfg service)
  rw [hframe, cleanFields]
  constructor <;> dsimp only

theorem withDefaults_texts : ∃ chosen, Chosen cfg service chosen ∧
      chosen = withInstallPath cfg (cleanFields cfg service) ∧
      (withDefaults cfg service).kind = (withUnitDefaults cfg chosen).kind ∧
      (withDefaults cfg service).systemdUnit = (withUnitDefaults cfg chosen).systemdUnit ∧
      (withDefaults cfg service).scriptPath = (withUnitDefaults cfg chosen).scriptPath ∧
      (withDefaults cfg service).logPath = (withUnitDefaults cfg chosen).logPath ∧
      (withDefaults cfg service).versionFile = (withUnitDefaults cfg chosen).versionFile ∧
      (withDefaults cfg service).installPath = (withUnitDefaults cfg chosen).installPath := by
  refine ⟨_, chosen_withInstallPath cfg service, rfl, ?_⟩
  rw [withDefaults]
  generalize withUnitDefaults cfg (withInstallPath cfg (cleanFields cfg service)) = started
  rw [withCommandDefaults]
  exact ⟨rfl, rfl, rfl, rfl, rfl, rfl⟩

end

theorem LeftToDefaults.started (hleft : LeftToDefaults service) (cfg : Settings)
    (hexec : cleanStringList service.execStart ≠ []) :
    (withDefaults cfg service).systemdUnit = "trakrai-" ++ goTrimSpace service.name ++ ".service" ∧
      (withDefaults cfg service).scriptPath =
        goJoin cfg.scriptDir ("start-" ++ goTrimSpace service.name ++ ".sh") ∧
      (withDefaults cfg service).logPath = goJoin cfg.logDir (goTrimSpace service.name ++ ".log") ∧
      (withDefaults cfg service).versionFile =
        goJoin cfg.versionDir (goTrimSpace service.name ++ ".txt") := by
  obtain ⟨chosen, hchosen, -, -, hunit, hscript, hlog, hversion, -⟩ := withDefaults_texts cfg service
  rw [← hchosen.execStart] at hexec
  obtain ⟨hunit', hscript', hlog', hversion'⟩ := withUnitDefaults_started cfg hexec
  rw [hunit, hscript, hlog, hversion, hunit', hscript', hlog', hversion', hchosen.name]
  refine ⟨orDefault_of_blank ?_ _, orDefault_of_blank ?_ _, orDefault_of_blank ?_ _, orDefault_of_blank ?_ _⟩
  · rw [hchosen.systemdUnit, hleft.unit]
  · rw [hchosen.scriptPath, cleanOptionalPath_of_blank hleft.script]
  · rw [hchosen.logPath, cleanOptionalPath_of_blank hleft.log]
  · rw [hchosen.versionFile, cleanOptionalPath_of_blank hleft.version]

theorem LeftToDefaults.idle (hleft : LeftToDefaults service) (cfg : Settings)
    (hexec : cleanStringList service.execStart = []) :
    (withDefaults cfg service).systemdUnit = "" ∧ (withDefaults cfg service).scriptPath = "" ∧
      (withDefaults cfg service).logPath = "" ∧ (withDefaults cfg service).versionFile = "" := by
  obtain ⟨chosen, hchosen, -, -, hunit, hscript, hlog, hversion, -⟩ := withDefaults_texts cfg service
  rw [← hchosen.execStart] at hexec
  obtain ⟨hunit', hscript', hlog', hversion'⟩ := withUnitDefaults_idle cfg hexec
  rw [hunit, hscript, hlog, hversion, hunit', hscript', hlog', hversion', hchosen.logPath,
    hchosen.versionFile, cleanOptionalPath_of_blank hleft.log, cleanOptionalPath_of_blank hleft.version]
  exact ⟨rfl, rfl, rfl, rfl⟩

theorem withDefaults_explicitUnit (hunit : goTrimSpace service.systemdUnit ≠ "") :
    (withDefaults cfg service).systemdUnit =
      if cleanStringList service.execStart = [] then "" else goTrimSpace service.systemdUnit := by
  obtain ⟨chosen, hchosen, -, -, hkept, -⟩ := withDefaults_texts cfg service
  rw [hkept, ← hchosen.execStart, ← hchosen.systemdUnit]
  by_cases hexec : chosen.execStart = []
  · rw [if_pos hexec]
    exact (withUnitDefaults_idle cfg hexec).1
  · rw [if_neg hexec, (withUnitDefaults_started cfg hexec).1]
    exact orDefault_eq (hchosen.systemdUnit ▸ hunit)

theorem withDefaults_kind (service : ManagedServiceConfig) :
    (withDefaults cfg service).kind = cleanKind cfg service := by
  obtain ⟨chosen, hchosen, -, hkind, -⟩ := withDefaults_texts cfg service
  rw [hkind, (withUnitDefaults_frame cfg chosen).1, hchosen.kind]

end

theorem LeftToDefaults.installPath (hleft : LeftToDefaults service) (cfg : Config)
    (hkind : cleanKind cfg.toSettings service ∈ kinds) :
    (withDefaults cfg.toSettings service).installPath =
      if cleanKind cfg.toSettings service = "wheel" then ""
      else goJoin (installHome cfg (cleanKind cfg.toSettings service)) (goTrimSpace service.name) := by
  obtain ⟨chosen, hchosen, he, -, -, -, -, -, hinstall⟩ := withDefaults_texts cfg.toSettings service
  have hblank : (cleanFields cfg.toSettings service).installPath = "" := by
    rw [cleanFields]
    dsimp only
    exact cleanOptionalPath_of_blank hleft.install
  have hfields : (cleanFields cfg.toSettings service).kind = cleanKind cfg.toSettings service := by
    rw [cleanFields]
  have hname : (cleanFields cfg.toSettings service).name = goTrimSpace service.name := by
    rw [cleanFields]
  rw [hinstall, (withUnitDefaults_frame cfg.toSettings chosen).2, he, installHome, ← hfields, ← hname]
  rw [← hfields] at hkind
  generalize cleanFields cfg.toSettings service = fields at hblank hkind ⊢
  simp only [kinds, mem_cons, not_mem_nil, or_false] at hkind
  rw [withInstallPath, if_neg (not_not.2 hblank)]
  by_cases hbinary : fields.kind = "binary"
  · rw [if_pos hbinary, if_pos hbinary, if_neg (by rw [hbinary]; decide)]
  · rw [if_neg hbinary, if_neg hbinary]
    by_cases hwheel : fields.kind = "wheel"
    · rw [if_neg (by rw [hwheel]; decide), if_pos hwheel, hblank]
    · have hzip : fields.kind = "asset" ∨ fields.kind = "zip" := by
        simpa only [hbinary, hwheel, false_or] using hkind
      rw [if_pos hzip, if_neg hwheel]

theorem made_iff {needed Q : Prop} {P : String → Prop} {path made : String}
    (hmade : needed → path = made) (hempty : ¬ needed → path = "") (hne : made ≠ "") (hiff : P made ↔ Q) :
    (path ≠ "" → P path) ↔ (needed → Q) := by
  constructor
  · intro h hneeded
    have hpath := hmade hneeded
    exact hiff.1 (hpath ▸ h (hpath ▸ hne))
  · intro h hpath
    by_cases hneeded : needed
    · rw [hmade hneeded]
      exact hiff.2 (h hneeded)
    · exact absurd (hempty hneeded) hpath

/-- The files of an accepted definition lie in their directories exactly where the name of the service,
or that of its unit, does. -/
theorem filesContained_iff (hloaded : Loaded cfg)
    (haccepted : normalizeManagedService cfg.toSettings service = .ok normalized) :
    FilesContained cfg service normalized ↔ NamesContained cfg service := by
  obtain ⟨hkind, hname, -, rfl⟩ := normalizeManagedService_eq haccepted
  simp only [Loaded, forall_mem_cons, not_mem_nil, false_implies, implies_true, and_true] at hloaded
  obtain ⟨hunitDir, hscriptDir, hlogDir, hversionDir, hbinaryDir⟩ := hloaded
  have hhome : goClean (installHome cfg (cleanKind cfg.toSettings service)) =
      installHome cfg (cleanKind cfg.toSettings service) := by
    rw [installHome]
    split
    · exact hbinaryDir
    · exact cfg.rootDir_clean
  have hunit (hleft : LeftToDefaults service) := made_iff
    (P := fun unit => DirectlyIn cfg cfg.unitDirectory (systemdUnitPath cfg unit))
    (fun hexec => (hleft.started cfg.toSettings hexec).1)
    (fun hexec => (hleft.idle cfg.toSettings (not_not.1 hexec)).1) (by simp)
    (directlyIn_goJoin_iff hunitDir _)
  have hscript (hleft : LeftToDefaults service) := made_iff (P := StrictlyInside cfg cfg.scriptDir)
    (fun hexec => (hleft.started cfg.toSettings hexec).2.1)
    (fun hexec => (hleft.idle cfg.toSettings (not_not.1 hexec)).2.1) (goJoin_ne_empty (by simp))
    (strictlyInside_goJoin_iff hscriptDir _)
  have hlog (hleft : LeftToDefaults service) := made_iff (P := StrictlyInside cfg cfg.logDir)
    (fun hexec => (hleft.started cfg.toSettings hexec).2.2.1)
    (fun hexec => (hleft.idle cfg.toSettings (not_not.1 hexec)).2.2.1) (goJoin_ne_empty (by simp))
    (strictlyInside_goJoin_iff hlogDir _)
  have hversion (hleft : LeftToDefaults service) := made_iff (P := StrictlyInside cfg cfg.versionDir)
    (fun hexec => (hleft.started cfg.toSettings hexec).2.2.2)
    (fun hexec => (hleft.idle cfg.toSettings (not_not.1 hexec)).2.2.2) (goJoin_ne_empty (by simp))
    (strictlyInside_goJoin_iff hversionDir _)
  have hinstall (hleft : LeftToDefaults service) := made_iff
    (P := StrictlyInside cfg (installHome cfg (cleanKind cfg.toSettings service)))
    (fun hwheel : cleanKind cfg.toSettings service ≠ "wheel" =>
      (hleft.installPath cfg hkind).trans (if_neg hwheel))
    (fun hwheel => (hleft.installPath cfg hkind).trans (if_pos (not_not.1 hwheel)))
    (goJoin_ne_empty hname) (strictlyInside_goJoin_iff hhome _)
  have hexplicit (hne : goTrimSpace service.systemdUnit ≠ "") := made_iff
    (P := fun unit => Inside cfg cfg.unitDirectory (systemdUnitPath cfg unit))
    (fun hexec => (withDefaults_explicitUnit cfg.toSettings hne).trans (if_neg hexec))
    (fun hexec => (withDefaults_explicitUnit cfg.toSettings hne).trans (if_pos (not_not.1 hexec))) hne
    (inside_goJoin_iff hunitDir _)
  constructor
  · intro h
    exact {
      unit := fun hleft => (hunit hleft).1 (h.unit hleft)
      script := fun hleft => (hscript hleft).1 (h.script hleft)
      log := fun hleft => (hlog hleft).1 (h.log hleft)
      version := fun hleft => (hversion hleft).1 (h.version hleft)
      install := fun hleft => (hinstall hleft).1 (withDefaults_kind cfg.toSettings service ▸ h.install hleft)
      explicitUnit := fun hne => (hexplicit hne).1 (h.explicitUnit hne) }
  · intro h
    exact {
      unit := fun hleft => (hunit hleft).2 (h.unit hleft)
      script := fun hleft => (hscript hleft).2 (h.script hleft)
      log := fun hleft => (hlog hleft).2 (h.log hleft)
      version := fun hleft => (hversion hleft).2 (h.version hleft)
      install := fun hleft => withDefaults_kind cfg.toSettings service ▸ (hinstall hleft).2 (h.install hleft)
      explicitUnit := fun hne => (hexplicit hne).2 (h.explicitUnit hne) }

theorem comesBack_of_plainName (h : plainName name = true) : ComesBack cfg dir name := by
  obtain ⟨hdown, hleaves⟩ := steps_of_plainName h (cfg.at dir)
  rw [ComesBack, hdown, hleaves]
  exact ⟨List.nil_prefix, (cons_ne_nil _ _).symm⟩

theorem namesContained_of_plainName (hname : plainName (goTrimSpace service.name) = true)
    (hunit : goTrimSpace service.systemdUnit ≠ "" → plainName (goTrimSpace service.systemdUnit) = true) :
    NamesContained cfg service where
  unit _ _ := by
    have hfile : plainName ("trakrai-" ++ goTrimSpace service.name ++ ".service") = true :=
      plainName_affixes hname (by decide) (by decide) (by decide)
    obtain ⟨hdown, hleaves⟩ := steps_of_plainName hfile (cfg.at cfg.unitDirectory)
    exact ⟨_, by rw [hdown, hleaves, nil_append]⟩
  script _ _ := comesBack_of_plainName (plainName_affixes hname (by decide) (by decide) (by decide))
  log _ _ := by
    have hfile : plainName ("" ++ goTrimSpace service.name ++ ".log") = true :=
      plainName_affixes hname (by decide) (by decide) (by decide)
    rw [String.empty_append] at hfile
    exact comesBack_of_plainName hfile
  version _ _ := by
    have hfile : plainName ("" ++ goTrimSpace service.name ++ ".txt") = true :=
      plainName_affixes hname (by decide) (by decide) (by decide)
    rw [String.empty_append] at hfile
    exact comesBack_of_plainName hfile
  install _ _ := comesBack_of_plainName hname
  explicitUnit hne _ := by
    obtain ⟨-, hleaves⟩ := steps_of_plainName (hunit hne) (cfg.at cfg.unitDirectory)
    rw [hleaves]
    exact nil_prefix

end

theorem deviceConfig_loaded : Loaded deviceConfig := by
  rw [Loaded]
  decide +kernel

def recorder : ManagedServiceConfig := { name := " recorder ", kind := "binary", execStart := ["record"] }

theorem filesContained_iff_recorder :
    FilesContained deviceConfig recorder (withDefaults deviceSettings recorder) :=
  (filesContained_iff deviceConfig_loaded (by decide +kernel)).2
    (namesContained_of_plainName (by decide +kernel) fun hne => absurd (by decide) hne)

def outsideJob : ManagedServiceConfig :=
  { name := "../../etc/cron.d/job", kind := "binary", execStart := ["job"] }

theorem outsideJob_log : ¬ ∀ (cfg : Config) (service normalized : ManagedServiceConfig), Loaded cfg →
    normalizeManagedService cfg.toSettings service = .ok normalized →
    FilesContained cfg service normalized := by
  intro h
  have haccepted : normalizeManagedService deviceSettings outsideJob =
      .ok (withDefaults deviceSettings outsideJob) := by decide +kernel
  have hlog := (h deviceConfig outsideJob _ deviceConfig_loaded haccepted).log
    ⟨by decide, by decide, by decide, by decide, by decide⟩ (by decide +kernel)
  exact absurd hlog.1 (by rw [Inside]; decide +kernel)

end Trakrai.RuntimeManager
