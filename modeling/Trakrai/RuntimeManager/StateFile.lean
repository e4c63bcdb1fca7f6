import Trakrai.Lib.GoJson
import Trakrai.RuntimeManager.Containment
import Trakrai.RuntimeManager.Unit

namespace Trakrai.RuntimeManager
open List Lib

section
variable (cfg : Settings) (service : ManagedServiceConfig)

def installFallback : String :=
  if service.kind = "binary" then goJoin cfg.binaryDir service.name
  else if service.kind = "asset" ∨ service.kind = "zip" then goJoin cfg.rootDir service.name
  else ""

def unitFallback (made : String) : String := if service.execStart ≠ [] then made else ""

def fallbacks : List (String × String) :=
  [(service.installPath, installFallback cfg service),
    (service.logPath, unitFallback service (goJoin cfg.logDir (service.name ++ ".log"))),
    (service.scriptPath, unitFallback service (goJoin cfg.scriptDir ("start-" ++ service.name ++ ".sh"))),
    (service.versionFile, unitFallback service (goJoin cfg.versionDir (service.name ++ ".txt"))),
    (service.workingDirectory, unitFallback service (defaultWorkingDirectory cfg service))]

/-- No path has white space at its ends, unless it is blank and what an absent one is left to. -/
structure Restored : Prop where
  paths : ∀ path ∈ fallbacks cfg service,
    goTrimSpace path.1 = path.1 ∨ goTrimSpace path.1 = "" ∧ path.1 = path.2
  environmentFiles : ∀ path ∈ service.environmentFiles, goTrimSpace path = path

def recleaned : ManagedServiceConfig :=
  { service with
    installPath := cleanOptionalPath service.installPath
    logPath := cleanOptionalPath service.logPath
    scriptPath := cleanOptionalPath service.scriptPath
    versionFile := cleanOptionalPath service.versionFile
    workingDirectory := cleanOptionalPath service.workingDirectory
    environmentFiles := cleanPathList service.environmentFiles }

end

section
variable {cfg : Settings} {service : ManagedServiceConfig} {path made : String}

theorem cleanOptionalPath_eq_iff (h : CleanPath path) :
    cleanOptionalPath path = path ↔ goTrimSpace path = path := by
  constructor
  · intro he
    rw [cleanOptionalPath] at he
    split at he
    · rename_i hblank
      rw [hblank, he]
    · rename_i hne
      apply trimWith_of_length
      have hlength := length_goClean_le hne
      rwa [he] at hlength
  · exact cleanOptionalPath_eq h

theorem cleanOptionalPath_eq_empty_iff : cleanOptionalPath path = "" ↔ goTrimSpace path = "" := by
  rw [cleanOptionalPath]
  split
  · rename_i hblank
    exact iff_of_true rfl hblank
  · rename_i hne
    exact iff_of_false (goClean_ne_empty _) hne

theorem orDefault_cleanOptionalPath_iff (h : CleanPath path) (hempty : path = "" → made = "") :
    orDefault (cleanOptionalPath path) made = path ↔
      goTrimSpace path = path ∨ goTrimSpace path = "" ∧ path = made := by
  by_cases hblank : goTrimSpace path = ""
  · rw [orDefault_of_blank (cleanOptionalPath_eq_empty_iff.2 hblank)]
    constructor
    · intro he
      exact .inr ⟨hblank, he.symm⟩
    · rintro (htrim | ⟨-, he⟩)
      · rw [hblank] at htrim
        rw [hempty htrim.symm, htrim]
      · exact he.symm
  · rw [orDefault_eq (mt cleanOptionalPath_eq_empty_iff.1 hblank), cleanOptionalPath_eq_iff h]
    constructor
    · exact .inl
    · rintro (htrim | ⟨he, -⟩)
      · exact htrim
      · exact absurd he hblank

theorem cleanPathList_eq_iff (hclean : ∀ path ∈ values, CleanPath path)
    (hne : ∀ path ∈ values, path ≠ "") :
    cleanPathList values = values ↔ ∀ path ∈ values, goTrimSpace path = path := by
  constructor
  · intro he path hpath
    have hlength : ((values.map cleanOptionalPath).filter (· ≠ "")).length =
        (values.map cleanOptionalPath).length := by
      rw [length_map]
      exact congrArg List.length he
    have hkeep : (values.map cleanOptionalPath).filter (· ≠ "") = values.map cleanOptionalPath :=
      filter_eq_self.2 (length_filter_eq_length_iff.1 hlength)
    have hmap : values.map cleanOptionalPath = values.map id :=
      (hkeep.symm.trans he).trans (map_id values).symm
    rw [← cleanOptionalPath_eq_iff (hclean path hpath)]
    exact map_inj_left.1 hmap path hpath
  · intro h
    exact cleanPathList_eq hne fun path hpath =>
      cleanOptionalPath_eq (hclean path hpath) (h path hpath)

theorem Cleaned.cleanFields_recleaned (h : Cleaned service) (cfg : Settings) :
    cleanFields cfg service = recleaned service := by
  obtain ⟨hdescription, hgroup, hrestart, hunit, huser, hwanted⟩ : _ ∧ _ ∧ _ ∧ _ ∧ _ ∧ _ := by
    simpa only [forall_mem_cons, not_mem_nil, false_implies, implies_true, and_true]
      using h.texts
  obtain ⟨hafter, hexec, hrequires, hsetup, hcommand⟩ : _ ∧ _ ∧ _ ∧ _ ∧ _ := by
    simpa only [forall_mem_cons, not_mem_nil, false_implies, implies_true, and_true]
      using h.lists
  rw [cleanFields, h.name, if_neg h.displayName, cleanKind_eq h.kind, h.environment, hdescription, hgroup,
    hrestart, hunit, huser, hwanted, hafter, hexec, hrequires, hsetup, hcommand, recleaned]

theorem withInstallPath_eq_orDefault (cfg : Settings) (service : ManagedServiceConfig) :
    withInstallPath cfg service =
      { service with installPath := orDefault service.installPath (installFallback cfg service) } := by
  by_cases hgiven : service.installPath ≠ ""
  · rw [withInstallPath, if_pos hgiven, orDefault_eq hgiven]
  · rw [withInstallPath, if_neg hgiven, not_not.1 hgiven, orDefault_of_blank rfl, installFallback]
    by_cases hbinary : service.kind = "binary"
    · rw [if_pos hbinary, if_pos hbinary]
    · rw [if_neg hbinary, if_neg hbinary]
      by_cases hzip : service.kind = "asset" ∨ service.kind = "zip"
      · rw [if_pos hzip, if_pos hzip]
      · rw [if_neg hzip, if_neg hzip, ← not_not.1 hgiven]

theorem chosen_again (h : Cleaned service) (cfg : Settings) :
    withInstallPath cfg (cleanFields cfg service) = { recleaned service with
        installPath := orDefault (cleanOptionalPath service.installPath) (installFallback cfg service) } := by
  have hfallback : installFallback cfg (recleaned service) = installFallback cfg service := rfl
  rw [h.cleanFields_recleaned cfg, withInstallPath_eq_orDefault, hfallback, recleaned]

theorem withDefaults_started (h : Cleaned service) (cfg : Settings) (hexec : service.execStart ≠ []) :
    ∃ chosen : ManagedServiceConfig, chosen.kind = service.kind ∧
      chosen.installPath = orDefault (cleanOptionalPath service.installPath) (installFallback cfg service) ∧
      withDefaults cfg service = withCommandDefaults { service with
        systemdUnit := orDefault service.systemdUnit ("trakrai-" ++ service.name ++ ".service")
        installPath := orDefault (cleanOptionalPath service.installPath) (installFallback cfg service)
        logPath := orDefault (cleanOptionalPath service.logPath) (goJoin cfg.logDir (service.name ++ ".log"))
        scriptPath := orDefault (cleanOptionalPath service.scriptPath)
          (goJoin cfg.scriptDir ("start-" ++ service.name ++ ".sh"))
        versionFile := orDefault (cleanOptionalPath service.versionFile)
          (goJoin cfg.versionDir (service.name ++ ".txt"))
        workingDirectory := orDefault (cleanOptionalPath service.workingDirectory)
          (defaultWorkingDirectory cfg chosen)
        environmentFiles := cleanPathList service.environmentFiles
        restart := orDefault service.restart "always"
        restartSec := if service.restartSec ≤ 0 then 2 else service.restartSec
        wantedBy := orDefault service.wantedBy "multi-user.target"
        after := if service.after = [] then ["network-online.target"] else service.after } := by
  refine ⟨withInstallPath cfg (cleanFields cfg service), ?_, ?_, ?_⟩
  · rw [chosen_again h cfg, recleaned]
  · rw [chosen_again h cfg]
  · rw [withDefaults, chosen_again h cfg, recleaned, withUnitDefaults, if_pos hexec]

theorem withDefaults_idle (h : Cleaned service) (cfg : Settings) (hexec : service.execStart = []) :
    withDefaults cfg service = withCommandDefaults { service with
      installPath := orDefault (cleanOptionalPath service.installPath) (installFallback cfg service)
      logPath := cleanOptionalPath service.logPath
      versionFile := cleanOptionalPath service.versionFile
      workingDirectory := cleanOptionalPath service.workingDirectory
      environmentFiles := cleanPathList service.environmentFiles
      allowControl := false, enabled := false, restart := "", restartSec := 0
      scriptPath := "", systemdUnit := "" } := by
  rw [withDefaults, chosen_again h cfg, recleaned, withUnitDefaults, if_neg (not_not.2 hexec)]

theorem defaultWorkingDirectory_congr (cfg : Settings) (hkind : chosen.kind = service.kind)
    (hinstall : chosen.installPath = service.installPath) :
    defaultWorkingDirectory cfg chosen = defaultWorkingDirectory cfg service := by
  rw [defaultWorkingDirectory, defaultWorkingDirectory, hkind, hinstall]

theorem made_of_orDefault (h : orDefault value made = value) (hempty : value = "") : made = "" := by
  rw [orDefault_of_blank hempty] at h
  rw [h, hempty]

theorem Normal.installFallback_of_empty (h : Normal cfg service) (hempty : service.installPath = "") :
    installFallback cfg service = "" := by
  have hchosen := h.installPath
  rw [withInstallPath_eq_orDefault] at hchosen
  have hinstall := congrArg ManagedServiceConfig.installPath hchosen
  exact made_of_orDefault hinstall hempty

def pathsOf (service : ManagedServiceConfig) :
    String × String × String × String × String × List String :=
  (service.installPath, service.logPath, service.scriptPath, service.versionFile, service.workingDirectory,
    service.environmentFiles)

theorem pathsOf_withCommandDefaults (service : ManagedServiceConfig) :
    pathsOf (withCommandDefaults service) = pathsOf service := rfl

theorem Normal.started_eq_iff (h : Normal cfg service) (hexec : service.execStart ≠ []) :
    withDefaults cfg service = service ↔ Restored cfg service := by
  have hunit := h.unit
  rw [withUnitDefaults, if_pos hexec] at hunit
  have hfallback (made : String) : unitFallback service made = made := if_pos hexec
  have hclean : ∀ path ∈ service.paths, CleanPath path := h.paths
  simp only [ManagedServiceConfig.paths, forall_mem_append, forall_mem_cons,
    not_mem_nil, false_implies, implies_true, and_true] at hclean
  obtain ⟨⟨hinstall, hlog, hscript, hversion, hdirectory⟩, hfiles⟩ := hclean
  obtain ⟨chosen, hkind, hchosen, hdefaults⟩ := withDefaults_started h.toCleaned cfg hexec
  have hinstall' := orDefault_cleanOptionalPath_iff hinstall h.installFallback_of_empty
  have hlog' := orDefault_cleanOptionalPath_iff hlog
    (made_of_orDefault (congrArg ManagedServiceConfig.logPath hunit))
  have hscript' := orDefault_cleanOptionalPath_iff hscript
    (made_of_orDefault (congrArg ManagedServiceConfig.scriptPath hunit))
  have hversion' := orDefault_cleanOptionalPath_iff hversion
    (made_of_orDefault (congrArg ManagedServiceConfig.versionFile hunit))
  have hdirectory' := orDefault_cleanOptionalPath_iff hdirectory
    (made_of_orDefault (congrArg ManagedServiceConfig.workingDirectory hunit))
  have hfiles' := cleanPathList_eq_iff hfiles h.environmentFiles
  constructor
  · intro he
    have hpaths := congrArg pathsOf (hdefaults.symm.trans he)
    rw [pathsOf_withCommandDefaults] at hpaths
    simp only [pathsOf, Prod.mk.injEq] at hpaths
    obtain ⟨heinstall, helog, hescript, heversion, hedirectory, hefiles⟩ := hpaths
    have hsame := defaultWorkingDirectory_congr cfg hkind (hchosen.trans heinstall)
    rw [hsame] at hedirectory
    refine ⟨?_, hfiles'.1 hefiles⟩
    simp only [fallbacks, hfallback, forall_mem_cons, not_mem_nil, false_implies, implies_true,
      and_true]
    exact ⟨hinstall'.1 heinstall, hlog'.1 helog, hscript'.1 hescript, hversion'.1 heversion,
      hdirectory'.1 hedirectory⟩
  · intro hrestored
    have hpaths := hrestored.paths
    simp only [fallbacks, hfallback, forall_mem_cons, not_mem_nil, false_implies, implies_true,
      and_true] at hpaths
    obtain ⟨hrinstall, hrlog, hrscript, hrversion, hrdirectory⟩ := hpaths
    have hsame := defaultWorkingDirectory_congr cfg hkind (hchosen.trans (hinstall'.2 hrinstall))
    have hunit' : orDefault service.systemdUnit ("trakrai-" ++ service.name ++ ".service") =
        service.systemdUnit := congrArg ManagedServiceConfig.systemdUnit hunit
    have hrestart : orDefault service.restart "always" = service.restart :=
      congrArg ManagedServiceConfig.restart hunit
    have hsec : (if service.restartSec ≤ 0 then 2 else service.restartSec) = service.restartSec :=
      congrArg ManagedServiceConfig.restartSec hunit
    have hwanted : orDefault service.wantedBy "multi-user.target" = service.wantedBy :=
      congrArg ManagedServiceConfig.wantedBy hunit
    have hafter : (if service.after = [] then ["network-online.target"] else service.after) = service.after :=
      congrArg ManagedServiceConfig.after hunit
    rw [hdefaults, hsame, hinstall'.2 hrinstall, hlog'.2 hrlog, hscript'.2 hrscript, hversion'.2 hrversion,
      hdirectory'.2 hrdirectory, hfiles'.2 hrestored.environmentFiles, hunit', hrestart, hsec, hwanted, hafter]
    exact h.commands

theorem orDefault_empty (value : String) : orDefault value "" = value := by
  rw [orDefault]
  split
  · exact Eq.symm ‹_›
  · rfl

theorem Normal.idle_eq_iff (h : Normal cfg service) (hexec : service.execStart = []) :
    withDefaults cfg service = service ↔ Restored cfg service := by
  have hunit := h.unit
  rw [withUnitDefaults, if_neg (not_not.2 hexec)] at hunit
  have hfallback (made : String) : unitFallback service made = "" := if_neg (not_not.2 hexec)
  have hclean : ∀ path ∈ service.paths, CleanPath path := h.paths
  simp only [ManagedServiceConfig.paths, forall_mem_append, forall_mem_cons,
    not_mem_nil, false_implies, implies_true, and_true] at hclean
  obtain ⟨⟨hinstall, hlog, hscript, hversion, hdirectory⟩, hfiles⟩ := hclean
  have hdefaults := withDefaults_idle h.toCleaned cfg hexec
  have hinstall' := orDefault_cleanOptionalPath_iff hinstall h.installFallback_of_empty
  have hempty (path : String) (hpath : CleanPath path) : cleanOptionalPath path = path ↔
      goTrimSpace path = path ∨ goTrimSpace path = "" ∧ path = "" := by
    have hiff := orDefault_cleanOptionalPath_iff hpath fun _ => Eq.refl ""
    rwa [orDefault_empty] at hiff
  have hscript' : service.scriptPath = "" := (congrArg ManagedServiceConfig.scriptPath hunit).symm
  have hfiles' := cleanPathList_eq_iff hfiles h.environmentFiles
  constructor
  · intro he
    have hpaths := congrArg pathsOf (hdefaults.symm.trans he)
    rw [pathsOf_withCommandDefaults] at hpaths
    simp only [pathsOf, Prod.mk.injEq] at hpaths
    obtain ⟨heinstall, helog, -, heversion, hedirectory, hefiles⟩ := hpaths
    have htrim : goTrimSpace service.scriptPath = service.scriptPath := by
      rw [hscript']
      rfl
    refine ⟨?_, hfiles'.1 hefiles⟩
    simp only [fallbacks, hfallback, forall_mem_cons, not_mem_nil, false_implies, implies_true,
      and_true]
    exact ⟨hinstall'.1 heinstall, (hempty _ hlog).1 helog, .inl htrim, (hempty _ hversion).1 heversion,
      (hempty _ hdirectory).1 hedirectory⟩
  · intro hrestored
    have hpaths := hrestored.paths
    simp only [fallbacks, hfallback, forall_mem_cons, not_mem_nil, false_implies, implies_true,
      and_true] at hpaths
    obtain ⟨hrinstall, hrlog, -, hrversion, hrdirectory⟩ := hpaths
    rw [hdefaults, hinstall'.2 hrinstall, (hempty _ hlog).2 hrlog, (hempty _ hversion).2 hrversion,
      (hempty _ hdirectory).2 hrdirectory, hfiles'.2 hrestored.environmentFiles, hunit]
    exact h.commands

theorem Normal.normalize_eq_iff (h : Normal cfg service) :
    normalizeManagedService cfg service = .ok service ↔ Restored cfg service := by
  have hdefaults : withDefaults cfg service = service ↔ Restored cfg service := by
    by_cases hexec : service.execStart = []
    · exact h.idle_eq_iff hexec
    · exact h.started_eq_iff hexec
  rw [← hdefaults]
  constructor
  · intro he
    exact (normalizeManagedService_eq he).2.2.2.symm
  · intro he
    rw [normalizeManagedService, if_neg (by rw [h.name]; exact h.name_ne),
      if_neg (not_not.2 (by rw [cleanKind_eq h.kind]; exact h.kind)), he, h.checked]
    rfl

theorem normalizeFrom_forall₂ (h : normalizeFrom cfg index seen raw = .ok services):
    List.Forall₂ (fun service normalized => normalizeManagedService cfg service = .ok normalized)
      raw services := by
  induction raw generalizing services seen index with
  | nil =>
    obtain rfl : [] = services := by simpa [normalizeFrom] using h
    exact .nil
  | cons service raw ih =>
    rw [normalizeFrom] at h
    split at h
    · cases h
    · rename_i normalized hnormalize
      split at h
      · cases h
      · cases hrest : normalizeFrom cfg (index + 1) (cfg.toLower normalized.name :: seen) raw with
        | error error => simp [hrest, Except.map] at h
        | ok rest =>
          obtain rfl : normalized :: rest = services := by simpa [hrest, Except.map] using h
          exact .cons hnormalize (ih hrest)

theorem Normal.name_withDefaults (h : Normal cfg service) : (withDefaults cfg service).name = service.name := by
  have hcommands (service : ManagedServiceConfig) : (withCommandDefaults service).name = service.name := rfl
  by_cases hexec : service.execStart = []
  · rw [withDefaults_idle h.toCleaned cfg hexec, hcommands]
  · obtain ⟨chosen, -, -, hdefaults⟩ := withDefaults_started h.toCleaned cfg hexec
    rw [hdefaults, hcommands]

theorem normalizeManagedServices_eq_iff
    (hnormal : ∀ service ∈ services, Normal cfg service) (hkeys : (keys cfg services).Nodup)
    (horder : InOrder services) :
    normalizeManagedServices cfg services = .ok services ↔
      ∀ service ∈ services, normalizeManagedService cfg service = .ok service := by
  constructor
  · intro h
    cases hfrom : normalizeFrom cfg 0 [] services with
    | error error => simp [normalizeManagedServices, hfrom, Except.map] at h
    | ok normalized =>
      have hsorted : sortByName normalized = services := by
        simpa [normalizeManagedServices, hfrom, Except.map] using h
      have hall := normalizeFrom_forall₂ hfrom
      have hnames : normalized.map ManagedServiceConfig.name = services.map ManagedServiceConfig.name := by
        clear hfrom h hsorted horder hkeys
        induction hall with
        | nil => rfl
        | cons hnormalize _ ih =>
          obtain ⟨hservice, hservices⟩ := forall_mem_cons.1 hnormal
          rw [map_cons, map_cons, ih hservices, (normalizeManagedService_eq hnormalize).2.2.2,
            hservice.name_withDefaults]
      have hinorder : InOrder normalized := by
        have hpairwise : (services.map ManagedServiceConfig.name).Pairwise (· ≤ ·) := pairwise_map.2 horder
        rw [← hnames] at hpairwise
        exact pairwise_map.1 hpairwise
      rw [hinorder.sortByName_eq] at hsorted
      subst hsorted
      exact List.forall₂_same.1 hall
  · exact fun h => normalizeManagedServices_eq h hkeys horder

end

def inKeyOrder (service : ManagedServiceConfig) : ManagedServiceConfig :=
  { service with environment := sortedEnvironment service }

section
variable {cfg : Settings} {service : ManagedServiceConfig}

theorem withInstallPath_environment (cfg : Settings) (service : ManagedServiceConfig)
    (environment : List (String × String)) :
    withInstallPath cfg { service with environment := environment } =
      { withInstallPath cfg service with environment := environment } := by
  rw [withInstallPath_eq_orDefault, withInstallPath_eq_orDefault]
  rfl

theorem withUnitDefaults_environment (cfg : Settings) (service : ManagedServiceConfig)
    (environment : List (String × String)) :
    withUnitDefaults cfg { service with environment := environment } =
      { withUnitDefaults cfg service with environment := environment } := by
  have hdirectory : defaultWorkingDirectory cfg { service with environment := environment } =
      defaultWorkingDirectory cfg service := defaultWorkingDirectory_congr cfg rfl rfl
  rw [withUnitDefaults, withUnitDefaults]
  by_cases hexec : service.execStart ≠ []
  · rw [if_pos hexec, if_pos hexec, hdirectory]
  · rw [if_neg hexec, if_neg hexec]

theorem withCommandDefaults_environment (service : ManagedServiceConfig)
    (environment : List (String × String)) :
    withCommandDefaults { service with environment := environment } =
      { withCommandDefaults service with environment := environment } := rfl

theorem Normal.reordered (h : Normal cfg service) : Normal cfg (inKeyOrder service) := by
  have hnodup : (service.environment.map Prod.fst).Nodup := by
    rw [← h.environment]
    exact nodup_cleanEnvironmentMap _
  have hperm := sortedEnvironment_perm hnodup
  have htrimmed : TrimmedEntries (sortedEnvironment service) := by
    intro entry he
    have hentry := hperm.mem_iff.1 he
    rw [← h.environment] at hentry
    exact trimmedEntries_cleanEnvironmentMap _ entry hentry
  rw [inKeyOrder]
  refine ⟨{ h.toCleaned with
    environment := cleanEnvironmentMap_eq htrimmed ((hperm.map Prod.fst).nodup_iff.2 hnodup) }, ?_, ?_, ?_, ?_⟩
  · rw [withInstallPath_environment, h.installPath]
  · rw [withUnitDefaults_environment, h.unit]
  · rw [withCommandDefaults_environment, h.commands]
  · exact h.checked

theorem restored_inKeyOrder_iff : Restored cfg (inKeyOrder service) ↔ Restored cfg service := by
  have hfallbacks : fallbacks cfg (inKeyOrder service) = fallbacks cfg service := by
    have hdirectory : defaultWorkingDirectory cfg (inKeyOrder service) = defaultWorkingDirectory cfg service :=
      defaultWorkingDirectory_congr cfg rfl rfl
    rw [fallbacks, fallbacks, hdirectory]
    rfl
  constructor
  · intro h
    exact ⟨hfallbacks ▸ h.paths, h.environmentFiles⟩
  · intro h
    exact ⟨hfallbacks.symm ▸ h.paths, h.environmentFiles⟩

end

def serviceTags : List String :=
  ["after", "allow_control", "allow_update", "core", "description", "display_name", "enabled", "environment",
    "environment_files", "exec_start", "group", "install_path", "kind", "log_path", "name", "requires",
    "restart", "restart_sec", "script_path", "setup_command", "systemd_unit", "user", "version_command",
    "version_file", "wanted_by", "working_directory"]

/-- What `json.MarshalIndent` writes for a definition, and which of its collections are nil. -/
def serviceFields (absent : String → Bool) (service : ManagedServiceConfig) : List (String × Json) :=
  [("after", textsValue (absent "after") service.after),
    ("allow_control", .bool service.allowControl),
    ("allow_update", .bool service.allowUpdate),
    ("core", .bool service.core),
    ("description", .str service.description),
    ("display_name", .str service.displayName),
    ("enabled", .bool service.enabled),
    ("environment", entriesValue (absent "environment") (sortedEnvironment service)),
    ("environment_files", textsValue (absent "environment_files") service.environmentFiles),
    ("exec_start", textsValue (absent "exec_start") service.execStart),
    ("group", .str service.group),
    ("install_path", .str service.installPath),
    ("kind", .str service.kind),
    ("log_path", .str service.logPath),
    ("name", .str service.name),
    ("requires", textsValue (absent "requires") service.requires),
    ("restart", .str service.restart),
    ("restart_sec", .num service.restartSec),
    ("script_path", .str service.scriptPath),
    ("setup_command", textsValue (absent "setup_command") service.setupCommand),
    ("systemd_unit", .str service.systemdUnit),
    ("user", .str service.user),
    ("version_command", textsValue (absent "version_command") service.versionCommand),
    ("version_file", .str service.versionFile),
    ("wanted_by", .str service.wantedBy),
    ("working_directory", .str service.workingDirectory)]

/-- What `json.Unmarshal` makes of a definition. -/
def unmarshalService (equalFold : String → String → Bool) : Json → Option ManagedServiceConfig
  | .null => some {}
  | .obj fields => do
    let field := structField equalFold serviceTags fields
    let after ← readTexts (field "after")
    let allowControl ← readFlag (field "allow_control")
    let allowUpdate ← readFlag (field "allow_update")
    let core ← readFlag (field "core")
    let description ← readText (field "description")
    let displayName ← readText (field "display_name")
    let enabled ← readFlag (field "enabled")
    let environment ← readEntries (field "environment")
    let environmentFiles ← readTexts (field "environment_files")
    let execStart ← readTexts (field "exec_start")
    let group ← readText (field "group")
    let installPath ← readText (field "install_path")
    let kind ← readText (field "kind")
    let logPath ← readText (field "log_path")
    let name ← readText (field "name")
    let requires ← readTexts (field "requires")
    let restart ← readText (field "restart")
    let restartSec ← readInt (field "restart_sec")
    let scriptPath ← readText (field "script_path")
    let setupCommand ← readTexts (field "setup_command")
    let systemdUnit ← readText (field "systemd_unit")
    let user ← readText (field "user")
    let versionCommand ← readTexts (field "version_command")
    let versionFile ← readText (field "version_file")
    let wantedBy ← readText (field "wanted_by")
    let workingDirectory ← readText (field "working_directory")
    return ⟨after, allowControl, allowUpdate, core, description, displayName, enabled, environment,
      environmentFiles, execStart, group, installPath, kind, logPath, name, requires, restart, restartSec,
      scriptPath, setupCommand, systemdUnit, user, versionCommand, versionFile, wantedBy, workingDirectory⟩
  | _ => none

/-- What `saveManagedServices` writes. -/
def stateValue (absent : String → String → Bool) (services : List ManagedServiceConfig) : Json :=
  .obj [("services", .arr (services.map fun service => .obj (serviceFields (absent service.name) service)))]

/-- What `loadManagedServicesFromState` reads in a text, by its value. -/
def contentOf (equalFold : String → String → Bool) (text : String) : Json → Content
  | .obj fields =>
    match structField equalFold ["services"] fields "services" with
    | some (.arr items) => ((items.mapM (unmarshalService equalFold)).map .state).getD (.other text)
    | _ => .other text
  | .arr items => ((items.mapM (unmarshalService equalFold)).map .legacy).getD (.other text)
  | .null => .legacy []
  | _ => .other text

section
variable {cfg : Settings} {service : ManagedServiceConfig} (equalFold : String → String → Bool)

theorem nodup_sortedEnvironment (h : (service.environment.map Prod.fst).Nodup):
    ((sortedEnvironment service).map Prod.fst).Nodup :=
  ((sortedEnvironment_perm h).map Prod.fst).nodup_iff.2 h

theorem unmarshalService_serviceFields (absent : String → Bool)
    (h : (service.environment.map Prod.fst).Nodup) :
    unmarshalService equalFold (.obj (serviceFields absent service)) = some (inKeyOrder service) := by
  have hfield (i : Nat) {tag : String} {value : Json} (hi : (serviceFields absent service)[i]? = some (tag, value)) :
      structField equalFold serviceTags (serviceFields absent service) tag = some value :=
    structField_of_mem rfl (by decide) (List.mem_of_getElem? hi)
  rw [unmarshalService, hfield 0 rfl, hfield 1 rfl, hfield 2 rfl, hfield 3 rfl, hfield 4 rfl, hfield 5 rfl,
    hfield 6 rfl, hfield 7 rfl, hfield 8 rfl, hfield 9 rfl, hfield 10 rfl, hfield 11 rfl, hfield 12 rfl, hfield 13 rfl,
    hfield 14 rfl, hfield 15 rfl, hfield 16 rfl, hfield 17 rfl, hfield 18 rfl, hfield 19 rfl, hfield 20 rfl,
    hfield 21 rfl, hfield 22 rfl, hfield 23 rfl, hfield 24 rfl, hfield 25 rfl]
  simp only [readTexts_textsValue, readFlag_bool, readText_str, readInt_num,
    readEntries_entriesValue _ (nodup_sortedEnvironment h), Option.bind_eq_bind, Option.bind_some]
  rfl

theorem contentOf_stateValue (absent : String → String → Bool) (text : String)
    (h : ∀ service ∈ services, (service.environment.map Prod.fst).Nodup) :
    contentOf equalFold text (stateValue absent services) = .state (services.map inKeyOrder) := by
  have hitems : (services.map fun service => Json.obj (serviceFields (absent service.name) service)).mapM
      (unmarshalService equalFold) = some (services.map inKeyOrder) := by
    induction services with
    | nil => rfl
    | cons service services ih =>
      obtain ⟨hservice, hservices⟩ := forall_mem_cons.1 h
      rw [map_cons, mapM_cons, unmarshalService_serviceFields equalFold _ hservice, ih hservices]
      rfl
  have hfield : structField equalFold ["services"]
      [("services", .arr (services.map fun service => Json.obj (serviceFields (absent service.name) service)))]
      "services" =
      some (.arr (services.map fun service => Json.obj (serviceFields (absent service.name) service))) :=
    structField_of_mem rfl (nodup_singleton _) (mem_singleton.2 rfl)
  rw [stateValue, contentOf, hfield]
  dsimp only
  rw [hitems]
  rfl

theorem Normal.nodup_environment (h : Normal cfg service) : (service.environment.map Prod.fst).Nodup := by
  rw [← h.environment]
  exact nodup_cleanEnvironmentMap _

theorem Normal.normalize_inKeyOrder_iff (h : Normal cfg service) :
    normalizeManagedService cfg (inKeyOrder service) = .ok (inKeyOrder service) ↔ Restored cfg service := by
  rw [h.reordered.normalize_eq_iff, restored_inKeyOrder_iff]

/-- Definitions are loaded as they were saved exactly when their paths are restored. -/
theorem loads_as_saved_iff (cfg : Config) (equalFold : String → String → Bool)
    (absent : String → String → Bool) (text : String) :
    (∀ raw service, normalizeManagedService cfg.toSettings raw = .ok service →
      ((unmarshalService equalFold (.obj (serviceFields (absent service.name) service))).map
          (normalizeManagedService cfg.toSettings) = some (.ok (inKeyOrder service)) ↔
        Restored cfg.toSettings service)) ∧
      ∀ registry : Registry cfg.toSettings,
        (∀ service ∈ registry.list, ∃ raw, normalizeManagedService cfg.toSettings raw = .ok service) →
        (loadManagedServicesFromState cfg
            (some (contentOf equalFold text (stateValue absent registry.list))) =
              .ok (registry.list.map inKeyOrder, false) ↔
          ∀ service ∈ registry.list, Restored cfg.toSettings service) := by
  constructor
  · intro raw service hnormalize
    have hnormal := normal_of_normalize hnormalize
    rw [unmarshalService_serviceFields equalFold _ hnormal.nodup_environment, Option.map_some,
      Option.some.injEq]
    exact hnormal.normalize_inKeyOrder_iff
  · intro registry haccepted
    have hnormal : ∀ service ∈ registry.list, Normal cfg.toSettings service := by
      intro service hs
      obtain ⟨raw, hnormalize⟩ := haccepted service hs
      exact normal_of_normalize hnormalize
    have hread : ∀ service ∈ registry.list.map inKeyOrder, Normal cfg.toSettings service :=
      forall_mem_map.2 fun service hs => (hnormal service hs).reordered
    have hkeys : (keys cfg.toSettings (registry.list.map inKeyOrder)).Nodup := by
      rw [keys, map_map]
      exact registry.nodup_keys
    have horder : InOrder (registry.list.map inKeyOrder) :=
      pairwise_map.2 (inOrder_sortByName _)
    rw [contentOf_stateValue equalFold absent text fun service hs => (hnormal service hs).nodup_environment,
      loadManagedServicesFromState]
    have hload : (normalizeManagedServices cfg.toSettings (registry.list.map inKeyOrder)).map (·, false) =
        .ok (registry.list.map inKeyOrder, false) ↔
        normalizeManagedServices cfg.toSettings (registry.list.map inKeyOrder) =
          .ok (registry.list.map inKeyOrder) := by
      cases normalizeManagedServices cfg.toSettings (registry.list.map inKeyOrder) <;>
        simp [Except.map]
    rw [hload, normalizeManagedServices_eq_iff hread hkeys horder, forall_mem_map]
    exact forall₂_congr fun service hs => (hnormal service hs).normalize_inKeyOrder_iff

end

def oneService (service : ManagedServiceConfig) : Registry deviceConfig.toSettings :=
  Registry.empty.store service

theorem list_oneService (service : ManagedServiceConfig) : (oneService service).list = [service] := rfl

theorem loads_as_saved_iff_edgeUi : Restored deviceConfig.toSettings edgeUi ∧
    loadManagedServicesFromState deviceConfig (some (contentOf (fun _ _ => false) ""
      (stateValue (fun _ _ => false) (oneService edgeUi).list))) =
        .ok ((oneService edgeUi).list.map inKeyOrder, false) := by
  have hrestored : Restored deviceConfig.toSettings edgeUi :=
    ⟨fun path hpath => .inl ((by decide +kernel : ∀ path ∈ fallbacks deviceConfig.toSettings edgeUi,
      goTrimSpace path.1 = path.1) path hpath), nofun⟩
  have haccepted : normalizeManagedService deviceSettings edgeUi = .ok edgeUi := by decide +kernel
  refine ⟨hrestored, ((loads_as_saved_iff deviceConfig _ _ _).2 (oneService edgeUi) ?_).2 ?_⟩
  · exact forall_mem_singleton.2 ⟨edgeUi, haccepted⟩
  · exact forall_mem_singleton.2 hrestored

def spacedUi : ManagedServiceConfig :=
  { name := "edge-ui", kind := "zip", installPath := "./ ui" }

theorem spacedUi_reloaded : ¬ ∀ (cfg : Config) (equalFold : String → String → Bool)
    (absent : String → String → Bool) (text : String) (registry : Registry cfg.toSettings),
    (∀ service ∈ registry.list, ∃ raw, normalizeManagedService cfg.toSettings raw = .ok service) →
    loadManagedServicesFromState cfg (some (contentOf equalFold text (stateValue absent registry.list))) =
      .ok (registry.list.map inKeyOrder, false) := by
  intro h
  have haccepted : normalizeManagedService deviceConfig.toSettings spacedUi =
      .ok (withDefaults deviceSettings spacedUi) := by decide +kernel
  have hload := h deviceConfig (fun _ _ => false) (fun _ _ => false) ""
    (oneService (withDefaults deviceSettings spacedUi)) (forall_mem_singleton.2 ⟨_, haccepted⟩)
  rw [list_oneService, contentOf_stateValue _ _ _ (forall_mem_singleton.2 (by decide +kernel))] at hload
  exact absurd hload (by decide +kernel)

end Trakrai.RuntimeManager
