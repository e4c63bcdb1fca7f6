import Mathlib.Data.String.Basic
import Trakrai.RuntimeManager.Config

namespace Trakrai.RuntimeManager
open List Lib

def CleanPath (path : String) : Prop := path = "" ∨ goClean path = path

theorem cleanPath_goClean (path : String) : CleanPath (goClean path) := .inr (goClean_goClean path)

theorem cleanPath_cleanOptionalPath (path : String) : CleanPath (cleanOptionalPath path) := by
  rw [cleanOptionalPath]
  split
  · exact .inl rfl
  · exact cleanPath_goClean _

theorem cleanOptionalPath_eq (h : CleanPath path) (htrim : goTrimSpace path = path) :
    cleanOptionalPath path = path := by
  rw [cleanOptionalPath, htrim]
  split
  · rename_i he
    exact he.symm
  · rename_i hne
    exact h.resolve_left hne

theorem cleanPath_goJoin (dir name : String) : CleanPath (goJoin dir name) := by
  rw [goJoin]
  split
  · exact cleanPath_goClean _
  · split
    · exact cleanPath_goClean _
    · exact .inl rfl

theorem cleanStringList_idem (values : List String) :
    cleanStringList (cleanStringList values) = cleanStringList values := by
  have hmap : (cleanStringList values).map goTrimSpace = cleanStringList values := by
    conv_rhs => rw [← map_id (cleanStringList values)]
    apply map_congr_left
    intro value hv
    obtain ⟨raw, -, rfl⟩ := mem_map.1 (mem_filter.1 hv).1
    exact goTrimSpace_idem raw
  rw [cleanStringList, hmap]
  simp [cleanStringList]

theorem cleanPathList_eq (hne : ∀ path ∈ values, path ≠ "")
    (h : ∀ path ∈ values, cleanOptionalPath path = path) : cleanPathList values = values := by
  have hmap : values.map cleanOptionalPath = values := by
    conv_rhs => rw [← map_id values]
    exact map_congr_left h
  rw [cleanPathList, hmap, filter_eq_self]
  exact fun path hp => by simpa using hne path hp

section
variable (values : List (String × String))

def TrimmedEntries : Prop :=
  ∀ entry ∈ values, (goTrimSpace entry.1, goTrimSpace entry.2) = entry ∧ entry.1 ≠ ""

theorem trimmedEntries_cleanEnvironmentMap :
    TrimmedEntries (cleanEnvironmentMap values) := by
  apply forall_foldl_setKey
    (P := fun entry => (goTrimSpace entry.1, goTrimSpace entry.2) = entry ∧ entry.1 ≠ "")
    (forall_mem_nil _)
  intro entry he
  obtain ⟨hm, hne⟩ := mem_filter.1 he
  obtain ⟨raw, -, rfl⟩ := mem_map.1 hm
  exact ⟨by simp only [goTrimSpace_idem], by simpa using hne⟩

theorem nodup_cleanEnvironmentMap :
    ((cleanEnvironmentMap values).map Prod.fst).Nodup :=
  nodup_foldl_setKey Prod.fst Prod.snd _ nodup_nil

end

theorem cleanEnvironmentMap_eq (h : TrimmedEntries values) (hnodup : (values.map Prod.fst).Nodup): cleanEnvironmentMap values = values := by
  have hmap : values.map (fun entry => (goTrimSpace entry.1, goTrimSpace entry.2)) = values := by
    conv_rhs => rw [← map_id values]
    exact map_congr_left fun entry he => (h entry he).1
  have hfilter : values.filter (·.1 ≠ "") = values := by
    rw [filter_eq_self]
    exact fun entry he => by simpa using (h entry he).2
  rw [cleanEnvironmentMap, hmap, hfilter, foldl_setKey_of_nodup (by simpa using hnodup), nil_append]

theorem cleanEnvironmentMap_idem (values : List (String × String)) :
    cleanEnvironmentMap (cleanEnvironmentMap values) = cleanEnvironmentMap values :=
  cleanEnvironmentMap_eq (trimmedEntries_cleanEnvironmentMap values) (nodup_cleanEnvironmentMap values)

section
variable {cfg : Settings} {service : ManagedServiceConfig}

/-- A definition that there is nothing to trim or clean in, but for white space at the ends of its
paths. -/
structure Cleaned (service : ManagedServiceConfig) : Prop where
  name : goTrimSpace service.name = service.name
  name_ne : service.name ≠ ""
  displayName : service.displayName ≠ ""
  kind : service.kind ∈ kinds
  texts : ∀ text ∈ [service.description, service.group, service.restart, service.systemdUnit,
    service.user, service.wantedBy], goTrimSpace text = text
  lists : ∀ list ∈ [service.after, service.execStart, service.requires, service.setupCommand,
    service.versionCommand], cleanStringList list = list
  environment : cleanEnvironmentMap service.environment = service.environment
  paths : ∀ path ∈ service.paths, CleanPath path
  environmentFiles : ∀ path ∈ service.environmentFiles, path ≠ ""

theorem cleanKind_eq (h : service.kind ∈ kinds) : cleanKind cfg service = service.kind := by
  have htrim : goTrimSpace service.kind = service.kind := by
    have hall : ∀ kind ∈ kinds, goTrimSpace kind = kind := by decide
    exact hall _ h
  have hne : service.kind ≠ "" := by
    rintro he
    rw [he] at h
    exact absurd h (by decide)
  rw [cleanKind, htrim, cfg.toLower_kind _ h, if_neg hne]

theorem Cleaned.cleanFields_eq (h : Cleaned service) (ht : service.Trimmed) :
    cleanFields cfg service = service := by
  have hpath : ∀ path ∈ service.paths, cleanOptionalPath path = path :=
    fun path hp => cleanOptionalPath_eq (h.paths path hp) (ht path hp)
  have hfiles : cleanPathList service.environmentFiles = service.environmentFiles :=
    cleanPathList_eq h.environmentFiles fun path hp => hpath path (mem_append_right _ hp)
  simp only [ManagedServiceConfig.paths, forall_mem_append, forall_mem_cons,
    not_mem_nil, false_implies, implies_true, and_true] at hpath
  obtain ⟨⟨hinstall, hlog, hscript, hversion, hdirectory⟩, -⟩ := hpath
  obtain ⟨hdescription, hgroup, hrestart, hunit, huser, hwanted⟩ : _ ∧ _ ∧ _ ∧ _ ∧ _ ∧ _ := by
    simpa only [forall_mem_cons, not_mem_nil, false_implies, implies_true, and_true]
      using h.texts
  obtain ⟨hafter, hexec, hrequires, hsetup, hcommand⟩ : _ ∧ _ ∧ _ ∧ _ ∧ _ := by
    simpa only [forall_mem_cons, not_mem_nil, false_implies, implies_true, and_true]
      using h.lists
  rw [cleanFields, h.name, if_neg h.displayName, cleanKind_eq h.kind, h.environment, hfiles,
    hinstall, hlog, hscript, hversion, hdirectory, hdescription, hgroup, hrestart, hunit, huser,
    hwanted, hafter, hexec, hrequires, hsetup, hcommand]

theorem cleaned_cleanFields (hname : goTrimSpace service.name ≠ "")
    (hkind : cleanKind cfg service ∈ kinds) : Cleaned (cleanFields cfg service) where
  name := goTrimSpace_idem _
  name_ne := hname
  displayName := by
    change (if service.displayName = "" then goTrimSpace service.name else service.displayName) ≠ ""
    split
    · exact hname
    · assumption
  kind := hkind
  texts := by simp [cleanFields, goTrimSpace_idem]
  lists := by simp [cleanFields, cleanStringList_idem]
  environment := cleanEnvironmentMap_idem _
  paths := by
    intro path hp
    simp only [ManagedServiceConfig.mem_paths, cleanFields] at hp
    rcases hp with rfl | rfl | rfl | rfl | rfl | hp
    · exact cleanPath_cleanOptionalPath _
    · exact cleanPath_cleanOptionalPath _
    · exact cleanPath_cleanOptionalPath _
    · exact cleanPath_cleanOptionalPath _
    · exact cleanPath_cleanOptionalPath _
    · obtain ⟨raw, -, rfl⟩ := mem_map.1 (mem_filter.1 hp).1
      exact cleanPath_cleanOptionalPath raw
  environmentFiles := fun path hp => by simpa using (mem_filter.1 hp).2

theorem Cleaned.withInstallPath (h : Cleaned service) : Cleaned (withInstallPath cfg service) := by
  have hset (path : String) (hpath : CleanPath path) :
      Cleaned { service with installPath := path } := by
    refine { h with paths := ?_ }
    intro other ho
    rcases ManagedServiceConfig.mem_paths.1 ho with rfl | ho
    · exact hpath
    · exact h.paths other (ManagedServiceConfig.mem_paths.2 (.inr ho))
  rw [RuntimeManager.withInstallPath]
  split
  · exact h
  · split
    · exact hset _ (cleanPath_goJoin _ _)
    · split
      · exact hset _ (cleanPath_goJoin _ _)
      · exact h

theorem orDefault_ne_empty {value default : String} (h : default ≠ "") :
    orDefault value default ≠ "" := by
  rw [orDefault]
  split
  · exact h
  · assumption

theorem orDefault_eq {value default : String} (h : value ≠ "") : orDefault value default = value :=
  if_neg h

theorem orDefault_of {P : String → Prop} {value default : String} (hvalue : P value)
    (hdefault : P default) : P (orDefault value default) := by
  rw [orDefault]
  split
  · exact hdefault
  · exact hvalue

theorem goTrimSpace_unit (name : String) :
    goTrimSpace ("trakrai-" ++ name ++ ".service") = "trakrai-" ++ name ++ ".service" := by
  have hhead : ("trakrai-" ++ name ++ ".service").toList.head? = some 't' := by simp
  have hlast : ("trakrai-" ++ name ++ ".service").toList.getLast? = some 'e' := by
    rw [String.toList_append, List.getLast?_append_of_ne_nil _ (by simp)]
    decide
  apply trimWith_of_ends
  · intro c hc
    obtain rfl : 't' = c := Option.some.inj (hhead.symm.trans hc)
    decide
  · intro c hc
    obtain rfl : 'e' = c := Option.some.inj (hlast.symm.trans hc)
    decide

theorem cleanPath_defaultWorkingDirectory : CleanPath (defaultWorkingDirectory cfg service) := by
  rw [defaultWorkingDirectory]
  split
  · exact cleanPath_goClean _
  · exact .inr cfg.rootDir_clean

theorem defaultWorkingDirectory_ne_empty (cfg : Settings) (service : ManagedServiceConfig) :
    defaultWorkingDirectory cfg service ≠ "" := by
  rw [defaultWorkingDirectory]
  split
  · exact goClean_ne_empty _
  · rw [← cfg.rootDir_clean]
    exact goClean_ne_empty _

theorem Cleaned.withUnitDefaults (h : Cleaned service) : Cleaned (withUnitDefaults cfg service) := by
  obtain ⟨hdescription, hgroup, hrestart, hunit, huser, hwanted⟩ : _ ∧ _ ∧ _ ∧ _ ∧ _ ∧ _ := by
    simpa only [forall_mem_cons, not_mem_nil, false_implies, implies_true, and_true]
      using h.texts
  obtain ⟨hafter, hlists⟩ := forall_mem_cons.1 h.lists
  rw [RuntimeManager.withUnitDefaults]
  split
  · refine { h with texts := ?_, lists := ?_, paths := ?_ }
    · simp only [forall_mem_cons]
      refine ⟨hdescription, hgroup, ?_, ?_, huser, ?_, nofun⟩
      · exact orDefault_of (P := fun text => goTrimSpace text = text) hrestart (by decide)
      · exact orDefault_of (P := fun text => goTrimSpace text = text) hunit (goTrimSpace_unit _)
      · exact orDefault_of (P := fun text => goTrimSpace text = text) hwanted (by decide)
    · refine forall_mem_cons.2 ⟨?_, hlists⟩
      dsimp only
      split
      · decide
      · exact hafter
    · intro path hp
      have hpaths := h.paths
      rcases ManagedServiceConfig.mem_paths.1 hp with rfl | rfl | rfl | rfl | rfl | hp
      · exact hpaths _ (ManagedServiceConfig.mem_paths.2 (.inl rfl))
      · exact orDefault_of (hpaths _ (ManagedServiceConfig.mem_paths.2 (by simp)))
          (cleanPath_goJoin _ _)
      · exact orDefault_of (hpaths _ (ManagedServiceConfig.mem_paths.2 (by simp)))
          (cleanPath_goJoin _ _)
      · exact orDefault_of (hpaths _ (ManagedServiceConfig.mem_paths.2 (by simp)))
          (cleanPath_goJoin _ _)
      · exact orDefault_of (hpaths _ (ManagedServiceConfig.mem_paths.2 (by simp)))
          cleanPath_defaultWorkingDirectory
      · exact hpaths _ (mem_append_right _ hp)
  · refine { h with texts := ?_, paths := ?_ }
    · simp only [forall_mem_cons]
      exact ⟨hdescription, hgroup, by decide, by decide, huser, hwanted, nofun⟩
    · intro path hp
      rcases ManagedServiceConfig.mem_paths.1 hp with rfl | rfl | rfl | rfl | rfl | hp
      · exact h.paths _ (ManagedServiceConfig.mem_paths.2 (by simp))
      · exact h.paths _ (ManagedServiceConfig.mem_paths.2 (by simp))
      · exact .inl rfl
      · exact h.paths _ (ManagedServiceConfig.mem_paths.2 (by simp))
      · exact h.paths _ (ManagedServiceConfig.mem_paths.2 (by simp))
      · exact h.paths _ (mem_append_right _ hp)

theorem Cleaned.withCommandDefaults (h : Cleaned service) : Cleaned (withCommandDefaults service) := by
  obtain ⟨hafter, hexec, hrequires, hsetup, hcommand⟩ : _ ∧ _ ∧ _ ∧ _ ∧ _ := by
    simpa only [forall_mem_cons, not_mem_nil, false_implies, implies_true, and_true]
      using h.lists
  refine { h with lists := ?_ }
  simp only [RuntimeManager.withCommandDefaults, forall_mem_cons]
  refine ⟨hafter, hexec, hrequires, ?_, ?_, nofun⟩
  · rw [orNeeded]
    split
    · decide
    · exact hsetup
  · rw [orNeeded]
    split
    · decide
    · exact hcommand

def Installed (service : ManagedServiceConfig) : Prop :=
  service.installPath ≠ "" ∨ service.kind = "wheel"

theorem installed_withInstallPath (h : Cleaned service) : Installed (withInstallPath cfg service) := by
  rw [withInstallPath]
  split
  · exact .inl ‹_›
  · split
    · exact .inl (goJoin_ne_empty h.name_ne)
    · split
      · exact .inl (goJoin_ne_empty h.name_ne)
      · rename_i hbinary hzip
        rw [not_or] at hzip
        have hkind := h.kind
        simp only [kinds, mem_cons, not_mem_nil, or_false, hbinary, hzip.1, hzip.2,
          false_or] at hkind
        exact .inr hkind

theorem Installed.withInstallPath_eq (h : Installed service) : withInstallPath cfg service = service := by
  rw [withInstallPath]
  split
  · rfl
  · rename_i hne
    rw [h.resolve_left hne, if_neg (by decide), if_neg (by decide)]

theorem withUnitDefaults_idem :
    withUnitDefaults cfg (withUnitDefaults cfg service) = withUnitDefaults cfg service := by
  have hunit : "trakrai-" ++ service.name ++ ".service" ≠ "" := by simp
  have hscript : goJoin cfg.scriptDir ("start-" ++ service.name ++ ".sh") ≠ "" :=
    goJoin_ne_empty (by simp)
  have hlog : goJoin cfg.logDir (service.name ++ ".log") ≠ "" := goJoin_ne_empty (by simp)
  have hversion : goJoin cfg.versionDir (service.name ++ ".txt") ≠ "" := goJoin_ne_empty (by simp)
  have hdirectory := defaultWorkingDirectory_ne_empty cfg service
  have hsec : ¬ (if service.restartSec ≤ 0 then 2 else service.restartSec) ≤ 0 := by split <;> omega
  have hafter : (if service.after = [] then ["network-online.target"] else service.after) ≠ [] := by
    split
    · simp
    · assumption
  by_cases hexec : service.execStart ≠ []
  · simp only [withUnitDefaults, if_pos hexec, orDefault_eq (orDefault_ne_empty hunit),
      orDefault_eq (orDefault_ne_empty hscript), orDefault_eq (orDefault_ne_empty hlog),
      orDefault_eq (orDefault_ne_empty hversion), orDefault_eq (orDefault_ne_empty hdirectory),
      orDefault_eq (orDefault_ne_empty (show "always" ≠ "" by decide)),
      orDefault_eq (orDefault_ne_empty (show "multi-user.target" ≠ "" by decide)),
      if_neg hsec, if_neg hafter]
  · simp only [withUnitDefaults, if_neg hexec]

theorem withUnitDefaults_withCommandDefaults : withUnitDefaults cfg (withCommandDefaults service) =
      withCommandDefaults (withUnitDefaults cfg service) := by
  by_cases hexec : service.execStart ≠ []
  · have hexec' : (withCommandDefaults service).execStart ≠ [] := hexec
    rw [withUnitDefaults, if_pos hexec', withUnitDefaults, if_pos hexec]
    rfl
  · have hexec' : ¬ (withCommandDefaults service).execStart ≠ [] := hexec
    rw [withUnitDefaults, if_neg hexec', withUnitDefaults, if_neg hexec]
    rfl

theorem orNeeded_idem (needed : Bool) (command default : List String) :
    orNeeded needed (orNeeded needed command default) default = orNeeded needed command default := by
  simp only [orNeeded]
  grind

theorem withCommandDefaults_idem :
    withCommandDefaults (withCommandDefaults service) = withCommandDefaults service := by
  simp only [withCommandDefaults, orNeeded_idem]

/-- What `normalizeManagedService` gives. -/
structure Normal (cfg : Settings) (service : ManagedServiceConfig) : Prop extends Cleaned service where
  installPath : withInstallPath cfg service = service
  unit : withUnitDefaults cfg service = service
  commands : withCommandDefaults service = service
  checked : checkService service = .ok ()

theorem Installed.withUnitDefaults (h : Installed service) :
    Installed (withUnitDefaults cfg service) := by
  rw [RuntimeManager.withUnitDefaults]
  split
  · exact h
  · exact h

theorem Installed.withCommandDefaults (h : Installed service) :
    Installed (withCommandDefaults service) := h

theorem normalizeManagedService_eq (h : normalizeManagedService cfg service = .ok normalized):
    cleanKind cfg service ∈ kinds ∧ goTrimSpace service.name ≠ "" ∧
      checkService (withDefaults cfg service) = .ok () ∧ normalized = withDefaults cfg service := by
  rw [normalizeManagedService] at h
  split at h
  · cases h
  · rename_i hname
    split at h
    · cases h
    · rename_i hkind
      refine ⟨not_not.1 hkind, hname, ?_⟩
      cases hcheck : checkService (withDefaults cfg service) with
      | error error =>
        rw [hcheck] at h
        cases h
      | ok =>
        rw [hcheck, Except.map, Except.ok.injEq] at h
        exact ⟨rfl, h.symm⟩

theorem normal_of_normalize (h : normalizeManagedService cfg raw = .ok service): Normal cfg service := by
  obtain ⟨hkind, hname, hcheck, rfl⟩ := normalizeManagedService_eq h
  have hfields := cleaned_cleanFields hname hkind
  have hinstalled : Installed (withDefaults cfg raw) :=
    (installed_withInstallPath hfields).withUnitDefaults.withCommandDefaults
  refine ⟨hfields.withInstallPath.withUnitDefaults.withCommandDefaults,
    hinstalled.withInstallPath_eq, ?_, withCommandDefaults_idem, hcheck⟩
  rw [withDefaults, withUnitDefaults_withCommandDefaults, withUnitDefaults_idem]

theorem Normal.normalize_eq (h : Normal cfg service) (ht : service.Trimmed) :
    normalizeManagedService cfg service = .ok service := by
  have hdefaults : withDefaults cfg service = service := by
    rw [withDefaults, h.cleanFields_eq ht, h.installPath, h.unit, h.commands]
  rw [normalizeManagedService, if_neg (by rw [h.name]; exact h.name_ne),
    if_neg (not_not.2 (by rw [cleanKind_eq h.kind]; exact h.kind)), hdefaults, h.checked]
  rfl

end

section
variable (services : List ManagedServiceConfig)

def InOrder : Prop :=
  services.Pairwise fun a b => a.name ≤ b.name

theorem sortByName_perm : (sortByName services).Perm services :=
  perm_insertionSort _ services

theorem inOrder_sortByName : InOrder (sortByName services) := by
  have htotal : Std.Total fun a b : ManagedServiceConfig => a.name ≤ b.name :=
    ⟨fun a b => le_total a.name b.name⟩
  have htrans : IsTrans ManagedServiceConfig fun a b => a.name ≤ b.name :=
    ⟨fun _ _ _ => le_trans⟩
  exact pairwise_insertionSort _ services

end

theorem InOrder.sortByName_eq (h : InOrder services) :
    sortByName services = services := List.Pairwise.insertionSort_eq h

def keys (cfg : Settings) (services : List ManagedServiceConfig) : List String :=
  services.map fun service => cfg.toLower service.name

section
variable {cfg : Settings} {services : List ManagedServiceConfig} {seen : List String} {index : Nat}

theorem normalizeFrom_eq (h : ∀ service ∈ services, normalizeManagedService cfg service = .ok service)
    (hkeys : (keys cfg services).Nodup) (hseen : ∀ key ∈ keys cfg services, key ∉ seen) :
    normalizeFrom cfg index seen services = .ok services := by
  induction services generalizing seen index with
  | nil => rfl
  | cons service services ih =>
    obtain ⟨hservice, hrest⟩ := forall_mem_cons.1 h
    obtain ⟨hkey, hkeys⟩ := nodup_cons.1 hkeys
    obtain ⟨hnew, hseen⟩ := forall_mem_cons.1 hseen
    have hnext : ∀ key ∈ keys cfg services, key ∉ cfg.toLower service.name :: seen := by
      intro key hk
      rw [mem_cons, not_or]
      refine ⟨?_, hseen key hk⟩
      rintro rfl
      exact hkey hk
    simp only [normalizeFrom, hservice]
    rw [if_neg hnew, ih hrest hkeys hnext]
    rfl

theorem normalizeFrom_ok (h : normalizeFrom cfg index seen raw = .ok services):
    (∀ service ∈ services, Normal cfg service) ∧ (keys cfg services).Nodup ∧
      ∀ key ∈ keys cfg services, key ∉ seen := by
  induction raw generalizing services seen index with
  | nil =>
    obtain rfl : [] = services := by simpa [normalizeFrom] using h
    exact ⟨forall_mem_nil _, nodup_nil, forall_mem_nil _⟩
  | cons service raw ih =>
    rw [normalizeFrom] at h
    split at h
    · cases h
    · rename_i normalized hnormalize
      split at h
      · cases h
      · rename_i hseen
        cases hrest : normalizeFrom cfg (index + 1) (cfg.toLower normalized.name :: seen) raw with
        | error error => simp [hrest, Except.map] at h
        | ok rest =>
          obtain rfl : normalized :: rest = services := by simpa [hrest, Except.map] using h
          obtain ⟨hnormal, hkeys, hnew⟩ := ih hrest
          refine ⟨forall_mem_cons.2 ⟨normal_of_normalize hnormalize, hnormal⟩, ?_, ?_⟩
          · refine nodup_cons.2 ⟨fun hk => hnew _ hk (mem_cons_self ..), hkeys⟩
          · refine forall_mem_cons.2 ⟨hseen, fun key hk hs => ?_⟩
            exact hnew key hk (mem_cons_of_mem _ hs)

theorem normalizeManagedServices_eq
    (h : ∀ service ∈ services, normalizeManagedService cfg service = .ok service)
    (hkeys : (keys cfg services).Nodup) (horder : InOrder services) :
    normalizeManagedServices cfg services = .ok services := by
  rw [normalizeManagedServices, normalizeFrom_eq h hkeys fun _ _ => not_mem_nil, Except.map, horder.sortByName_eq]

theorem normalizeManagedServices_ok (h : normalizeManagedServices cfg raw = .ok services):
    (∀ service ∈ services, Normal cfg service) ∧ (keys cfg services).Nodup ∧ InOrder services := by
  rw [normalizeManagedServices] at h
  cases hfrom : normalizeFrom cfg 0 [] raw with
  | error error => simp [hfrom, Except.map] at h
  | ok normalized =>
    obtain rfl : sortByName normalized = services := by simpa [hfrom, Except.map] using h
    obtain ⟨hnormal, hkeys, -⟩ := normalizeFrom_ok hfrom
    have hperm := sortByName_perm normalized
    refine ⟨fun service hs => hnormal service (hperm.mem_iff.1 hs), ?_, inOrder_sortByName _⟩
    exact (hperm.map _).nodup_iff.2 hkeys

end

end Trakrai.RuntimeManager
