import Trakrai.RuntimeManager.Persistence

namespace Trakrai.RuntimeManager
open List Lib Process

/-- No file belongs to both services. -/
def Apart (cfg : Config) (a b : ManagedServiceConfig) : Prop :=
  ∀ path, Owns cfg a path → ¬ Owns cfg b path

/-- What two services do not share, one by one. -/
structure Distinct (cfg : Config) (a b : ManagedServiceConfig) : Prop where
  unit : a.systemdUnit ≠ "" → b.systemdUnit ≠ "" →
    cfg.at (systemdUnitPath cfg a.systemdUnit) ≠ cfg.at (systemdUnitPath cfg b.systemdUnit)
  script : a.scriptPath ≠ "" → b.scriptPath ≠ "" → cfg.at a.scriptPath ≠ cfg.at b.scriptPath
  log : a.logPath ≠ "" → b.logPath ≠ "" → cfg.at a.logPath ≠ cfg.at b.logPath
  version : a.versionFile ≠ "" → b.versionFile ≠ "" → cfg.at a.versionFile ≠ cfg.at b.versionFile
  install : a.installPath ≠ "" → b.installPath ≠ "" →
    ¬ cfg.at a.installPath <+: cfg.at b.installPath ∧
      ¬ cfg.at b.installPath <+: cfg.at a.installPath

section
variable {cfg : Config} {a b service other : ManagedServiceConfig} {path : List String}

theorem Apart.symm (h : Apart cfg a b) : Apart cfg b a := fun path hb ha => h path ha hb

theorem Apart.distinct (h : Apart cfg a b) : Distinct cfg a b where
  unit ha hb he := h _ (.inl (.inl ⟨ha, rfl⟩)) (.inl (.inl ⟨hb, he⟩))
  script ha hb he := h _ (.inl (.inr ⟨ha, rfl⟩)) (.inl (.inr ⟨hb, he⟩))
  log ha hb he := h _ (.inr (.inr (.inl ⟨ha, rfl⟩))) (.inr (.inr (.inl ⟨hb, he⟩)))
  version ha hb he := h _ (.inr (.inr (.inr (.inl ⟨ha, rfl⟩)))) (.inr (.inr (.inr (.inl ⟨hb, he⟩))))
  install ha hb :=
    ⟨fun hpre => h _ (.inr (.inl ⟨ha, hpre⟩)) (.inr (.inl ⟨hb, prefix_refl _⟩)),
      fun hpre => h _ (.inr (.inl ⟨ha, prefix_refl _⟩)) (.inr (.inl ⟨hb, hpre⟩))⟩

end

/-! What the defaults give. -/

section
variable (cfg : Config)

/-- The directories of the files that are named after a service, with the texts around its name. -/
def defaultFiles : List (String × String × String) :=
  [(cfg.unitDirectory, "trakrai-", ".service"), (cfg.scriptDir, "start-", ".sh"),
    (cfg.logDir, "", ".log"), (cfg.versionDir, "", ".txt"), (cfg.versionDir, "", ".json")]

def defaultTexts : List (String × String) :=
  [("trakrai-", ".service"), ("start-", ".sh"), ("", ".log"), ("", ".txt"), ("", ".json")]

theorem map_defaultFiles : (defaultFiles cfg).map Prod.snd = defaultTexts := rfl

/-- The directories that default install paths lie in. -/
def homes : List String := [cfg.binaryDir, cfg.rootDir]

/-- No directory of installations is one of the directories of other files. -/
def Separate : Prop := ∀ home ∈ homes cfg, ∀ file ∈ defaultFiles cfg, cfg.at home ≠ cfg.at file.1

/-- A definition with default paths, under the name of a file, that installs nothing at or above the
directories of the manager. -/
structure DefaultPaths (service : ManagedServiceConfig) : Prop where
  name : plainName service.name = true
  unit : service.systemdUnit = "" ∨ service.systemdUnit = "trakrai-" ++ service.name ++ ".service"
  script : service.scriptPath = "" ∨
    service.scriptPath = goJoin cfg.scriptDir ("start-" ++ service.name ++ ".sh")
  log : service.logPath = "" ∨ service.logPath = goJoin cfg.logDir (service.name ++ ".log")
  version : service.versionFile = "" ∨
    service.versionFile = goJoin cfg.versionDir (service.name ++ ".txt")
  install : service.installPath = "" ∨
    ∃ home ∈ homes cfg, service.installPath = goJoin home service.name
  clear : service.installPath ≠ "" → ∀ dir ∈ homes cfg ++ (defaultFiles cfg).map Prod.fst,
    ¬ cfg.at service.installPath <+: cfg.at dir

end

section
variable {cfg : Config} {a b service : ManagedServiceConfig} {path : List String}

theorem plainName_affixes (hname : plainName name = true)
    (hpre : '/' ∉ pre.toList) (hsuf : '/' ∉ suf.toList) (hlong : 3 ≤ suf.toList.length) :
    plainName (pre ++ name ++ suf) = true := by
  have hlength : 3 ≤ (pre ++ name ++ suf).toList.length := by
    simp only [String.toList_append, length_append]
    omega
  refine plainName_iff.2 ⟨properSegment_iff.2 ⟨?_, ?_, ?_⟩, ?_⟩
  · intro he
    rw [he] at hlength
    exact absurd hlength (by decide)
  · intro he
    rw [he] at hlength
    exact absurd hlength (by decide)
  · intro he
    rw [he] at hlength
    exact absurd hlength (by decide)
  · simp only [String.toList_append, mem_append, not_or]
    exact ⟨⟨hpre, (plainName_iff.1 hname).2⟩, hsuf⟩

theorem at_goJoin (hname : plainName name = true) :
    cfg.at (goJoin dir name) = cfg.at dir ++ [name] := locate_goJoin cfg.cwd_rooted hname

def IsDefaultFile (cfg : Config) (name : String) (path : List String) : Prop :=
  ∃ file ∈ defaultFiles cfg, path = cfg.at file.1 ++ [file.2.1 ++ name ++ file.2.2]

theorem isDefaultFile_of_join (file : String × String × String) (hname : plainName service.name = true)
    (hfile : file ∈ defaultFiles cfg)
    (hpath : path = cfg.at (goJoin file.1 (file.2.1 ++ service.name ++ file.2.2))) :
    IsDefaultFile cfg service.name path := by
  have htexts : ∀ file ∈ defaultFiles cfg, '/' ∉ file.2.1.toList ∧ '/' ∉ file.2.2.toList ∧
      3 ≤ file.2.2.toList.length := by
    simp only [defaultFiles, forall_mem_cons]
    decide
  obtain ⟨hpre, hsuf, hlong⟩ := htexts file hfile
  exact ⟨file, hfile, hpath.trans (at_goJoin (plainName_affixes hname hpre hsuf hlong))⟩

theorem DefaultPaths.owns (h : DefaultPaths cfg service) (ho : Owns cfg service path) :
    IsDefaultFile cfg service.name path ∨ InstallFiles cfg service path := by
  have hmem : ∀ file ∈ [(cfg.unitDirectory, "trakrai-", ".service"), (cfg.scriptDir, "start-", ".sh"),
      (cfg.logDir, "", ".log"), (cfg.versionDir, "", ".txt"), (cfg.versionDir, "", ".json")],
      file ∈ defaultFiles cfg := fun _ hf => hf
  simp only [forall_mem_cons] at hmem
  obtain ⟨hunit, hscript, hlog, hversion, hrecord, -⟩ := hmem
  rcases ho with (⟨hne, rfl⟩ | ⟨hne, rfl⟩) | hinstall | ⟨hne, rfl⟩ | ⟨hne, rfl⟩ | hpath
  · refine .inl (isDefaultFile_of_join _ h.name hunit ?_)
    rw [systemdUnitPath, h.unit.resolve_left hne]
  · refine .inl (isDefaultFile_of_join _ h.name hscript ?_)
    rw [h.script.resolve_left hne]
  · exact .inr hinstall
  · refine .inl (isDefaultFile_of_join _ h.name hlog ?_)
    rw [h.log.resolve_left hne, String.empty_append]
  · refine .inl (isDefaultFile_of_join _ h.name hversion ?_)
    rw [h.version.resolve_left hne, String.empty_append]
  · refine .inl (isDefaultFile_of_join _ h.name hrecord (hpath.trans ?_))
    rw [versionRecordPath, String.empty_append]

theorem IsDefaultFile.name_eq (h : IsDefaultFile cfg name path) (h' : IsDefaultFile cfg name' path): name = name' := by
  obtain ⟨file, hfile, rfl⟩ := h
  obtain ⟨file', hfile', hpath⟩ := h'
  -- the last character of a name tells which file it is
  have hlast : ∀ texts ∈ defaultTexts, ∀ texts' ∈ defaultTexts,
      texts.2.toList.getLast? = texts'.2.toList.getLast? → texts = texts' := by decide +kernel
  have htexts : ∀ file ∈ defaultFiles cfg, file.2 ∈ defaultTexts := by
    intro file hf
    rw [← map_defaultFiles cfg]
    exact mem_map_of_mem hf
  have hsuf : ∀ file ∈ defaultFiles cfg, file.2.2.toList ≠ [] := by
    simp only [defaultFiles, forall_mem_cons]
    decide
  have htext : file.2.1 ++ name ++ file.2.2 = file'.2.1 ++ name' ++ file'.2.2 := by
    simpa using (append_inj' hpath rfl).2
  have hends := congrArg (fun text : String => text.toList.getLast?) htext
  simp only [String.toList_append, List.getLast?_append_of_ne_nil _ (hsuf file hfile),
    List.getLast?_append_of_ne_nil _ (hsuf file' hfile')] at hends
  rw [hlast _ (htexts file hfile) _ (htexts file' hfile') hends] at htext
  have hlist := String.toList_inj.2 htext
  simp only [String.toList_append] at hlist
  exact String.toList_inj.1 (append_cancel_left (append_cancel_right hlist))

theorem DefaultPaths.at_install (h : DefaultPaths cfg service) (hne : service.installPath ≠ "") :
    ∃ home ∈ homes cfg, cfg.at service.installPath = cfg.at home ++ [service.name] := by
  obtain ⟨home, hhome, hpath⟩ := h.install.resolve_left hne
  exact ⟨home, hhome, by rw [hpath, at_goJoin h.name]⟩

theorem DefaultPaths.not_install (hsep : Separate cfg) (h : DefaultPaths cfg service) {name : String}
    (hfile : IsDefaultFile cfg name path) : ¬ InstallFiles cfg service path := by
  rintro ⟨hne, hpre⟩
  obtain ⟨file, hf, rfl⟩ := hfile
  obtain ⟨home, hhome, hinstall⟩ := h.at_install hne
  rcases prefix_concat_iff.1 hpre with heq | hpre
  · rw [hinstall] at heq
    exact hsep home hhome file hf (append_inj' heq rfl).1
  · exact h.clear hne file.1 (mem_append_right _ (mem_map_of_mem hf)) hpre

theorem DefaultPaths.not_prefix (ha : DefaultPaths cfg a) (hb : DefaultPaths cfg b)
    (hne : a.name ≠ b.name) (hpa : a.installPath ≠ "") (hpb : b.installPath ≠ "") :
    ¬ cfg.at a.installPath <+: cfg.at b.installPath := by
  intro hpre
  obtain ⟨home, hhome, hinstall⟩ := hb.at_install hpb
  rw [hinstall] at hpre
  rcases prefix_concat_iff.1 hpre with heq | hpre
  · obtain ⟨home', -, hinstall'⟩ := ha.at_install hpa
    rw [hinstall'] at heq
    exact hne (by simpa using (append_inj' heq rfl).2)
  · exact ha.clear hpa home (mem_append_left _ hhome) hpre

theorem DefaultPaths.apart (hsep : Separate cfg) (ha : DefaultPaths cfg a) (hb : DefaultPaths cfg b)
    (hne : a.name ≠ b.name) : Apart cfg a b := by
  intro path hoa hob
  rcases ha.owns hoa with hfa | hia
  · rcases hb.owns hob with hfb | hib
    · exact hne (hfa.name_eq hfb)
    · exact hb.not_install hsep hfa hib
  · rcases hb.owns hob with hfb | hib
    · exact ha.not_install hsep hfb hia
    · rcases prefix_or_prefix_of_prefix hia.2 hib.2 with hpre | hpre
      · exact ha.not_prefix hb hne hia.1 hib.1 hpre
      · exact hb.not_prefix ha (Ne.symm hne) hib.1 hia.1 hpre

end

/-! What a command touches. -/

def Job.service : Job → Option ManagedServiceConfig
  | .upsert service | .remove service _ | .update service _ => some service
  | .putConfig _ _ _ => none

def Job.artifact : Job → Option String
  | .update _ artifactPath => some artifactPath
  | .upsert _ | .remove _ _ | .putConfig _ _ _ => none

section
variable {cfg : Config} {service : ManagedServiceConfig}

def UpsertFiles (cfg : Config) (registry : Registry cfg.toSettings) (service : ManagedServiceConfig)
    (path : List String) : Prop :=
  (∃ previous, registry.lookup service.name = some previous ∧ Owns cfg previous path) ∨
    Owns cfg service path ∨ path = cfg.stateAt

theorem touches_upsert (out : Outside) (w : World Content (Registry cfg.toSettings))
    (hnormal : Normal cfg.toSettings service) :
    Touches (UpsertFiles cfg w.memory service) w (exec (upsertService cfg out service) w).2 := by
  have hkeeps : Keeps (Touches (UpsertFiles cfg w.memory service)) (do
      removePrevious cfg (w.memory.lookup service.name) service
      store (w.memory.store service)
      saveManagedServices cfg
      reconcileServiceDefinition cfg service
      inspectManagedService cfg service out.version) := by
    refine Keeps.bind .trans ((keeps_removePrevious _).touches ?_) fun _ => ?_
    · rintro path ⟨old, hold, -, hfile⟩
      exact .inl ⟨old, hold, .inl hfile⟩
    refine Keeps.bind .trans (keeps_store _) fun _ => ?_
    refine Keeps.bind .trans (keeps_save.touches fun _ hp => .inr (.inr hp)) fun _ => ?_
    refine Keeps.bind .trans ((keeps_reconcile hnormal).touches ?_) fun _ => ?_
    · exact fun _ hp => .inr (.inl (.inl hp.2))
    · exact (keeps_inspect _).touches fun _ hp => .inr (.inl (.inr (.inr (.inr (.inr hp.2)))))
  exact hkeeps w

theorem keeps_removeService (purgeFiles : Bool) :
    Keeps (Touches fun path => Owns cfg service path ∨ path = cfg.stateAt)
      (removeService cfg service purgeFiles) := by
  refine Keeps.bind .trans ((keeps_removeArtifacts purgeFiles).touches ?_) fun _ => ?_
  · rintro path (hunit | ⟨-, hpurge⟩ | hversion)
    · exact .inl (.inl hunit)
    · rcases hpurge with hinstall | hlog
      · exact .inl (.inr (.inl hinstall))
      · exact .inl (.inr (.inr (.inl hlog)))
    · exact .inl (.inr (.inr (.inr hversion)))
  refine Keeps.bind .trans (.load .refl) fun registry => ?_
  refine Keeps.bind .trans (keeps_store _) fun _ => ?_
  exact keeps_save.touches fun _ hp => .inr hp

/-- A command leaves alone what belongs to neither its service nor the previous definition of that,
but for the state file and its artifact. -/
theorem files_perform (out : Outside) (hjob : job.service = some service)
    (hupsert : ∀ service, job = .upsert service → Normal cfg.toSettings service ∧
      ∀ previous, s.world.memory.lookup service.name = some previous → ¬ Owns cfg previous path)
    (howns : ¬ Owns cfg service path) (hstate : path ≠ cfg.stateAt)
    (hartifact : ∀ artifact, job.artifact = some artifact → path ≠ cfg.at artifact) :
    (after cfg s (.perform job out)).world.files path = s.world.files path := by
  cases job with
  | upsert upserted =>
    cases hjob
    obtain ⟨hnormal, hprevious⟩ := hupsert _ rfl
    apply (touches_upsert out (meeting cfg out s.world) hnormal).files
    rintro (⟨previous, hlookup, hfile⟩ | hfile | hfile)
    · exact hprevious previous hlookup hfile
    · exact howns hfile
    · exact hstate hfile
  | remove removed purgeFiles =>
    cases hjob
    apply (keeps_removeService purgeFiles (meeting cfg out s.world)).files
    rintro (hfile | hfile)
    · exact howns hfile
    · exact hstate hfile
  | update updated artifactPath =>
    cases hjob
    apply (keeps_updateService out artifactPath (meeting cfg out s.world)).files
    rintro (hfile | ⟨-, hfile⟩ | hfile)
    · exact howns (.inr (.inl hfile))
    · exact howns (.inr (.inr (.inr (.inr hfile))))
    · exact hartifact _ rfl hfile
  | putConfig configPath content restartServices => cases hjob

end

/-! Runs. -/

section
variable {cfg : Config}

/-- The service is registered, or a command about it waits for the lock. -/
def Present (s : State cfg) (service : ManagedServiceConfig) : Prop :=
  service ∈ s.world.memory.list ∨ ∃ job ∈ s.waiting, job.service = some service

/-- An upsert is only accepted if what it defines shares nothing with the services of other names,
or if they all have default paths. -/
def Guarded (cfg : Config) (s : State cfg) : Event → Prop
  | .accept (.upsert definition) _ => ∀ service,
    normalizeManagedService cfg.toSettings definition = .ok service → ∀ other, Present s other →
      cfg.toLower other.name ≠ cfg.toLower service.name → Apart cfg service other ∨
        (Separate cfg ∧ DefaultPaths cfg service ∧ DefaultPaths cfg other)
  | _ => True

structure Partitioned (s : State cfg) : Prop where
  apart : ∀ a b, Present s a → Present s b → cfg.toLower a.name ≠ cfg.toLower b.name → Apart cfg a b
  normal : ∀ service, Job.upsert service ∈ s.waiting → Normal cfg.toSettings service

theorem apart_of_guard
    (h : Apart cfg service other ∨ (Separate cfg ∧ DefaultPaths cfg service ∧ DefaultPaths cfg other))
    (hkey : cfg.toLower other.name ≠ cfg.toLower service.name) : Apart cfg service other := by
  rcases h with hapart | ⟨hsep, hservice, hother⟩
  · exact hapart
  · refine hservice.apart hsep hother fun he => hkey ?_
    rw [he]

theorem Partitioned.of_present {s t : State cfg} (h : Partitioned s)
    (hpresent : ∀ service, Present t service → Present s service)
    (hwaiting : ∀ service, Job.upsert service ∈ t.waiting → Job.upsert service ∈ s.waiting) :
    Partitioned t where
  apart a b ha hb hkey := h.apart a b (hpresent a ha) (hpresent b hb) hkey
  normal service hs := h.normal service (hwaiting service hs)

theorem meets_memory (P : Registry cfg.toSettings → Prop) (hkeeps : Keeps (Within region) p):
    Meets (fun w => P w.memory) p (fun _ w => P w.memory) (fun w => P w.memory) := by
  refine .of_keeps hkeeps (fun w w' hwithin hw => ?_) fun _ hw => hw
  rw [hwithin.memory]
  exact hw

theorem memory_upsert (out : Outside)
    (w : World Content (Registry cfg.toSettings)) (hnormal : Normal cfg.toSettings service) :
    (exec (upsertService cfg out service) w).2.memory = w.memory ∨
      (exec (upsertService cfg out service) w).2.memory = w.memory.store service := by
  have htail {α : Type} {p : Step cfg α} {region : List String → Prop}
      (hkeeps : Keeps (Within region) p) :=
    meets_memory (fun registry => registry = w.memory ∨ registry = w.memory.store service) hkeeps
  have hmeets : Meets (fun u => u.memory = w.memory ∨ u.memory = w.memory.store service) (do
      removePrevious cfg (w.memory.lookup service.name) service
      store (w.memory.store service)
      saveManagedServices cfg
      reconcileServiceDefinition cfg service
      inspectManagedService cfg service out.version)
      (fun _ u => u.memory = w.memory ∨ u.memory = w.memory.store service)
      (fun u => u.memory = w.memory ∨ u.memory = w.memory.store service) := by
    refine .bind (htail (keeps_removePrevious _)) fun _ => ?_
    refine .bind (Q := fun _ u => u.memory = w.memory ∨ u.memory = w.memory.store service)
      (.store fun _ _ => .inr rfl) fun _ => ?_
    refine .bind (htail keeps_save) fun _ => ?_
    exact .bind (htail (keeps_reconcile hnormal)) fun _ => htail (keeps_inspect _)
  exact meets_iff.1 hmeets w (.inl rfl)

theorem mem_removeService
    (h : other ∈ (exec (removeService cfg service purgeFiles) w).2.memory.list) :
    other ∈ w.memory.list := by
  have htail {α : Type} {p : Step cfg α} {region : List String → Prop}
      (hkeeps : Keeps (Within region) p) :=
    meets_memory (fun registry => ∀ other ∈ registry.list, other ∈ w.memory.list) hkeeps
  have hmeets : Meets (fun u => ∀ other ∈ u.memory.list, other ∈ w.memory.list)
      (removeService cfg service purgeFiles)
      (fun _ u => ∀ other ∈ u.memory.list, other ∈ w.memory.list)
      (fun u => ∀ other ∈ u.memory.list, other ∈ w.memory.list) := by
    refine .bind (htail (keeps_removeArtifacts purgeFiles)) fun _ => ?_
    refine .bind (Q := fun (registry : Registry cfg.toSettings) _ => ∀ other ∈ registry.list,
      other ∈ w.memory.list)
      (fun _ hu => hu) fun registry => ?_
    refine .bind (Q := fun _ u => ∀ other ∈ u.memory.list, other ∈ w.memory.list) (.store ?_)
      fun _ => htail keeps_save
    exact fun _ hu other ho => hu other (Registry.mem_delete.1 ho).1
  exact meets_iff.1 hmeets w (fun _ ho => ho) other h

theorem Partitioned.mem_perform (h : Partitioned s) (henabled : job ∈ s.waiting)
    (hs : service ∈ (RuntimeManager.after cfg s (.perform job out)).world.memory.list) :
    Present s service := by
  cases job with
  | upsert upserted =>
    have hmemory := memory_upsert out (meeting cfg out s.world) (h.normal _ henabled)
    change service ∈ (exec (upsertService cfg out upserted) (meeting cfg out s.world)).2.memory.list at hs
    rcases hmemory with hmemory | hmemory
    · rw [hmemory] at hs
      exact .inl hs
    · rw [hmemory] at hs
      rcases Registry.mem_store.1 hs with rfl | ⟨hs, -⟩
      · exact .inr ⟨_, henabled, rfl⟩
      · exact .inl hs
  | remove removed purgeFiles =>
    change service ∈ (exec (removeService cfg removed purgeFiles)
      (meeting cfg out s.world)).2.memory.list at hs
    have hmem := mem_removeService hs
    exact .inl hmem
  | putConfig path content restartServices =>
    have hkeeps := keeps_putConfig path content restartServices (meeting cfg out s.world)
    change service ∈ (exec (putConfig cfg path content restartServices)
      (meeting cfg out s.world)).2.memory.list at hs
    rw [hkeeps.memory] at hs
    exact .inl hs
  | update updated artifactPath =>
    have hkeeps : Within (UpdateFiles cfg out updated artifactPath) (meeting cfg out s.world)
        (exec (updateService cfg out updated artifactPath) (meeting cfg out s.world)).2 :=
      keeps_updateService out artifactPath _
    change service ∈ (exec (updateService cfg out updated artifactPath)
      (meeting cfg out s.world)).2.memory.list at hs
    rw [hkeeps.memory] at hs
    exact .inl hs

theorem Partitioned.accept {s : State cfg} {request : Request} {out : Outside} (h : Partitioned s)
    (hguard : Guarded cfg s (.accept request out)) :
    Partitioned (RuntimeManager.after cfg s (.accept request out)) := by
  have hkeeps : Within (fun _ => False) (meeting cfg out s.world)
      (exec (prepare cfg request) (meeting cfg out s.world)).2 := keeps_prepare request _
  have hprepared := meets_prepare request (meeting cfg out s.world) rfl
  rw [RuntimeManager.after]
  cases hexec : exec (prepare cfg request) (meeting cfg out s.world) with
  | mk result w =>
    rw [hexec] at hkeeps hprepared
    have hmemory : w.memory = s.world.memory := hkeeps.memory
    cases result with
    | error error =>
      refine h.of_present (fun service hs => ?_) fun _ hs => hs
      rwa [Present, hmemory] at hs
    | ok job =>
      -- what is present now was so before, or is the service of the new command
      have hpresent (service : ManagedServiceConfig)
          (hs : Present (⟨w, s.waiting ++ [job]⟩ : State cfg) service) :
          Present s service ∨ job.service = some service := by
        rcases hs with hs | ⟨other, ho, hs⟩
        · rw [hmemory] at hs
          exact .inl (.inl hs)
        · rcases mem_append.1 ho with ho | ho
          · exact .inl (.inr ⟨other, ho, hs⟩)
          · rw [mem_singleton.1 ho] at hs
            exact .inr hs
      have hnew (service : ManagedServiceConfig) (hservice : job.service = some service)
          (other : ManagedServiceConfig) (ho : Present s other)
          (hkey : cfg.toLower other.name ≠ cfg.toLower service.name) : Apart cfg service other := by
        cases job with
        | upsert upserted =>
          cases hservice
          obtain ⟨definition, rfl, hnormalize⟩ := hprepared
          exact apart_of_guard (hguard _ hnormalize other ho hkey) hkey
        | remove removed purgeFiles =>
          cases hservice
          exact h.apart _ _ (.inl hprepared) ho (Ne.symm hkey)
        | putConfig path content restartServices => cases hservice
        | update updated artifactPath =>
          cases hservice
          exact h.apart _ _ (.inl hprepared) ho (Ne.symm hkey)
      refine ⟨?_, ?_⟩
      · intro a b ha hb hkey
        rcases hpresent a ha with ha | ha
        · rcases hpresent b hb with hb | hb
          · exact h.apart a b ha hb hkey
          · exact (hnew b hb a ha hkey).symm
        · rcases hpresent b hb with hb | hb
          · exact hnew a ha b hb (Ne.symm hkey)
          · rw [ha, Option.some.injEq] at hb
            exact absurd (by rw [hb]) hkey
      · intro service hs
        rcases mem_append.1 hs with hs | hs
        · exact h.normal service hs
        · obtain rfl := mem_singleton.1 hs
          obtain ⟨definition, -, hnormalize⟩ := hprepared
          exact normal_of_normalize hnormalize

theorem Partitioned.after {s : State cfg} {e : Event} (h : Partitioned s) (henabled : Enabled cfg s e)
    (hguard : Guarded cfg s e) : Partitioned (after cfg s e) := by
  cases e with
  | accept request out => exact h.accept hguard
  | perform job out =>
    refine h.of_present ?_ fun service hs => mem_of_mem_erase hs
    rintro service (hs | ⟨other, ho, hs⟩)
    · exact h.mem_perform henabled hs
    · exact .inr ⟨other, mem_of_mem_erase ho, hs⟩

/-- Services share no files in any state of a guarded run, and a command leaves alone the files of
every service of another name. -/
theorem services_apart {s t : State cfg} {tr : List (State cfg × Event)}
    (hempty : s.world.memory.list = [] ∧ s.waiting = []) (hrun : (manager cfg).Run s tr t)
    (hguard : ∀ p ∈ tr, Guarded cfg p.1 p.2) :
    (∀ a ∈ t.world.memory.list, ∀ b ∈ t.world.memory.list, a ≠ b →
      cfg.toLower a.name ≠ cfg.toLower b.name ∧ Distinct cfg a b) ∧
    ∀ job ∈ t.waiting, ∀ out service, job.service = some service → ∀ other ∈ t.world.memory.list,
      cfg.toLower other.name ≠ cfg.toLower service.name → ∀ path, Owns cfg other path →
        path ≠ cfg.stateAt → (∀ artifact, job.artifact = some artifact → path ≠ cfg.at artifact) →
          (after cfg t (.perform job out)).world.files path = t.world.files path := by
  have hstart : Partitioned s := by
    refine ⟨fun a b ha => ?_, fun service hs => ?_⟩
    · rcases ha with ha | ⟨job, hj, -⟩
      · rw [hempty.1] at ha
        cases ha
      · rw [hempty.2] at hj
        cases hj
    · rw [hempty.2] at hs
      cases hs
  have hparts : Partitioned t := by
    refine hrun.forall_states hstart ?_ t (end_mem_states tr t)
    rintro p hp hparts _ ⟨henabled, rfl⟩
    exact hparts.after henabled (hguard p hp)
  refine ⟨fun a ha b hb hne => ?_, fun job hj out service hjob other ho hkey path howns hstate => ?_⟩
  · have hkey : cfg.toLower a.name ≠ cfg.toLower b.name := fun hkey =>
      hne (Registry.eq_of_key ha hb hkey)
    exact ⟨hkey, (hparts.apart a b (.inl ha) (.inl hb) hkey).distinct⟩
  · have hservice : Present t service := .inr ⟨job, hj, hjob⟩
    refine files_perform out hjob ?_ (hparts.apart other service (.inl ho) hservice hkey path howns)
      hstate
    rintro _ rfl
    cases hjob
    have hnormal := hparts.normal service hj
    refine ⟨hnormal, fun previous hlookup => ?_⟩
    obtain ⟨hprevious, hsame⟩ := Registry.lookup_eq_some_iff.1 hlookup
    rw [hnormal.name] at hsame
    refine hparts.apart other previous (.inl ho) (.inl hprevious) ?_ path howns
    rw [hsame]
    exact hkey

end

def noServices : State deviceConfig := ⟨⟨fun _ => none, .empty, 0, fun _ _ => none⟩, []⟩

def bundle (name : String) : ManagedServiceConfig :=
  { name, displayName := name, kind := "zip", installPath := "/trakrai/" ++ name }

def defaultUis : List Event :=
  [.accept (.upsert { name := "edge-ui", kind := "zip" }) {},
    .perform (.upsert (bundle "edge-ui")) {},
    .accept (.upsert { name := "console-ui", kind := "zip" }) {}]

theorem services_apart_uis :
    (∀ a ∈ (replay (after deviceConfig) noServices defaultUis).2.world.memory.list,
      ∀ b ∈ (replay (after deviceConfig) noServices defaultUis).2.world.memory.list, a ≠ b →
        deviceConfig.toLower a.name ≠ deviceConfig.toLower b.name ∧ Distinct deviceConfig a b) ∧
    ∀ job ∈ (replay (after deviceConfig) noServices defaultUis).2.waiting, ∀ out service,
      job.service = some service →
      ∀ other ∈ (replay (after deviceConfig) noServices defaultUis).2.world.memory.list,
        deviceConfig.toLower other.name ≠ deviceConfig.toLower service.name →
        ∀ path, Owns deviceConfig other path → path ≠ deviceConfig.stateAt →
          (∀ artifact, job.artifact = some artifact → path ≠ deviceConfig.at artifact) →
          (after deviceConfig (replay (after deviceConfig) noServices defaultUis).2
            (.perform job out)).world.files path =
            (replay (after deviceConfig) noServices defaultUis).2.world.files path := by
  refine services_apart ⟨by decide, rfl⟩ (System.run_replay _ ?_) ?_
  · refine forall_mem_cons.2 ⟨trivial, forall_mem_cons.2 ⟨?_, ?_⟩⟩
    · change Job.upsert _ ∈ _
      decide
    · exact forall_mem_singleton.2 trivial
  · refine forall_mem_cons.2 ⟨?_, forall_mem_cons.2 ⟨trivial, ?_⟩⟩
    · rintro service - other (ho | ⟨job, hj, -⟩)
      · have hnone : noServices.world.memory.list = [] := by decide
        rw [hnone] at ho
        cases ho
      · cases hj
    · refine forall_mem_singleton.2 fun service hservice other hpresent _ => .inr ?_
      have hnormalize : normalizeManagedService deviceConfig.toSettings
          { name := "console-ui", kind := "zip" } = .ok (bundle "console-ui") := by decide +kernel
      obtain rfl : bundle "console-ui" = service := Except.ok.inj (hnormalize.symm.trans hservice)
      have hother : other = bundle "edge-ui" := by
        rcases hpresent with ho | ⟨job, hj, -⟩
        · have hlist : (after deviceConfig (after deviceConfig noServices
              (.accept (.upsert { name := "edge-ui", kind := "zip" }) {}))
              (.perform (.upsert (bundle "edge-ui")) {})).world.memory.list = [bundle "edge-ui"] := by
            decide +kernel
          exact mem_singleton.1 (hlist ▸ ho)
        · have hwaiting : (after deviceConfig (after deviceConfig noServices
              (.accept (.upsert { name := "edge-ui", kind := "zip" }) {}))
              (.perform (.upsert (bundle "edge-ui")) {})).waiting = [] := by decide
          rw [hwaiting] at hj
          cases hj
      have hdefault : ∀ name ∈ ["console-ui", "edge-ui"], DefaultPaths deviceConfig (bundle name) := by
        intro name hname
        simp only [mem_cons, not_mem_nil, or_false] at hname
        rcases hname with rfl | rfl
        · exact ⟨by decide, .inl rfl, .inl rfl, .inl rfl, .inl rfl, .inr (by decide), by decide +kernel⟩
        · exact ⟨by decide, .inl rfl, .inl rfl, .inl rfl, .inl rfl, .inr (by decide), by decide +kernel⟩
      rw [hother]
      have hsep : ∀ home ∈ homes deviceConfig, ∀ file ∈ defaultFiles deviceConfig,
          deviceConfig.at home ≠ deviceConfig.at file.1 := by decide +kernel
      exact ⟨hsep, hdefault _ (by decide), hdefault _ (by decide)⟩

def sharedInstallPath : List Event :=
  [.accept (.upsert edgeUi) {}, .perform (.upsert edgeUi) {},
    .accept (.upsert { edgeUi with name := "old-ui" }) {},
    .perform (.upsert { edgeUi with name := "old-ui" }) {}]

/-- Two services that are installed in the same place. -/
theorem shared_install_path : ¬ ∀ (cfg : Config) (s t : State cfg) (tr : List (State cfg × Event)),
    s.world.memory.list = [] ∧ s.waiting = [] → (manager cfg).Run s tr t →
      ∀ a ∈ t.world.memory.list, ∀ b ∈ t.world.memory.list, a ≠ b → Distinct cfg a b := by
  intro h
  have hrun : (manager deviceConfig).Run noServices _ _ := System.run_replay sharedInstallPath ?_
  · have hdistinct := h _ _ _ _ ⟨by decide, rfl⟩ hrun edgeUi (by decide)
      { edgeUi with name := "old-ui" } (by decide) (by decide)
    exact (hdistinct.install (by decide) (by decide)).1 (prefix_refl _)
  · refine forall_mem_cons.2 ⟨trivial, forall_mem_cons.2 ⟨?_, forall_mem_cons.2
      ⟨trivial, forall_mem_singleton.2 ?_⟩⟩⟩
    · change Job.upsert _ ∈ _
      decide
    · change Job.upsert _ ∈ _
      decide

end Trakrai.RuntimeManager
