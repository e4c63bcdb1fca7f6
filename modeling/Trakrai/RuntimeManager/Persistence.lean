import Trakrai.RuntimeManager.Frame

namespace Trakrai.RuntimeManager
open List hiding replace
open Lib Process

variable {cfg : Config}

/-- The state file loads, and says what the registry says. -/
def Agrees (cfg : Config) (w : World Content (Registry cfg.toSettings)) : Prop :=
  (loadManagedServicesFromState cfg (w.files cfg.stateAt)).map Prod.fst = .ok w.memory.list

def Stable (cfg : Config) (service : ManagedServiceConfig) : Prop :=
  Normal cfg.toSettings service ∧ service.Trimmed

theorem load_saved {registry : Registry cfg.toSettings}
    (h : ∀ service ∈ registry.list, Stable cfg service) :
    loadManagedServicesFromState cfg (some (.state registry.list)) = .ok (registry.list, false) := by
  have hnormalize : ∀ service ∈ registry.list,
      normalizeManagedService cfg.toSettings service = .ok service :=
    fun service hs => (h service hs).1.normalize_eq (h service hs).2
  rw [loadManagedServicesFromState, normalizeManagedServices_eq hnormalize registry.nodup_keys
    (inOrder_sortByName _)]
  rfl

theorem Agrees.within
    (h : Agrees cfg w) (hwithin : Within region w w') (hregion : ¬ region cfg.stateAt) :
    Agrees cfg w' := by
  rw [Agrees, hwithin.files _ hregion, hwithin.memory]
  exact h

def Saves (cfg : Config) (w : World Content (Registry cfg.toSettings)) : Prop :=
  ∀ n, w.faults n cfg.stateAt = none

theorem meets_write (w₀ : World Content (Registry cfg.toSettings)) :
    Meets (· = w₀) (saveManagedServices cfg)
      (fun _ w => w.files cfg.stateAt = some (.state w₀.memory.list) ∧ w.memory = w₀.memory)
      (fun w => w.files = w₀.files ∧ w.memory = w₀.memory ∧ ¬ Saves cfg w₀) := by
  rintro w rfl
  have hexec : exec (saveManagedServices cfg) w =
      exec (context "write managed service state: " (replace cfg.stateAt (.state w.memory.list))) w := rfl
  rw [hexec]
  simp only [exec, context, replace, Process.call]
  cases hfault : w.faults w.calls cfg.stateAt with
  | none => exact ⟨if_pos rfl, rfl⟩
  | some fault =>
    refine ⟨rfl, rfl, fun hsaves => ?_⟩
    rw [hsaves] at hfault
    cases hfault

theorem agrees_of_saved {w : World Content (Registry cfg.toSettings)}
    (hfile : w.files cfg.stateAt = some (.state w.memory.list))
    (h : ∀ service ∈ w.memory.list, Stable cfg service) : Agrees cfg w := by
  rw [Agrees, hfile, load_saved h]
  rfl

theorem Agrees.of_list_eq (h : Agrees cfg w)
    (hfiles : w'.files = w.files) (hlist : w'.memory.list = w.memory.list) : Agrees cfg w' := by
  rw [Agrees, hfiles, hlist]
  exact h

theorem meets_save (h : ∀ service ∈ registry.list, Stable cfg service):
    Meets (fun w => w.memory = registry ∧ (Saves cfg w ∨ Agrees cfg w)) (saveManagedServices cfg)
      (fun _ w => Agrees cfg w ∧ w.memory = registry) (fun w => Agrees cfg w ∧ w.memory = registry) := by
  rintro w ⟨rfl, hw⟩
  refine Meets.conseq (meets_write w) (fun _ hw => hw) ?_ ?_ w rfl
  · rintro _ w' ⟨hfile, hmemory⟩
    rw [← hmemory] at h hfile ⊢
    exact ⟨agrees_of_saved hfile h, rfl⟩
  · rintro w' ⟨hfiles, hmemory, hfault⟩
    exact ⟨(hw.resolve_left hfault).of_list_eq hfiles (by rw [hmemory]), hmemory⟩

/-- An upsert that keeps state file and registry in line. -/
structure SafeUpsert (cfg : Config) (w : World Content (Registry cfg.toSettings))
    (version : Option String) (service : ManagedServiceConfig) : Prop where
  trimmed : service.Trimmed
  saved : Saves cfg w ∨ w.memory.lookup service.name = some service
  removed : ∀ previous, w.memory.lookup service.name = some previous →
    runtimeIdentityChanged previous service → UnitFiles cfg previous cfg.stateAt → Faultless w
  reconciled : service.execStart ≠ [] → ¬ UnitFiles cfg service cfg.stateAt
  inspected : version.isSome → ¬ VersionRecordFile cfg service cfg.stateAt

/-- A removal that keeps state file and registry in line. -/
structure SafeRemove (cfg : Config) (w : World Content (Registry cfg.toSettings))
    (service : ManagedServiceConfig) (purgeFiles : Bool) : Prop where
  saved : Saves cfg w ∨ w.memory.lookup service.name = none
  removed : (UnitFiles cfg service cfg.stateAt ∨
    (purgeFiles ∧ (InstallFiles cfg service cfg.stateAt ∨ LogFile cfg service cfg.stateAt)) ∨
      VersionFiles cfg service cfg.stateAt) → Faultless w

/-- What comes before the save either spares the state file or goes through to it. -/
theorem meets_before (hkeeps : Keeps (Within region) p) (hsure : Sure p)
    (hregion : region cfg.stateAt → Faultless w₀) (hagrees : Agrees cfg w₀) :
    Meets (· = w₀) p
      (fun _ w => w.memory = w₀.memory ∧ w.faults = w₀.faults ∧ (Agrees cfg w ∨ Faultless w))
      (fun w => Agrees cfg w ∧ w.memory = w₀.memory) := by
  rintro w rfl
  have hwithin := hkeeps w
  by_cases hin : region cfg.stateAt
  · have hfault := hregion hin
    obtain ⟨a, ha⟩ := hsure w hfault
    cases hexec : exec p w with
    | mk result w' =>
      rw [hexec] at ha hwithin
      obtain rfl : result = .ok a := ha
      refine ⟨hwithin.memory, hwithin.faults, .inr fun n path => ?_⟩
      rw [hwithin.faults]
      exact hfault n path
  · have hagrees' := hagrees.within hwithin hin
    cases hexec : exec p w with
    | mk result w' =>
      rw [hexec] at hwithin hagrees'
      cases result with
      | ok a => exact ⟨hwithin.memory, hwithin.faults, .inl hagrees'⟩
      | error error => exact ⟨hagrees', hwithin.memory⟩

theorem meets_after (hkeeps : Keeps (Within region) p) (hregion : ¬ region cfg.stateAt):
    Meets (fun w => Agrees cfg w ∧ w.memory = registry) p
      (fun _ w => Agrees cfg w ∧ w.memory = registry) (fun w => Agrees cfg w ∧ w.memory = registry) :=
  .of_keeps hkeeps (fun _ _ hwithin hw => ⟨hw.1.within hwithin hregion, hwithin.memory.trans hw.2⟩)
    fun _ hw => hw

theorem sure_removeFileIfExists (path : String) : Sure (removeFileIfExists cfg path) := .onlyIf .call

theorem sure_removeServiceSystemdArtifacts (service : ManagedServiceConfig) :
    Sure (removeServiceSystemdArtifacts cfg service) := by
  have hunit : Sure (removeUnit cfg service) := by
    have hctl : Keeps (Within (UnitFiles cfg service)) (attempt (systemctl cfg)) :=
      keeps_systemctl.attempt
    refine .onlyIf (.bind (.attempt _) hctl fun _ => ?_)
    refine .bind (.attempt _) hctl fun _ => ?_
    exact .context (sure_removeFileIfExists _)
  refine .bind hunit keeps_removeUnit fun _ => ?_
  refine .bind (.context (sure_removeFileIfExists _)) keeps_removeScript.context fun _ => ?_
  exact .onlyIf (.context .call)

theorem sure_removeArtifacts (service : ManagedServiceConfig) (purgeFiles : Bool) :
    Sure (removeArtifacts cfg service purgeFiles) := by
  have hpurge : Sure (purgeManagedServiceFiles cfg service) := by
    refine .bind (.onlyIf (.context .call)) keeps_removeInstallPath fun _ => ?_
    exact .context (sure_removeFileIfExists _)
  refine .bind (sure_removeServiceSystemdArtifacts service) keeps_removeServiceSystemdArtifacts fun _ => ?_
  refine .bind (.onlyIf hpurge) (.onlyIf .refl fun _ => keeps_purgeManagedServiceFiles) fun _ => ?_
  exact .attempt _

theorem sure_removePrevious (previous : Option ManagedServiceConfig) (service : ManagedServiceConfig) :
    Sure (removePrevious cfg previous service) := by
  cases previous with
  | none => exact .pure ()
  | some old => exact .onlyIf (sure_removeServiceSystemdArtifacts old)

/-- State file and registry agree, and the registry is one of two. -/
def Settled (registry registry' : Registry cfg.toSettings)
    (w : World Content (Registry cfg.toSettings)) : Prop :=
  Agrees cfg w ∧ (w.memory = registry ∨ w.memory = registry')

theorem meets_store (hsaved : Saves cfg w₀ ∨ registry.list = w₀.memory.list): Meets
      (fun w => w.memory = w₀.memory ∧ w.faults = w₀.faults ∧ (Agrees cfg w ∨ Faultless w))
      (store registry) (fun _ w => w.memory = registry ∧ (Saves cfg w ∨ Agrees cfg w)) E := by
  refine .store ?_
  rintro w ⟨hmemory, hfaults, hw⟩
  refine ⟨rfl, ?_⟩
  rcases hsaved with hsaves | hlist
  · refine .inl fun n => ?_
    change w.faults n cfg.stateAt = none
    rw [hfaults]
    exact hsaves n
  · rcases hw with hagrees | hfault
    · exact .inr (hagrees.of_list_eq rfl (hlist.trans (congrArg Registry.list hmemory.symm)))
    · exact .inl fun n => hfault n _

theorem meets_upsert (hagrees : Agrees cfg w₀)
    (hsafe : SafeUpsert cfg w₀ out.version service) (hnormal : Normal cfg.toSettings service)
    (hstable : ∀ other ∈ w₀.memory.list, Stable cfg other) :
    Meets (· = w₀) (upsertService cfg out service)
      (fun _ => Settled w₀.memory (w₀.memory.store service))
      (Settled w₀.memory (w₀.memory.store service)) := by
  have hstable' : ∀ other ∈ (w₀.memory.store service).list, Stable cfg other := by
    intro other ho
    rcases Registry.mem_store.1 ho with rfl | ⟨ho, -⟩
    · exact ⟨hnormal, hsafe.trimmed⟩
    · exact hstable other ho
  have hsaved : Saves cfg w₀ ∨ (w₀.memory.store service).list = w₀.memory.list := by
    refine hsafe.saved.imp_right fun hlookup => ?_
    exact Registry.list_store_of_mem (Registry.lookup_eq_some_iff.1 hlookup).1
  have hnew (w : World Content (Registry cfg.toSettings))
      (hw : Agrees cfg w ∧ w.memory = w₀.memory.store service) :
      Settled w₀.memory (w₀.memory.store service) w := ⟨hw.1, .inr hw.2⟩
  refine .bind (Q := fun registry w => w = w₀ ∧ registry = w₀.memory) ?_ fun registry => ?_
  · rintro w rfl
    exact ⟨rfl, rfl⟩
  by_cases hregistry : registry = w₀.memory
  swap
  · exact fun w hw => absurd hw.2 hregistry
  subst hregistry
  -- what comes before the save
  refine .bind (.conseq (meets_before (keeps_removePrevious _) (sure_removePrevious _ _) ?_ hagrees)
    (fun _ hw => hw.1) (fun _ _ hw => hw) fun _ hw => ⟨hw.1, .inl hw.2⟩) fun _ => ?_
  · rintro ⟨previous, hprevious, hchanged, hfiles⟩
    exact hsafe.removed previous hprevious hchanged hfiles
  refine .bind (meets_store hsaved) fun _ => ?_
  refine .bind (.conseq (meets_save hstable') (fun _ hw => hw) (fun _ _ hw => hw) hnew) fun _ => ?_
  -- what comes after it
  refine .bind (.conseq (meets_after (keeps_reconcile hnormal) ?_) (fun _ hw => hw)
    (fun _ _ hw => hw) hnew) fun _ => ?_
  · exact fun h => hsafe.reconciled h.1 h.2
  refine .conseq (meets_after (keeps_inspect _) ?_) (fun _ hw => hw) (fun _ => hnew) hnew
  exact fun h => hsafe.inspected h.1 h.2

theorem meets_remove (hagrees : Agrees cfg w₀) (hsafe : SafeRemove cfg w₀ service purgeFiles)
    (hstable : ∀ other ∈ w₀.memory.list, Stable cfg other) :
    Meets (· = w₀) (removeService cfg service purgeFiles)
      (fun _ => Settled w₀.memory (w₀.memory.delete service.name))
      (Settled w₀.memory (w₀.memory.delete service.name)) := by
  have hstable' : ∀ other ∈ (w₀.memory.delete service.name).list, Stable cfg other :=
    fun other ho => hstable other (Registry.mem_delete.1 ho).1
  have hsaved : Saves cfg w₀ ∨ (w₀.memory.delete service.name).list = w₀.memory.list :=
    hsafe.saved.imp_right Registry.list_delete_of_lookup
  refine .bind (.conseq (meets_before (keeps_removeArtifacts purgeFiles)
    (sure_removeArtifacts service purgeFiles) hsafe.removed hagrees) (fun _ hw => hw)
    (fun _ _ hw => hw) fun _ hw => ⟨hw.1, .inl hw.2⟩) fun _ => ?_
  refine .bind (Q := fun registry w => (w.memory = w₀.memory ∧ w.faults = w₀.faults ∧
    (Agrees cfg w ∨ Faultless w)) ∧ registry = w₀.memory) ?_ fun registry => ?_
  · exact fun w hw => ⟨hw, hw.1⟩
  by_cases hregistry : registry = w₀.memory
  swap
  · exact fun w hw => absurd hw.2 hregistry
  subst hregistry
  refine .bind (.conseq (meets_store hsaved) (fun _ hw => hw.1) (fun _ _ hw => hw) fun _ hw => hw)
    fun _ => ?_
  exact .conseq (meets_save hstable') (fun _ hw => hw) (fun _ _ hw => ⟨hw.1, .inr hw.2⟩)
    fun _ hw => ⟨hw.1, .inr hw.2⟩

theorem agrees_putConfig (hagrees : Agrees cfg w) (hleft : cfg.at path = cfg.stateAt →
      (loadManagedServicesFromState cfg (left w cfg.stateAt content)).map Prod.fst =
        .ok w.memory.list) :
    Agrees cfg (exec (putConfig cfg path content restartServices) w).2 := by
  have hkeeps := keeps_putConfig path content restartServices w
  by_cases hpath : cfg.at path = cfg.stateAt
  · have hwrite : Meets (· = w)
        (context ("write config " ++ goBase path ++ ": ") (overwrite (cfg.at path) content))
        (fun _ w' => w'.files cfg.stateAt = left w cfg.stateAt content)
        (fun w' => w'.files cfg.stateAt = left w cfg.stateAt content) := by
      refine meets_iff.2 fun w' hw => ?_
      rw [hw, hpath]
      exact files_overwrite
    have hrestart : Meets (fun w' => w'.files cfg.stateAt = left w cfg.stateAt content)
        (restartAll cfg (cleanStringList restartServices))
        (fun _ w' => w'.files cfg.stateAt = left w cfg.stateAt content)
        (fun w' => w'.files cfg.stateAt = left w cfg.stateAt content) :=
      .of_keeps (R := Within fun _ => False) (keeps_restartAll _)
        (fun _ _ hwithin hw => (hwithin.files _ id).trans hw) fun _ hw => hw
    have hput := meets_iff.1 (hwrite.bind fun _ => hrestart) w rfl
    rw [Agrees, hkeeps.memory]
    exact (congrArg (fun file => (loadManagedServicesFromState cfg file).map Prod.fst) hput).trans
      (hleft hpath)
  · exact hagrees.within hkeeps fun h => hpath h.symm

/-- A command that keeps state file and registry in line, in the state in which it has the lock. -/
def Safe (cfg : Config) (s : State cfg) : Event → Prop
  | .accept _ _ => True
  | .perform (.upsert service) out => SafeUpsert cfg (meeting cfg out s.world) out.version service
  | .perform (.remove service purgeFiles) out =>
    SafeRemove cfg (meeting cfg out s.world) service purgeFiles
  | .perform (.putConfig path content _) out => cfg.at path = cfg.stateAt →
    (loadManagedServicesFromState cfg
      (left (meeting cfg out s.world) cfg.stateAt content)).map Prod.fst = .ok s.world.memory.list
  | .perform (.update service artifactPath) out =>
    ¬ UpdateFiles cfg out service artifactPath cfg.stateAt

structure Invariant (cfg : Config) (s : State cfg) : Prop where
  agrees : Agrees cfg s.world
  stable : ∀ service ∈ s.world.memory.list, Stable cfg service
  waiting : ∀ service, Job.upsert service ∈ s.waiting → Normal cfg.toSettings service

theorem Invariant.settled (h : Invariant cfg s) (hsettled : Settled s.world.memory registry t.world)
    (hstable : ∀ service ∈ registry.list, Stable cfg service)
    (hwaiting : ∀ job ∈ t.waiting, job ∈ s.waiting) : Invariant cfg t where
  agrees := hsettled.1
  stable := by
    rcases hsettled.2 with hmemory | hmemory
    · rw [hmemory]
      exact h.stable
    · rw [hmemory]
      exact hstable
  waiting := fun service hs => h.waiting service (hwaiting _ hs)

theorem Invariant.of_agrees (h : Invariant cfg s) (hagrees : Agrees cfg t.world)
    (hmemory : t.world.memory = s.world.memory)
    (hwaiting : ∀ service, Job.upsert service ∈ t.waiting → Normal cfg.toSettings service) :
    Invariant cfg t where
  agrees := hagrees
  stable := by
    rw [hmemory]
    exact h.stable
  waiting := hwaiting

theorem Invariant.accept (h : Invariant cfg s) (request : Request) (out : Outside) :
    Invariant cfg (RuntimeManager.after cfg s (.accept request out)) := by
  have hagrees : Agrees cfg (meeting cfg out s.world) := h.agrees
  have hkeeps : Within (fun _ => False) (meeting cfg out s.world)
      (exec (prepare cfg request) (meeting cfg out s.world)).2 := keeps_prepare request _
  have hprepared := meets_prepare request (meeting cfg out s.world) rfl
  have hagrees' := hagrees.within hkeeps id
  rw [RuntimeManager.after]
  cases hexec : exec (prepare cfg request) (meeting cfg out s.world) with
  | mk result w =>
    rw [hexec] at hkeeps hprepared hagrees'
    cases result with
    | error error => exact h.of_agrees hagrees' hkeeps.memory h.waiting
    | ok job =>
      apply h.of_agrees hagrees' hkeeps.memory
      intro service hs
      rcases mem_append.1 hs with hs | hs
      · exact h.waiting service hs
      · obtain rfl := mem_singleton.1 hs
        obtain ⟨definition, -, hnormalize⟩ := hprepared
        exact normal_of_normalize hnormalize

theorem Invariant.after (h : Invariant cfg s) (henabled : Enabled cfg s e) (hsafe : Safe cfg s e): Invariant cfg (after cfg s e) := by
  cases e with
  | accept request out => exact h.accept request out
  | perform job out =>
    have hagrees : Agrees cfg (meeting cfg out s.world) := h.agrees
    have hwaiting : ∀ other ∈ s.waiting.erase job, other ∈ s.waiting :=
      fun _ ho => mem_of_mem_erase ho
    cases job with
    | upsert service =>
      have hnormal := h.waiting _ henabled
      have hsettled : Settled s.world.memory (s.world.memory.store service)
          (RuntimeManager.after cfg s (.perform (.upsert service) out)).world :=
        meets_iff.1 (meets_upsert hagrees hsafe hnormal h.stable) _ rfl
      refine h.settled hsettled ?_ hwaiting
      intro other ho
      rcases Registry.mem_store.1 ho with rfl | ⟨ho, -⟩
      · exact ⟨hnormal, hsafe.trimmed⟩
      · exact h.stable other ho
    | remove service purgeFiles =>
      have hsettled : Settled s.world.memory (s.world.memory.delete service.name)
          (RuntimeManager.after cfg s (.perform (.remove service purgeFiles) out)).world :=
        meets_iff.1 (meets_remove hagrees hsafe h.stable) _ rfl
      refine h.settled hsettled ?_ hwaiting
      exact fun other ho => h.stable other (Registry.mem_delete.1 ho).1
    | putConfig path content restartServices =>
      apply h.of_agrees (agrees_putConfig hagrees hsafe)
      · exact (keeps_putConfig path content restartServices (meeting cfg out s.world)).memory
      · exact fun service hs => h.waiting service (hwaiting _ hs)
    | update service artifactPath =>
      have hkeeps : Within (UpdateFiles cfg out service artifactPath) (meeting cfg out s.world)
          (RuntimeManager.after cfg s (.perform (.update service artifactPath) out)).world :=
        keeps_updateService out artifactPath _
      apply h.of_agrees (hagrees.within hkeeps hsafe) hkeeps.memory
      exact fun service hs => h.waiting service (hwaiting _ hs)

theorem keeps_reconcileAll (h : ∀ service ∈ services, Normal cfg.toSettings service)
    (hregion : ∀ service ∈ services, ∀ path, service.execStart ≠ [] → UnitFiles cfg service path →
      region path) :
    Keeps (Within region) (reconcileAllManagedServices cfg services) := by
  induction services with
  | nil => exact keeps_pure ()
  | cons service services ih =>
    obtain ⟨hservice, hrest⟩ := forall_mem_cons.1 h
    obtain ⟨hfiles, hregion⟩ := forall_mem_cons.1 hregion
    refine Keeps.bind .trans (.attempt ?_) fun _ => ih hrest hregion
    exact (keeps_reconcile hservice).within fun path hp => hfiles path hp.1 hp.2

/-- A definition that the manager can start with. -/
def SafeStart (cfg : Config) (service : ManagedServiceConfig) : Prop :=
  service.Trimmed ∧ (service.execStart ≠ [] → ¬ UnitFiles cfg service cfg.stateAt)

theorem loaded (h : loadManagedServicesFromState cfg file = .ok (services, seeded)):
    (∀ service ∈ services, Normal cfg.toSettings service) ∧
      (keys cfg.toSettings services).Nodup ∧ InOrder services := by
  have hnormalize {raw : List ManagedServiceConfig}
      (h : (normalizeManagedServices cfg.toSettings raw).map (·, false) = .ok (services, seeded)) :
      normalizeManagedServices cfg.toSettings raw = .ok services := by
    cases hraw : normalizeManagedServices cfg.toSettings raw with
    | error error => simp [hraw, Except.map] at h
    | ok normalized =>
      obtain ⟨rfl, -⟩ : normalized = services ∧ false = seeded := by simpa [hraw, Except.map] using h
      rfl
  cases file with
  | none =>
    obtain ⟨rfl, -⟩ : cfg.services = services ∧ true = seeded := by
      simpa [loadManagedServicesFromState] using h
    obtain ⟨raw, hraw⟩ := cfg.normalized
    exact normalizeManagedServices_ok hraw
  | some content =>
    cases content with
    | state raw => exact normalizeManagedServices_ok (hnormalize h)
    | legacy raw => exact normalizeManagedServices_ok (hnormalize h)
    | blank =>
      obtain ⟨rfl, -⟩ : [] = services ∧ false = seeded := by
        simpa [loadManagedServicesFromState] using h
      exact ⟨forall_mem_nil _, nodup_nil, List.Pairwise.nil⟩
    | script service => cases h
    | unit service => cases h
    | versionRecord serviceName summary => cases h
    | other text => cases h

/-- After `NewService` the registry is what the state file says, unless the configuration has it. -/
theorem meets_newService : Meets (fun _ => True) (newService cfg)
    (fun seeded w => (∀ service ∈ w.memory.list, Normal cfg.toSettings service) ∧
      (seeded = false → Agrees cfg w)) (fun _ => True) := by
  refine .bind .trivial fun _ => ?_
  refine .bind (Q := fun file w => file = w.files cfg.stateAt) (fun _ _ => rfl) fun file => ?_
  refine .bind (Q := fun result w => loadManagedServicesFromState cfg (w.files cfg.stateAt) = .ok result)
    ?_ fun result => ?_
  · refine .ofExcept (fun result w h hfile => ?_) fun _ _ => trivial
    rw [← hfile]
    exact h
  obtain ⟨services, seeded⟩ := result
  refine .bind (Q := fun _ w => (∀ service ∈ w.memory.list, Normal cfg.toSettings service) ∧
    (seeded = false → Agrees cfg w)) (.store fun w h => ?_) fun _ => .pure fun _ h => h
  obtain ⟨hnormal, hkeys, horder⟩ := loaded h
  have hlist : (Registry.ofServices cfg.toSettings services).list = services :=
    Registry.list_ofServices hkeys horder
  refine ⟨fun service hs => hnormal service ?_, fun _ => ?_⟩
  · rw [← hlist]
    exact hs
  · change (loadManagedServicesFromState cfg (w.files cfg.stateAt)).map Prod.fst =
      .ok (Registry.ofServices cfg.toSettings services).list
    rw [h, hlist]
    rfl

/-- The registry is sound, and agrees with the state file if the manager can start with it. -/
def Ready (cfg : Config) (w : World Content (Registry cfg.toSettings)) : Prop :=
  (∀ service ∈ w.memory.list, Normal cfg.toSettings service) ∧
    ((∀ service ∈ w.memory.list, SafeStart cfg service) → Agrees cfg w)

theorem Ready.of_saved (hfile : w.files cfg.stateAt = some (.state w.memory.list))
    (hnormal : ∀ service ∈ w.memory.list, Normal cfg.toSettings service) : Ready cfg w :=
  ⟨hnormal, fun hstart => agrees_of_saved hfile fun service hs =>
    ⟨hnormal service hs, (hstart service hs).1⟩⟩

theorem meets_reconcileAll (h : Ready cfg w) :
    Ready cfg (exec (reconcileAllManagedServices cfg w.memory.list) w).2 := by
  have hkeeps : Keeps (Within fun path => ∃ service ∈ w.memory.list, service.execStart ≠ [] ∧
      UnitFiles cfg service path) (reconcileAllManagedServices cfg w.memory.list) :=
    keeps_reconcileAll h.1 fun service hs _ hexec hfile => ⟨service, hs, hexec, hfile⟩
  rw [Ready, (hkeeps w).memory]
  refine ⟨h.1, fun hstart => (h.2 hstart).within (hkeeps w) ?_⟩
  rintro ⟨service, hs, hexec, hfile⟩
  exact (hstart service hs).2 hexec hfile

theorem meets_startManager :
    Meets (fun _ => True) (startManager cfg) (fun _ => Ready cfg) (fun _ => True) := by
  refine .bind meets_newService fun seeded => ?_
  refine .bind (Q := fun _ => Ready cfg) ?_ fun _ => ?_
  · cases seeded with
    | false => exact .pure fun w hw => ⟨hw.1, fun _ => hw.2 rfl⟩
    | true =>
      rintro w ⟨hnormal, -⟩
      refine Meets.conseq (meets_write w).context (fun _ hw => hw) ?_ (fun _ _ => trivial) w rfl
      rintro _ w' ⟨hfile, hmemory⟩
      rw [← hmemory] at hfile hnormal
      exact .of_saved hfile hnormal
  · refine .bind (Q := fun registry w => Ready cfg w ∧ w.memory = registry)
      (fun w hw => ⟨hw, rfl⟩) fun registry => ?_
    have hready : Meets (fun w => Ready cfg w ∧ w.memory = registry)
        (reconcileAllManagedServices cfg registry.list) (fun _ => Ready cfg) (Ready cfg) := by
      refine meets_iff.2 ?_
      rintro w ⟨hw, rfl⟩
      exact meets_reconcileAll hw
    exact hready.conseq (fun _ hw => hw) (fun _ _ hw => hw) fun _ _ => trivial

theorem invariant_init (hinit : (manager cfg).init s)
    (hstart : ∀ service ∈ s.world.memory.list, SafeStart cfg service) : Invariant cfg s := by
  obtain ⟨hwaiting, out, w, hexec⟩ := hinit
  have hready := meets_startManager (meeting cfg out w) trivial
  rw [hexec] at hready
  refine ⟨hready.2 hstart, fun service hs => ⟨hready.1 service hs, (hstart service hs).1⟩, ?_⟩
  intro service hs
  rw [hwaiting] at hs
  cases hs

/-- The registry and the state file agree in every state of a run. -/
theorem registry_saved {s t : State cfg} {tr : List (State cfg × Event)}
    (hinit : (manager cfg).init s) (hstart : ∀ service ∈ s.world.memory.list, SafeStart cfg service)
    (hrun : (manager cfg).Run s tr t) (hsafe : ∀ p ∈ tr, Safe cfg p.1 p.2) :
    ∀ u ∈ states tr t, Agrees cfg u.world := by
  have hinvariant : ∀ u ∈ states tr t, Invariant cfg u := by
    refine hrun.forall_states (invariant_init hinit hstart) ?_
    rintro p hp hinv _ ⟨henabled, rfl⟩
    exact hinv.after henabled (hsafe p hp)
  exact fun u hu => (hinvariant u hu).agrees

def deviceSettings : Settings where
  binaryDir := "/trakrai/bin"
  configDir := "/trakrai/configs"
  logDir := "/trakrai/logs"
  rootDir := "/trakrai"
  scriptDir := "/trakrai/scripts"
  stateFile := "/trakrai/state/managed-services.json"
  versionDir := "/trakrai/versions"
  unitDirectory := "/etc/systemd/system"
  rootDir_clean := by decide
  cwd := "/"
  cwd_rooted := by decide
  toLower := fun text => String.ofList (text.toList.map Char.toLower)
  toLower_kind := by decide
  print := asciiPrint

def deviceConfig : Config where
  toSettings := deviceSettings
  services := []
  normalized := ⟨[], rfl⟩

def firstStart : State deviceConfig :=
  ⟨(exec (startManager deviceConfig) (meeting deviceConfig {} ⟨fun _ => none, .empty, 0, fun _ _ => none⟩)).2,
    []⟩

theorem firstStart_init : (manager deviceConfig).init firstStart :=
  ⟨rfl, {}, ⟨fun _ => none, .empty, 0, fun _ _ => none⟩, Prod.ext (by decide) rfl⟩

def edgeUi : ManagedServiceConfig :=
  { name := "edge-ui", displayName := "Edge UI", kind := "zip", installPath := "/trakrai/ui" }

theorem registry_saved_edgeUi : ∃ tr t, (manager deviceConfig).Run firstStart tr t ∧
      tr.map Prod.snd = [.accept (.upsert edgeUi) {}, .perform (.upsert edgeUi) {}] ∧
      ∀ u ∈ states tr t, Agrees deviceConfig u.world := by
  have hnone : firstStart.world.memory.list = [] := by decide
  have hrun : (manager deviceConfig).Run firstStart
      (replay (after deviceConfig) firstStart [.accept (.upsert edgeUi) {}, .perform (.upsert edgeUi) {}]).1
      (replay (after deviceConfig) firstStart [.accept (.upsert edgeUi) {}, .perform (.upsert edgeUi) {}]).2 := by
    apply System.run_replay
    refine forall_mem_cons.2 ⟨trivial, forall_mem_singleton.2 ?_⟩
    change Job.upsert edgeUi ∈ _
    decide
  refine ⟨_, _, hrun, replay_labels .., ?_⟩
  apply registry_saved firstStart_init _ hrun
  · refine forall_mem_cons.2 ⟨trivial, forall_mem_singleton.2 ?_⟩
    refine ⟨by decide, .inl fun _ => rfl, ?_, fun h => absurd rfl h, nofun⟩
    intro previous hprevious
    have hlookup := (Registry.lookup_eq_some_iff.1 hprevious).1
    change previous ∈ firstStart.world.memory.list at hlookup
    rw [hnone] at hlookup
    cases hlookup
  · intro service hs
    rw [hnone] at hs
    cases hs

def fullDisk : Outside where
  faults := fun _ path =>
    if path = deviceConfig.stateAt then some { error := "no space left on device" } else none

/-- The registry has a service that a restart does not find. -/
theorem unsaved_service : ¬ ∀ (cfg : Config) (s t : State cfg) (tr : List (State cfg × Event)),
    (manager cfg).init s → (manager cfg).Run s tr t → ∀ u ∈ states tr t, Agrees cfg u.world := by
  intro h
  have hrun : (manager deviceConfig).Run firstStart _ _ :=
    System.run_replay [.accept (.upsert edgeUi) {}, .perform (.upsert edgeUi) fullDisk] ?_
  · have hlost := h _ _ _ _ firstStart_init hrun _ (end_mem_states _ _)
    exact absurd hlost (by rw [Agrees]; decide)
  · refine forall_mem_cons.2 ⟨trivial, forall_mem_singleton.2 ?_⟩
    change Job.upsert edgeUi ∈ _
    decide

end Trakrai.RuntimeManager
