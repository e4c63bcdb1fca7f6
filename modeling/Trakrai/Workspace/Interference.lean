import Mathlib.Data.Char
import Mathlib.Data.List.Lex
import Mathlib.Data.Nat.Basic
import Trakrai.Authz.Laws
import Trakrai.Workspace.Visibility
import Trakrai.Workspace.Leaks

namespace Trakrai.Workspace
open Lib Backend Authz
open Gateway (DeviceGatewayAccessTokenPayload plainJwt)

section
variable {Token : Type} {services : Services Token} {s s' : Snapshot} {user : User}
  {request : Request} (hx : services.Exact) (hw : Constrained s.toWorld)
  (hu : isSysAdminRole user.role = false)
include hx hw hu

theorem respond_betrayed {input : DeviceWorkspaceInput} {id : String}
    (hid : textId "deviceId" input.deviceId = .ok id) (hb : Betrayed s user id) :
    services.respond user s (.getDeviceWorkspace input) =
      .error (.forbidden "You do not have access to this device.") := by
  obtain ⟨hn, i, hi, rfl, -⟩ := hb
  obtain ⟨v, hv, hvid⟩ := any_key_iff.1 (hw.installationDevice i hi)
  rw [← hvid] at hid hn
  have hread := readDeviceWorkspace_forbidden hx hw hu hv hn
  simp only [Services.respond, answer, getDeviceWorkspace, hid]
  exact congrArg (Response.deviceWorkspace <$> ·) hread

section
variable (hw' : Constrained s'.toWorld) (ha : Agree user s s')
include hw' ha

theorem respond_eq_of_sealed (h : Sealed s user request) :
    services.respond user s' request = services.respond user s request := by
  have heq {input : DeviceWorkspaceInput} {id : String}
      (hid : textId "deviceId" input.deviceId = .ok id) (hb : Betrayed s user id) :
      services.respond user s' (.getDeviceWorkspace input) =
        services.respond user s (.getDeviceWorkspace input) :=
    (respond_betrayed hx hw' hu hid (ha.betrayed hb)).trans (respond_betrayed hx hw hu hid hb).symm
  rcases h.covered_or_betrayed with hc | ⟨input, id, rfl, hid, hb⟩
  · rcases (h.transfer ha).covered_or_betrayed with hc' | ⟨input, id, rfl, hid, hb⟩
    · exact respond_eq_of_covered hx hw.allowed hu hw'.allowed hc hc' ha
    · exact heq hid (ha.symm.betrayed hb)
  · exact heq hid hb

theorem respond_eq_of_separate (hl : Linked s.toWorld) (hl' : Linked s'.toWorld)
    (h : Separate s user request) :
    services.respond user s' request = services.respond user s request :=
  respond_eq_of_covered hx hw.allowed hu hw'.allowed (h.covered hl) ((h.transfer ha).covered hl') ha

end

theorem leaks_of_not_sealed (h : ¬ Sealed s user request) : Leaks services user s request := by
  cases request with
  | listFactoriesNav =>
    obtain ⟨⟨f, hf, hn⟩, hopen⟩ := Classical.not_imp.1 h
    obtain ⟨s', hw', ha, hne⟩ := sidebar_leaks hx hw hu hf hn hopen
    exact ⟨s', hw', ha, fun he => hne (listFactoriesNav_of_respond he)⟩
  | getFactoryWorkspace input =>
    simp only [Sealed, SealedFactory, not_forall] at h
    obtain ⟨id, ⟨⟨page, hpage⟩, hid⟩, hn, ⟨f, hf, rfl⟩, hopen⟩ := h
    exact factoryWorkspace_leaks hx hw hu hpage hid hf hn hopen
  | getDepartmentWorkspace input =>
    simp only [Sealed, SealedDepartment, not_forall] at h
    obtain ⟨id, ⟨⟨page, hpage⟩, hid⟩, hn, d, hd, rfl, hopen⟩ := h
    exact departmentWorkspace_leaks hx hw hu hpage hid hd hn hopen
  | getDeviceWorkspace input =>
    simp only [Sealed, not_forall, not_or] at h
    obtain ⟨id, hid, hb, hopen⟩ := h
    by_cases hn : Can s user .canNavigate .device id
    · simp only [SealedDevice, hn, true_and, not_forall] at hopen
      obtain ⟨v, hv, rfl, hopen⟩ := hopen
      obtain ⟨s', hw', ha, hne⟩ := device_leaks hx hw hu hv hn hopen
      exact ⟨s', hw', ha, fun he => hne (deviceWorkspace_of_respond hid he)⟩
    · obtain ⟨s', hs', hne⟩ := hidden_device_leaks hx hw hu hn hb
      exact ⟨s', hs'.constrained, hs'.agree, fun he => hne (deviceWorkspace_of_respond hid he)⟩

omit hx hw hu in
theorem Linked.not_betrayed (hl : Linked s.toWorld) {id : String} : ¬ Betrayed s user id := by
  rintro ⟨hn, i, hi, rfl, hc⟩
  exact hn (canNavigate_of_child (.inr (.inr ⟨rfl, rfl⟩)) (hl.installations i hi).2 hc)

theorem variant_of_not_separate (hl : Linked s.toWorld) (h : ¬ Separate s user request) :
    ∃ s' : Snapshot, Variant user s s' ∧
      services.respond user s' request ≠ services.respond user s request := by
  cases request with
  | listFactoriesNav => exact absurd trivial h
  | getFactoryWorkspace input => exact absurd trivial h
  | getDepartmentWorkspace input => exact absurd trivial h
  | getDeviceWorkspace input =>
    simp only [Separate, not_forall] at h
    obtain ⟨id, hid, hopen⟩ := h
    by_cases hn : Can s user .canNavigate .device id
    · simp only [SeparateDevice, hn, true_and, not_forall] at hopen
      obtain ⟨v, hv, rfl, hr, w, hmem, hdep, hnw, hrw⟩ := hopen
      obtain ⟨s', hs', hne⟩ := beside_leaks hx hw hu hv hn hr hmem hdep hnw hrw
      exact ⟨s', hs', fun he => hne (deviceWorkspace_of_respond hid he)⟩
    · obtain ⟨s', hs', hne⟩ := hidden_device_leaks hx hw hu hn hl.not_betrayed
      exact ⟨s', hs', fun he => hne (deviceWorkspace_of_respond hid he)⟩

/-- The response to a request is the same in all states that its user cannot tell apart if and
only if the request is sealed; among the states that record the parents of their rows, if and
only if a device is read with the devices beside it. -/
theorem noninterference_iff (request : Request) :
    ((∀ s' : Snapshot, Constrained s'.toWorld → Agree user s s' →
        services.respond user s' request = services.respond user s request) ↔
      Sealed s user request) ∧
    (Linked s.toWorld →
      ((∀ s' : Snapshot, Constrained s'.toWorld → Linked s'.toWorld → Agree user s s' →
          services.respond user s' request = services.respond user s request) ↔
        Separate s user request)) := by
  refine ⟨⟨fun h => ?_, fun h s' hw' ha => respond_eq_of_sealed hx hw hu hw' ha h⟩,
    fun hl => ⟨fun h => ?_, fun h s' hw' hl' ha =>
      respond_eq_of_separate hx hw hu hw' ha hl hl' h⟩⟩
  · by_contra hsealed
    obtain ⟨s', hw', ha, hne⟩ := leaks_of_not_sealed hx hw hu hsealed
    exact hne (h s' hw' ha)
  · by_contra hseparate
    obtain ⟨s', hs', hne⟩ := variant_of_not_separate hx hw hu hl hseparate
    exact hne (h s' hs'.constrained (hs'.linked hl) hs'.agree)

end

def plainServices : Services DeviceGatewayAccessTokenPayload where
  check := evaluateCheck
  listUserAuthorizedObjectIds := evaluateObjectIds
  jwt := plainJwt
  ilike value pattern :=
    (value.toList.map Char.toLower).tails.any fun rest =>
      ((pattern.toList.drop 1).dropLast.map Char.toLower).isPrefixOf rest
  nameLe name name' := decide (name.toList ≤ name'.toList)

theorem plainServices_exact : plainServices.Exact :=
  ⟨fun hall t => evaluateCheck_iff hall t, fun hall => mem_evaluateObjectIds_iff hall⟩

def sampleState (speedEnabled : Bool) : Snapshot where
  factories := [⟨"plant", "Plant", none⟩]
  departments := [⟨"yard", "plant", "Yard", none⟩]
  devices := [⟨"gate", "yard", "Gate", none, "token-1", true⟩,
    ⟨"road", "yard", "Road", none, "token-2", true⟩]
  catalog := [⟨"live", "live-feed", "Live", "Live", none, none, none, 0, true, ["start"], []⟩,
    ⟨"speed", "speed-estimation", "Speed", "Speed", none, none, none, 1, true, [], []⟩]
  installations := [⟨"road-live", "road", "live", true⟩, ⟨"road-speed", "road", "speed", speedEnabled⟩]
  tuples :=
    ([createObjectParentTupleKeys .department "yard" .factory "plant",
      createObjectParentTupleKeys .device "gate" .department "yard",
      createObjectParentTupleKeys .device "road" .department "yard",
      createObjectParentTupleKeys .deviceComponent "road-live" .device "road",
      createObjectParentTupleKeys .deviceComponent "road-speed" .device "road"].flatMap
        fun keys => [keys.1, keys.2]) ++
    [⟨⟨.device, "gate"⟩, .viewer, ⟨.user, "ana"⟩⟩,
      ⟨⟨.deviceComponent, "road-live"⟩, .reader, ⟨.user, "ana"⟩⟩]
  createdAt _ := 0
  updatedAt _ := 0

def sampleUser : User := ⟨"ana", some "user"⟩

theorem sampleState_constrained (speedEnabled : Bool) :
    Constrained (sampleState speedEnabled).toWorld := by
  cases speedEnabled <;> constructor <;> decide +kernel

theorem sampleState_linked (speedEnabled : Bool) : Linked (sampleState speedEnabled).toWorld := by
  cases speedEnabled <;> constructor <;> unfold Records <;> decide +kernel

theorem sampleState_can {relation : AuthzRelation} {objectType : AuthzType} {id : String}
    (speedEnabled : Bool) : Can (sampleState speedEnabled) sampleUser relation objectType id ↔
      evaluateCheck (sampleState true).tuples
        ⟨⟨objectType, id⟩, relation, createAuthzUser sampleUser.id⟩ = true :=
  (evaluateCheck_iff (sampleState_constrained speedEnabled).allowed
    ⟨⟨objectType, id⟩, relation, createAuthzUser sampleUser.id⟩).symm

theorem restrict_sampleState (hspeed : p ⟨.deviceComponent, "road-speed"⟩ = false):
    (sampleState false).restrict p = (sampleState true).restrict p := by
  simp [Snapshot.restrict, sampleState, List.filter_cons, hspeed]

theorem sampleState_agree : Agree sampleUser (sampleState true) (sampleState false) :=
  Agree.of_rows rfl (restrict_sampleState (sight_eq_false fun h =>
    absurd ((sampleState_can true).1 h) (by decide +kernel)))

theorem gate_not_separate :
    ¬ Separate (sampleState true) sampleUser (.getDeviceWorkspace ⟨"gate"⟩) := by
  intro h
  have hid : textId "deviceId" "gate" = .ok "gate" := by decide +kernel
  obtain ⟨-, hrow⟩ := h "gate" hid
  have hread := hrow _ (List.mem_cons_self ..) rfl
    ((sampleState_can true).2 (by decide +kernel)) _
    (List.mem_cons_of_mem _ (List.mem_singleton_self _)) rfl
    ((sampleState_can true).2 (by decide +kernel))
  exact absurd ((sampleState_can true).1 hread) (by decide +kernel)

/-- The user of the sample learns more than he sees from the gate's workspace, and nothing more
from the list of factories. -/
theorem noninterference_iff_sample :
    ¬ (∀ s' : Snapshot, Constrained s'.toWorld → Linked s'.toWorld →
        Agree sampleUser (sampleState true) s' →
        plainServices.respond sampleUser s' (.getDeviceWorkspace ⟨"gate"⟩) =
          plainServices.respond sampleUser (sampleState true) (.getDeviceWorkspace ⟨"gate"⟩)) ∧
    ∀ s' : Snapshot, Constrained s'.toWorld → Linked s'.toWorld →
        Agree sampleUser (sampleState true) s' →
        plainServices.respond sampleUser s' .listFactoriesNav =
          plainServices.respond sampleUser (sampleState true) .listFactoriesNav := by
  have huser : isSysAdminRole sampleUser.role = false := by decide +kernel
  have hiff := noninterference_iff plainServices_exact (sampleState_constrained true) huser
  exact ⟨fun h => gate_not_separate (((hiff _).2 (sampleState_linked true)).1 h),
    ((hiff .listFactoriesNav).2 (sampleState_linked true)).2 trivial⟩

def shownEnabledAppCounts : Except TrpcError (Response Token) → List Nat
  | .ok (.deviceWorkspace workspace) => workspace.devices.map (·.enabledAppCount)
  | _ => []

/-- The sidebar of the gate counts the applications of the road, hidden ones too. -/
theorem sidebar_counts_hidden_applications :
    plainServices.Exact ∧ isSysAdminRole sampleUser.role = false ∧
      Constrained (sampleState true).toWorld ∧ Linked (sampleState true).toWorld ∧
      Constrained (sampleState false).toWorld ∧ Linked (sampleState false).toWorld ∧
      Agree sampleUser (sampleState true) (sampleState false) ∧
      plainServices.respond sampleUser (sampleState false) (.getDeviceWorkspace ⟨"gate"⟩) ≠
        plainServices.respond sampleUser (sampleState true) (.getDeviceWorkspace ⟨"gate"⟩) := by
  refine ⟨plainServices_exact, by decide +kernel, sampleState_constrained _, sampleState_linked _,
    sampleState_constrained _, sampleState_linked _, sampleState_agree, fun he => ?_⟩
  have hcounts := congrArg shownEnabledAppCounts he
  exact absurd hcounts (by decide +kernel)

end Trakrai.Workspace
