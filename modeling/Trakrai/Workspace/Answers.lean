import Trakrai.Workspace.Covered
import Trakrai.Workspace.Variations

namespace Trakrai.Workspace
open Lib Backend Authz
open Gateway (DeviceComponentAccess getDeviceComponentAccessForUser)

section
variable {Token : Type} {services : Services Token} {s : Snapshot} {user : User}
  (hx : services.Exact) (hw : Constrained s.toWorld) (hu : isSysAdminRole user.role = false)
include hx hw hu

theorem scope_nonempty {objectType childType : AuthzType} {id : String}
    (hc : objectType.isContainer) (htypes : directTypes objectType .child = [childType])
    (hn : Can s user .canNavigate objectType id) :
    (if (services.context user s).allows .canRead objectType id then none
      else some (((services.context user s).authorizedIds .canNavigate childType).getD ∅)) ≠
        some ∅ := by
  split
  · exact nofun
  · rename_i ha
    have hr : ¬ Can s user .canRead objectType id :=
      fun hr => ha ((allows_iff hx hw.allowed hu).2 hr)
    obtain ⟨⟨type, k⟩, hchild, hk⟩ := exists_child_of_canNavigate hc hn hr
    have ht : type = childType := by
      have hallowed := hw.allowed _ hchild
      simpa [isAllowed, htypes] using hallowed
    subst ht
    intro he
    have hmem := (mem_list_iff hx hw.allowed).2 hk
    rw [authorizedIds_eq hu, Option.getD_some] at he
    rw [Option.some.inj he] at hmem
    exact absurd hmem (Finset.notMem_empty k)

theorem readFactoryWorkspace_ok (hf : f ∈ s.factories)
    (hn : Can s user .canNavigate .factory f.id) (page : Page) :
    readFactoryWorkspace (services.context user s) s f.id page =
      .ok (factoryWorkspace (services.context user s) s f.id page f) := by
  have hallow := (allows_iff hx hw.allowed hu).2 hn
  have hfind : s.factories.find? (·.id == f.id) = some f := find?_key_of_mem hw.factoryIds hf rfl
  have hscope : (services.context user s).departmentScope f.id ≠ some ∅ :=
    scope_nonempty hx hw hu rfl rfl hn
  unfold readFactoryWorkspace requireNavigableFactory requireNavigable
  simp only [if_pos hallow, hfind, if_neg hscope]
  rfl

theorem readDepartmentWorkspace_ok
    (hd : d ∈ s.departments) (hf : f ∈ s.factories) (hfd : f.id = d.factoryId)
    (hn : Can s user .canNavigate .department d.id) (page : Page) :
    readDepartmentWorkspace (services.context user s) s d.id page =
      .ok (departmentWorkspace (services.context user s) s d.id page
        ⟨d.description, d.factoryId, f.name, d.id, d.name⟩) := by
  have hallow := (allows_iff hx hw.allowed hu).2 hn
  have hselected : s.selectedDepartment d.id =
      some ⟨d.description, d.factoryId, f.name, d.id, d.name⟩ := by
    simp only [Snapshot.selectedDepartment, Option.bind_eq_bind,
      find?_key_of_mem hw.departmentIds hd rfl, Option.bind_some,
      find?_key_of_mem hw.factoryIds hf hfd]
    rw [← hfd]
    rfl
  have hscope : (services.context user s).deviceScope d.id ≠ some ∅ :=
    scope_nonempty hx hw hu rfl rfl hn
  unfold readDepartmentWorkspace requireNavigableDepartment requireNavigable
  simp only [if_pos hallow, hselected, if_neg hscope]
  rfl

omit hx hu in
theorem selectedDevice_eq
    (hv : v ∈ s.devices) (hd : d ∈ s.departments) (hdv : d.id = v.departmentId)
    (hf : f ∈ s.factories) (hfd : f.id = d.factoryId) :
    ∃ selected, s.selectedDevice v.id = some selected ∧ selected.departmentId = v.departmentId ∧
      selected.departmentName = d.name ∧ selected.factoryName = f.name := by
  have hjoined : s.joinedDevice v.id = some
      ⟨v.accessToken, d.id, d.name, v.description, f.id, f.name, v.id, v.isActive, v.name⟩ := by
    simp only [World.joinedDevice, Option.bind_eq_bind, find?_key_of_mem hw.deviceIds hv rfl,
      Option.bind_some, find?_key_of_mem hw.departmentIds hd hdv,
      find?_key_of_mem hw.factoryIds hf hfd]
    rfl
  rw [Snapshot.selectedDevice, hjoined]
  exact ⟨_, rfl, hdv, rfl, rfl⟩

omit hx hw hu in
theorem canNavigate_viewer {ctx : Context Token} {id : String} :
    ((ctx.viewer id).isSysadmin || (ctx.viewer id).answers.canNavigate) =
      ctx.allows .canNavigate .device id := rfl

theorem readDeviceWorkspace_ok
    (hv : v ∈ s.devices) (hd : d ∈ s.departments) (hdv : d.id = v.departmentId)
    (hf : f ∈ s.factories) (hfd : f.id = d.factoryId) (hn : Can s user .canNavigate .device v.id) :
    ∃ selected access, readDeviceWorkspace (services.context user s) s v.id =
        .ok (deviceWorkspace (services.context user s) s v.id selected access) ∧
      selected.departmentId = v.departmentId ∧ selected.departmentName = d.name ∧
      selected.factoryName = f.name := by
  obtain ⟨selected, hselected, hnames⟩ := selectedDevice_eq hw hv hd hdv hf hfd
  have hallow := (allows_iff hx hw.allowed hu).2 hn
  have hfind : s.tables.devices.find? (·.id == v.id) = some v :=
    find?_key_of_mem hw.deviceIds hv rfl
  obtain ⟨access, haccess⟩ : ∃ access,
      getDeviceComponentAccessForUser (services.context user s).services.jwt s.tables
        ((services.context user s).viewer v.id) v.id = .ok access := by
    simp only [getDeviceComponentAccessForUser, hfind, canNavigate_viewer, hallow, Bool.not_true,
      Bool.false_eq_true, if_false]
    exact ⟨_, rfl⟩
  refine ⟨selected, access, ?_, hnames⟩
  simp only [readDeviceWorkspace, hselected, haccess]

omit hx hw hu in
theorem readDeviceWorkspace_missing {id : String} (h : ∀ v ∈ s.devices, v.id ≠ id) :
    readDeviceWorkspace (services.context user s) s id = .error (.notFound "Device not found.") := by
  have hfind : s.devices.find? (·.id == id) = none := find?_key_eq_none h
  simp only [readDeviceWorkspace, Snapshot.selectedDevice, World.joinedDevice, hfind,
    Option.bind_eq_bind, Option.bind_none, Option.map_none]

theorem readDeviceWorkspace_forbidden (hv : v ∈ s.devices)
    (hn : ¬ Can s user .canNavigate .device v.id) :
    readDeviceWorkspace (services.context user s) s v.id =
      .error (.forbidden "You do not have access to this device.") := by
  obtain ⟨d, hd, hdv⟩ := any_key_iff.1 (hw.deviceDepartment v hv)
  obtain ⟨f, hf, hfd⟩ := any_key_iff.1 (hw.departmentFactory d hd)
  obtain ⟨selected, hselected, -⟩ := selectedDevice_eq hw hv hd hdv hf hfd
  have hallow : (services.context user s).allows .canNavigate .device v.id = false :=
    eq_false_of_ne_true fun ha => hn ((allows_iff hx hw.allowed hu).1 ha)
  have hfind : s.tables.devices.find? (·.id == v.id) = some v :=
    find?_key_of_mem hw.deviceIds hv rfl
  simp only [readDeviceWorkspace, hselected, getDeviceComponentAccessForUser, hfind,
    canNavigate_viewer, hallow, Bool.not_false, if_true]

end

section
variable {Token : Type} {services : Services Token} {s s' : Snapshot} {user : User} {id : String}

theorem factoryWorkspace_of_respond (hpage : input.toPageInput.parse = .ok page)
    (hid : textId "factoryId" input.factoryId = .ok id)
    (h : services.respond user s' (.getFactoryWorkspace input) =
      services.respond user s (.getFactoryWorkspace input)) :
    readFactoryWorkspace (services.context user s') s' id page =
      readFactoryWorkspace (services.context user s) s id page := by
  have hget := map_injective (fun _ _ he => Response.factoryWorkspace.inj he) h
  simp only [getFactoryWorkspace, hpage, hid] at hget
  exact hget

theorem departmentWorkspace_of_respond (hpage : input.toPageInput.parse = .ok page)
    (hid : textId "departmentId" input.departmentId = .ok id)
    (h : services.respond user s' (.getDepartmentWorkspace input) =
      services.respond user s (.getDepartmentWorkspace input)) :
    readDepartmentWorkspace (services.context user s') s' id page =
      readDepartmentWorkspace (services.context user s) s id page := by
  have hget := map_injective (fun _ _ he => Response.departmentWorkspace.inj he) h
  simp only [getDepartmentWorkspace, hpage, hid] at hget
  exact hget

theorem deviceWorkspace_of_respond (hid : textId "deviceId" input.deviceId = .ok id)
    (h : services.respond user s' (.getDeviceWorkspace input) =
      services.respond user s (.getDeviceWorkspace input)) :
    readDeviceWorkspace (services.context user s') s' id =
      readDeviceWorkspace (services.context user s) s id := by
  have hget := map_injective (fun _ _ he => Response.deviceWorkspace.inj he) h
  simp only [getDeviceWorkspace, hid] at hget
  exact hget

theorem listFactoriesNav_of_respond
    (h : services.respond user s' .listFactoriesNav = services.respond user s .listFactoriesNav) :
    listFactoriesNav (services.context user s') s' = listFactoriesNav (services.context user s) s :=
  Response.factories.inj (Except.ok.inj h)

end

end Trakrai.Workspace
