import Trakrai.Authz.Mutations
import Trakrai.Lib.Table

namespace Trakrai.Authz
open List Lib Backend

theorem parentOf_congr {w w' : World} {o : AuthzObject}
    (hdep : o.type = .department → w'.departments.find? (·.id == o.id) =
      w.departments.find? (·.id == o.id))
    (hdev : o.type = .device → w'.devices.find? (·.id == o.id) = w.devices.find? (·.id == o.id))
    (hins : o.type = .deviceComponent → w'.installations.find? (·.id == o.id) =
      w.installations.find? (·.id == o.id)) : w'.parentOf o = w.parentOf o := by
  obtain ⟨type, id⟩ := o
  cases type with
  | user => rfl
  | factory => rfl
  | department => simp only [World.parentOf, hdep rfl]
  | device => simp only [World.parentOf, hdev rfl]
  | deviceComponent => simp only [World.parentOf, hins rfl]

theorem id_ne_of_type {o : AuthzObject} {id : String} (ho : o ≠ ⟨type, id⟩) (ht : o.type = type) : o.id ≠ id := by
  rintro rfl
  exact ho (by rw [← ht])

section
variable {w : World} {id : String}

theorem sameAt_insertDepartment {row : DepartmentRow} {o : AuthzObject}
    (ho : o ≠ ⟨.department, row.id⟩) :
    SameAt o w { w with departments := w.departments ++ [row] } := by
  refine ⟨parentOf_congr (fun ht => ?_) (fun _ => rfl) (fun _ => rfl), fun _ => rfl, rfl⟩
  exact find?_append_row_of_ne (id_ne_of_type ho ht).symm

theorem parentOf_insertDepartment (h : ¬ w.hasDepartment row.id) :
    ({ w with departments := w.departments ++ [row] } : World).parentOf ⟨.department, row.id⟩ =
      some ⟨.factory, row.factoryId⟩ := by
  rw [World.parentOf, find?_append_row h, Option.map_some]

theorem Consistent.insertDepartment (hw : Consistent w)
    (hnew : ¬ w.hasDepartment row.id) (hfk : w.hasFactory row.factoryId) :
    Consistent { w with departments := w.departments ++ [row] } :=
  { hw with
    departmentIds := nodup_append_row hw.departmentIds hnew
    departmentFactory := fun r hr => by
      rcases mem_append.1 hr with hr | hr
      · exact hw.departmentFactory r hr
      · exact mem_singleton.1 hr ▸ hfk
    deviceDepartment := fun r hr => by
      simp only [World.hasDepartment, any_append, Bool.or_eq_true]
      exact .inl (hw.deviceDepartment r hr) }

/-- The world after an update of the department `id`. -/
def World.setDepartment (w : World) (id : String) (set : DepartmentRow → DepartmentRow) : World :=
  { w with departments := w.departments.map (setWhere (·.id) id set) }

/-- The world after an update of the device `id`. -/
def World.setDevice (w : World) (id : String) (set : DeviceRow → DeviceRow) : World :=
  { w with devices := w.devices.map (setWhere (·.id) id set) }

section
variable {set : DepartmentRow → DepartmentRow}

theorem sameAt_setDepartment (hset : ∀ row, (set row).id = row.id) {o : AuthzObject} (ho : o ≠ ⟨.department, id⟩) :
    SameAt o w (w.setDepartment id set) := by
  refine ⟨parentOf_congr (fun ht => ?_) (fun _ => rfl) (fun _ => rfl), fun _ => rfl, rfl⟩
  exact find?_setWhere_of_ne hset (id_ne_of_type ho ht)

theorem parentOf_setDepartment (hset : ∀ row, (set row).id = row.id) {row : DepartmentRow}
    (hf : w.departments.find? (·.id == id) = some row) :
    (w.setDepartment id set).parentOf ⟨.department, id⟩ = some ⟨.factory, (set row).factoryId⟩ := by
  simp only [World.parentOf, World.setDepartment, find?_setWhere hset hf, Option.map_some]

theorem Consistent.setDepartment (hw : Consistent w)
    (hset : ∀ row, (set row).id = row.id)
    (hfk : ∀ row ∈ w.departments, row.id = id → w.hasFactory (set row).factoryId) :
    Consistent (w.setDepartment id set) :=
  { hw with
    departmentIds := by
      rw [World.setDepartment, map_key_setWhere hset]
      exact hw.departmentIds
    departmentFactory := fun r hr => by
      rcases mem_setWhere hr with hr | ⟨old, hold, hid, rfl⟩
      · exact hw.departmentFactory r hr
      · exact hfk old hold hid
    deviceDepartment := fun r hr => by
      rw [World.hasDepartment, World.setDepartment, any_key_setWhere hset]
      exact hw.deviceDepartment r hr }

end

theorem sameAt_insertDevice {row : DeviceRow} {o : AuthzObject} (ho : o ≠ ⟨.device, row.id⟩) :
    SameAt o w { w with devices := w.devices ++ [row] } := by
  refine ⟨parentOf_congr (fun _ => rfl) (fun ht => ?_) (fun _ => rfl), fun _ => rfl, rfl⟩
  exact find?_append_row_of_ne (id_ne_of_type ho ht).symm

theorem parentOf_insertDevice (h : ¬ w.hasDevice row.id) :
    ({ w with devices := w.devices ++ [row] } : World).parentOf ⟨.device, row.id⟩ =
      some ⟨.department, row.departmentId⟩ := by
  rw [World.parentOf, find?_append_row h, Option.map_some]

theorem Consistent.insertDevice (hw : Consistent w)
    (hnew : ¬ w.hasDevice row.id) (hfk : w.hasDepartment row.departmentId) :
    Consistent { w with devices := w.devices ++ [row] } :=
  { hw with
    deviceIds := nodup_append_row hw.deviceIds hnew
    deviceDepartment := fun r hr => by
      rcases mem_append.1 hr with hr | hr
      · exact hw.deviceDepartment r hr
      · exact mem_singleton.1 hr ▸ hfk
    installationDevice := fun r hr => by
      simp only [World.hasDevice, any_append, Bool.or_eq_true]
      exact .inl (hw.installationDevice r hr) }

theorem sameAt_setDevice {set : DeviceRow → DeviceRow} (hset : ∀ row, (set row).id = row.id)
    {o : AuthzObject} (ho : o ≠ ⟨.device, id⟩) : SameAt o w (w.setDevice id set) := by
  refine ⟨parentOf_congr (fun _ => rfl) (fun ht => ?_) (fun _ => rfl), fun _ => rfl, rfl⟩
  exact find?_setWhere_of_ne hset (id_ne_of_type ho ht)

theorem parentOf_setDevice {set : DeviceRow → DeviceRow} (hset : ∀ row, (set row).id = row.id)
    {row : DeviceRow} (hf : w.devices.find? (·.id == id) = some row) :
    (w.setDevice id set).parentOf ⟨.device, id⟩ = some ⟨.department, (set row).departmentId⟩ := by
  simp only [World.parentOf, World.setDevice, find?_setWhere hset hf, Option.map_some]

theorem Consistent.setDevice {set : DeviceRow → DeviceRow} (hw : Consistent w)
    (hset : ∀ row, (set row).id = row.id)
    (hfk : ∀ row ∈ w.devices, row.id = id → w.hasDepartment (set row).departmentId) :
    Consistent (w.setDevice id set) :=
  { hw with
    deviceIds := by
      rw [World.setDevice, map_key_setWhere hset]
      exact hw.deviceIds
    deviceDepartment := fun r hr => by
      rcases mem_setWhere hr with hr | ⟨old, hold, hid, rfl⟩
      · exact hw.deviceDepartment r hr
      · exact hfk old hold hid
    installationDevice := fun r hr => by
      rw [World.hasDevice, World.setDevice, any_key_setWhere hset]
      exact hw.installationDevice r hr }

/-- The world after the deletion of the device `id`. -/
def World.removeDevice (w : World) (id : String) : World :=
  { w with
    devices := w.devices.filter (·.id != id)
    installations := w.installations.filter (·.deviceId != id) }

theorem parentOf_removeDevice (w : World) (id : String) :
    (w.removeDevice id).parentOf ⟨.device, id⟩ = none := by
  have hnone : (w.devices.filter (·.id != id)).find? (·.id == id) = none := by
    apply find?_key_eq_none
    intro row hrow
    simpa using (mem_filter.1 hrow).2
  simp only [World.parentOf, World.removeDevice, hnone, Option.map_none]

theorem parentOf_removeDevice_component (hw : Consistent w) (id k : String) :
    (w.removeDevice id).parentOf ⟨.deviceComponent, k⟩ =
      (w.parentOf ⟨.deviceComponent, k⟩).filter (· != ⟨.device, id⟩) := by
  simp only [World.parentOf, World.removeDevice, find?_key_filter hw.installationIds]
  cases w.installations.find? (·.id == k) with
  | none => rfl
  | some row =>
    by_cases hd : row.deviceId = id
    · simp [Option.filter, hd]
    · simp [Option.filter, hd]

theorem sameAt_removeDevice (hw : Consistent w) {o : AuthzObject} (ho : o ≠ ⟨.device, id⟩)
    (hc : w.parentOf o ≠ some ⟨.device, id⟩) : SameAt o w (w.removeDevice id) := by
  obtain ⟨type, k⟩ := o
  refine ⟨?_, fun ht => ?_, rfl⟩
  · cases type with
    | user => rfl
    | factory => rfl
    | department => rfl
    | device =>
      refine parentOf_congr (fun _ => rfl) (fun _ => ?_) (by simp)
      have hk : k ≠ id := fun he => ho (by rw [he])
      rw [World.removeDevice, find?_key_filter hw.deviceIds]
      cases hf : w.devices.find? (·.id == k) with
      | none => rfl
      | some row =>
        have hrow : row.id ≠ id := fun he => hk ((mem_of_find?_key hf).2.symm.trans he)
        simp [Option.filter, hrow]
    | deviceComponent =>
      rw [parentOf_removeDevice_component hw]
      cases hp : w.parentOf ⟨.deviceComponent, k⟩ with
      | none => rfl
      | some p =>
        have hne : p ≠ ⟨.device, id⟩ := fun he => hc (he ▸ hp)
        simp [Option.filter, hne]
  · cases ht
    have hk : k ≠ id := fun he => ho (by rw [he])
    simp only [World.installationsOf, World.removeDevice, filter_filter]
    apply filter_congr
    intro row _
    by_cases hd : row.deviceId = k
    · simp [hd, hk]
    · simp [hd]

theorem Consistent.removeDevice (hw : Consistent w) (id : String) :
    Consistent (w.removeDevice id) :=
  { hw with
    deviceIds := hw.deviceIds.sublist (filter_sublist.map _)
    installationIds := hw.installationIds.sublist (filter_sublist.map _)
    deviceDepartment := fun r hr => hw.deviceDepartment r (mem_filter.1 hr).1
    installationDevice := fun r hr => by
      obtain ⟨hr, hne⟩ := mem_filter.1 hr
      obtain ⟨row, hrow, hid⟩ := any_key_iff.1 (hw.installationDevice r hr)
      refine any_key_iff.2 ⟨row, mem_filter.2 ⟨hrow, ?_⟩, hid⟩
      rw [hid]
      exact hne }

def World.install (w : World) (rows : List InstallationRow) : World :=
  { w with installations := w.installations ++ rows }

def componentOf (row : InstallationRow) : AuthzObject := ⟨.deviceComponent, row.id⟩

def deviceOf (row : InstallationRow) : AuthzObject := ⟨.device, row.deviceId⟩

theorem acceptsInstallations_new (h : w.acceptsInstallations rows) (hr : row ∈ rows):
    (∀ r ∈ w.installations, r.id ≠ row.id) ∧ w.hasDevice row.deviceId := by
  simp only [World.acceptsInstallations, Bool.and_eq_true, all_eq_true] at h
  obtain ⟨⟨⟨hid, _⟩, hdev⟩, _⟩ := h.2 row hr
  refine ⟨fun r hr he => ?_, hdev⟩
  rw [Bool.not_eq_true', any_eq_false] at hid
  exact hid r hr (by simpa using he)

theorem acceptsInstallations_ids (h : w.acceptsInstallations rows) : (rows.map (·.id)).Nodup := by
  simp only [World.acceptsInstallations, Bool.and_eq_true, decide_eq_true_eq] at h
  exact h.1.1

theorem installationsOf_install (rows : List InstallationRow) (deviceId : String) :
    (w.install rows).installationsOf deviceId =
      w.installationsOf deviceId ++ rows.filter (·.deviceId == deviceId) :=
  filter_append ..

theorem sameAt_install {rows : List InstallationRow} {o : AuthzObject}
    (h : ∀ row ∈ rows, o ≠ componentOf row ∧ o ≠ deviceOf row) : SameAt o w (w.install rows) := by
  obtain ⟨type, k⟩ := o
  refine ⟨parentOf_congr (fun _ => rfl) (fun _ => rfl) (fun ht => ?_), fun ht => ?_, rfl⟩
  · cases ht
    exact find?_key_append fun row hr he => (h row hr).1 (by rw [componentOf, he])
  · cases ht
    rw [installationsOf_install, filter_eq_nil_iff.2, append_nil]
    intro row hr he
    exact (h row hr).2 (by rw [deviceOf, beq_iff_eq.1 he])

theorem parentOf_install (ha : w.acceptsInstallations rows) (hr : row ∈ rows):
    (w.install rows).parentOf (componentOf row) = some (deviceOf row) := by
  have hfind : (w.installations ++ rows).find? (·.id == row.id) = some row := by
    rw [find?_key_append_new (acceptsInstallations_new ha hr).1]
    exact find?_key_of_mem (acceptsInstallations_ids ha) hr rfl
  simp only [World.parentOf, componentOf, World.install, hfind, Option.map_some, deviceOf]

theorem Consistent.install (hw : Consistent w) (ha : w.acceptsInstallations rows): Consistent (w.install rows) :=
  { hw with
    installationIds := by
      rw [World.install, map_append, nodup_append]
      refine ⟨hw.installationIds, acceptsInstallations_ids ha, ?_⟩
      rintro _ hold _ hnew rfl
      obtain ⟨r, hr, he⟩ := mem_map.1 hold
      obtain ⟨row, hrow, he'⟩ := mem_map.1 hnew
      exact (acceptsInstallations_new ha hrow).1 r hr (he.trans he'.symm)
    installationDevice := fun r hr => by
      rcases mem_append.1 hr with hr | hr
      · exact hw.installationDevice r hr
      · exact (acceptsInstallations_new ha hr).2 }

theorem parentOf_component_eq_none :
    w.parentOf ⟨.deviceComponent, k⟩ = none ↔ ¬ w.installations.any (·.id == k) := by
  simp [World.parentOf]

theorem parentOf_device_eq_none : w.parentOf ⟨.device, id⟩ = none ↔ ¬ w.hasDevice id := by
  simp [World.parentOf, World.hasDevice]

theorem acceptsInstallations_congr
    (h : ∀ row ∈ rows, SameAt (componentOf row) w w' ∧ SameAt (deviceOf row) w w')
    (hcat : w'.catalog = w.catalog) :
    w'.acceptsInstallations rows = w.acceptsInstallations rows := by
  simp only [World.acceptsInstallations, hcat]
  congr 1
  rw [Bool.eq_iff_iff, all_eq_true, all_eq_true]
  refine forall₂_congr fun row hr => ?_
  obtain ⟨hc, hd⟩ := h row hr
  have hid : w'.installations.any (·.id == row.id) = w.installations.any (·.id == row.id) := by
    rw [Bool.eq_iff_iff, ← not_iff_not, ← parentOf_component_eq_none, ← parentOf_component_eq_none]
    exact hc.parentOf ▸ Iff.rfl
  have hdev : w'.hasDevice row.deviceId = w.hasDevice row.deviceId := by
    rw [Bool.eq_iff_iff, ← not_iff_not, ← parentOf_device_eq_none, ← parentOf_device_eq_none]
    exact hd.parentOf ▸ Iff.rfl
  have hpair (v : World) : v.installations.any (fun r => r.deviceId == row.deviceId &&
      r.componentKey == row.componentKey) =
        (v.installationsOf row.deviceId).any (·.componentKey == row.componentKey) := by
    rw [World.installationsOf, any_filter]
  have hof : w'.installationsOf row.deviceId = w.installationsOf row.deviceId :=
    hd.installationsOf rfl
  rw [hid, hdev, hpair, hpair, hof]

end

end Trakrai.Authz
