import Trakrai.RoiConfig.Document

namespace Trakrai.RoiConfig
open List Lib

section
variable {go : GoText} {uuid : NewIds go} {value default label : String} {place : List Nat} {tags values : List String}

theorem orElse_ne (h : default ≠ "") (value : String) : orElse value default ≠ "" := by
  rw [orElse]
  split
  · exact h
  · rename_i hvalue
    exact hvalue

theorem orElse_of_ne (h : value ≠ "") : orElse value default = value := if_neg h

theorem goTrimSpace_orElse (hvalue : goTrimSpace value = value) (hdefault : goTrimSpace default = default) :
    goTrimSpace (orElse value default) = orElse value default := by
  rw [orElse]
  split
  · exact hdefault
  · exact hvalue

theorem goTrimSpace_numbered (hlabel : ∀ c ∈ label.toList.head?, ¬ isGoSpace c) (hne : label ≠ "") (n : Nat) :
    goTrimSpace (label ++ toString n) = label ++ toString n := by
  have hnil : label.toList ≠ [] := mt String.toList_eq_nil_iff.1 hne
  apply trimWith_of_ends
  · intro c hc
    rw [String.toList_append, List.head?_append_of_ne_nil _ hnil] at hc
    exact hlabel c hc
  · intro c hc
    rw [String.toList_append, Nat.toString_eq_ofList_toDigits, String.toList_ofList,
      List.getLast?_append_of_ne_nil _ Nat.toDigits_ne_nil] at hc
    have hdigit := Nat.isDigit_of_mem_toDigits (b := 10) (by decide) (by decide) (List.mem_of_getLast? hc)
    simp only [Char.isDigit, Bool.and_eq_true, decide_eq_true_eq, UInt32.le_iff_toNat_le] at hdigit
    have hrange : 48 ≤ c.toNat ∧ c.toNat ≤ 57 := hdigit
    simp only [isGoSpace, mem_cons, not_mem_nil, or_false, Bool.or_eq_true, decide_eq_true_eq,
      Bool.and_eq_true]
    omega

theorem numbered_ne (hne : label ≠ "") (n : Nat) : label ++ toString n ≠ "" := by
  intro h
  have hlist := congrArg String.toList h
  rw [String.toList_append] at hlist
  exact hne (String.toList_eq_nil_iff.1 (append_eq_nil_iff.1 hlist).1)

theorem normalizeIdentifier_again (go : GoText) (value : String) :
    normalizeIdentifier go (normalizeIdentifier go value) = normalizeIdentifier go value := by
  have hempty : goTrimSpace "" = "" := rfl
  by_cases h : goTrimSpace value = ""
  · have hnone : normalizeIdentifier go value = "" := if_pos h
    rw [hnone, normalizeIdentifier]
    exact if_pos hempty
  · have hsome : normalizeIdentifier go value = go.lower.text (goTrimSpace value) := if_neg h
    have htrim : goTrimSpace (go.lower.text (goTrimSpace value)) = go.lower.text (goTrimSpace value) :=
      GoLower.goTrimSpace_text (goTrimSpace_idem value)
    rw [hsome, normalizeIdentifier]
    simp only [htrim, GoLower.text_text]
    exact if_neg (GoLower.text_ne_empty h)

/-- A text that `identifier` leaves alone wherever it stands. -/
structure Identifier (go : GoText) (value : String) : Prop where
  normal : normalizeIdentifier go value = value
  nonempty : value ≠ ""

theorem identifier_normal (uuid : NewIds go) (place : List Nat) (value : String) :
    Identifier go (identifier uuid place value) := by
  by_cases h : normalizeIdentifier go value = ""
  · have heq : identifier uuid place value = uuid.newString place := by rw [identifier, orElse, if_pos h]
    rw [heq]
    exact ⟨uuid.normal place, uuid.nonempty place⟩
  · have heq : identifier uuid place value = normalizeIdentifier go value := by rw [identifier, orElse, if_neg h]
    rw [heq]
    exact ⟨normalizeIdentifier_again go value, h⟩

theorem Identifier.again (h : Identifier go value) (uuid : NewIds go) (place : List Nat) :
    identifier uuid place value = value := by
  rw [identifier, h.normal]
  exact orElse_of_ne h.nonempty

structure Tags (go : GoText) (tags : List String) : Prop where
  trimmed : ∀ tag ∈ tags, goTrimSpace tag = tag ∧ tag ≠ ""
  apart : tags.Pairwise fun a b => go.equalFold a b = false

theorem Tags.addTag (h : Tags go tags) (value : String) : Tags go (addTag go tags value) := by
  rw [RoiConfig.addTag]
  split
  · exact h
  · rename_i hne
    split
    · exact h
    · rename_i hnew
      constructor
      · intro tag htag
        rcases mem_append.1 htag with htag | htag
        · exact h.trimmed tag htag
        · rw [mem_singleton.1 htag]
          exact ⟨goTrimSpace_idem value, hne⟩
      · apply pairwise_append.2
        refine ⟨h.apart, pairwise_singleton _ _, ?_⟩
        intro tag htag last hlast
        rw [mem_singleton.1 hlast]
        simpa using fun heq => hnew (any_eq_true.2 ⟨tag, htag, heq⟩)

theorem tags_foldl (h : Tags go tags) (values : List String) : Tags go (values.foldl (addTag go) tags) := by
  induction values generalizing tags with
  | nil => exact h
  | cons value values ih =>
    rw [foldl_cons]
    exact ih (h.addTag value)

theorem tags_normalizeTags (go : GoText) (values : List String) : Tags go (normalizeTags go values) :=
  tags_foldl ⟨forall_mem_nil _, .nil⟩ values

theorem foldl_addTag (h : Tags go (tags ++ values)) : values.foldl (addTag go) tags = tags ++ values := by
  induction values generalizing tags with
  | nil => rw [append_nil, foldl_nil]
  | cons value values ih =>
    obtain ⟨htrim, hne⟩ := h.trimmed value (mem_append_right _ (mem_cons_self ..))
    have hnew : tags.any (go.equalFold · value) = false := by
      rw [any_eq_false]
      intro tag htag
      rw [(pairwise_append.1 h.apart).2.2 tag htag value (mem_cons_self ..)]
      exact Bool.false_ne_true
    have hadd : addTag go tags value = tags ++ [value] := by
      rw [addTag]
      simp only [htrim, if_neg hne, hnew, Bool.false_eq_true, if_false]
    rw [foldl_cons, hadd, ih (by rwa [append_assoc]), append_assoc, singleton_append]

theorem Tags.again (h : Tags go tags) : normalizeTags go tags = tags := foldl_addTag h

end

section
variable (P : ROIBox → Prop)

def BaseLocation.Boxes (base : BaseLocation) : Prop := ∀ roi ∈ base.rois, P roi.bounds

def CameraROIConfig.Boxes (camera : CameraROIConfig) : Prop := ∀ base ∈ camera.baseLocations, base.Boxes P

def Document.Boxes (document : Document) : Prop := ∀ camera ∈ document.cameras, camera.Boxes P

end

section
variable {go : GoText} {uuid : NewIds go}

def Carried (P Q : ROIBox → Prop) : Prop := ∀ {bounds result}, normalizeBounds bounds = .ok result → (P bounds ↔ Q result)

structure ROINormal (go : GoText) (roi : ROIBoxSpec) : Prop where
  id : Identifier go roi.id
  name : goTrimSpace roi.name = roi.name ∧ roi.name ≠ ""
  color : goTrimSpace roi.color = roi.color
  tags : Tags go roi.tags

theorem normalizeROI_ok (h : normalizeROI go cameraName baseName item roiID = .ok roi):
    roi.id = roiID ∧ (Identifier go roiID → ROINormal go roi) ∧ normalizeBounds item.1.bounds = .ok roi.bounds := by
  obtain ⟨bounds, hbounds, h⟩ := bind_ok h
  cases h
  have hlabel : ∀ c ∈ "ROI ".toList.head?, ¬ isGoSpace c := by
    rintro c ⟨⟩
    decide
  have hbox : normalizeBounds item.1.bounds = .ok bounds := by
    cases hnorm : normalizeBounds item.1.bounds with
    | error error =>
      rw [hnorm] at hbounds
      cases hbounds
    | ok result =>
      rw [hnorm] at hbounds
      cases hbounds
      rfl
  refine ⟨rfl, fun hid => ⟨hid, ⟨?_, ?_⟩, goTrimSpace_idem _, tags_normalizeTags go _⟩, hbox⟩
  · dsimp only
    exact goTrimSpace_orElse (goTrimSpace_idem _) (goTrimSpace_numbered hlabel (by decide) _)
  · dsimp only
    exact orElse_ne (numbered_ne (by decide) _) _

theorem ROINormal.again_iff (h : ROINormal go roi) (cameraName baseName : String) (index : Nat) :
    normalizeROI go cameraName baseName (roi, index) roi.id = .ok roi ↔
      normalizeBounds roi.bounds = .ok roi.bounds := by
  constructor
  · intro hagain
    exact (normalizeROI_ok hagain).2.2
  · intro hbounds
    simp only [normalizeROI, hbounds, h.name.1, orElse_of_ne h.name.2, h.color, h.tags.again]
    rfl

structure BaseNormal (go : GoText) (base : BaseLocation) : Prop where
  id : Identifier go base.id
  name : goTrimSpace base.name = base.name ∧ base.name ≠ ""
  ptz : clamp base.ptz.pan (-1) 1 = base.ptz.pan ∧ clamp base.ptz.tilt (-1) 1 = base.ptz.tilt ∧
    clamp base.ptz.zoom 0 1 = base.ptz.zoom
  rois : ∀ roi ∈ base.rois, ROINormal go roi
  roiIDs : (base.rois.map (·.id)).Nodup

theorem normalizeBase_ok (h : normalizeBase uuid cameraIndex cameraName item baseID = .ok base) :
    base.id = baseID ∧ (Identifier go baseID → BaseNormal go base) ∧
      ∀ {P Q : ROIBox → Prop}, Carried P Q → (item.1.Boxes P ↔ base.Boxes Q) := by
  obtain ⟨rois, hrois, h⟩ := bind_ok h
  cases h
  rw [mapDistinct_ok_iff (fun _ hroi => (normalizeROI_ok hroi).1)] at hrois
  obtain ⟨hall, hnodup, -⟩ := hrois
  have hlabel : ∀ c ∈ "Base ".toList.head?, ¬ isGoSpace c := by
    rintro c ⟨⟩
    decide
  have hnormal : ∀ roi ∈ rois, ROINormal go roi := by
    refine forall_mem_right hall fun {item result} hroi => ?_
    have hid : Identifier go result.id := by
      rw [← Except.ok.inj hroi.1]
      exact identifier_normal uuid _ _
    exact (normalizeROI_ok hroi.2).2.1 hid
  refine ⟨rfl, fun hid => ⟨hid, ⟨?_, ?_⟩, ?_, hnormal, hnodup⟩, ?_⟩
  · dsimp only
    exact goTrimSpace_orElse (goTrimSpace_idem _) (goTrimSpace_numbered hlabel (by decide) _)
  · dsimp only
    exact orElse_ne (numbered_ne (by decide) _) _
  · exact ⟨clamp_clamp (by norm_num), clamp_clamp (by norm_num), clamp_clamp (by norm_num)⟩
  · intro P Q hcarried
    rw [BaseLocation.Boxes, ← Lib.forall_mem_zipIdx]
    exact forall_mem_congr hall fun hroi => hcarried (normalizeROI_ok hroi.2).2.2

theorem BaseNormal.again_iff (h : BaseNormal go base) (uuid : NewIds go) (cameraIndex : Nat)
    (cameraName : String) (index : Nat) :
    normalizeBase uuid cameraIndex cameraName (base, index) base.id = .ok base ↔
      base.Boxes fun bounds => normalizeBounds bounds = .ok bounds := by
  have hrois (duplicate : ROIBoxSpec × Nat → String → String) :
      mapDistinct (fun roi : ROIBoxSpec × Nat => .ok (identifier uuid [cameraIndex, index, roi.2] roi.1.id)) duplicate
        (normalizeROI go cameraName base.name) [] base.rois.zipIdx = .ok base.rois ↔
      base.Boxes fun bounds => normalizeBounds bounds = .ok bounds := by
    refine mapDistinct_self_iff (fun _ hroi => (normalizeROI_ok hroi).1) h.roiIDs fun item hitem => ?_
    have hnormal := h.rois item.1 (fst_mem_of_mem_zipIdx hitem)
    exact ⟨congrArg _ (hnormal.id.again uuid _), hnormal.again_iff ..⟩
  constructor
  · intro hagain
    obtain ⟨rois, hread, hbase⟩ := bind_ok hagain
    have heq := congrArg BaseLocation.rois (Except.ok.inj hbase)
    simp only at heq hread
    rw [h.name.1, orElse_of_ne h.name.2, heq] at hread
    exact (hrois _).1 hread
  · intro hboxes
    rw [normalizeBase]
    simp only [h.name.1, orElse_of_ne h.name.2, (hrois _).2 hboxes, h.ptz.1, h.ptz.2.1, h.ptz.2.2]
    rfl

structure CameraNormal (go : GoText) (camera : CameraROIConfig) : Prop where
  name : goTrimSpace camera.cameraName = camera.cameraName ∧ camera.cameraName ≠ ""
  bases : ∀ base ∈ camera.baseLocations, BaseNormal go base
  baseIDs : (camera.baseLocations.map (·.id)).Nodup

def lowerName (go : GoText) (camera : CameraROIConfig) : String := go.lower.text camera.cameraName

theorem normalizeCamera_ok
    (hkey : cameraKey go item = .ok k) (h : normalizeCamera uuid item key = .ok camera) :
    lowerName go camera = k ∧ CameraNormal go camera ∧ ∀ {P Q : ROIBox → Prop}, Carried P Q → (item.1.Boxes P ↔ camera.Boxes Q) := by
  obtain ⟨bases, hbases, h⟩ := bind_ok h
  cases h
  rw [mapDistinct_ok_iff (fun _ hbase => (normalizeBase_ok hbase).1)] at hbases
  obtain ⟨hall, hnodup, -⟩ := hbases
  rw [cameraKey] at hkey
  split at hkey
  · cases hkey
  · rename_i hne
    have hnormal : ∀ base ∈ bases, BaseNormal go base := by
      refine forall_mem_right hall fun {item result} hbase => ?_
      have hid : Identifier go result.id := by
        rw [← Except.ok.inj hbase.1]
        exact identifier_normal uuid _ _
      exact (normalizeBase_ok hbase.2).2.1 hid
    refine ⟨Except.ok.inj hkey, ⟨⟨goTrimSpace_idem _, hne⟩, hnormal, hnodup⟩, ?_⟩
    intro P Q hcarried
    rw [CameraROIConfig.Boxes, ← Lib.forall_mem_zipIdx]
    exact forall_mem_congr hall fun hbase => (normalizeBase_ok hbase.2).2.2 hcarried

theorem CameraNormal.again_iff (h : CameraNormal go camera) (uuid : NewIds go) (index : Nat)
    (key : String) :
    normalizeCamera uuid (camera, index) key = .ok camera ↔
      camera.Boxes fun bounds => normalizeBounds bounds = .ok bounds := by
  have hbases (duplicate : BaseLocation × Nat → String → String) :
      mapDistinct (fun base : BaseLocation × Nat => .ok (identifier uuid [index, base.2] base.1.id)) duplicate
        (normalizeBase uuid index camera.cameraName) [] camera.baseLocations.zipIdx = .ok camera.baseLocations ↔
      camera.Boxes fun bounds => normalizeBounds bounds = .ok bounds := by
    refine mapDistinct_self_iff (fun _ hbase => (normalizeBase_ok hbase).1) h.baseIDs fun item hitem => ?_
    have hnormal := h.bases item.1 (fst_mem_of_mem_zipIdx hitem)
    exact ⟨congrArg _ (hnormal.id.again uuid _), hnormal.again_iff ..⟩
  constructor
  · intro hagain
    obtain ⟨bases, hread, hcamera⟩ := bind_ok hagain
    have heq := congrArg CameraROIConfig.baseLocations (Except.ok.inj hcamera)
    simp only at heq hread
    rw [h.name.1, heq] at hread
    exact (hbases _).1 hread
  · intro hboxes
    rw [normalizeCamera]
    simp only [h.name.1, (hbases _).2 hboxes]
    rfl

structure DocumentNormal (go : GoText) (document : Document) : Prop where
  cameras : ∀ camera ∈ document.cameras, CameraNormal go camera
  names : (document.cameras.map (lowerName go)).Nodup
  updatedAt : goTrimSpace document.updatedAt = document.updatedAt
  version : 0 < document.version

theorem normalizeDocument_ok (h : normalizeDocument uuid document updatedAt = .ok normalized):
    DocumentNormal go normalized ∧ ∀ {P Q : ROIBox → Prop}, Carried P Q → (document.Boxes P ↔ normalized.Boxes Q) := by
  obtain ⟨cameras, hcameras, h⟩ := bind_ok h
  cases h
  rw [mapDistinct_ok_iff (fun hkey hcamera => (normalizeCamera_ok hkey hcamera).1)] at hcameras
  obtain ⟨hall, hnodup, -⟩ := hcameras
  have hnormal : ∀ camera ∈ cameras, CameraNormal go camera := by
    exact forall_mem_right hall fun hcamera => (normalizeCamera_ok hcamera.1 hcamera.2).2.1
  refine ⟨⟨hnormal, hnodup, ?_, ?_⟩, ?_⟩
  · dsimp only
    split
    · exact goTrimSpace_idem _
    · exact goTrimSpace_idem _
  · dsimp only
    split
    · exact one_pos
    · omega
  · intro P Q hcarried
    rw [Document.Boxes, ← Lib.forall_mem_zipIdx]
    exact forall_mem_congr hall fun hcamera => (normalizeCamera_ok hcamera.1 hcamera.2).2.2 hcarried

theorem DocumentNormal.again_iff (h : DocumentNormal go document) (uuid : NewIds go) :
    normalizeDocument uuid document "" = .ok document ↔
      document.Boxes fun bounds => normalizeBounds bounds = .ok bounds := by
  have hcameras (duplicate : CameraROIConfig × Nat → String → String) :
      mapDistinct (cameraKey go) duplicate (normalizeCamera uuid) [] document.cameras.zipIdx = .ok document.cameras ↔
      document.Boxes fun bounds => normalizeBounds bounds = .ok bounds := by
    refine mapDistinct_self_iff (fun hkey hcamera => (normalizeCamera_ok hkey hcamera).1) h.names fun item hitem => ?_
    have hnormal := h.cameras item.1 (fst_mem_of_mem_zipIdx hitem)
    have hkey : cameraKey go item = .ok (lowerName go item.1) := by
      rw [cameraKey, hnormal.name.1]
      exact if_neg hnormal.name.2
    exact ⟨hkey, hnormal.again_iff ..⟩
  have hempty : goTrimSpace "" = "" := rfl
  constructor
  · intro hagain
    obtain ⟨cameras, hread, hdocument⟩ := bind_ok hagain
    have heq := congrArg Document.cameras (Except.ok.inj hdocument)
    simp only at heq
    rw [heq] at hread
    exact (hcameras _).1 hread
  · intro hboxes
    have hversion : ¬ document.version ≤ 0 := by
      have := h.version
      omega
    rw [normalizeDocument, (hcameras _).2 hboxes, hempty, h.updatedAt, if_neg hversion]
    rfl

end

end Trakrai.RoiConfig
