import Trakrai.Lib.GoJson
import Trakrai.RoiConfig.Again

namespace Trakrai.RoiConfig
open List Lib

def ROIBox.json (bounds : ROIBox) : Json :=
  .obj [("height", .num bounds.height), ("width", .num bounds.width), ("x", .num bounds.x), ("y", .num bounds.y)]

def PTZPosition.json (ptz : PTZPosition) : Json :=
  .obj [("pan", .num ptz.pan), ("tilt", .num ptz.tilt), ("zoom", .num ptz.zoom)]

def omitEmpty (empty : Bool) (tag : String) (value : Json) : List (String × Json) :=
  if empty then [] else [(tag, value)]

def ROIBoxSpec.json (roi : ROIBoxSpec) : Json :=
  .obj ([("active", .bool roi.active), ("bounds", roi.bounds.json)] ++
    omitEmpty (roi.color == "") "color" (.str roi.color) ++
    [("id", .str roi.id), ("name", .str roi.name)] ++
    omitEmpty roi.tags.isEmpty "tags" (.arr (roi.tags.map .str)))

def BaseLocation.json (base : BaseLocation) : Json :=
  .obj [("active", .bool base.active), ("id", .str base.id), ("name", .str base.name), ("ptz", base.ptz.json),
    ("rois", .arr (base.rois.map ROIBoxSpec.json))]

def CameraROIConfig.json (camera : CameraROIConfig) : Json :=
  .obj [("baseLocations", .arr (camera.baseLocations.map BaseLocation.json)), ("cameraName", .str camera.cameraName)]

/-- `json.MarshalIndent`, up to the text. -/
def Document.json (document : Document) : Json :=
  .obj ([("cameras", .arr (document.cameras.map CameraROIConfig.json))] ++
    omitEmpty (document.updatedAt == "") "updatedAt" (.str document.updatedAt) ++
    [("version", .num document.version)])

section
variable (equalFold : String → String → Bool)

def readBox : Option Json → Option ROIBox :=
  readStruct equalFold ["height", "width", "x", "y"] fun field => do
    let height ← readNumber (field "height")
    let width ← readNumber (field "width")
    let x ← readNumber (field "x")
    let y ← readNumber (field "y")
    some ⟨height, width, x, y⟩

def readPTZ : Option Json → Option PTZPosition :=
  readStruct equalFold ["pan", "tilt", "zoom"] fun field => do
    let pan ← readNumber (field "pan")
    let tilt ← readNumber (field "tilt")
    let zoom ← readNumber (field "zoom")
    some ⟨pan, tilt, zoom⟩

def readROI : Option Json → Option ROIBoxSpec :=
  readStruct equalFold ["active", "bounds", "color", "id", "name", "tags"] fun field => do
    let active ← readFlag (field "active")
    let bounds ← readBox equalFold (field "bounds")
    let color ← readText (field "color")
    let id ← readText (field "id")
    let name ← readText (field "name")
    let tags ← readTexts (field "tags")
    some ⟨active, bounds, color, id, name, tags⟩

def readBase : Option Json → Option BaseLocation :=
  readStruct equalFold ["active", "id", "name", "ptz", "rois"] fun field => do
    let active ← readFlag (field "active")
    let id ← readText (field "id")
    let name ← readText (field "name")
    let ptz ← readPTZ equalFold (field "ptz")
    let rois ← readItems (readROI equalFold) (field "rois")
    some ⟨active, id, name, ptz, rois⟩

def readCamera : Option Json → Option CameraROIConfig :=
  readStruct equalFold ["baseLocations", "cameraName"] fun field => do
    let baseLocations ← readItems (readBase equalFold) (field "baseLocations")
    let cameraName ← readText (field "cameraName")
    some ⟨baseLocations, cameraName⟩

/-- `json.Unmarshal` into a `Document`. -/
def readDocument : Option Json → Option Document :=
  readStruct equalFold ["cameras", "updatedAt", "version"] fun field => do
    let cameras ← readItems (readCamera equalFold) (field "cameras")
    let updatedAt ← readText (field "updatedAt")
    let version ← readInt (field "version")
    some ⟨cameras, updatedAt, version⟩

end

section
variable (equalFold : String → String → Bool)

theorem readBox_json (bounds : ROIBox) : readBox equalFold (some bounds.json) = some bounds := by
  rw [readBox, ROIBox.json, readStruct, structField_eq_lookup (by simp) (by simp)]
  rfl

theorem readPTZ_json (ptz : PTZPosition) : readPTZ equalFold (some ptz.json) = some ptz := by
  rw [readPTZ, PTZPosition.json, readStruct, structField_eq_lookup (by simp) (by simp)]
  rfl

theorem readTexts_map (texts : List String) : readTexts (some (.arr (texts.map .str))) = some texts :=
  mapM_map_some fun _ _ => rfl

theorem readROI_json (roi : ROIBoxSpec) : readROI equalFold (some roi.json) = some roi := by
  obtain ⟨active, bounds, color, id, name, tags⟩ := roi
  rw [readROI, ROIBoxSpec.json]
  by_cases hcolor : color = ""
  · cases tags with
    | nil =>
      subst hcolor
      rw [readStruct, structField_eq_lookup (by simp [omitEmpty]) (by simp [omitEmpty])]
      simp [omitEmpty, lookup_cons, readBox_json, readText, readTexts]
    | cons tag tags =>
      subst hcolor
      rw [readStruct, structField_eq_lookup (by simp [omitEmpty]) (by simp [omitEmpty])]
      simp [omitEmpty, lookup_cons, readBox_json, readText, readTexts_map, -map_cons]
  · cases tags with
    | nil =>
      rw [readStruct, structField_eq_lookup (by simp [omitEmpty, hcolor]) (by simp [omitEmpty, hcolor])]
      simp [omitEmpty, hcolor, lookup_cons, readBox_json, readTexts]
    | cons tag tags =>
      rw [readStruct, structField_eq_lookup (by simp [omitEmpty, hcolor]) (by simp [omitEmpty, hcolor])]
      simp [omitEmpty, hcolor, lookup_cons, readBox_json, readTexts_map, -map_cons]

theorem readBase_json (base : BaseLocation) : readBase equalFold (some base.json) = some base := by
  have hrois := readItems_map base.rois fun roi _ => readROI_json equalFold roi
  rw [readBase, BaseLocation.json, readStruct, structField_eq_lookup (by simp) (by simp)]
  simp [lookup_cons, readPTZ_json, hrois]

theorem readCamera_json (camera : CameraROIConfig) : readCamera equalFold (some camera.json) = some camera := by
  have hbases := readItems_map camera.baseLocations fun base _ => readBase_json equalFold base
  rw [readCamera, CameraROIConfig.json, readStruct, structField_eq_lookup (by simp) (by simp)]
  simp [lookup_cons, hbases]

theorem readDocument_json (document : Document) : readDocument equalFold (some document.json) = some document := by
  have hcameras := readItems_map document.cameras fun camera _ => readCamera_json equalFold camera
  obtain ⟨cameras, updatedAt, version⟩ := document
  rw [readDocument, Document.json]
  by_cases hupdated : updatedAt = ""
  · subst hupdated
    rw [readStruct, structField_eq_lookup (by simp [omitEmpty]) (by simp [omitEmpty])]
    simp [omitEmpty, lookup_cons, hcameras, readText]
  · rw [readStruct, structField_eq_lookup (by simp [omitEmpty, hupdated]) (by simp [omitEmpty, hupdated])]
    simp [omitEmpty, hupdated, lookup_cons, hcameras]

end

/-- What a file holds: nothing but white space, a text that is no JSON, or a value. -/
inductive Content where
  | blank
  | broken (error : String)
  | value (json : Json)

abbrev Files := String → Option Content

section
variable {go : GoText} (uuid : NewIds go)

/-- The error of a value of the wrong type is told in short. Errors of `os.ReadFile` are left out, but for a file that
is not there. -/
def loadDocument (files : Files) (path : String) : Except String Document :=
  match files path with
  | none | some .blank => .ok defaultDocument
  | some (.broken error) => .error error
  | some (.value json) =>
    match readDocument go.equalFold (some json) with
    | none => .error "json: cannot unmarshal"
    | some document => normalizeDocument uuid document ""

structure Calls where
  mkdirAll : Except String Unit := .ok ()
  writeFile : Except String Unit := .ok ()
  rename : Except String Unit := .ok ()

/-- `now` is the time as RFC 3339 writes it. -/
def saveDocument (calls : Calls) (files : Files) (path : String) (document : Document) (now : String) :
    Except String Files := do
  let normalized ← normalizeDocument uuid document now
  calls.mkdirAll
  calls.writeFile
  calls.rename
  .ok fun other =>
    if other = path then some (.value normalized.json)
    else if other = path ++ ".tmp" then none
    else files other

end

/-- Names and ids are unique where they have to be, and every box has an extent in the frame. -/
structure WellFormed (document : Document) : Prop where
  cameraNames : (document.cameras.map (·.cameraName)).Nodup
  baseIDs : ∀ camera ∈ document.cameras, (camera.baseLocations.map (·.id)).Nodup
  roiIDs : ∀ camera ∈ document.cameras, ∀ base ∈ camera.baseLocations, (base.rois.map (·.id)).Nodup
  boxes : document.Boxes InFrame

section
variable {go : GoText} {uuid : NewIds go}

theorem DocumentNormal.wellFormed_iff (h : DocumentNormal go document) :
    WellFormed document ↔ document.Boxes InFrame := by
  constructor
  · exact WellFormed.boxes
  · intro hboxes
    have hlower : ((document.cameras.map (·.cameraName)).map go.lower.text).Nodup := by
      rw [map_map]
      exact h.names
    exact ⟨hlower.of_map _, fun camera hcamera => (h.cameras camera hcamera).baseIDs,
      fun camera hcamera base hbase => ((h.cameras camera hcamera).bases base hbase).roiIDs, hboxes⟩

/-- A document that is saved loads again as it was saved, with boxes that have an extent in the frame, exactly when
every box was kept by the rounding. -/
theorem saved_loads_iff {calls : Calls} {files files' : Files} {path now : String} {document : Document}
    (h : saveDocument uuid calls files path document now = .ok files') (uuid' : NewIds go) :
    ∃ normalized, normalizeDocument uuid document now = .ok normalized ∧
      ((loadDocument uuid' files' path = .ok normalized ∧ WellFormed normalized) ↔ document.Boxes BoxKept) := by
  obtain ⟨normalized, hnormalized, h⟩ := bind_ok h
  obtain ⟨_, _, h⟩ := bind_ok h
  obtain ⟨_, _, h⟩ := bind_ok h
  obtain ⟨_, _, h⟩ := bind_ok h
  have hfile : files' path = some (.value normalized.json) := by
    rw [← Except.ok.inj h]
    exact if_pos rfl
  have hload : loadDocument uuid' files' path = normalizeDocument uuid' normalized "" := by
    rw [loadDocument, hfile]
    simp only [readDocument_json]
  obtain ⟨hnormal, hcarried⟩ := normalizeDocument_ok hnormalized
  refine ⟨normalized, hnormalized, ?_⟩
  rw [hload, hnormal.again_iff, hnormal.wellFormed_iff, hcarried (fun hbounds => (inFrame_iff_boxKept hbounds).symm),
    ← hcarried (P := BoxKept) (fun hbounds => (normalizeBounds_again_iff hbounds).symm),
    ← hcarried (fun hbounds => (inFrame_iff_boxKept hbounds).symm), and_self]

end

def asciiText : GoText where
  lower := asciiLower
  equalFold a b := asciiLower.text a == asciiLower.text b
  print := asciiPrint

def oneId : NewIds asciiText where
  newString _ := "7c0e2a8e-52a5-4f3f-9d5b-0d1c4d8f2b11"
  normal _ := by decide +kernel
  nonempty _ := by decide

def dockDocument (bounds : ROIBox) : Document where
  cameras := [{
    baseLocations := [{
      active := true
      id := ""
      name := "Dock"
      ptz := ⟨2, -2, 3⟩
      rois := [{
        active := true
        bounds := bounds
        color := ""
        id := ""
        name := " Entrance "
        tags := ["door", "Door "] }] }]
    cameraName := "Camera-1" }]
  updatedAt := ""
  version := 0

def savedDock (bounds : ROIBox) : Document where
  cameras := [{
    baseLocations := [{
      active := true
      id := "7c0e2a8e-52a5-4f3f-9d5b-0d1c4d8f2b11"
      name := "Dock"
      ptz := ⟨1, -1, 1⟩
      rois := [{
        active := true
        bounds := bounds
        color := ""
        id := "7c0e2a8e-52a5-4f3f-9d5b-0d1c4d8f2b11"
        name := "Entrance"
        tags := ["door"] }] }]
    cameraName := "Camera-1" }]
  updatedAt := "2026-04-16T10:00:00Z"
  version := 1

def savedTime : String := "2026-04-16T10:00:00Z"

theorem saveDocument_dock
    (h : normalizeDocument oneId (dockDocument bounds) savedTime = .ok (savedDock kept)) :
    ∃ files, saveDocument oneId {} (fun _ => none) "roi-config.json" (dockDocument bounds) savedTime = .ok files ∧
      files "roi-config.json" = some (.value (savedDock kept).json) := by
  rw [saveDocument, h]
  exact ⟨_, rfl, if_pos rfl⟩

/-- A box that is cut at the bottom edge. -/
theorem saved_loads_iff_dock : ∃ files normalized,
    saveDocument oneId {} (fun _ => none) "roi-config.json" (dockDocument ⟨9/10, 9/10, -1/10, 1/5⟩) savedTime =
      .ok files ∧
    loadDocument oneId files "roi-config.json" = .ok normalized ∧ WellFormed normalized := by
  have hnormal : normalizeDocument oneId (dockDocument ⟨9/10, 9/10, -1/10, 1/5⟩) savedTime =
      .ok (savedDock ⟨4/5, 9/10, 0, 1/5⟩) := by
    decide +kernel
  have hkept : BoxKept ⟨9/10, 9/10, -1/10, 1/5⟩ := by
    have hx : clamp (-1/10) 0 1 = 0 := by norm_num [clamp]
    have hwidth : visible (-1/10) (9/10) = 9/10 := by norm_num [visible, clamp]
    have hy : clamp (1/5) 0 1 * 10000 = (2000 : Int) := by norm_num [clamp]
    have hheight : visible (1/5) (9/10) = 4/5 := by norm_num [visible, clamp]
    constructor
    · exact ⟨by rw [hwidth]; norm_num, by rw [hx, hwidth]; norm_num⟩
    · exact ⟨by rw [hheight]; norm_num, fun _ => by rw [hy, Int.fract_intCast]; norm_num⟩
  have hboxes : (dockDocument ⟨9/10, 9/10, -1/10, 1/5⟩).Boxes BoxKept := by
    intro camera hcamera base hbase roi hroi
    rw [mem_singleton.1 hcamera] at hbase
    rw [mem_singleton.1 hbase] at hroi
    rw [mem_singleton.1 hroi]
    exact hkept
  obtain ⟨files, hsave, -⟩ := saveDocument_dock hnormal
  obtain ⟨normalized, -, hloads⟩ := saved_loads_iff hsave oneId
  exact ⟨files, normalized, hsave, hloads.2 hboxes⟩

/-- A box less than half of the least length wide is saved with no width, and cannot be loaded. -/
theorem tiny_box_not_loaded : ∃ files,
    saveDocument oneId {} (fun _ => none) "roi-config.json" (dockDocument ⟨1/2, 4/100000, 0, 0⟩) savedTime =
      .ok files ∧
    loadDocument oneId files "roi-config.json" = .error
      "camera \"Camera-1\" base \"Dock\" ROI \"Entrance\": bounds width and height must both be greater than 0" := by
  have hnormal : normalizeDocument oneId (dockDocument ⟨1/2, 4/100000, 0, 0⟩) savedTime =
      .ok (savedDock ⟨1/2, 0, 0, 0⟩) := by
    decide +kernel
  obtain ⟨files, hsave, hfile⟩ := saveDocument_dock hnormal
  refine ⟨files, hsave, ?_⟩
  rw [loadDocument, hfile]
  simp only [readDocument_json]
  decide +kernel

end Trakrai.RoiConfig
