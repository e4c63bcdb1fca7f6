import Trakrai.PtzControl.Onvif
import Trakrai.RoiConfig.SavedDocument

namespace Trakrai.PtzControl
open Lib RoiConfig

def BaseAt (document : Document) (place : Nat × Nat) (base : BaseLocation) : Prop :=
  ∃ camera, document.cameras[place.1]? = some camera ∧ camera.baseLocations[place.2]? = some base

/-- Where the page finds the camera: the position it stores for a base location. -/
def capturedPtz (position : Position) : PTZPosition := ⟨position.pan, position.tilt, position.zoom⟩

/-- Going to a base location sends its position with the set-position command. -/
def goToBase (c : CameraController) (getStatus : Except String PTZStatus) (base : BaseLocation) : Except String Move :=
  setPosition c getStatus base.ptz.pan base.ptz.tilt base.ptz.zoom

/-- A coordinate in the interval of the store, or at the end of the range of the camera that is nearest to it. -/
def Recalled (low high min max value : Rat) : Prop :=
  (low ≤ value ∧ value ≤ high) ∨ (high < value ∧ value = min) ∨ (value < low ∧ value = max)

structure PtzLimits.Inside (limits : PtzLimits) (position : Position) : Prop where
  pan : limits.panMin ≤ position.pan ∧ position.pan ≤ limits.panMax
  tilt : limits.tiltMin ≤ position.tilt ∧ position.tilt ≤ limits.tiltMax
  zoom : limits.zoomMin ≤ position.zoom ∧ position.zoom ≤ limits.zoomMax

section
variable {low high min max value : Rat}

theorem clamp_of_mem (h : min ≤ value ∧ value ≤ max) : clamp value min max = value := by
  rw [clamp, if_neg (not_lt.2 h.1), if_neg (not_lt.2 h.2)]

theorem clamp_eq_min (h : value ≤ min) (hrange : min ≤ max) : clamp value min max = min := by
  rw [clamp]
  split
  · rfl
  · rename_i hge
    have heq : value = min := le_antisymm h (not_lt.1 hge)
    rw [heq, if_neg (not_lt.2 hrange)]

theorem clamp_eq_max (h : max ≤ value) (hrange : min ≤ max) : clamp value min max = max := by
  rw [clamp, if_neg (not_lt.2 (hrange.trans h))]
  split
  · rfl
  · rename_i hle
    exact le_antisymm (not_lt.1 hle) h

theorem clamp_clamp_eq_iff (hstore : low ≤ high) (h : min ≤ value ∧ value ≤ max) :
    clamp (RoiConfig.clamp value low high) min max = value ↔ Recalled low high min max value := by
  have hrange : min ≤ max := h.1.trans h.2
  rcases lt_or_ge value low with hlow | hlow
  · have hstored : RoiConfig.clamp value low high = low := by
      rw [RoiConfig.clamp, max_eq_right hlow.le, min_eq_left hstore]
    rw [hstored]
    constructor
    · intro heq
      apply Or.inr
      apply Or.inr
      refine ⟨hlow, ?_⟩
      rw [clamp] at heq
      split at heq
      · linarith
      · split at heq
        · exact heq.symm
        · linarith
    · rintro (⟨hge, _⟩ | ⟨hgt, _⟩ | ⟨_, heq⟩)
      · linarith
      · linarith
      · rw [clamp_eq_max (by linarith) hrange, heq]
  · rcases le_or_gt value high with hhigh | hhigh
    · rw [RoiConfig.clamp_of_mem ⟨hlow, hhigh⟩, clamp_of_mem h]
      exact iff_of_true rfl (.inl ⟨hlow, hhigh⟩)
    · have hstored : RoiConfig.clamp value low high = high := by
        rw [RoiConfig.clamp, max_eq_left hlow, min_eq_right hhigh.le]
      rw [hstored]
      constructor
      · intro heq
        apply Or.inr
        apply Or.inl
        refine ⟨hhigh, ?_⟩
        rw [clamp] at heq
        split at heq
        · exact heq.symm
        · split at heq
          · linarith
          · linarith
      · rintro (⟨_, hle⟩ | ⟨_, heq⟩ | ⟨hlt, _⟩)
        · linarith
        · rw [clamp_eq_min (by linarith) hrange, heq]
        · linarith

end

section
variable {go : GoText} {uuid : NewIds go} {document saved : Document} {updatedAt : String} {place : Nat × Nat}
  {base : BaseLocation}

theorem forall₂_getElem? {R : α → β → Prop} {xs : List α} {ys : List β} (h : List.Forall₂ R xs ys) {i : Nat} {x : α}
    (hx : xs[i]? = some x) : ∃ y, ys[i]? = some y ∧ R x y := by
  induction h generalizing i with
  | nil => cases hx
  | cons hxy _ ih =>
    cases i with
    | zero =>
      cases hx
      exact ⟨_, rfl, hxy⟩
    | succ i => exact ih hx

theorem zipIdx_getElem? {xs : List α} {i : Nat} {x : α} (h : xs[i]? = some x) : xs.zipIdx[i]? = some (x, i) := by
  rw [List.getElem?_zipIdx, h]
  simp

theorem normalizeDocument_ptz (h : normalizeDocument uuid document updatedAt = .ok saved)
    (hbase : BaseAt document place base) :
    ∃ kept, BaseAt saved place kept ∧
      kept.ptz = ⟨RoiConfig.clamp base.ptz.pan (-1) 1, RoiConfig.clamp base.ptz.tilt (-1) 1,
        RoiConfig.clamp base.ptz.zoom 0 1⟩ := by
  obtain ⟨camera, hcamera, hbase⟩ := hbase
  obtain ⟨cameras, hcameras, h⟩ := bind_ok h
  cases h
  rw [mapDistinct_ok_iff (fun hkey hcamera => (normalizeCamera_ok hkey hcamera).1)] at hcameras
  obtain ⟨camera', hcamera', -, hread⟩ := forall₂_getElem? hcameras.1 (zipIdx_getElem? hcamera)
  obtain ⟨bases, hbases, hread⟩ := bind_ok hread
  rw [mapDistinct_ok_iff (fun _ hbase => (normalizeBase_ok hbase).1)] at hbases
  obtain ⟨kept, hkept, -, hstored⟩ := forall₂_getElem? hbases.1 (zipIdx_getElem? hbase)
  refine ⟨kept, ⟨camera', hcamera', ?_⟩, ?_⟩
  · rw [← Except.ok.inj hread]
    exact hkept
  · obtain ⟨rois, _, hstored⟩ := bind_ok hstored
    rw [← Except.ok.inj hstored]

variable {cfg : CameraConfig} {config : PTZConfiguration} {node : PTZNode} {c : CameraController}

theorem connectedController_mock (hc : c = connectedController cfg config node) (hmock : c.cfg.mock) :
    c.capabilities.canAbsolutePanTilt ∧ c.capabilities.canAbsoluteZoom := by
  subst hc
  rw [connectedController] at hmock ⊢
  split
  · exact ⟨rfl, rfl⟩
  · rename_i hno
    rw [if_neg hno] at hmock
    exact absurd hmock hno

/-- A camera that moves absolutely goes back to the pan and tilt of a base location, and to its zoom, exactly where
these are recalled. What it does not move absolutely stays. -/
theorem base_recalled_iff {reported : Position} (status : PTZStatus)
    (hsaved : normalizeDocument uuid document updatedAt = .ok saved) (hbase : BaseAt document place base)
    (hcaptured : base.ptz = capturedPtz reported) (hc : c = connectedController cfg config node)
    (hmoves : c.capabilities.canAbsolutePanTilt ∨ c.capabilities.canAbsoluteZoom)
    (hinside : c.limits.Inside reported) :
    ∃ kept move, BaseAt saved place kept ∧ goToBase c (.ok status) kept = .ok move ∧
      (if c.capabilities.canAbsolutePanTilt then
        move.panTilt = some (reported.pan, reported.tilt) ↔
          Recalled (-1) 1 c.limits.panMin c.limits.panMax reported.pan ∧
          Recalled (-1) 1 c.limits.tiltMin c.limits.tiltMax reported.tilt
      else move.panTilt = some ((positionFromStatus status).pan, (positionFromStatus status).tilt)) ∧
      (if c.capabilities.canAbsoluteZoom then
        move.zoom = some reported.zoom ↔ Recalled 0 1 c.limits.zoomMin c.limits.zoomMax reported.zoom
      else move.zoom = some (positionFromStatus status).zoom) := by
  obtain ⟨kept, hkept, hptz⟩ := normalizeDocument_ptz hsaved hbase
  rw [hcaptured, capturedPtz] at hptz
  obtain ⟨move, hmove, hpanTilt, hzoom⟩ := setPosition_ok (connectedController_mock hc) hmoves status kept.ptz.pan
    kept.ptz.tilt kept.ptz.zoom
  refine ⟨kept, move, hkept, hmove, ?_, ?_⟩
  · split
    · rename_i hcan
      rw [hpanTilt, if_pos hcan, Option.some.injEq, Prod.mk.injEq, hptz,
        clamp_clamp_eq_iff (by norm_num) hinside.pan, clamp_clamp_eq_iff (by norm_num) hinside.tilt]
    · rename_i hcan
      rw [hpanTilt, if_neg hcan]
  · split
    · rename_i hcan
      rw [hzoom, if_pos hcan, Option.some.injEq, hptz, clamp_clamp_eq_iff (by norm_num) hinside.zoom]
    · rename_i hcan
      rw [hzoom, if_neg hcan]

end

def yardConfig : CameraConfig where
  name := "Yard"
  mock := false
  home := ⟨0, 0, 0⟩
  absoluteSpeed := 1/2

def yardNode : PTZNode where
  absolutePanTiltPositionSpace := ⟨"urn:degrees", ⟨-180, 180⟩, ⟨-90, 90⟩⟩
  absoluteZoomPositionSpace := ⟨"urn:zoom", ⟨10, 30⟩⟩

def yardController : CameraController := connectedController yardConfig {} yardNode

def yardDocument (base : BaseLocation) : Document where
  cameras := [⟨[base], "Yard"⟩]
  updatedAt := ""
  version := 1

def yardBase (position : Position) : BaseLocation where
  active := true
  id := "gate"
  name := "Gate"
  ptz := capturedPtz position
  rois := []

def yardStatus : PTZStatus := ⟨{ x := 0, y := 0 }, { x := 20 }⟩

theorem baseAt_yard (base : BaseLocation) : BaseAt (yardDocument base) (0, 0) base := ⟨⟨[base], "Yard"⟩, rfl, rfl⟩

/-- At its least zoom and almost straight ahead the camera is sent back where it was. -/
theorem base_recalled_iff_ahead : ∃ kept move,
    BaseAt (yardDocument (yardBase ⟨1/2, -1/4, 1⟩)) (0, 0) kept ∧
    goToBase yardController (.ok yardStatus) kept = .ok move ∧
    move.panTilt = some (1/2, -1/4) ∧ move.zoom = some 10 := by
  have hsaved : normalizeDocument oneId (yardDocument (yardBase ⟨1/2, -1/4, 10⟩)) "" =
      .ok (yardDocument (yardBase ⟨1/2, -1/4, 1⟩)) := by
    decide +kernel
  have hcan : yardController.capabilities.canAbsolutePanTilt ∧ yardController.capabilities.canAbsoluteZoom := by
    decide +kernel
  have hlimits : yardController.limits = ⟨-180, 180, -90, 90, 10, 30⟩ := by
    decide +kernel
  have hinside : yardController.limits.Inside ⟨1/2, -1/4, 10⟩ := by
    rw [hlimits]
    constructor <;> norm_num
  have hyard : yardController = connectedController yardConfig {} yardNode := rfl
  obtain ⟨kept, move, hkept, hmove, hpanTilt, hzoom⟩ := base_recalled_iff yardStatus hsaved
    (baseAt_yard _) rfl hyard (.inl hcan.1) hinside
  rw [if_pos hcan.1, hlimits] at hpanTilt
  rw [if_pos hcan.2, hlimits] at hzoom
  refine ⟨kept, move, hkept, hmove, hpanTilt.2 ⟨.inl ?_, .inl ?_⟩, hzoom.2 (.inr (.inl ?_))⟩
  · norm_num
  · norm_num
  · norm_num

/-- Turned to the right, the camera is sent to one degree. -/
theorem turned_camera_not_recalled : ∃ saved kept move, yardController.limits.Inside ⟨90, 0, 20⟩ ∧
    normalizeDocument oneId (yardDocument (yardBase ⟨90, 0, 20⟩)) "" = .ok saved ∧ BaseAt saved (0, 0) kept ∧
    goToBase yardController (.ok yardStatus) kept = .ok move ∧ move.panTilt = some (1, 0) ∧ move.zoom = some 10 := by
  have hsaved : normalizeDocument oneId (yardDocument (yardBase ⟨90, 0, 20⟩)) "" =
      .ok (yardDocument (yardBase ⟨1, 0, 1⟩)) := by
    decide +kernel
  have hlimits : yardController.limits = ⟨-180, 180, -90, 90, 10, 30⟩ := by
    decide +kernel
  have hinside : yardController.limits.Inside ⟨90, 0, 20⟩ := by
    rw [hlimits]
    constructor <;> norm_num
  exact ⟨_, _, _, hinside, hsaved, baseAt_yard _, rfl, by decide +kernel, by decide +kernel⟩

end Trakrai.PtzControl
