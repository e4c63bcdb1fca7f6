import Trakrai.Lib.DistinctKeys
import Trakrai.Lib.Text
import Trakrai.Lib.Quote
import Trakrai.Lib.Rounding

namespace Trakrai.RoiConfig
open Lib

def documentVersion : Int := 1

structure PTZPosition where
  pan : Rat
  tilt : Rat
  zoom : Rat
deriving DecidableEq

structure ROIBox where
  height : Rat
  width : Rat
  x : Rat
  y : Rat
deriving DecidableEq

structure ROIBoxSpec where
  active : Bool
  bounds : ROIBox
  color : String
  id : String
  name : String
  tags : List String
deriving DecidableEq

structure BaseLocation where
  active : Bool
  id : String
  name : String
  ptz : PTZPosition
  rois : List ROIBoxSpec
deriving DecidableEq

structure CameraROIConfig where
  baseLocations : List BaseLocation
  cameraName : String
deriving DecidableEq

structure Document where
  cameras : List CameraROIConfig
  updatedAt : String
  version : Int
deriving DecidableEq

def defaultDocument : Document where
  cameras := []
  updatedAt := ""
  version := documentVersion

def clamp (value min max : Rat) : Rat := Min.min (Max.max value min) max

def round4 (value : Rat) : Rat := goRound (value * 10000) / 10000

/-- A rational is neither NaN nor infinite, so `sanitizeFloat` keeps it. -/
def normalizeBounds (bounds : ROIBox) : Except String ROIBox :=
  let x := clamp bounds.x 0 1
  let y := clamp bounds.y 0 1
  let width := clamp bounds.width 0 1
  let height := clamp bounds.height 0 1
  if width ≤ 0 ∨ height ≤ 0 then .error "bounds width and height must both be greater than 0"
  else
    let width := if x + width > 1 then 1 - x else width
    let height := if y + height > 1 then 1 - y else height
    if width ≤ 0 ∨ height ≤ 0 then .error "bounds must intersect the visible frame"
    else .ok { height := round4 height, width := round4 width, x := round4 x, y := round4 y }

/-- The tables of Unicode that the standard library of Go uses. -/
structure GoText where
  lower : GoLower
  equalFold : String → String → Bool
  print : GoPrint

section
variable (go : GoText)

def normalizeIdentifier (value : String) : String :=
  let trimmed := goTrimSpace value
  if trimmed = "" then "" else go.lower.text trimmed

def addTag (normalized : List String) (value : String) : List String :=
  let tag := goTrimSpace value
  if tag = "" then normalized
  else if normalized.any (go.equalFold · tag) then normalized
  else normalized ++ [tag]

def normalizeTags (values : List String) : List String := values.foldl (addTag go) []

/-- `uuid.NewString` at the place of a base location or of a box, by the indices that lead there. Its texts are
identifiers as they stand. -/
structure NewIds where
  newString : List Nat → String
  normal : ∀ place, normalizeIdentifier go (newString place) = newString place
  nonempty : ∀ place, newString place ≠ ""

def orElse (value default : String) : String := if value = "" then default else value

def normalizeROI (cameraName baseName : String) (item : ROIBoxSpec × Nat) (roiID : String) :
    Except String ROIBoxSpec := do
  let (roi, roiIndex) := item
  let roiName := orElse (goTrimSpace roi.name) ("ROI " ++ toString (roiIndex + 1))
  let bounds ← (normalizeBounds roi.bounds).mapError fun error =>
    "camera " ++ goQuote go.print cameraName ++ " base " ++ goQuote go.print baseName ++ " ROI " ++
      goQuote go.print roiName ++ ": " ++ error
  .ok {
    active := roi.active
    bounds := bounds
    color := goTrimSpace roi.color
    id := roiID
    name := roiName
    tags := normalizeTags go roi.tags }

def cameraKey (item : CameraROIConfig × Nat) : Except String String :=
  let cameraName := goTrimSpace item.1.cameraName
  if cameraName = "" then .error ("camera " ++ toString (item.2 + 1) ++ " is missing cameraName")
  else .ok (go.lower.text cameraName)

variable {go} (uuid : NewIds go)

def identifier (place : List Nat) (value : String) : String :=
  orElse (normalizeIdentifier go value) (uuid.newString place)

def normalizeBase (cameraIndex : Nat) (cameraName : String) (item : BaseLocation × Nat) (baseID : String) :
    Except String BaseLocation := do
  let (baseLocation, baseIndex) := item
  let baseName := orElse (goTrimSpace baseLocation.name) ("Base " ++ toString (baseIndex + 1))
  let rois ← mapDistinct (fun roi => .ok (identifier uuid [cameraIndex, baseIndex, roi.2] roi.1.id))
    (fun _ roiID => "camera " ++ goQuote go.print cameraName ++ " base " ++ goQuote go.print baseName ++
      " has duplicate ROI id " ++ goQuote go.print roiID)
    (normalizeROI go cameraName baseName) [] baseLocation.rois.zipIdx
  .ok {
    active := baseLocation.active
    id := baseID
    name := baseName
    ptz := {
      pan := clamp baseLocation.ptz.pan (-1) 1
      tilt := clamp baseLocation.ptz.tilt (-1) 1
      zoom := clamp baseLocation.ptz.zoom 0 1 }
    rois := rois }

def normalizeCamera (item : CameraROIConfig × Nat) (_ : String) : Except String CameraROIConfig := do
  let (camera, cameraIndex) := item
  let cameraName := goTrimSpace camera.cameraName
  let baseLocations ← mapDistinct (fun base => .ok (identifier uuid [cameraIndex, base.2] base.1.id))
    (fun _ baseID => "camera " ++ goQuote go.print cameraName ++ " has duplicate base location id " ++
      goQuote go.print baseID)
    (normalizeBase uuid cameraIndex cameraName) [] camera.baseLocations.zipIdx
  .ok { baseLocations := baseLocations, cameraName := cameraName }

def normalizeDocument (document : Document) (updatedAt : String) : Except String Document := do
  let cameras ← mapDistinct (cameraKey go)
    (fun camera _ => "camera " ++ goQuote go.print (goTrimSpace camera.1.cameraName) ++ " is duplicated")
    (normalizeCamera uuid) [] document.cameras.zipIdx
  .ok {
    cameras := cameras
    updatedAt := if goTrimSpace updatedAt ≠ "" then goTrimSpace updatedAt else goTrimSpace document.updatedAt
    version := if document.version ≤ 0 then documentVersion else document.version }

end

/-- What the edge of the frame leaves of a side of a box. -/
def visible (start length : Rat) : Rat := min (clamp length 0 1) (1 - clamp start 0 1)

/-- The visible side has half of the least length that is written down, and if it reaches the edge, its start does
not lie in the middle between two numbers that are written down. -/
structure SideKept (start length : Rat) : Prop where
  wide : 1 / 20000 ≤ visible start length
  edge : clamp start 0 1 + visible start length = 1 → Int.fract (clamp start 0 1 * 10000) ≠ 1 / 2

structure BoxKept (bounds : ROIBox) : Prop where
  across : SideKept bounds.x bounds.width
  down : SideKept bounds.y bounds.height

/-- The box has an extent and lies in the unit square. -/
structure InFrame (bounds : ROIBox) : Prop where
  width : 0 < bounds.width
  height : 0 < bounds.height
  x : 0 ≤ bounds.x ∧ bounds.x + bounds.width ≤ 1
  y : 0 ≤ bounds.y ∧ bounds.y + bounds.height ≤ 1

section
variable {value low high start length : Rat}

theorem clamp_mem (value : Rat) (h : low ≤ high) : low ≤ clamp value low high ∧ clamp value low high ≤ high :=
  ⟨le_min (le_max_right _ _) h, min_le_right _ _⟩

theorem clamp_of_mem (h : low ≤ value ∧ value ≤ high) : clamp value low high = value := by
  rw [clamp, max_eq_left h.1, min_eq_left h.2]

theorem clamp_clamp (h : low ≤ high) : clamp (clamp value low high) low high = clamp value low high :=
  clamp_of_mem (clamp_mem _ h)

theorem ite_cut_eq_visible :
    (if clamp start 0 1 + clamp length 0 1 > 1 then 1 - clamp start 0 1 else clamp length 0 1) =
      visible start length := by
  rw [visible]
  split
  · exact (min_eq_right (by linarith)).symm
  · exact (min_eq_left (by linarith)).symm

theorem normalizeBounds_ok_iff : normalizeBounds bounds = .ok result ↔
    (0 < visible bounds.x bounds.width ∧ 0 < visible bounds.y bounds.height) ∧ result = {
      height := round4 (visible bounds.y bounds.height)
      width := round4 (visible bounds.x bounds.width)
      x := round4 (clamp bounds.x 0 1)
      y := round4 (clamp bounds.y 0 1) } := by
  have hwidth : visible bounds.x bounds.width ≤ clamp bounds.width 0 1 := min_le_left _ _
  have hheight : visible bounds.y bounds.height ≤ clamp bounds.height 0 1 := min_le_left _ _
  rw [normalizeBounds]
  simp only [ite_cut_eq_visible]
  split
  · rename_i hnone
    constructor
    · exact nofun
    · intro ⟨⟨hw, hh⟩, _⟩
      rcases hnone with hnone | hnone
      · linarith
      · linarith
  · split
    · rename_i hnone
      constructor
      · exact nofun
      · intro ⟨⟨hw, hh⟩, _⟩
        rcases hnone with hnone | hnone
        · linarith
        · linarith
    · rename_i hsome
      rw [not_or, not_le, not_le] at hsome
      rw [and_iff_right hsome, Except.ok.injEq, eq_comm]

theorem round4_nonneg (h : 0 ≤ value) : 0 ≤ round4 value := by
  have hround : (0 : Rat) ≤ goRound (value * 10000) := by
    exact_mod_cast goRound_nonneg (by linarith)
  rw [round4]
  linarith

theorem round4_div (n : Int) : round4 ((n : Rat) / 10000) = n / 10000 := by
  rw [round4, div_mul_cancel₀ _ (by norm_num), goRound_intCast]

theorem round4_round4 (value : Rat) : round4 (round4 value) = round4 value := round4_div (goRound (value * 10000))

theorem visible_add_le (start length : Rat) :
    clamp start 0 1 * 10000 + visible start length * 10000 ≤ ((10000 : Int) : Rat) := by
  have hvisible : visible start length ≤ 1 - clamp start 0 1 := min_le_right _ _
  push_cast
  linarith

theorem sideKept_iff (hlength : 0 < visible start length) :
    SideKept start length ↔ 0 < round4 (visible start length) ∧
      round4 (clamp start 0 1) + round4 (visible start length) ≤ 1 := by
  have hstart : 0 ≤ clamp start 0 1 * 10000 := by linarith [(clamp_mem start zero_le_one).1]
  have hscaled : 0 ≤ visible start length * 10000 := by linarith
  have hpos : 0 < round4 (visible start length) ↔ 1 / 20000 ≤ visible start length := by
    rw [round4, div_pos_iff_of_pos_right (by norm_num), Int.cast_pos, goRound_pos_iff hscaled]
    constructor
    · intro h
      linarith
    · intro h
      linarith
  have hsum : round4 (clamp start 0 1) + round4 (visible start length) ≤ 1 ↔
      goRound (clamp start 0 1 * 10000) + goRound (visible start length * 10000) ≤ 10000 := by
    rw [round4, round4, ← add_div, div_le_one (by norm_num)]
    exact_mod_cast Iff.rfl
  have hedge : clamp start 0 1 * 10000 + visible start length * 10000 = ((10000 : Int) : Rat) ↔
      clamp start 0 1 + visible start length = 1 := by
    push_cast
    constructor
    · intro h
      linarith
    · intro h
      linarith
  rw [hpos, hsum, goRound_add_goRound_le_iff hstart hscaled (visible_add_le start length), hedge]
  exact ⟨fun h => ⟨h.wide, h.edge⟩, fun h => ⟨h.1, h.2⟩⟩

theorem round4_le_one (h : 0 ≤ value) (hle : value ≤ 1) : round4 value ≤ 1 := by
  have hround : goRound (value * 10000) ≤ (10000 : Int) := goRound_le (by linarith) (by push_cast; linarith)
  rw [round4, div_le_one (by norm_num)]
  exact_mod_cast hround

theorem side_again_iff (hstart : start' = round4 (clamp start 0 1))
    (hlength : length' = round4 (visible start length)) (hpos : 0 < visible start length) :
    (0 < visible start' length' ∧ round4 (clamp start' 0 1) = start' ∧ round4 (visible start' length') = length') ↔
      0 < length' ∧ start' + length' ≤ 1 := by
  have hvisible : visible start length ≤ 1 := (min_le_left _ _).trans (clamp_mem _ zero_le_one).2
  have hclamp := clamp_mem start (zero_le_one (α := Rat))
  have hstart' : clamp start' 0 1 = start' := by
    rw [hstart]
    exact clamp_of_mem ⟨round4_nonneg hclamp.1, round4_le_one hclamp.1 hclamp.2⟩
  have hlength' : clamp length' 0 1 = length' := by
    rw [hlength]
    exact clamp_of_mem ⟨round4_nonneg hpos.le, round4_le_one hpos.le hvisible⟩
  have hround : round4 start' = start' := by
    rw [hstart, round4_round4]
  have hround' : round4 length' = length' := by
    rw [hlength, round4_round4]
  have hagain : visible start' length' = min length' (1 - start') := by
    rw [visible, hstart', hlength']
  rw [hagain, hstart', and_iff_right hround]
  constructor
  · intro ⟨hsome, hsame⟩
    have hfits : length' ≤ 1 - start' := by
      by_contra hover
      have hedge : (1 - start' : Rat) = ((10000 - goRound (clamp start 0 1 * 10000) : Int) : Rat) / 10000 := by
        rw [hstart, round4]
        push_cast
        ring
      rw [min_eq_right (not_le.1 hover).le, hedge, round4_div, ← hedge] at hsame
      linarith
    rw [min_eq_left hfits] at hsome
    exact ⟨hsome, by linarith⟩
  · intro ⟨hsome, hfits⟩
    rw [min_eq_left (by linarith)]
    exact ⟨hsome, hround'⟩

end

section
variable {bounds result : ROIBox}

theorem inFrame_iff_boxKept (h : normalizeBounds bounds = .ok result) : InFrame result ↔ BoxKept bounds := by
  obtain ⟨⟨hwidth, hheight⟩, rfl⟩ := normalizeBounds_ok_iff.1 h
  have hx := round4_nonneg (clamp_mem bounds.x zero_le_one).1
  have hy := round4_nonneg (clamp_mem bounds.y zero_le_one).1
  constructor
  · intro hin
    exact ⟨(sideKept_iff hwidth).2 ⟨hin.width, hin.x.2⟩, (sideKept_iff hheight).2 ⟨hin.height, hin.y.2⟩⟩
  · intro hkept
    obtain ⟨hw, hxw⟩ := (sideKept_iff hwidth).1 hkept.across
    obtain ⟨hh, hyh⟩ := (sideKept_iff hheight).1 hkept.down
    exact ⟨hw, hh, ⟨hx, hxw⟩, hy, hyh⟩

theorem normalizeBounds_again_iff (h : normalizeBounds bounds = .ok result) :
    normalizeBounds result = .ok result ↔ BoxKept bounds := by
  have hframe := inFrame_iff_boxKept h
  obtain ⟨⟨hwidth, hheight⟩, hresult⟩ := normalizeBounds_ok_iff.1 h
  have hacross := side_again_iff (congrArg ROIBox.x hresult) (congrArg ROIBox.width hresult) hwidth
  have hdown := side_again_iff (congrArg ROIBox.y hresult) (congrArg ROIBox.height hresult) hheight
  have hx := round4_nonneg (clamp_mem bounds.x zero_le_one).1
  have hy := round4_nonneg (clamp_mem bounds.y zero_le_one).1
  rw [← hframe, normalizeBounds_ok_iff]
  constructor
  · intro ⟨⟨hw, hh⟩, hsame⟩
    obtain ⟨hpos, hfits⟩ := hacross.1 ⟨hw, (congrArg ROIBox.x hsame).symm, (congrArg ROIBox.width hsame).symm⟩
    obtain ⟨hpos', hfits'⟩ := hdown.1 ⟨hh, (congrArg ROIBox.y hsame).symm, (congrArg ROIBox.height hsame).symm⟩
    exact ⟨hpos, hpos', ⟨(congrArg ROIBox.x hresult) ▸ hx, hfits⟩, (congrArg ROIBox.y hresult) ▸ hy, hfits'⟩
  · intro hin
    obtain ⟨hw, hsx, hsw⟩ := hacross.2 ⟨hin.width, hin.x.2⟩
    obtain ⟨hh, hsy, hsh⟩ := hdown.2 ⟨hin.height, hin.y.2⟩
    refine ⟨⟨hw, hh⟩, ?_⟩
    rw [hsx, hsw, hsy, hsh]

end

end Trakrai.RoiConfig
