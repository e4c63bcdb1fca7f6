import Mathlib.Data.Rat.Defs
import Trakrai.Lib.Text

namespace Trakrai.PtzControl
open Lib

structure Position where
  pan : Rat
  tilt : Rat
  zoom : Rat
deriving DecidableEq

structure PtzRange where
  max : Rat
  min : Rat
deriving DecidableEq

structure PtzCapabilities where
  canAbsolutePanTilt : Bool
  canAbsoluteZoom : Bool
  canContinuousPanTilt : Bool
  canContinuousZoom : Bool
  canGoHome : Bool
  panRange : Option PtzRange
  tiltRange : Option PtzRange
  zoomRange : Option PtzRange
deriving DecidableEq

structure PtzSpaces where
  absolutePanTilt : String := ""
  absoluteZoom : String := ""
  continuousPanTilt : String := ""
  continuousZoom : String := ""
deriving DecidableEq

structure PtzLimits where
  panMin : Rat
  panMax : Rat
  tiltMin : Rat
  tiltMax : Rat
  zoomMin : Rat
  zoomMax : Rat
deriving DecidableEq

/-- A range that is left out in an answer of the camera is zero at both ends. -/
structure FloatRange where
  min : Rat := 0
  max : Rat := 0

structure Space2D where
  uri : String := ""
  xRange : FloatRange := {}
  yRange : FloatRange := {}

structure Space1D where
  uri : String := ""
  xRange : FloatRange := {}

structure PTZConfiguration where
  defaultAbsolutePantTiltPositionSpace : String := ""
  defaultAbsoluteZoomPositionSpace : String := ""
  defaultContinuousPanTiltVelocitySpace : String := ""
  defaultContinuousZoomVelocitySpace : String := ""
  panTiltLimits : Space2D := {}
  zoomLimits : Space1D := {}

structure PTZNode where
  absolutePanTiltPositionSpace : Space2D := {}
  absoluteZoomPositionSpace : Space1D := {}
  continuousPanTiltVelocitySpace : Space2D := {}
  continuousZoomVelocitySpace : Space1D := {}
  homeSupported : Bool := false

def clamp (value min max : Rat) : Rat :=
  if value < min then min else if value > max then max else value

def defaultPositionLimits : PtzLimits := ⟨-1, 1, -1, 1, 0, 1⟩

def defaultVelocityLimits : PtzLimits := ⟨-1, 1, -1, 1, -1, 1⟩

def chooseSpaceURI (primary fallback : String) : String :=
  if goTrimSpace primary ≠ "" then goTrimSpace primary else goTrimSpace fallback

def spacesFromProfileAndNode (config : PTZConfiguration) (node : PTZNode) : PtzSpaces where
  absolutePanTilt :=
    chooseSpaceURI node.absolutePanTiltPositionSpace.uri config.defaultAbsolutePantTiltPositionSpace
  absoluteZoom := chooseSpaceURI node.absoluteZoomPositionSpace.uri config.defaultAbsoluteZoomPositionSpace
  continuousPanTilt :=
    chooseSpaceURI node.continuousPanTiltVelocitySpace.uri config.defaultContinuousPanTiltVelocitySpace
  continuousZoom := chooseSpaceURI node.continuousZoomVelocitySpace.uri config.defaultContinuousZoomVelocitySpace

def hasFiniteRange (range : FloatRange) : Bool := range.min ≠ 0 ∨ range.max ≠ 0

def firstRange (ranges : List FloatRange) (default : FloatRange) : FloatRange :=
  (ranges.find? hasFiniteRange).getD default

def positionLimitsFromProfileAndNode (config : PTZConfiguration) (node : PTZNode) : PtzLimits :=
  let limits := defaultPositionLimits
  let pan := firstRange [config.panTiltLimits.xRange, node.absolutePanTiltPositionSpace.xRange]
    ⟨limits.panMin, limits.panMax⟩
  let tilt := firstRange [config.panTiltLimits.yRange, node.absolutePanTiltPositionSpace.yRange]
    ⟨limits.tiltMin, limits.tiltMax⟩
  let zoom := firstRange [config.zoomLimits.xRange, node.absoluteZoomPositionSpace.xRange]
    ⟨limits.zoomMin, limits.zoomMax⟩
  ⟨pan.min, pan.max, tilt.min, tilt.max, zoom.min, zoom.max⟩

def velocityLimitsFromNode (node : PTZNode) : PtzLimits :=
  let limits := defaultVelocityLimits
  let pan := firstRange [node.continuousPanTiltVelocitySpace.xRange] ⟨limits.panMin, limits.panMax⟩
  let tilt := firstRange [node.continuousPanTiltVelocitySpace.yRange] ⟨limits.tiltMin, limits.tiltMax⟩
  let zoom := firstRange [node.continuousZoomVelocitySpace.xRange] ⟨limits.zoomMin, limits.zoomMax⟩
  ⟨pan.min, pan.max, tilt.min, tilt.max, zoom.min, zoom.max⟩

def buildCapabilities (hasConfiguredHome : Bool) (spaces : PtzSpaces) (positionLimits velocityLimits : PtzLimits)
    (homeSupported : Bool) : PtzCapabilities :=
  let canAbsolutePanTilt := spaces.absolutePanTilt ≠ ""
  let canAbsoluteZoom := spaces.absoluteZoom ≠ ""
  let canContinuousPanTilt := spaces.continuousPanTilt ≠ ""
  let canContinuousZoom := spaces.continuousZoom ≠ ""
  let moves := canAbsolutePanTilt ∨ canContinuousPanTilt
  { canAbsolutePanTilt := canAbsolutePanTilt
    canAbsoluteZoom := canAbsoluteZoom
    canContinuousPanTilt := canContinuousPanTilt
    canContinuousZoom := canContinuousZoom
    canGoHome := homeSupported || (hasConfiguredHome && spaces.absolutePanTilt ≠ "")
    panRange := if moves then some ⟨positionLimits.panMax, positionLimits.panMin⟩ else none
    tiltRange := if moves then some ⟨positionLimits.tiltMax, positionLimits.tiltMin⟩ else none
    zoomRange :=
      if canAbsoluteZoom then some ⟨positionLimits.zoomMax, positionLimits.zoomMin⟩
      else if canContinuousZoom then some ⟨velocityLimits.zoomMax, velocityLimits.zoomMin⟩
      else none }

structure CameraConfig where
  name : String
  mock : Bool
  home : Position
  absoluteSpeed : Rat

def CameraConfig.hasHome (cfg : CameraConfig) : Bool := cfg.home.pan ≠ 0 ∨ cfg.home.tilt ≠ 0 ∨ cfg.home.zoom ≠ 0

structure CameraController where
  cfg : CameraConfig
  capabilities : PtzCapabilities
  spaces : PtzSpaces
  limits : PtzLimits
  velocity : PtzLimits

def mockCapabilities : PtzCapabilities where
  canAbsolutePanTilt := true
  canAbsoluteZoom := true
  canContinuousPanTilt := true
  canContinuousZoom := true
  canGoHome := true
  panRange := some ⟨1, -1⟩
  tiltRange := some ⟨1, -1⟩
  zoomRange := some ⟨1, 0⟩

/-- A controller as it is made, and after `ensureConnectedLocked` where the camera is no mock. -/
def connectedController (cfg : CameraConfig) (config : PTZConfiguration) (node : PTZNode) : CameraController :=
  if cfg.mock then ⟨cfg, mockCapabilities, {}, defaultPositionLimits, defaultVelocityLimits⟩
  else
    let spaces := spacesFromProfileAndNode config node
    let limits := positionLimitsFromProfileAndNode config node
    let velocity := velocityLimitsFromNode node
    ⟨cfg, buildCapabilities cfg.hasHome spaces limits velocity node.homeSupported, spaces, limits, velocity⟩

structure Vector2D where
  x : Rat
  y : Rat
  space : String := ""
deriving DecidableEq

structure Vector1D where
  x : Rat
  space : String := ""
deriving DecidableEq

structure PTZSpeed where
  panTilt : Option Vector2D
  zoom : Option Vector1D
deriving DecidableEq

structure AbsoluteMoveRequest where
  panTilt : Option Vector2D
  zoom : Option Vector1D
  speed : Option PTZSpeed
deriving DecidableEq

def absoluteMoveSpeed (speedValue : Rat) (capabilities : PtzCapabilities) : Option PTZSpeed :=
  let speed := clamp speedValue (1/20) 1
  let panTilt := if capabilities.canAbsolutePanTilt then some { x := speed, y := speed } else none
  let zoom := if capabilities.canAbsoluteZoom then some { x := speed } else none
  if panTilt = none ∧ zoom = none then none else some ⟨panTilt, zoom⟩

def zoomOnlyMoveSpeed (speedValue : Rat) (capabilities : PtzCapabilities) : Option PTZSpeed :=
  if !capabilities.canAbsoluteZoom then none
  else some ⟨none, some { x := clamp speedValue (1/20) 1 }⟩

/-- What `GetStatus` reads off the camera. -/
structure PTZStatus where
  panTilt : Vector2D
  zoom : Vector1D

def positionFromStatus (status : PTZStatus) : Position := ⟨status.panTilt.x, status.panTilt.y, status.zoom.x⟩

/-- What `SetPosition` does to the camera. -/
inductive Move where
  | mock (position : Position)
  | absolute (request : AbsoluteMoveRequest)
deriving DecidableEq

def setMockPosition (c : CameraController) (pan tilt zoom : Rat) : Position :=
  ⟨clamp pan c.limits.panMin c.limits.panMax, clamp tilt c.limits.tiltMin c.limits.tiltMax,
    clamp zoom c.limits.zoomMin c.limits.zoomMax⟩

/-- `SetPosition` up to the call of the camera. The status is read only where the camera lacks a move. -/
def setPosition (c : CameraController) (getStatus : Except String PTZStatus) (pan tilt zoom : Rat) :
    Except String Move := do
  if c.cfg.mock then return .mock (setMockPosition c pan tilt zoom)
  if !c.capabilities.canAbsolutePanTilt && !c.capabilities.canAbsoluteZoom then
    throw ("camera " ++ c.cfg.name ++ " does not support absolute PTZ moves on this ONVIF profile")
  let current ← if !c.capabilities.canAbsolutePanTilt || !c.capabilities.canAbsoluteZoom then
      match getStatus with
      | .ok status => pure (some status)
      | .error error => throw ("get PTZ status: " ++ error)
    else pure none
  let panTilt : Option Vector2D :=
    if c.capabilities.canAbsolutePanTilt then
      some ⟨clamp pan c.limits.panMin c.limits.panMax, clamp tilt c.limits.tiltMin c.limits.tiltMax,
        c.spaces.absolutePanTilt⟩
    else current.map fun status => ⟨status.panTilt.x, status.panTilt.y, c.spaces.absolutePanTilt⟩
  let zoomTo : Option Vector1D :=
    if c.capabilities.canAbsoluteZoom then
      some ⟨clamp zoom c.limits.zoomMin c.limits.zoomMax, c.spaces.absoluteZoom⟩
    else current.map fun status => ⟨status.zoom.x, c.spaces.absoluteZoom⟩
  let speed :=
    if panTilt = none ∧ zoomTo ≠ none then zoomOnlyMoveSpeed c.cfg.absoluteSpeed c.capabilities
    else absoluteMoveSpeed c.cfg.absoluteSpeed c.capabilities
  if panTilt = none ∧ zoomTo = none then
    throw ("camera " ++ c.cfg.name ++ " cannot accept the requested absolute PTZ move")
  return .absolute ⟨panTilt, zoomTo, speed⟩

/-- The pan and tilt, and the zoom, that the camera is told to go to. -/
def Move.panTilt : Move → Option (Rat × Rat)
  | .mock position => some (position.pan, position.tilt)
  | .absolute request => request.panTilt.map fun vector => (vector.x, vector.y)

def Move.zoom : Move → Option Rat
  | .mock position => some position.zoom
  | .absolute request => request.zoom.map (·.x)

section
variable {c : CameraController}

/-- An axis that the camera moves absolutely goes to the target in its range, the others stay. -/
theorem setPosition_ok (hmock : c.cfg.mock → c.capabilities.canAbsolutePanTilt ∧ c.capabilities.canAbsoluteZoom)
    (hmoves : c.capabilities.canAbsolutePanTilt ∨ c.capabilities.canAbsoluteZoom) (status : PTZStatus)
    (pan tilt zoom : Rat) :
    ∃ move, setPosition c (.ok status) pan tilt zoom = .ok move ∧
      move.panTilt = some (if c.capabilities.canAbsolutePanTilt then
        (clamp pan c.limits.panMin c.limits.panMax, clamp tilt c.limits.tiltMin c.limits.tiltMax)
        else ((positionFromStatus status).pan, (positionFromStatus status).tilt)) ∧
      move.zoom = some (if c.capabilities.canAbsoluteZoom then clamp zoom c.limits.zoomMin c.limits.zoomMax
        else (positionFromStatus status).zoom) := by
  cases hm : c.cfg.mock with
  | true =>
    obtain ⟨hpan, hzoom⟩ := hmock hm
    rw [if_pos hpan, if_pos hzoom]
    exact ⟨_, by rw [setPosition, if_pos hm]; rfl, rfl, rfl⟩
  | false =>
    cases hpan : c.capabilities.canAbsolutePanTilt with
    | true =>
      cases hzoom : c.capabilities.canAbsoluteZoom with
      | true => exact ⟨_, by simp [setPosition, hm, hpan, hzoom]; rfl, rfl, rfl⟩
      | false => exact ⟨_, by simp [setPosition, hm, hpan, hzoom]; rfl, rfl, rfl⟩
    | false =>
      cases hzoom : c.capabilities.canAbsoluteZoom with
      | true => exact ⟨_, by simp [setPosition, hm, hpan, hzoom]; rfl, rfl, rfl⟩
      | false =>
        rw [hpan, hzoom] at hmoves
        simp at hmoves

end

end Trakrai.PtzControl
