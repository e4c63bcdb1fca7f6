import Mathlib.Logic.Function.Basic
import Trakrai.Lib.GoPath

namespace Trakrai.VideoRecorder
open Lib

abbrev Bytes := List UInt8

structure FrameEntry where
  imageID : String
  /-- Nanoseconds. -/
  timestamp : Int
  jpeg : Bytes
deriving DecidableEq

structure BufferedFrame where
  imageID : String
  timestamp : Int
  segmentPath : String
  offset : Nat
  size : Nat
deriving DecidableEq

/-- A segment with its file handle: whether it is closed, and where it writes next. -/
structure SegmentFile where
  path : String
  refs : Int := 0
  size : Nat := 0
  closed : Bool := false
  position : Nat := 0

/-- The settings of a camera buffer. -/
structure Limits where
  duration : Int
  maxBytes : Nat
  maxFrames : Nat
  segmentMaxByte : Nat
  rootDir : String

/-- `cameraBuffer`, with the files of its directory. A `*segmentFile` is the path of the segment:
no path is used twice. -/
structure CameraBuffer where
  activeSegment : Option String := none
  frames : List BufferedFrame := []
  lastImageID : String := ""
  nextSegmentID : Nat := 0
  /-- The keys of the map `segments`. -/
  segments : List String := []
  segment : String → SegmentFile := fun path => { path }
  totalBytes : Int := 0
  files : String → Option Bytes := fun _ => none

inductive WriteOutcome where
  | full
  | short (written : Nat)
  | failed (written : Nat)

/-- How the file operations of one call end. -/
structure Faults where
  openFails : String → Bool := fun _ => false
  closeFails : String → Bool := fun _ => false
  removeFails : String → Bool := fun _ => false
  write : WriteOutcome := .full

/-- `%06d`. -/
def sixDigits (n : Nat) : List Char :=
  List.replicate (6 - (Nat.toDigits 10 n).length) '0' ++ Nat.toDigits 10 n

def segmentName (id : Nat) : String :=
  "segment-" ++ String.ofList (sixDigits id) ++ ".bin"

def Limits.segmentPath (limits : Limits) (id : Nat) : String := goJoin limits.rootDir (segmentName id)

def writeAt (content : Bytes) (position : Nat) (data : Bytes) : Bytes :=
  content.take position ++ List.replicate (position - content.length) 0 ++ data ++
    content.drop (position + data.length)

namespace CameraBuffer

section
variable (b : CameraBuffer)

def setSegment (path : String) (segment : SegmentFile) : CameraBuffer :=
  { b with segment := Function.update b.segment path segment }

def setFile (path : String) (content : Option Bytes) : CameraBuffer :=
  { b with files := Function.update b.files path content }

/-- `Close` of the handle of a segment. A handle cannot be closed twice. -/
def close (io : Faults) (path : String) : CameraBuffer × Bool :=
  (b.setSegment path { b.segment path with closed := true },
    !(b.segment path).closed && !io.closeFails path)

/-- `os.Remove`; that the file does not exist is no failure. -/
def remove (io : Faults) (path : String) : CameraBuffer × Bool :=
  if io.removeFails path then (b, false) else (b.setFile path none, true)

def append (path : String) (data : Bytes) : CameraBuffer :=
  let segment := b.segment path
  (b.setFile path ((b.files path).map (writeAt · segment.position data))).setSegment path
    { segment with position := segment.position + data.length }

/-- `Write` to the handle of a segment: the bytes written, unless it fails. -/
def write (io : Faults) (path : String) (data : Bytes) : CameraBuffer × Option Nat :=
  if (b.segment path).closed then (b, none)
  else
    match io.write with
    | .full => (b.append path data, some data.length)
    | .short written => (b.append path (data.take written), some (data.take written).length)
    | .failed written => (b.append path (data.take written), none)

/-- The file of a segment is closed and removed, and the segment forgotten. -/
def discard (io : Faults) (kind path : String) : CameraBuffer × Except String Unit :=
  match b.close io path with
  | (b, false) => (b, .error ("close " ++ kind ++ " segment"))
  | (b, true) =>
    match b.remove io path with
    | (b, false) => (b, .error ("remove " ++ kind ++ " segment"))
    | (b, true) => ({ b with segments := b.segments.erase path }, .ok ())

def fits (limits : Limits) (b : CameraBuffer) (frameSize : Nat) (path : String) : Bool :=
  (b.segment path).size + frameSize ≤ limits.segmentMaxByte

def createSegment (limits : Limits) (io : Faults) (b : CameraBuffer) :
    CameraBuffer × Except String String :=
  let path := limits.segmentPath b.nextSegmentID
  let b := { b with nextSegmentID := b.nextSegmentID + 1 }
  if io.openFails path then (b, .error "create segment file")
  else
    let b := (b.setFile path (some [])).setSegment path { path }
    ({ b with segments := path :: b.segments.erase path, activeSegment := some path }, .ok path)

def ensureActiveSegmentLocked (limits : Limits) (io : Faults) (b : CameraBuffer) (frameSize : Nat) :
    CameraBuffer × Except String String :=
  match b.activeSegment with
  | none => b.createSegment limits io
  | some path =>
    if b.fits limits frameSize path then (b, .ok path)
    else if (b.segment path).refs ≤ 0 then
      match b.discard io "rotated" path with
      | (b, .error error) => (b, .error error)
      | (b, .ok ()) => b.createSegment limits io
    else b.createSegment limits io

/-- The segment of a frame that goes has one frame less. -/
def release (io : Faults) (b : CameraBuffer) (path : String) : CameraBuffer × Except String Unit :=
  if path ∈ b.segments then
    let b := b.setSegment path { b.segment path with refs := (b.segment path).refs - 1 }
    if (b.segment path).refs ≤ 0 ∧ b.activeSegment ≠ some path then b.discard io "pruned" path
    else (b, .ok ())
  else (b, .ok ())

/-- The loop of `pruneLocked`, on the frames that are left. -/
def pruneFrom (limits : Limits) (io : Faults) (cutoff : Int) (b : CameraBuffer) :
    List BufferedFrame → CameraBuffer × Except String Unit
  | [] => (b, .ok ())
  | first :: rest =>
    if ¬ first.timestamp < cutoff ∧ rest.length + 1 ≤ limits.maxFrames ∧
        b.totalBytes ≤ limits.maxBytes then
      (b, .ok ())
    else
      match b.release io first.segmentPath with
      | (b, .error error) => (b, .error error)
      | (b, .ok ()) =>
        pruneFrom limits io cutoff { b with totalBytes := b.totalBytes - first.size, frames := rest }
          rest

def pruneLocked (limits : Limits) (io : Faults) (b : CameraBuffer) (now : Int) :
    CameraBuffer × Except String Unit :=
  b.pruneFrom limits io (now - limits.duration) b.frames

def keep (path : String) (offset : Nat) (entry : FrameEntry) : CameraBuffer :=
  let segment := b.segment path
  let b := b.setSegment path
    { segment with size := segment.size + entry.jpeg.length, refs := segment.refs + 1 }
  { b with
    frames := b.frames ++ [⟨entry.imageID, entry.timestamp, path, offset, entry.jpeg.length⟩]
    totalBytes := b.totalBytes + entry.jpeg.length
    lastImageID := entry.imageID }

def addFrame (limits : Limits) (io : Faults) (b : CameraBuffer) (entry : FrameEntry) :
    CameraBuffer × Except String Bool :=
  if entry.imageID = "" ∨ entry.jpeg.length = 0 then (b, .ok false)
  else if entry.imageID = b.lastImageID then (b, .ok false)
  else
    match b.ensureActiveSegmentLocked limits io entry.jpeg.length with
    | (b, .error error) => (b, .error error)
    | (b, .ok path) =>
      let offset := (b.segment path).size
      match b.write io path entry.jpeg with
      | (b, none) => (b, .error "append frame to segment")
      | (b, some written) =>
        if written ≠ entry.jpeg.length then
          (b, .error ("append frame to segment: short write " ++ toString written ++ "/" ++
            toString entry.jpeg.length))
        else
          match (b.keep path offset entry).pruneLocked limits io entry.timestamp with
          | (b, .error error) => (b, .error error)
          | (b, .ok ()) => (b, .ok true)

def readFrame (frame : BufferedFrame) : Except String FrameEntry :=
  match b.files frame.segmentPath with
  | none => .error "open segment"
  | some content =>
    if frame.offset + frame.size ≤ content.length then
      .ok ⟨frame.imageID, frame.timestamp, (content.drop frame.offset).take frame.size⟩
    else .error "read frame bytes"

end

end CameraBuffer

/-- `newCameraBuffer`, once the directory has been emptied. -/
def newCameraBuffer : CameraBuffer := {}

end Trakrai.VideoRecorder
