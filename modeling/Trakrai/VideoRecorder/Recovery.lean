import Trakrai.VideoRecorder.Recording

namespace Trakrai.VideoRecorder
open List hiding after
open Lib

/-- A call of `addFrame`, with what its file operations do. -/
structure Call where
  entry : FrameEntry
  io : Faults := {}

structure Recorder where
  buffer : CameraBuffer := newCameraBuffer
  window : Window := {}

def Recorder.call (limits : Limits) (r : Recorder) (c : Call) : Recorder :=
  match r.buffer.addFrame limits c.io c.entry with
  | (buffer, .ok true) => ⟨buffer, r.window.store limits c.entry⟩
  | (buffer, _) => ⟨buffer, r.window⟩

/-- The calls of `addFrame`, one after another. -/
def recorder (limits : Limits) : System Recorder Call :=
  .guarded (· = {}) (fun _ _ => True) (Recorder.call limits)

/-- The frames of a buffer are those of a window, and their bytes are in the segments. -/
structure Agrees (limits : Limits) (r : Recorder) (kept : List (BufferedFrame × FrameEntry)) :
    Prop where
  recorded : ∀ p ∈ kept, Recorded limits r.buffer p
  frames : r.buffer.frames = kept.map Prod.fst
  entries : r.window.entries = kept.map Prod.snd
  lastImageID : r.buffer.lastImageID = r.window.lastImageID

section
variable {limits : Limits} {r : Recorder} {c : Call}

theorem Agrees.evolves (h : Agrees limits r kept)
    (hevolves : Evolves limits r.buffer buffer) (hframes : buffer.frames = r.buffer.frames)
    (hlast : buffer.lastImageID = r.buffer.lastImageID) :
    Agrees limits ⟨buffer, r.window⟩ kept where
  recorded := fun p hp => hevolves.keeps p (h.recorded p hp)
  frames := hframes.trans h.frames
  entries := h.entries
  lastImageID := hlast.trans h.lastImageID

theorem Agrees.store (h : Agrees limits r kept)
    (hevolves : Evolves limits r.buffer buffer) (hlast : buffer.lastImageID = entry.imageID)
    (hframes : buffer.frames = retain limits BufferedFrame.timestamp BufferedFrame.size
      (entry.timestamp - limits.duration) (r.buffer.frames ++ [entry.frameAt path offset]))
    (hrecorded : Recorded limits buffer (entry.frameAt path offset, entry)) :
    ∃ kept', Agrees limits ⟨buffer, r.window.store limits entry⟩ kept' := by
  have hall : ∀ p ∈ kept ++ [(entry.frameAt path offset, entry)], Recorded limits buffer p := by
    intro p hp
    rcases mem_append.1 hp with hp | hp
    · exact hevolves.keeps p (h.recorded p hp)
    · rw [mem_singleton.1 hp]
      exact hrecorded
  refine ⟨retain limits (·.2.timestamp) (·.2.jpeg.length) (entry.timestamp - limits.duration)
    (kept ++ [(entry.frameAt path offset, entry)]), ?_, ?_, ?_, hlast⟩
  · intro p hp
    exact hall p (mem_of_mem_retain hp)
  · rw [hframes, h.frames, ← map_retain BufferedFrame.timestamp BufferedFrame.size
      (fun p hp => ⟨(hall p hp).timestamp, (hall p hp).size⟩), map_append]
    rfl
  · change retain _ _ _ _ (r.window.entries ++ [entry]) = _
    rw [h.entries, ← map_retain FrameEntry.timestamp (fun e => e.jpeg.length)
      (fun p _ => ⟨rfl, rfl⟩), map_append]
    rfl

/-- The calls after which a buffer is as it should be: an old segment can be closed and removed,
an empty segment that does not fit can be replaced, and a frame that is written is not written
behind the rest of a failed one. -/
structure Survivable (limits : Limits) (b : CameraBuffer) (c : Call) : Prop where
  manageable : isNew b.lastImageID c.entry = true → Manageable limits c.io b c.entry
  unspoilt : isNew b.lastImageID c.entry = true → c.io.writes c.entry.jpeg = true →
    Unspoilt limits b c.entry.jpeg

def Bounded (limits : Limits) (b : CameraBuffer) : Prop :=
  b.totalBytes ≤ limits.maxBytes ∧ b.frames.length ≤ limits.maxFrames

structure Intact (limits : Limits) (r : Recorder) : Prop where
  sound : Sound limits r.buffer
  agrees : ∃ kept, Agrees limits r kept
  bounded : Bounded limits r.buffer

theorem intact_initial (limits : Limits) : Intact limits {} :=
  ⟨sound_newCameraBuffer, ⟨[], nofun, rfl, rfl, rfl⟩, Int.natCast_nonneg _, Nat.zero_le _⟩

theorem Added.bounded (h : Added limits io b entry (after, .ok true)) : Bounded limits after := by
  obtain ⟨-, path, offset, hframes, -⟩ := h.taken rfl
  have hbounds := retain_bounds limits BufferedFrame.timestamp BufferedFrame.size
    (entry.timestamp - limits.duration) (b.frames ++ [entry.frameAt path offset])
  constructor
  · rw [h.evolves.sound.counted.total, hframes]
    exact Int.ofNat_le.2 hbounds.2
  · rw [hframes]
    exact hbounds.1

theorem Intact.call (h : Intact limits r) (hc : Survivable limits r.buffer c) :
    Intact limits (r.call limits c) := by
  obtain ⟨hsound, ⟨kept, hagrees⟩, hbounded⟩ := h
  unfold Recorder.call
  cases hnew : isNew r.buffer.lastImageID c.entry with
  | false =>
    rw [addFrame_of_not_isNew hnew]
    exact ⟨hsound, ⟨kept, hagrees⟩, hbounded⟩
  | true =>
    have hadded := hsound.addFrame hnew (hc.manageable hnew)
    have hrefused {buffer : CameraBuffer} (hframes : buffer.frames = r.buffer.frames)
        (hlast : buffer.lastImageID = r.buffer.lastImageID)
        (hevolves : Evolves limits r.buffer buffer) : Intact limits ⟨buffer, r.window⟩ := by
      refine ⟨hevolves.sound, ⟨kept, hagrees.evolves hevolves hframes hlast⟩, ?_, ?_⟩
      · rw [hevolves.sound.counted.total, hframes, ← hsound.counted.total]
        exact hbounded.1
      · rw [hframes]
        exact hbounded.2
    rcases hafter : r.buffer.addFrame limits c.io c.entry with ⟨buffer, error | taken⟩
    · rw [hafter] at hadded
      obtain ⟨hframes, hlast⟩ := hadded.refused nofun
      exact hrefused hframes hlast hadded.evolves
    · rw [hafter] at hadded
      cases taken with
      | false =>
        obtain ⟨hframes, hlast⟩ := hadded.refused nofun
        exact hrefused hframes hlast hadded.evolves
      | true =>
        obtain ⟨hlast, path, offset, hframes, hrecorded⟩ := hadded.taken rfl
        have hunspoilt := hc.unspoilt hnew (hadded.writes rfl)
        exact ⟨hadded.evolves.sound,
          hagrees.store hadded.evolves hlast hframes (hrecorded hunspoilt), hadded.bounded⟩

/-- Every frame reads back as it was added, and the totals are those of the frames. -/
structure Consistent (r : Recorder) : Prop where
  reads : r.buffer.frames.map r.buffer.readFrame = r.window.entries.map .ok
  totalBytes : r.buffer.totalBytes = (r.buffer.frames.map BufferedFrame.size).sum
  refs : ∀ path ∈ r.buffer.segments,
    (r.buffer.segment path).refs = r.buffer.frames.countP (·.segmentPath == path)

theorem Intact.consistent (h : Intact limits r) : Consistent r := by
  obtain ⟨kept, hagrees⟩ := h.agrees
  refine ⟨?_, h.sound.counted.total, h.sound.counted.refs⟩
  rw [hagrees.frames, hagrees.entries, map_map, map_map]
  apply map_congr_left
  intro p hp
  have hframe : p.1 ∈ r.buffer.frames := by
    rw [hagrees.frames]
    exact mem_map_of_mem hp
  simp only [Function.comp_apply, (hagrees.recorded p hp).readFrame_eq h.sound.stored,
    if_pos (h.sound.counted.located p.1 hframe)]

/-- Once the file operations work, the next frame is taken and the limits are kept. -/
def Recovers (limits : Limits) (b : CameraBuffer) : Prop :=
  ∀ entry, (∃ taken, (b.addFrame limits {} entry).2 = .ok taken) ∧
    Bounded limits (b.addFrame limits {} entry).1

theorem manageable_of_works (limits : Limits) (b : CameraBuffer) (entry : FrameEntry) :
    Manageable limits {} b entry :=
  ⟨fun _ _ => ⟨⟨rfl, rfl⟩, rfl⟩, fun _ _ _ _ => ⟨rfl, rfl⟩⟩

theorem Sound.addFrame_works (h : Sound limits b) (hnew : isNew b.lastImageID entry = true) :
    ∃ after, b.addFrame limits {} entry = (after, .ok true) ∧
      Added limits {} b entry (after, .ok true) := by
  have hadded := h.addFrame hnew (manageable_of_works limits b entry)
  have hok := hadded.succeeds rfl rfl
  have hafter : b.addFrame limits {} entry = ((b.addFrame limits {} entry).1, .ok true) :=
    Prod.ext rfl hok
  rw [hafter] at hadded
  exact ⟨_, hafter, hadded⟩

theorem Intact.recovers (h : Intact limits r) : Recovers limits r.buffer := by
  intro entry
  cases hnew : isNew r.buffer.lastImageID entry with
  | false =>
    rw [addFrame_of_not_isNew hnew]
    exact ⟨⟨false, rfl⟩, h.bounded⟩
  | true =>
    obtain ⟨after, hafter, hadded⟩ := h.sound.addFrame_works hnew
    rw [hafter]
    exact ⟨⟨true, rfl⟩, hadded.bounded⟩

/-- In every run whose calls are survivable, whatever fails on the way. -/
theorem survives_failures (hrun : (recorder limits).Run {} tr r)
    (hcalls : ∀ p ∈ tr, Survivable limits p.1.buffer p.2) :
    ∀ s ∈ states tr r, Consistent s ∧ Recovers limits s.buffer := by
  have hintact : ∀ s ∈ states tr r, Intact limits s := by
    apply hrun.forall_states (intact_initial limits)
    rintro p hp hs u ⟨-, rfl⟩
    exact hs.call (hcalls p hp)
  intro s hs
  exact ⟨(hintact s hs).consistent, (hintact s hs).recovers⟩

end

def sampleLimits : Limits where
  duration := 100
  maxBytes := 1000
  maxFrames := 10
  segmentMaxByte := 1000
  rootDir := "/buffer"

def blockedCalls : List Call :=
  [⟨⟨"a", 0, [1, 2]⟩, { openFails := fun _ => true }⟩, ⟨⟨"b", 1, [3, 4]⟩, {}⟩]

theorem survives_failures_blocked :
    ∃ tr r, (recorder sampleLimits).Run {} tr r ∧ tr.map Prod.snd = blockedCalls ∧
      r.window.entries = [⟨"b", 1, [3, 4]⟩] ∧
      ∀ s ∈ states tr r, Consistent s ∧ Recovers sampleLimits s.buffer := by
  have hrun : (recorder sampleLimits).Run {} (replay (Recorder.call sampleLimits) {} blockedCalls).1
      (replay (Recorder.call sampleLimits) {} blockedCalls).2 :=
    System.run_replay blockedCalls fun _ _ => trivial
  refine ⟨_, _, hrun, replay_labels _ _ _, rfl, survives_failures hrun ?_⟩
  intro p hp
  rcases mem_cons.1 hp with rfl | hp
  · exact ⟨fun _ => ⟨nofun, nofun⟩, fun _ _ => nofun⟩
  · rw [mem_singleton.1 hp]
    exact ⟨fun _ => ⟨nofun, nofun⟩, fun _ _ => nofun⟩

def spoiltCalls : List Call :=
  [⟨⟨"a", 0, [1, 2]⟩, { write := .short 1 }⟩, ⟨⟨"b", 1, [3, 4]⟩, {}⟩]

theorem not_consistent_after_short_write :
    ∃ tr r, (recorder sampleLimits).Run {} tr r ∧ tr.map Prod.snd = spoiltCalls ∧
      r.window.entries = [⟨"b", 1, [3, 4]⟩] ∧
      r.buffer.frames.map r.buffer.readFrame = [.ok ⟨"b", 1, [1, 3]⟩] ∧ ¬ Consistent r := by
  have hrun : (recorder sampleLimits).Run {} (replay (Recorder.call sampleLimits) {} spoiltCalls).1
      (replay (Recorder.call sampleLimits) {} spoiltCalls).2 :=
    System.run_replay spoiltCalls fun _ _ => trivial
  refine ⟨_, _, hrun, replay_labels _ _ _, rfl, rfl, ?_⟩
  intro h
  exact absurd h.reads (by decide)

/-- The calls of `addFrame` when no file operation fails. -/
def CameraBuffer.addFrames (limits : Limits) (b : CameraBuffer) (entries : List FrameEntry) :
    CameraBuffer :=
  entries.foldl (fun b entry => (b.addFrame limits {} entry).1) b

def Window.addFrames (limits : Limits) (window : Window) (entries : List FrameEntry) : Window :=
  entries.foldl (Window.addFrame limits) window

section
variable {limits : Limits} {r : Recorder}

theorem Intact.call_works (h : Intact limits r) (entry : FrameEntry) : r.call limits { entry } =
      ⟨(r.buffer.addFrame limits {} entry).1, r.window.addFrame limits entry⟩ := by
  obtain ⟨kept, hagrees⟩ := h.agrees
  unfold Recorder.call Window.addFrame
  rw [← hagrees.lastImageID]
  cases hnew : isNew r.buffer.lastImageID entry with
  | false =>
    rw [addFrame_of_not_isNew hnew]
    rfl
  | true =>
    obtain ⟨after, hafter, -⟩ := h.sound.addFrame_works hnew
    rw [hafter]
    rfl

theorem Sound.not_spoilt_addFrame (h : Sound limits b) (hspoilt : ∀ path, ¬ Spoilt b path)
    (entry : FrameEntry) (path : String) : ¬ Spoilt (b.addFrame limits {} entry).1 path := by
  cases hnew : isNew b.lastImageID entry with
  | false =>
    rw [addFrame_of_not_isNew hnew]
    exact hspoilt path
  | true =>
    obtain ⟨after, hafter, hadded⟩ := h.addFrame_works hnew
    rw [hafter]
    intro hpath
    exact hspoilt path (hadded.spoilt rfl path hpath)

theorem Intact.call_survivable (h : Intact limits r) (hspoilt : ∀ path, ¬ Spoilt r.buffer path)
    (entry : FrameEntry) : Intact limits (r.call limits { entry }) :=
  h.call ⟨fun _ => manageable_of_works limits r.buffer entry,
    fun _ _ => unspoilt_of_not_spoilt h.sound hspoilt entry.jpeg⟩

theorem Intact.addFrames (h : Intact limits r) (hspoilt : ∀ path, ¬ Spoilt r.buffer path)
    (entries : List FrameEntry) :
    Intact limits ⟨r.buffer.addFrames limits entries, r.window.addFrames limits entries⟩ := by
  induction entries generalizing r with
  | nil => exact h
  | cons entry entries ih =>
    have hcall := h.call_survivable hspoilt entry
    rw [h.call_works] at hcall
    exact ih hcall (h.sound.not_spoilt_addFrame hspoilt entry)

end

/-- The totals, the counts, the files and the bytes of a buffer are those of its frames. -/
structure Integrity (limits : Limits) (b : CameraBuffer) (window : Window) : Prop where
  totalBytes : b.totalBytes = (b.frames.map BufferedFrame.size).sum
  maxBytes : b.totalBytes ≤ limits.maxBytes
  maxFrames : b.frames.length ≤ limits.maxFrames
  refs : ∀ path ∈ b.segments, (b.segment path).refs = b.frames.countP (·.segmentPath == path)
  used : ∀ path ∈ b.segments, b.activeSegment ≠ some path → 0 < (b.segment path).refs
  files : ∀ path, (b.files path).isSome = true ↔
    b.activeSegment = some path ∨ path ∈ b.segments ∧ 0 < (b.segment path).refs
  reads : b.frames.map b.readFrame = window.entries.map .ok

/-- After any frames, when no file operation fails. -/
theorem buffer_integrity (limits : Limits) (entries : List FrameEntry) :
    Integrity limits (newCameraBuffer.addFrames limits entries)
      (Window.addFrames limits {} entries) := by
  have hnew : ∀ path, ¬ Spoilt newCameraBuffer path := by
    rintro path ⟨content, hfile, -⟩
    cases hfile
  have hintact := (intact_initial limits).addFrames hnew entries
  have hsound := hintact.sound
  refine ⟨hsound.counted.total, hintact.bounded.1, hintact.bounded.2, hsound.counted.refs,
    hsound.used, ?_, hintact.consistent.reads⟩
  intro path
  rw [hsound.stored.files]
  constructor
  · intro hmem
    by_cases hactive : (newCameraBuffer.addFrames limits entries).activeSegment = some path
    · exact .inl hactive
    · exact .inr ⟨hmem, hsound.used path hmem hactive⟩
  · intro h
    rcases h with hactive | ⟨hmem, -⟩
    · exact hsound.active path hactive
    · exact hmem

end Trakrai.VideoRecorder
