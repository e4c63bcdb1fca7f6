import Trakrai.VideoRecorder.Pruning

namespace Trakrai.VideoRecorder
open List hiding after
open Bool Option Lib

def Faults.writes (io : Faults) (data : Bytes) : Bool :=
  match io.write with
  | .full => true
  | .short written => data.length ≤ written
  | .failed _ => false

/-- What stands in the file behind the size of the segment does not get in the way of the data. -/
def Aligned (b : CameraBuffer) (path : String) (data : Bytes) : Prop :=
  ∀ content, b.files path = some content →
    slice (content ++ data) (b.segment path).size data.length = data

section
variable {limits : Limits} {b : CameraBuffer} {io : Faults}

theorem Sound.write (h : Sound limits b) (io : Faults) (hpath : path ∈ b.segments) (data : Bytes) :
    (io.writes data = true ∧ b.write io path data = (b.append path data, some data.length)) ∨
      (io.writes data = false ∧ ∃ part outcome, b.write io path data = (b.append path part, outcome) ∧
        outcome ≠ some data.length) := by
  obtain ⟨content, hfile⟩ := h.stored.content_of_mem hpath
  have hopen := (h.stored.handle path content hfile).1
  unfold CameraBuffer.write Faults.writes
  simp only [hopen, false_eq_true, if_false]
  cases io.write with
  | full => exact .inl ⟨rfl, rfl⟩
  | short written =>
    by_cases hlength : data.length ≤ written
    · left
      simp [hlength, take_of_length_le hlength]
    · right
      refine ⟨by simpa using hlength, data.take written, _, rfl, ?_⟩
      simp only [length_take, ne_eq, some.injEq]
      omega
  | failed written => exact .inr ⟨rfl, data.take written, none, rfl, by rintro ⟨⟩⟩

theorem keep_of_ne (hq : q ≠ path) : (b.keep path offset entry).segment q = b.segment q := by
  simp [CameraBuffer.keep, CameraBuffer.setSegment, hq]

theorem keep_self : (b.keep path offset entry).segment path = { b.segment path with
    size := (b.segment path).size + entry.jpeg.length, refs := (b.segment path).refs + 1 } := by
  simp [CameraBuffer.keep, CameraBuffer.setSegment]

theorem Counted.keep (h : Counted b) (hpath : path ∈ b.segments) (offset : Nat) (entry : FrameEntry) :
    Counted (b.keep path offset entry) where
  total := by
    have htotal := h.total
    simp only [CameraBuffer.keep, CameraBuffer.setSegment, map_append, sum_append,
      map_cons, map_nil, sum_singleton]
    omega
  refs := by
    intro q hq
    have hrefs := h.refs q hq
    simp only [CameraBuffer.keep, CameraBuffer.setSegment, countP_append, countP_singleton]
    by_cases hne : q = path
    · subst hne
      simp only [Function.update_self, beq_self_eq_true, if_true]
      omega
    · simp only [Function.update_of_ne hne, beq_eq_false_iff_ne.2 (Ne.symm hne),
        false_eq_true, if_false]
      omega
  located := by
    intro frame hframe
    rcases mem_append.1 hframe with hframe | hframe
    · exact h.located frame hframe
    · rw [mem_singleton.1 hframe]
      exact hpath

theorem Sound.keep (h : Sound limits b) (hactive : b.activeSegment = some path)
    (hfile : b.files path = some content)
    (hlength : (b.segment path).size + entry.jpeg.length ≤ content.length) :
    Evolves limits b (b.keep path (b.segment path).size entry) := by
  have hpath := h.active path hactive
  constructor
  case sound =>
    refine ⟨⟨h.stored.nodup, h.stored.files, ?_, h.stored.numbered⟩, h.counted.keep hpath _ _,
      h.active, ?_⟩
    · intro q content' hfile'
      by_cases hq : q = path
      · subst hq
        obtain rfl : content = content' := some.inj (hfile.symm.trans hfile')
        obtain ⟨hopen, hposition, -⟩ := h.stored.handle q content hfile
        rw [keep_self]
        exact ⟨hopen, hposition, hlength⟩
      · rw [keep_of_ne hq]
        exact h.stored.handle q content' hfile'
    · intro q hq hne
      have hqpath : q ≠ path := by
        rintro rfl
        exact hne hactive
      rw [keep_of_ne hqpath]
      exact h.used q hq hne
  case keeps =>
    intro p hp
    refine hp.of_sizes rfl rfl ?_
    intro q
    by_cases hq : q = path
    · rw [hq, keep_self]
      exact Nat.le_add_right _ _
    · rw [keep_of_ne hq]

def FrameEntry.frameAt (entry : FrameEntry) (path : String) (offset : Nat) : BufferedFrame :=
  ⟨entry.imageID, entry.timestamp, path, offset, entry.jpeg.length⟩

theorem Sound.recorded_keep (h : Sound limits b) (hactive : b.activeSegment = some path)
    (hslice : ∀ content, b.files path = some content →
      slice content (b.segment path).size entry.jpeg.length = entry.jpeg) :
    Recorded limits (b.keep path (b.segment path).size entry)
      (entry.frameAt path (b.segment path).size, entry) where
  numbered := h.stored.numbered path (h.active path hactive)
  imageID := rfl
  timestamp := rfl
  size := rfl
  content := by
    intro content hfile
    constructor
    · rw [show (entry.frameAt path (b.segment path).size, entry).1.segmentPath = path from rfl,
        keep_self]
      exact Nat.le_refl _
    · exact hslice content hfile

/-- Where the frame goes, nothing gets in its way. -/
def Unspoilt (limits : Limits) (b : CameraBuffer) (data : Bytes) : Prop :=
  ∀ path, b.activeSegment = some path → b.fits limits data.length path = true → Aligned b path data

theorem Prepared.aligned (h : Prepared limits io b data.length after) (hok : after.2 = .ok path)
    (hspoilt : Unspoilt limits b data) : Aligned after.1 path data := by
  rcases h.position path hok with ⟨hsame, hfits⟩ | ⟨-, hposition⟩
  · rw [hsame]
    apply hspoilt path _ hfits
    rw [← hsame]
    exact h.active path hok
  · intro content hfile
    have hlength := (h.evolves.sound.stored.handle path content hfile).2.1
    rw [← hposition, hlength]
    exact slice_length_append content data

theorem unspoilt_of_not_spoilt (h : Sound limits b) (hspoilt : ∀ path, ¬ Spoilt b path)
    (data : Bytes) : Unspoilt limits b data := by
  intro path _ _ content hfile
  have hle := (h.stored.handle path content hfile).2.2
  have hsize : (b.segment path).size = content.length := by
    by_contra hne
    exact hspoilt path ⟨content, hfile, Nat.lt_of_le_of_ne hle hne⟩
  rw [hsize]
  exact slice_length_append content data

structure Added (limits : Limits) (io : Faults) (b : CameraBuffer) (entry : FrameEntry)
    (after : CameraBuffer × Except String Bool) : Prop where
  evolves : Evolves limits b after.1
  refused : after.2 ≠ .ok true → after.1.frames = b.frames ∧ after.1.lastImageID = b.lastImageID
  taken : after.2 = .ok true → after.1.lastImageID = entry.imageID ∧ ∃ path offset,
    after.1.frames = retain limits BufferedFrame.timestamp BufferedFrame.size
      (entry.timestamp - limits.duration) (b.frames ++ [entry.frameAt path offset]) ∧
    (Unspoilt limits b entry.jpeg → Recorded limits after.1 (entry.frameAt path offset, entry))
  spoilt : after.2 = .ok true → ∀ path, Spoilt after.1 path → Spoilt b path
  writes : after.2 = .ok true → io.writes entry.jpeg = true
  succeeds : io.openFails (limits.segmentPath b.nextSegmentID) = false →
    io.writes entry.jpeg = true → after.2 = .ok true

theorem Prepared.keep (h : Prepared limits io b entry.jpeg.length (c, .ok path))
    (hwrites : io.writes entry.jpeg = true)
    (hprunable : Prunable limits io (entry.timestamp - limits.duration)
      ((c.append path entry.jpeg).keep path (c.segment path).size entry)) :
    ∃ d, ((c.append path entry.jpeg).keep path (c.segment path).size entry).pruneLocked limits io
        entry.timestamp = (d, .ok ()) ∧ Added limits io b entry (d, .ok true) := by
  have hactive : c.activeSegment = some path := h.active path rfl
  have hsound : Sound limits c := h.evolves.sound
  have hpath := hsound.active path hactive
  obtain ⟨content, hfile⟩ := hsound.stored.content_of_mem hpath
  have happend := hsound.append hpath entry.jpeg
  obtain ⟨hfiles, hsegment⟩ := hsound.stored.append_self hfile entry.jpeg
  have hsize : ((c.append path entry.jpeg).segment path).size = (c.segment path).size := by
    rw [hsegment]
  have hlength := (hsound.stored.handle path content hfile).2.2
  have hkeep : Evolves limits (c.append path entry.jpeg)
      ((c.append path entry.jpeg).keep path (c.segment path).size entry) := by
    rw [← hsize]
    apply happend.sound.keep hactive hfiles
    rw [hsize, length_append]
    omega
  have hspoilt {q : String} (hq : Spoilt
      ((c.append path entry.jpeg).keep path (c.segment path).size entry) q) : Spoilt c q := by
    by_cases hne : q = path
    · subst hne
      obtain ⟨content', hfile', hlt⟩ := hq
      obtain rfl : content ++ entry.jpeg = content' := some.inj (hfiles.symm.trans hfile')
      rw [keep_self, hsegment, length_append] at hlt
      exact ⟨content, hfile, Nat.lt_of_add_lt_add_right hlt⟩
    · apply hq.of_eq
      · exact (append_of_ne hne entry.jpeg).1
      · rw [keep_of_ne hne, (append_of_ne hne entry.jpeg).2]
  have hpruned := hkeep.sound.pruneFrom (entry.timestamp - limits.duration) rfl
    hprunable
  refine ⟨_, Prod.ext rfl hpruned.ok, (h.evolves.trans happend).trans (hkeep.trans hpruned.evolves),
    fun hne => (hne rfl).elim, fun _ => ⟨hpruned.lastImageID, path, (c.segment path).size, ?_, ?_⟩,
    fun _ q hq => h.spoilt q (hspoilt (hpruned.spoilt q hq)), fun _ => hwrites, fun _ _ => rfl⟩
  · rw [show b.frames = c.frames from h.frames.symm]
    exact hpruned.frames
  · intro hspoilt
    apply hpruned.evolves.keeps
    rw [← hsize]
    apply happend.sound.recorded_keep hactive
    intro content' hfile'
    obtain rfl : content ++ entry.jpeg = content' := some.inj (hfiles.symm.trans hfile')
    rw [hsize]
    exact h.aligned rfl hspoilt content hfile

def Vacates (limits : Limits) (b : CameraBuffer) (entry : FrameEntry) (path : String) : Prop :=
  ∀ frame ∈ (retain limits BufferedFrame.timestamp BufferedFrame.size
    (entry.timestamp - limits.duration) (b.frames ++ [entry.frameAt path 0])).dropLast,
    frame.segmentPath ≠ path

/-- The file operations that a call has to make in order to get rid of a segment work. -/
structure Manageable (limits : Limits) (io : Faults) (b : CameraBuffer) (entry : FrameEntry) :
    Prop where
  replaces : ∀ path, Replaces limits b entry.jpeg.length path →
    io.discards path ∧ io.openFails (limits.segmentPath b.nextSegmentID) = false
  vacates : ∀ path ∈ b.segments,
    (b.activeSegment = some path → b.fits limits entry.jpeg.length path = false) →
      Vacates limits b entry path → io.discards path

theorem addFrame_of_not_isNew (h : isNew b.lastImageID entry = false) :
    b.addFrame limits io entry = (b, .ok false) := by
  simp only [isNew, and_eq_false_iff, bne_eq_false_iff_eq] at h
  unfold CameraBuffer.addFrame
  rcases h with (h | h) | h
  · rw [if_pos (.inl h)]
  · rw [if_pos (.inr h)]
  · rw [if_pos h, ite_self]

theorem Sound.addFrame (h : Sound limits b) (hnew : isNew b.lastImageID entry = true)
    (hmanageable : Manageable limits io b entry) :
    Added limits io b entry (b.addFrame limits io entry) := by
  simp only [isNew, and_eq_true, bne_iff_ne] at hnew
  obtain ⟨⟨hid, hjpeg⟩, hlast⟩ := hnew
  unfold CameraBuffer.addFrame
  rw [if_neg (not_or.2 ⟨hid, hjpeg⟩), if_neg hlast]
  have hprepared := h.ensureActiveSegmentLocked hmanageable.replaces
  rcases hafter : b.ensureActiveSegmentLocked limits io entry.jpeg.length with ⟨c, error | path⟩
  · rw [hafter] at hprepared
    refine ⟨hprepared.evolves, fun _ => ⟨hprepared.frames, hprepared.lastImageID⟩, nofun, nofun, nofun, ?_⟩
    intro hopen
    obtain ⟨path, hok⟩ := hprepared.succeeds hopen
    cases hok
  · rw [hafter] at hprepared
    have hactive : c.activeSegment = some path := hprepared.active path rfl
    have hsound := hprepared.evolves.sound
    have hpath := hsound.active path hactive
    have hprunable : Prunable limits io (entry.timestamp - limits.duration)
        ((c.append path entry.jpeg).keep path (c.segment path).size entry) := by
      intro q hq hne hvacated
      rcases hprepared.segments q hq with hq | hq
      · have hrotated : b.activeSegment = some q → b.fits limits entry.jpeg.length q = false := by
          rcases hprepared.position path rfl with ⟨hsame, -⟩ | ⟨hrotated, -⟩
          · obtain rfl : c = b := hsame
            exact fun hq => (hne hq).elim
          · exact hrotated q
        apply hmanageable.vacates q hq hrotated
        intro frame hframe
        rw [retain_dropLast (entry.frameAt q 0) (entry.frameAt path (c.segment path).size) rfl rfl,
          ← hprepared.frames] at hframe
        exact hvacated frame (dropLast_subset _ hframe)
      · exact (hne hq).elim
    rcases hsound.write io hpath entry.jpeg with
      ⟨hwrites, hwrite⟩ | ⟨hfails, part, outcome, hwrite, hne⟩
    · obtain ⟨d, hpruned, hadded⟩ := hprepared.keep hwrites hprunable
      simp only [hwrite, ne_eq, not_true_eq_false, if_false, hpruned]
      exact hadded
    · have hrefused (error : String) :
          Added limits io b entry (c.append path part, .error error) := by
        refine ⟨hprepared.evolves.trans (hsound.append hpath part),
          fun _ => ⟨hprepared.frames, hprepared.lastImageID⟩, nofun, nofun, nofun, ?_⟩
        intro _ hwrites
        rw [hfails] at hwrites
        cases hwrites
      cases outcome with
      | none =>
        simp only [hwrite]
        exact hrefused _
      | some written =>
        have hshort : written ≠ entry.jpeg.length := fun heq => hne (congrArg some heq)
        simp only [hwrite, hshort, ne_eq, not_false_eq_true, if_true]
        exact hrefused _

end

end Trakrai.VideoRecorder
