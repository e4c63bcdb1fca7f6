import Trakrai.VideoRecorder.Integrity

namespace Trakrai.VideoRecorder
open List hiding after
open Lib

section
variable {limits : Limits} {b : CameraBuffer} {io : Faults}

theorem Recorded.of_sizes (h : Recorded limits b p)
    (hfiles : after.files = b.files) (hnext : after.nextSegmentID = b.nextSegmentID)
    (hsizes : ∀ path, (b.segment path).size ≤ (after.segment path).size) :
    Recorded limits after p := by
  apply h.later (Nat.le_of_eq hnext.symm)
  intro content hfile
  rw [hfiles] at hfile
  obtain ⟨hsize, hslice⟩ := h.content content hfile
  exact ⟨Nat.le_trans hsize (hsizes _), hslice⟩

def CameraBuffer.dropFirst (b : CameraBuffer) (first : BufferedFrame) (rest : List BufferedFrame) :
    CameraBuffer :=
  { b.setSegment first.segmentPath
      { b.segment first.segmentPath with refs := (b.segment first.segmentPath).refs - 1 } with
    totalBytes := b.totalBytes - first.size
    frames := rest }

theorem dropFirst_of_ne (hq : q ≠ first.segmentPath) :
    (b.dropFirst first rest).segment q = b.segment q := by
  simp [CameraBuffer.dropFirst, CameraBuffer.setSegment, hq]

theorem dropFirst_self (b : CameraBuffer) (first : BufferedFrame) (rest : List BufferedFrame) :
    (b.dropFirst first rest).segment first.segmentPath =
      { b.segment first.segmentPath with refs := (b.segment first.segmentPath).refs - 1 } := by
  simp [CameraBuffer.dropFirst, CameraBuffer.setSegment]

theorem dropFirst_segment (b : CameraBuffer) (first : BufferedFrame) (rest : List BufferedFrame)
    (q : String) :
    ((b.dropFirst first rest).segment q).closed = (b.segment q).closed ∧
      ((b.dropFirst first rest).segment q).position = (b.segment q).position ∧
      ((b.dropFirst first rest).segment q).size = (b.segment q).size := by
  by_cases hq : q = first.segmentPath
  · rw [hq, dropFirst_self]
    exact ⟨rfl, rfl, rfl⟩
  · rw [dropFirst_of_ne hq]
    exact ⟨rfl, rfl, rfl⟩

theorem Spoilt.of_dropFirst {first : BufferedFrame} (rest : List BufferedFrame)
    (h : Spoilt (b.setSegment first.segmentPath
      { b.segment first.segmentPath with refs := (b.segment first.segmentPath).refs - 1 }) q) :
    Spoilt b q :=
  h.of_eq rfl (dropFirst_segment b first rest q).2.2

theorem Stored.dropFirst (h : Stored limits b) (first : BufferedFrame) (rest : List BufferedFrame) :
    Stored limits (b.dropFirst first rest) where
  nodup := h.nodup
  files := h.files
  handle := by
    intro q content hfile
    obtain ⟨hclosed, hposition, hsize⟩ := dropFirst_segment b first rest q
    rw [hclosed, hposition, hsize]
    exact h.handle q content hfile
  numbered := h.numbered

theorem Counted.dropFirst (h : Counted b) (hframes : b.frames = first :: rest) :
    Counted (b.dropFirst first rest) where
  total := by
    have htotal := h.total
    rw [hframes, map_cons, sum_cons] at htotal
    change b.totalBytes - first.size = ((rest.map BufferedFrame.size).sum : Nat)
    omega
  refs := by
    intro q hq
    have hrefs := h.refs q hq
    rw [hframes, countP_cons] at hrefs
    change _ = (List.countP (fun frame => frame.segmentPath == q) rest : Int)
    by_cases hne : q = first.segmentPath
    · subst hne
      have hself := congrArg SegmentFile.refs (dropFirst_self b first rest)
      simp only [beq_self_eq_true, if_true] at hrefs hself
      omega
    · rw [dropFirst_of_ne hne]
      simpa [Ne.symm hne] using hrefs
  located := by
    intro frame hframe
    apply h.located frame
    rw [hframes]
    exact mem_cons_of_mem _ hframe

theorem Recorded.dropFirst (h : Recorded limits b p) (first : BufferedFrame)
    (rest : List BufferedFrame) : Recorded limits (b.dropFirst first rest) p := by
  have hsizes : ∀ q, (b.segment q).size ≤ ((b.dropFirst first rest).segment q).size := by
    intro q
    exact Nat.le_of_eq (dropFirst_segment b first rest q).2.2.symm
  exact h.of_sizes rfl rfl hsizes

/-- The first frame goes, with its segment if nothing else lies in that. -/
structure Released (limits : Limits) (b after : CameraBuffer) (first : BufferedFrame)
    (rest : List BufferedFrame) : Prop where
  evolves : Evolves limits b { after with totalBytes := after.totalBytes - first.size, frames := rest }
  lastImageID : after.lastImageID = b.lastImageID
  activeSegment : after.activeSegment = b.activeSegment
  segments : ∀ path ∈ after.segments, path ∈ b.segments
  spoilt : ∀ path, Spoilt after path → Spoilt b path

/-- The segments that pruning leaves without a frame can be closed and removed. -/
def Prunable (limits : Limits) (io : Faults) (cutoff : Int) (b : CameraBuffer) : Prop :=
  ∀ path ∈ b.segments, b.activeSegment ≠ some path →
    (∀ frame ∈ retain limits BufferedFrame.timestamp BufferedFrame.size cutoff b.frames,
      frame.segmentPath ≠ path) → io.discards path

theorem Sound.release (h : Sound limits b) (hframes : b.frames = first :: rest)
    (hdiscards : b.activeSegment ≠ some first.segmentPath →
      (∀ frame ∈ rest, frame.segmentPath ≠ first.segmentPath) → io.discards first.segmentPath) :
    ∃ after, b.release io first.segmentPath = (after, .ok ()) ∧
      Released limits b after first rest := by
  have hpath : first.segmentPath ∈ b.segments := by
    apply h.counted.located
    rw [hframes]
    exact mem_cons_self ..
  have hcounted := h.counted.dropFirst hframes
  have hstored := h.stored.dropFirst first rest
  have hused : ∀ q ∈ b.segments, q ≠ first.segmentPath → b.activeSegment ≠ some q →
      0 < ((b.dropFirst first rest).segment q).refs := by
    intro q hq hne hactive
    rw [dropFirst_of_ne hne]
    exact h.used q hq hactive
  unfold CameraBuffer.release
  rw [if_pos hpath]
  by_cases hlast : ((b.dropFirst first rest).segment first.segmentPath).refs ≤ 0 ∧
      b.activeSegment ≠ some first.segmentPath
  · -- the segment goes with its last frame
    have hfree : ∀ frame ∈ rest, frame.segmentPath ≠ first.segmentPath := by
      intro frame hframe heq
      have hrefs := hcounted.refs first.segmentPath hpath
      have hpos : 0 < rest.countP (·.segmentPath == first.segmentPath) :=
        countP_pos_iff.2 ⟨frame, hframe, beq_iff_eq.2 heq⟩
      have hcount : (b.dropFirst first rest).frames.countP (·.segmentPath == first.segmentPath) =
        rest.countP (·.segmentPath == first.segmentPath) := rfl
      omega
    obtain ⟨hclose, hremove⟩ := hdiscards hlast.2 hfree
    have hunref : Stored limits (b.setSegment first.segmentPath
        { b.segment first.segmentPath with refs := (b.segment first.segmentPath).refs - 1 }) :=
      ⟨hstored.nodup, hstored.files, hstored.handle, hstored.numbered⟩
    have hdiscard := hunref.discard hpath hclose hremove "pruned"
    refine ⟨_, (if_pos hlast).trans hdiscard, ?_, rfl, rfl, fun q hq => mem_of_mem_erase hq,
      fun q hq => hq.of_forget.of_dropFirst rest⟩
    have hforget := hcounted.forget hfree hstored.nodup
    refine ⟨⟨hstored.forget first.segmentPath, hforget, ?_, ?_⟩, ?_⟩
    · intro q hactive
      have hne : q ≠ first.segmentPath := by
        rintro rfl
        exact hlast.2 hactive
      exact (mem_erase_of_ne hne).2 (h.active q hactive)
    · intro q hq hactive
      have hne : q ≠ first.segmentPath := by
        rintro rfl
        exact h.stored.nodup.not_mem_erase hq
      have hrefs := hused q (mem_of_mem_erase hq) hne hactive
      simpa [CameraBuffer.forget, CameraBuffer.setFile, CameraBuffer.setSegment,
        CameraBuffer.dropFirst, hne] using hrefs
    · intro p hp
      exact (hp.dropFirst first rest).forget first.segmentPath
  · refine ⟨_, if_neg hlast, ?_, rfl, rfl, fun _ hq => hq, fun q hq => hq.of_dropFirst rest⟩
    refine ⟨⟨hstored, hcounted, h.active, ?_⟩, fun p hp => hp.dropFirst first rest⟩
    intro q hq hactive
    by_cases hne : q = first.segmentPath
    · subst hne
      by_contra hrefs
      exact hlast ⟨Int.not_lt.1 hrefs, hactive⟩
    · exact hused q hq hne hactive

structure Pruned (limits : Limits) (cutoff : Int) (b : CameraBuffer)
    (after : CameraBuffer × Except String Unit) : Prop where
  evolves : Evolves limits b after.1
  frames : after.1.frames = retain limits BufferedFrame.timestamp BufferedFrame.size cutoff b.frames
  lastImageID : after.1.lastImageID = b.lastImageID
  spoilt : ∀ path, Spoilt after.1 path → Spoilt b path
  ok : after.2 = .ok ()

theorem Sound.pruneFrom (h : Sound limits b) (cutoff : Int) (hframes : b.frames = frames)
    (hprunable : Prunable limits io cutoff b) :
    Pruned limits cutoff b (b.pruneFrom limits io cutoff frames) := by
  induction frames generalizing b with
  | nil =>
    refine ⟨h.refl, ?_, rfl, fun _ hq => hq, rfl⟩
    rw [hframes]
    exact hframes
  | cons first rest ih =>
    have htotal := h.counted.total
    rw [hframes] at htotal
    have hfits : b.totalBytes ≤ limits.maxBytes ↔
        ((first :: rest).map BufferedFrame.size).sum ≤ limits.maxBytes := by
      rw [htotal]
      exact Int.ofNat_le
    rw [CameraBuffer.pruneFrom]
    by_cases hkeep : ¬ first.timestamp < cutoff ∧ rest.length + 1 ≤ limits.maxFrames ∧
        b.totalBytes ≤ limits.maxBytes
    · rw [if_pos hkeep]
      refine ⟨h.refl, ?_, rfl, fun _ hq => hq, rfl⟩
      rw [hframes, retain, if_pos ⟨hkeep.1, hkeep.2.1, hfits.1 hkeep.2.2⟩]
    · have hretain : retain limits BufferedFrame.timestamp BufferedFrame.size cutoff b.frames =
          retain limits BufferedFrame.timestamp BufferedFrame.size cutoff rest := by
        rw [hframes, retain, if_neg (fun hc => hkeep ⟨hc.1, hc.2.1, hfits.2 hc.2.2⟩)]
      have hdiscards : b.activeSegment ≠ some first.segmentPath →
          (∀ frame ∈ rest, frame.segmentPath ≠ first.segmentPath) →
          io.discards first.segmentPath := by
        intro hactive hfree
        have hpath : first.segmentPath ∈ b.segments := by
          apply h.counted.located
          rw [hframes]
          exact mem_cons_self ..
        apply hprunable _ hpath hactive
        rw [hretain]
        intro frame hframe
        exact hfree frame (mem_of_mem_retain hframe)
      obtain ⟨after, hrelease, hreleased⟩ := h.release hframes hdiscards
      rw [if_neg hkeep, hrelease]
      have hprunable' : Prunable limits io cutoff
          { after with totalBytes := after.totalBytes - first.size, frames := rest } := by
        intro path hpath hactive hvacated
        apply hprunable path (hreleased.segments path hpath)
        · rw [← hreleased.activeSegment]
          exact hactive
        · rw [hretain]
          exact hvacated
      have hrest := ih hreleased.evolves.sound rfl hprunable'
      refine ⟨hreleased.evolves.trans hrest.evolves, ?_, ?_,
        fun q hq => hreleased.spoilt q (hrest.spoilt q hq), hrest.ok⟩
      · rw [hretain]
        exact hrest.frames
      · rw [hrest.lastImageID]
        exact hreleased.lastImageID

end

end Trakrai.VideoRecorder
