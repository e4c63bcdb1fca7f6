import Trakrai.Lib.Transition
import Trakrai.VideoRecorder.Invariant

namespace Trakrai.VideoRecorder
open List hiding after
open Lib

/-- The newest items that a buffer may keep. -/
def retain (limits : Limits) (timestamp : α → Int) (size : α → Nat) (cutoff : Int) : List α → List α
  | [] => []
  | first :: rest =>
    if ¬ timestamp first < cutoff ∧ rest.length + 1 ≤ limits.maxFrames ∧
        ((first :: rest).map size).sum ≤ limits.maxBytes then first :: rest
    else retain limits timestamp size cutoff rest

theorem retain_bounds (limits : Limits) (timestamp : α → Int) (size : α → Nat) (cutoff : Int)
    (items : List α) : (retain limits timestamp size cutoff items).length ≤ limits.maxFrames ∧
      ((retain limits timestamp size cutoff items).map size).sum ≤ limits.maxBytes := by
  induction items with
  | nil => exact ⟨Nat.zero_le _, Nat.zero_le _⟩
  | cons first rest ih =>
    rw [retain]
    split
    · rename_i hfits
      exact hfits.2
    · exact ih

theorem retain_suffix (limits : Limits) (timestamp : α → Int) (size : α → Nat) (cutoff : Int)
    (items : List α) : ∃ dropped, items = dropped ++ retain limits timestamp size cutoff items := by
  induction items with
  | nil => exact ⟨[], rfl⟩
  | cons first rest ih =>
    rw [retain]
    split
    · exact ⟨[], rfl⟩
    · obtain ⟨dropped, hrest⟩ := ih
      refine ⟨first :: dropped, ?_⟩
      rw [cons_append, ← hrest]

theorem mem_of_mem_retain (h : item ∈ retain limits timestamp size cutoff items) : item ∈ items := by
  obtain ⟨dropped, hsplit⟩ := retain_suffix limits timestamp size cutoff items
  rw [hsplit]
  exact mem_append_right _ h

theorem map_retain (timestamp : β → Int) (size : β → Nat)
    (h : ∀ item ∈ items, timestamp (f item) = timestamp' item ∧ size (f item) = size' item) :
    retain limits timestamp size cutoff (items.map f) =
      (retain limits timestamp' size' cutoff items).map f := by
  induction items with
  | nil => rfl
  | cons first rest ih =>
    have hsizes : ((first :: rest).map f).map size = (first :: rest).map size' := by
      rw [map_map]
      apply map_congr_left
      intro item hitem
      exact (h item hitem).2
    obtain ⟨hfirst, hrest⟩ := forall_mem_cons.1 h
    rw [map_cons, retain, retain, ← map_cons, hsizes, hfirst.1, length_map, ih hrest]
    split
    · rfl
    · rfl

theorem retain_dropLast (first second : α) (htimestamp : timestamp first = timestamp second)
    (hsize : size first = size second) (items : List α) :
    (retain limits timestamp size cutoff (items ++ [first])).dropLast =
      (retain limits timestamp size cutoff (items ++ [second])).dropLast := by
  induction items with
  | nil =>
    simp only [nil_append, retain, htimestamp, map_cons, hsize]
    split
    · rfl
    · rfl
  | cons item items ih =>
    have hsizes : ((item :: (items ++ [first])).map size).sum =
        ((item :: (items ++ [second])).map size).sum := by
      simp only [map_cons, map_append, hsize]
    rw [cons_append, cons_append, retain, retain, hsizes, length_append,
      length_append, length_singleton, length_singleton]
    split
    · rw [← cons_append, ← cons_append, dropLast_concat, dropLast_concat]
    · exact ih

/-- What a camera buffer is for: a window of the latest frames. -/
structure Window where
  lastImageID : String := ""
  entries : List FrameEntry := []

def isNew (lastImageID : String) (entry : FrameEntry) : Bool :=
  entry.imageID != "" && entry.jpeg.length != 0 && entry.imageID != lastImageID

def Window.store (limits : Limits) (window : Window) (entry : FrameEntry) : Window where
  lastImageID := entry.imageID
  entries := retain limits FrameEntry.timestamp (·.jpeg.length) (entry.timestamp - limits.duration)
    (window.entries ++ [entry])

def Window.addFrame (limits : Limits) (window : Window) (entry : FrameEntry) : Window :=
  if isNew window.lastImageID entry then window.store limits entry else window

structure Evolves (limits : Limits) (b after : CameraBuffer) : Prop where
  sound : Sound limits after
  keeps : ∀ p, Recorded limits b p → Recorded limits after p

theorem Evolves.trans (h : Evolves limits b c) (h' : Evolves limits c d) : Evolves limits b d :=
  ⟨h'.sound, fun p hp => h'.keeps p (h.keeps p hp)⟩

/-- The file of a segment holds more than its frames: the rest of a failed write. -/
def Spoilt (b : CameraBuffer) (path : String) : Prop :=
  ∃ content, b.files path = some content ∧ (b.segment path).size < content.length

section
variable {limits : Limits} {b : CameraBuffer} {io : Faults}

theorem Spoilt.of_eq (h : Spoilt after path) (hfiles : after.files path = b.files path)
    (hsize : (after.segment path).size = (b.segment path).size) : Spoilt b path := by
  obtain ⟨content, hfile, hlt⟩ := h
  rw [hfiles] at hfile
  rw [hsize] at hlt
  exact ⟨content, hfile, hlt⟩

theorem Spoilt.of_forget (h : Spoilt (b.forget path) q) : Spoilt b q := by
  by_cases hq : q = path
  · obtain ⟨content, hfile, -⟩ := h
    simp [hq, CameraBuffer.forget, CameraBuffer.setFile] at hfile
  · apply h.of_eq
    · simp [CameraBuffer.forget, CameraBuffer.setFile, CameraBuffer.setSegment, hq]
    · simp [CameraBuffer.forget, CameraBuffer.setFile, CameraBuffer.setSegment, hq]

theorem Spoilt.of_opened (h : Spoilt (b.opened limits) q) : Spoilt b q := by
  by_cases hq : q = limits.segmentPath b.nextSegmentID
  · obtain ⟨content, hfile, hlt⟩ := h
    rw [hq, opened_self.1, Option.some.injEq] at hfile
    rw [← hfile] at hlt
    exact (Nat.not_lt_zero _ hlt).elim
  · obtain ⟨hfiles, hsegment⟩ := opened_of_ne hq
    exact h.of_eq hfiles (congrArg SegmentFile.size hsegment)

theorem Sound.refl (h : Sound limits b) : Evolves limits b b := ⟨h, fun _ hp => hp⟩

theorem evolves_opened (hstored : Stored limits b) (hcounted : Counted b)
    (hused : ∀ path ∈ b.segments, 0 < (b.segment path).refs) :
    Evolves limits b (b.opened limits) := by
  refine ⟨⟨hstored.opened, hcounted.opened hstored, ?_, ?_⟩, fun p hp => hp.opened⟩
  · intro path hactive
    obtain rfl : limits.segmentPath b.nextSegmentID = path := Option.some.inj hactive
    rw [hstored.opened_segments]
    exact mem_cons_self ..
  · intro path hpath hactive
    rw [hstored.opened_segments] at hpath
    rcases mem_cons.1 hpath with rfl | hpath
    · exact (hactive rfl).elim
    · rw [(opened_of_ne (ne_of_numbered (hstored.numbered path hpath))).2]
      exact hused path hpath

theorem Sound.skipNumber (h : Sound limits b) :
    Evolves limits b { b with nextSegmentID := b.nextSegmentID + 1 } := by
  constructor
  · refine ⟨⟨h.stored.nodup, h.stored.files, h.stored.handle, ?_⟩,
      ⟨h.counted.total, h.counted.refs, h.counted.located⟩, h.active, h.used⟩
    intro path hpath
    obtain ⟨id, hlt, heq⟩ := h.stored.numbered path hpath
    exact ⟨id, Nat.lt_succ_of_lt hlt, heq⟩
  · intro p hp
    exact hp.later (Nat.le_succ _) hp.content

structure Prepared (limits : Limits) (io : Faults) (b : CameraBuffer) (frameSize : Nat)
    (after : CameraBuffer × Except String String) : Prop where
  evolves : Evolves limits b after.1
  frames : after.1.frames = b.frames
  lastImageID : after.1.lastImageID = b.lastImageID
  segments : ∀ path ∈ after.1.segments, path ∈ b.segments ∨ after.1.activeSegment = some path
  active : ∀ path, after.2 = .ok path → after.1.activeSegment = some path
  spoilt : ∀ path, Spoilt after.1 path → Spoilt b path
  succeeds : io.openFails (limits.segmentPath b.nextSegmentID) = false → ∃ path, after.2 = .ok path
  /-- The segment is the one that was active, or new. -/
  position : ∀ path, after.2 = .ok path → after.1 = b ∧ b.fits limits frameSize path = true ∨
    (∀ q, b.activeSegment = some q → b.fits limits frameSize q = false) ∧
      (after.1.segment path).position = (after.1.segment path).size

theorem prepared_createSegment (hnext : c.nextSegmentID = b.nextSegmentID)
    (hframes : c.frames = b.frames) (hlast : c.lastImageID = b.lastImageID)
    (hrotated : ∀ q, b.activeSegment = some q → b.fits limits frameSize q = false)
    (hsub : ∀ path ∈ c.segments, path ∈ b.segments) (hspoilt : ∀ path, Spoilt c path → Spoilt b path)
    (hstored : Stored limits c)
    (hfails : io.openFails (limits.segmentPath b.nextSegmentID) = true → Evolves limits b c)
    (hopened : Evolves limits b (c.opened limits)) :
    Prepared limits io b frameSize (c.createSegment limits io) := by
  cases hfail : io.openFails (limits.segmentPath b.nextSegmentID) with
  | false =>
    rw [createSegment_ok (by rw [hnext, hfail])]
    refine ⟨hopened, hframes, hlast, ?_, ?_, fun path hp => hspoilt path hp.of_opened,
      fun _ => ⟨_, rfl⟩, ?_⟩
    · intro path hpath
      rw [hstored.opened_segments] at hpath
      rcases mem_cons.1 hpath with rfl | hpath
      · exact .inr rfl
      · exact .inl (hsub path hpath)
    · rintro path ⟨⟩
      rfl
    · rintro path ⟨⟩
      refine .inr ⟨hrotated, ?_⟩
      rw [opened_self.2]
  | true =>
    rw [createSegment_error (by rw [hnext, hfail])]
    have hc := hfails hfail
    refine ⟨hc.trans hc.sound.skipNumber, hframes, hlast, ?_, nofun, hspoilt, ?_, nofun⟩
    · intro path hpath
      exact .inl (hsub path hpath)
    · rw [hfail]
      nofun

def Replaces (limits : Limits) (b : CameraBuffer) (frameSize : Nat) (path : String) : Prop :=
  b.activeSegment = some path ∧ b.fits limits frameSize path = false ∧ (b.segment path).refs ≤ 0

/-- The file of a segment can be closed and removed. -/
def Faults.discards (io : Faults) (path : String) : Prop :=
  io.closeFails path = false ∧ io.removeFails path = false

theorem Sound.ensureActiveSegmentLocked (h : Sound limits b)
    (hreplaces : ∀ path, Replaces limits b frameSize path →
      io.discards path ∧ io.openFails (limits.segmentPath b.nextSegmentID) = false) :
    Prepared limits io b frameSize (b.ensureActiveSegmentLocked limits io frameSize) := by
  unfold CameraBuffer.ensureActiveSegmentLocked
  cases hactive : b.activeSegment with
  | none =>
    have hused : ∀ path ∈ b.segments, 0 < (b.segment path).refs := by
      intro path hpath
      apply h.used path hpath
      rw [hactive]
      nofun
    have hrotated : ∀ q, b.activeSegment = some q → b.fits limits frameSize q = false := by
      rw [hactive]
      nofun
    exact prepared_createSegment rfl rfl rfl hrotated (fun _ hp => hp) (fun _ hp => hp) h.stored
      (fun _ => h.refl) (evolves_opened h.stored h.counted hused)
  | some path =>
    cases hfits : b.fits limits frameSize path with
    | true =>
      simp only [hfits, if_true]
      refine ⟨h.refl, rfl, rfl, fun _ hp => .inl hp, ?_, fun _ hp => hp, fun _ => ⟨_, rfl⟩, ?_⟩
      · rintro path ⟨⟩
        exact hactive
      · rintro path ⟨⟩
        exact .inl ⟨rfl, hfits⟩
    | false =>
      have hpath := h.active path hactive
      have hrotated : ∀ q, b.activeSegment = some q → b.fits limits frameSize q = false := by
        rw [hactive]
        rintro q ⟨⟩
        exact hfits
      by_cases hrefs : (b.segment path).refs ≤ 0
      · -- the active segment is empty and goes
        obtain ⟨⟨hclose, hremove⟩, hopen⟩ := hreplaces path ⟨hactive, hfits, hrefs⟩
        have hcounted := h.counted.forget (h.free hpath hrefs) h.stored.nodup
        have hused : ∀ q ∈ (b.forget path).segments, 0 < ((b.forget path).segment q).refs := by
          intro q hq
          have hne : q ≠ path := by
            rintro rfl
            exact h.stored.nodup.not_mem_erase hq
          have hrefs' := h.used q (mem_of_mem_erase hq)
            (by rw [hactive]; simpa using Ne.symm hne)
          simpa [CameraBuffer.forget, CameraBuffer.setFile, CameraBuffer.setSegment, hne] using hrefs'
        have hopened := evolves_opened (h.stored.forget path) hcounted hused
        have hsub : ∀ q ∈ (b.forget path).segments, q ∈ b.segments :=
          fun _ hq => mem_of_mem_erase hq
        simp only [hfits, Bool.false_eq_true, if_false, hrefs, if_true,
          h.stored.discard hpath hclose hremove "rotated"]
        apply prepared_createSegment (b := b) (c := b.forget path) rfl rfl rfl hrotated hsub
          (fun _ hp => hp.of_forget) (h.stored.forget path)
        · intro hfail
          rw [hopen] at hfail
          cases hfail
        · exact ⟨hopened.sound, fun p hp => hopened.keeps p (hp.forget path)⟩
      · have hused : ∀ q ∈ b.segments, 0 < (b.segment q).refs := by
          intro q hq
          by_cases hqa : b.activeSegment = some q
          · rw [hactive, Option.some.injEq] at hqa
            rw [← hqa]
            omega
          · exact h.used q hq hqa
        simp only [hfits, Bool.false_eq_true, if_false, hrefs]
        exact prepared_createSegment rfl rfl rfl hrotated (fun _ hp => hp) (fun _ hp => hp) h.stored
          (fun _ => h.refl) (evolves_opened h.stored h.counted hused)

theorem append_of_ne (hq : q ≠ path) (data : Bytes) :
    (b.append path data).files q = b.files q ∧ (b.append path data).segment q = b.segment q := by
  simp [CameraBuffer.append, CameraBuffer.setFile, CameraBuffer.setSegment, hq]

theorem Stored.append_self (h : Stored limits b) (hfile : b.files path = some content)
    (data : Bytes) : (b.append path data).files path = some (content ++ data) ∧
      (b.append path data).segment path =
        { b.segment path with position := (content ++ data).length } := by
  have hposition := (h.handle path content hfile).2.1
  constructor
  · simp [CameraBuffer.append, CameraBuffer.setFile, CameraBuffer.setSegment, hfile, hposition,
      writeAt_length]
  · simp [CameraBuffer.append, CameraBuffer.setFile, CameraBuffer.setSegment, hposition]

theorem Stored.content_of_mem (h : Stored limits b) (hpath : path ∈ b.segments) :
    ∃ content, b.files path = some content :=
  Option.isSome_iff_exists.1 ((h.files path).2 hpath)

/-- Bytes at the end of a segment's file change nothing that is kept. -/
theorem Sound.append (h : Sound limits b) (hpath : path ∈ b.segments) (data : Bytes) :
    Evolves limits b (b.append path data) := by
  obtain ⟨content, hfile⟩ := h.stored.content_of_mem hpath
  obtain ⟨hfiles, hsegment⟩ := h.stored.append_self hfile data
  have hrefs (q : String) : ((b.append path data).segment q).refs = (b.segment q).refs := by
    by_cases hq : q = path
    · rw [hq, hsegment]
    · rw [(append_of_ne hq data).2]
  constructor
  case sound =>
    constructor
    case stored =>
      refine ⟨h.stored.nodup, ?_, ?_, h.stored.numbered⟩
      · intro q
        by_cases hq : q = path
        · rw [hq, hfiles]
          exact iff_of_true rfl hpath
        · rw [(append_of_ne hq data).1]
          exact h.stored.files q
      · intro q content' hfile'
        by_cases hq : q = path
        · subst hq
          obtain ⟨hopen, -, hsize⟩ := h.stored.handle q content hfile
          obtain rfl : content ++ data = content' := Option.some.inj (hfiles.symm.trans hfile')
          rw [hsegment]
          refine ⟨hopen, rfl, ?_⟩
          rw [length_append]
          exact Nat.le_add_right_of_le hsize
        · rw [(append_of_ne hq data).1] at hfile'
          rw [(append_of_ne hq data).2]
          exact h.stored.handle q content' hfile'
    case counted =>
      refine ⟨h.counted.total, ?_, h.counted.located⟩
      intro q hq
      rw [hrefs]
      exact h.counted.refs q hq
    case active => exact h.active
    case used =>
      intro q hq hactive
      rw [hrefs]
      exact h.used q hq hactive
  case keeps =>
    intro p hp
    refine hp.later (Nat.le_refl _) ?_
    intro content' hfile'
    by_cases hq : p.1.segmentPath = path
    · rw [hq] at hfile' ⊢
      obtain ⟨hsize, hslice⟩ := hp.content content (hq ▸ hfile)
      rw [hq] at hsize
      have hlength := (h.stored.handle path content hfile).2.2
      obtain rfl : content ++ data = content' := Option.some.inj (hfiles.symm.trans hfile')
      rw [hsegment, slice_append (by omega)]
      exact ⟨hsize, hslice⟩
    · rw [(append_of_ne hq data).1] at hfile'
      rw [(append_of_ne hq data).2]
      exact hp.content content' hfile'

end

end Trakrai.VideoRecorder
