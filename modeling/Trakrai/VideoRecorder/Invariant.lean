import Trakrai.VideoRecorder.Buffer

namespace Trakrai.VideoRecorder
open Function List Lib

theorem sixDigits_inj (h : sixDigits a = sixDigits b) : a = b := by
  have hvalue (n : Nat) : Nat.ofDigitChars 10 (sixDigits n) 0 = n := by
    rw [sixDigits, Nat.ofDigitChars_append, Nat.ofDigitChars_replicate_zero, Nat.mul_zero,
      Nat.ofDigitChars_ten_toDigits]
  rw [← hvalue a, h, hvalue]

theorem mem_sixDigits (h : c ∈ sixDigits n) : c.isDigit = true := by
  rcases mem_append.1 h with h | h
  · rw [eq_of_mem_replicate h]
    decide
  · exact Nat.isDigit_of_mem_toDigits (by decide) (by decide) h

theorem toList_segmentName (id : Nat) :
    (segmentName id).toList = "segment-".toList ++ (sixDigits id ++ ".bin".toList) := by
  simp [segmentName]

theorem segmentName_inj (h : segmentName a = segmentName b) : a = b := by
  have hlist := congrArg String.toList h
  rw [toList_segmentName, toList_segmentName] at hlist
  exact sixDigits_inj (append_cancel_right (append_cancel_left hlist))

theorem plainName_segmentName (id : Nat) : plainName (segmentName id) = true := by
  have hhead : (segmentName id).toList.head? = some 's' := by
    rw [toList_segmentName]
    rfl
  apply plainName_iff.2
  constructor
  · apply properSegment_iff.2
    refine ⟨?_, ?_, ?_⟩ <;>
    · intro heq
      rw [heq] at hhead
      revert hhead
      decide
  · intro hslash
    rw [toList_segmentName, mem_append, mem_append] at hslash
    rcases hslash with hslash | hslash | hslash
    · revert hslash
      decide
    · exact absurd (mem_sixDigits hslash) (by decide)
    · revert hslash
      decide

theorem Limits.segmentPath_inj {limits : Limits}
    (h : limits.segmentPath a = limits.segmentPath b) : a = b :=
  segmentName_inj (goJoin_inj (plainName_segmentName a) (plainName_segmentName b) h)

def slice (content : Bytes) (offset size : Nat) : Bytes := (content.drop offset).take size

theorem slice_append (h : offset + size ≤ content.length) :
    slice (content ++ data) offset size = slice content offset size := by
  rw [slice, slice, drop_append_of_le_length (by omega), take_append_of_le_length]
  rw [length_drop]
  omega

theorem slice_length_append (content data : Bytes) :
    slice (content ++ data) content.length data.length = data := by
  rw [slice, drop_left, take_length]

theorem writeAt_length (content data : Bytes) :
    writeAt content content.length data = content ++ data := by
  simp [writeAt]

section
variable (limits : Limits) (b : CameraBuffer)

structure Stored : Prop where
  nodup : b.segments.Nodup
  files : ∀ path, (b.files path).isSome = true ↔ path ∈ b.segments
  handle : ∀ path content, b.files path = some content → (b.segment path).closed = false ∧
    (b.segment path).position = content.length ∧ (b.segment path).size ≤ content.length
  numbered : ∀ path ∈ b.segments, ∃ id, id < b.nextSegmentID ∧ path = limits.segmentPath id

structure Counted : Prop where
  total : b.totalBytes = (b.frames.map BufferedFrame.size).sum
  refs : ∀ path ∈ b.segments, (b.segment path).refs = b.frames.countP (·.segmentPath == path)
  located : ∀ frame ∈ b.frames, frame.segmentPath ∈ b.segments

/-- Where the bytes of a frame that was added are, as long as its segment is there. -/
structure Recorded (p : BufferedFrame × FrameEntry) : Prop where
  numbered : ∃ id, id < b.nextSegmentID ∧ p.1.segmentPath = limits.segmentPath id
  imageID : p.1.imageID = p.2.imageID
  timestamp : p.1.timestamp = p.2.timestamp
  size : p.1.size = p.2.jpeg.length
  content : ∀ content, b.files p.1.segmentPath = some content →
    p.1.offset + p.1.size ≤ (b.segment p.1.segmentPath).size ∧
      slice content p.1.offset p.1.size = p.2.jpeg

structure Sound : Prop where
  stored : Stored limits b
  counted : Counted b
  active : ∀ path, b.activeSegment = some path → path ∈ b.segments
  used : ∀ path ∈ b.segments, b.activeSegment ≠ some path → 0 < (b.segment path).refs

end

theorem sound_newCameraBuffer : Sound limits newCameraBuffer where
  stored := ⟨nodup_nil, by simp [newCameraBuffer], nofun, nofun⟩
  counted := ⟨rfl, nofun, nofun⟩
  active := nofun
  used := nofun

section
variable {limits : Limits} {b : CameraBuffer}

theorem Recorded.readFrame_eq (h : Recorded limits b p) (hstored : Stored limits b) :
    b.readFrame p.1 = if p.1.segmentPath ∈ b.segments then .ok p.2 else .error "open segment" := by
  unfold CameraBuffer.readFrame
  cases hfile : b.files p.1.segmentPath with
  | none =>
    have hnot : p.1.segmentPath ∉ b.segments := by
      rw [← hstored.files, hfile]
      simp
    rw [if_neg hnot]
  | some content =>
    have hmem : p.1.segmentPath ∈ b.segments := by
      rw [← hstored.files, hfile]
      rfl
    obtain ⟨hsize, hslice⟩ := h.content content hfile
    have hlength := (hstored.handle _ content hfile).2.2
    have hentry : (⟨p.1.imageID, p.1.timestamp, slice content p.1.offset p.1.size⟩ : FrameEntry) =
        p.2 := by
      rw [hslice, h.imageID, h.timestamp]
    rw [if_pos hmem]
    simp only [show p.1.offset + p.1.size ≤ content.length by omega, if_true]
    rw [← hentry]
    rfl

theorem Sound.refs_pos_iff (h : Sound limits b) (hpath : path ∈ b.segments) :
    0 < (b.segment path).refs ↔ ∃ frame ∈ b.frames, frame.segmentPath = path := by
  rw [h.counted.refs path hpath, Int.natCast_pos, countP_pos_iff]
  simp only [beq_iff_eq]

theorem Sound.mem_segments_iff (h : Sound limits b) : path ∈ b.segments ↔
      b.activeSegment = some path ∨ ∃ frame ∈ b.frames, frame.segmentPath = path := by
  constructor
  · intro hmem
    by_cases hactive : b.activeSegment = some path
    · exact .inl hactive
    · exact .inr ((h.refs_pos_iff hmem).1 (h.used path hmem hactive))
  · rintro (hactive | ⟨frame, hframe, rfl⟩)
    · exact h.active path hactive
    · exact h.counted.located frame hframe

theorem Sound.free (h : Sound limits b) (hpath : path ∈ b.segments)
    (hrefs : (b.segment path).refs ≤ 0) : ∀ frame ∈ b.frames, frame.segmentPath ≠ path := by
  intro frame hframe heq
  have hpos := (h.refs_pos_iff hpath).2 ⟨frame, hframe, heq⟩
  omega

theorem ne_of_numbered {path : String} (h : ∃ id, id < b.nextSegmentID ∧ path = limits.segmentPath id) :
    path ≠ limits.segmentPath b.nextSegmentID := by
  obtain ⟨id, hlt, rfl⟩ := h
  intro heq
  have hid := Limits.segmentPath_inj heq
  omega

def CameraBuffer.forget (b : CameraBuffer) (path : String) : CameraBuffer :=
  { (b.setSegment path { b.segment path with closed := true }).setFile path none with
    segments := b.segments.erase path }

theorem Stored.discard (h : Stored limits b) (hpath : path ∈ b.segments)
    (hclose : io.closeFails path = false) (hremove : io.removeFails path = false) (kind : String) :
    b.discard io kind path = (b.forget path, .ok ()) := by
  obtain ⟨content, hfile⟩ := Option.isSome_iff_exists.1 ((h.files path).2 hpath)
  have hopen := (h.handle path content hfile).1
  simp only [CameraBuffer.discard, CameraBuffer.close, CameraBuffer.remove, hopen, hclose, hremove,
    Bool.not_false, Bool.and_self, Bool.false_eq_true, if_false]
  rfl

theorem Stored.forget (h : Stored limits b) (path : String) : Stored limits (b.forget path) where
  nodup := h.nodup.erase path
  files := by
    intro q
    by_cases hq : q = path
    · subst hq
      simp [CameraBuffer.forget, CameraBuffer.setFile, h.nodup.not_mem_erase]
    · simp [CameraBuffer.forget, CameraBuffer.setFile, CameraBuffer.setSegment, hq, h.files,
        mem_erase_of_ne hq]
  handle := by
    intro q content hfile
    by_cases hq : q = path
    · subst hq
      simp [CameraBuffer.forget, CameraBuffer.setFile] at hfile
    · simp only [CameraBuffer.forget, CameraBuffer.setFile, CameraBuffer.setSegment,
        update_of_ne hq] at hfile ⊢
      exact h.handle q content hfile
  numbered := fun q hq => h.numbered q (mem_of_mem_erase hq)

theorem Counted.forget (h : Counted b) (hfree : ∀ frame ∈ b.frames, frame.segmentPath ≠ path)
    (hnodup : b.segments.Nodup) : Counted (b.forget path) where
  total := h.total
  refs := by
    intro q hq
    have hne : q ≠ path := by
      rintro rfl
      exact hnodup.not_mem_erase hq
    simp only [CameraBuffer.forget, CameraBuffer.setFile, CameraBuffer.setSegment, update_of_ne hne]
    exact h.refs q (mem_of_mem_erase hq)
  located := by
    intro frame hframe
    exact (mem_erase_of_ne (hfree frame hframe)).2 (h.located frame hframe)

theorem Recorded.forget (h : Recorded limits b p) (path : String) :
    Recorded limits (b.forget path) p where
  numbered := h.numbered
  imageID := h.imageID
  timestamp := h.timestamp
  size := h.size
  content := by
    intro content hfile
    by_cases hq : p.1.segmentPath = path
    · simp [CameraBuffer.forget, CameraBuffer.setFile, hq] at hfile
    · simp only [CameraBuffer.forget, CameraBuffer.setFile, CameraBuffer.setSegment,
        update_of_ne hq] at hfile ⊢
      exact h.content content hfile

def CameraBuffer.opened (limits : Limits) (b : CameraBuffer) : CameraBuffer :=
  (b.createSegment limits {}).1

theorem createSegment_ok (h : io.openFails (limits.segmentPath b.nextSegmentID) = false) :
    b.createSegment limits io = (b.opened limits, .ok (limits.segmentPath b.nextSegmentID)) := by
  simp [CameraBuffer.opened, CameraBuffer.createSegment, h]

theorem createSegment_error (h : io.openFails (limits.segmentPath b.nextSegmentID) = true) :
    b.createSegment limits io =
      ({ b with nextSegmentID := b.nextSegmentID + 1 }, .error "create segment file") := by
  simp [CameraBuffer.createSegment, h]

theorem Stored.not_mem (h : Stored limits b) : limits.segmentPath b.nextSegmentID ∉ b.segments :=
  fun hmem => ne_of_numbered (h.numbered _ hmem) rfl

theorem Stored.opened_segments (h : Stored limits b) :
    (b.opened limits).segments = limits.segmentPath b.nextSegmentID :: b.segments := by
  simp [CameraBuffer.opened, CameraBuffer.createSegment, CameraBuffer.setFile,
    CameraBuffer.setSegment, erase_of_not_mem h.not_mem]

theorem opened_of_ne (h : path ≠ limits.segmentPath b.nextSegmentID) :
    (b.opened limits).files path = b.files path ∧ (b.opened limits).segment path = b.segment path := by
  simp [CameraBuffer.opened, CameraBuffer.createSegment, CameraBuffer.setFile,
    CameraBuffer.setSegment, h]

theorem opened_self : (b.opened limits).files (limits.segmentPath b.nextSegmentID) = some [] ∧
    (b.opened limits).segment (limits.segmentPath b.nextSegmentID) =
      { path := limits.segmentPath b.nextSegmentID } := by
  simp [CameraBuffer.opened, CameraBuffer.createSegment, CameraBuffer.setFile,
    CameraBuffer.setSegment]

theorem Stored.opened (h : Stored limits b) : Stored limits (b.opened limits) where
  nodup := by
    rw [h.opened_segments]
    exact nodup_cons.2 ⟨h.not_mem, h.nodup⟩
  files := by
    intro q
    rw [h.opened_segments, mem_cons]
    by_cases hq : q = limits.segmentPath b.nextSegmentID
    · subst hq
      simp [opened_self.1]
    · rw [(opened_of_ne hq).1, h.files]
      simp [hq]
  handle := by
    intro q content hfile
    by_cases hq : q = limits.segmentPath b.nextSegmentID
    · subst hq
      rw [opened_self.1, Option.some.injEq] at hfile
      rw [opened_self.2, ← hfile]
      exact ⟨rfl, rfl, Nat.le_refl _⟩
    · rw [(opened_of_ne hq).1] at hfile
      rw [(opened_of_ne hq).2]
      exact h.handle q content hfile
  numbered := by
    intro q hq
    rw [h.opened_segments] at hq
    rcases mem_cons.1 hq with rfl | hq
    · exact ⟨b.nextSegmentID, Nat.lt_succ_self _, rfl⟩
    · obtain ⟨id, hlt, heq⟩ := h.numbered q hq
      exact ⟨id, Nat.lt_succ_of_lt hlt, heq⟩

theorem Counted.opened (h : Counted b) (hstored : Stored limits b) : Counted (b.opened limits) where
  total := h.total
  refs := by
    intro q hq
    rw [hstored.opened_segments] at hq
    rcases mem_cons.1 hq with rfl | hq
    · rw [opened_self.2]
      have hnone : b.frames.countP (·.segmentPath == limits.segmentPath b.nextSegmentID) = 0 := by
        rw [countP_eq_zero]
        intro frame hframe heq
        exact hstored.not_mem (beq_iff_eq.1 heq ▸ h.located frame hframe)
      exact (congrArg Int.ofNat hnone).symm
    · rw [(opened_of_ne (ne_of_numbered (hstored.numbered q hq))).2]
      exact h.refs q hq
  located := by
    intro frame hframe
    rw [hstored.opened_segments]
    exact mem_cons_of_mem _ (h.located frame hframe)

theorem Recorded.later (h : Recorded limits b p) (hnext : b.nextSegmentID ≤ b'.nextSegmentID)
    (hcontent : ∀ content, b'.files p.1.segmentPath = some content →
      p.1.offset + p.1.size ≤ (b'.segment p.1.segmentPath).size ∧
        slice content p.1.offset p.1.size = p.2.jpeg) : Recorded limits b' p where
  numbered := by
    obtain ⟨id, hlt, heq⟩ := h.numbered
    exact ⟨id, Nat.lt_of_lt_of_le hlt hnext, heq⟩
  imageID := h.imageID
  timestamp := h.timestamp
  size := h.size
  content := hcontent

theorem Recorded.opened (h : Recorded limits b p) : Recorded limits (b.opened limits) p := by
  apply h.later (Nat.le_succ _)
  intro content hfile
  obtain ⟨hfiles, hsegment⟩ := opened_of_ne (ne_of_numbered h.numbered)
  rw [hfiles] at hfile
  rw [hsegment]
  exact h.content content hfile

end

end Trakrai.VideoRecorder
