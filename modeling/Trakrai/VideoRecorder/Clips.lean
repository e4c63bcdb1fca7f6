import Mathlib.Data.List.Forall2
import Trakrai.VideoRecorder.Recovery

namespace Trakrai.VideoRecorder
open List hiding after
open Lib

def CameraBuffer.snapshotRange (b : CameraBuffer) (start stop : Int) : List BufferedFrame :=
  b.frames.filter fun frame => !(frame.timestamp < start || stop < frame.timestamp)

/-- The least `time.Duration`; the greatest is `-minDuration - 1`. -/
def minDuration : Int := -9223372036854775808

/-- `time.Time.Sub`, which saturates. -/
def sub (t u : Int) : Int := max minDuration (min (-minDuration - 1) (t - u))

/-- The negation of the least duration overflows to itself. -/
def absDuration (value : Int) : Int :=
  if value < 0 ∧ value ≠ minDuration then -value else value

/-- The frame that `nearestFrame` picks while it holds the lock. -/
def CameraBuffer.nearest (b : CameraBuffer) (target : Int) : Option BufferedFrame :=
  b.frames.getLast?.map fun last => b.frames.foldl
    (fun best frame =>
      if absDuration (sub frame.timestamp target) < absDuration (sub best.timestamp target) then frame
      else best)
    last

/-- The frame that `latestFrame` picks while it holds the lock. -/
def CameraBuffer.latest (b : CameraBuffer) : Option BufferedFrame := b.frames.getLast?

/-- The inner loop of `selectFramesForClip`: the last frame, and those behind it. -/
def advance (target : Int) (last : BufferedFrame) :
    List BufferedFrame → BufferedFrame × List BufferedFrame
  | [] => (last, [])
  | next :: rest =>
    if target < next.timestamp then (last, next :: rest) else advance target next rest

/-- The outer loop of `selectFramesForClip`, for a number of targets. -/
def selectFrom (step : Int) : Nat → Int → BufferedFrame → List BufferedFrame → List BufferedFrame
  | 0, _, _, _ => []
  | targets + 1, target, last, rest =>
    let (last, rest) := advance target last rest
    last :: selectFrom step targets (target + step) last rest

/-- `time.Second`. -/
def second : Int := 1000000000

def clipEnd (clipStart stop step : Int) : Int := if clipStart < stop then stop else clipStart + step

/-- `selectFramesForClip` on frames that are sorted; `none` where its loop does not end. -/
def selectFramesForClip (frames : List BufferedFrame) (eventAt pre post fps : Int) :
    Option (List BufferedFrame) :=
  match frames with
  | [] => some []
  | first :: rest =>
    if fps ≤ 0 then some []
    else
      let clipStart := eventAt - pre
      let step := second / fps
      if step = 0 then none
      else
        let length := clipEnd clipStart (eventAt + post) step - clipStart
        let selected := selectFrom step (length / step + 1).toNat clipStart first rest
        some (if selected.isEmpty then [(first :: rest).getLast (cons_ne_nil _ _)] else selected)

inductive Reader where
  | idle
  | picked (origin : List (BufferedFrame × FrameEntry)) (frames : List BufferedFrame)
  | loading (origin : List (BufferedFrame × FrameEntry)) (read left : List BufferedFrame)
      (items : List FrameEntry)
  | failed (error : String)

/-- A camera buffer with the jobs that read from it. -/
structure Clips where
  recorder : Recorder := {}
  readers : Nat → Reader := fun _ => .idle

namespace Clips

/-- The steps of the capture loop and of the jobs. -/
inductive Action where
  | addFrame (entry : FrameEntry)
  | snapshotRange (job : Nat) (start stop : Int)
  | selectFramesForClip (job : Nat) (sorted selected : List BufferedFrame)
      (eventAt pre post fps : Int)
  | nearestFrame (job : Nat) (target : Int)
  | latestFrame (job : Nat)
  | readFrame (job : Nat)

def origin (s : Clips) : List (BufferedFrame × FrameEntry) :=
  s.recorder.buffer.frames.zip s.recorder.window.entries

def setReader (s : Clips) (job : Nat) (reader : Reader) : Clips :=
  { s with readers := Function.update s.readers job reader }

/-- One turn of the loop of `loadFrames`. -/
def read (b : CameraBuffer) : Reader → Reader
  | .loading origin read (frame :: left) items =>
    match b.readFrame frame with
    | .error error => .failed error
    | .ok entry => .loading origin (read ++ [frame]) left (items ++ [entry])
  | reader => reader

def Enabled (s : Clips) : Action → Prop
  | .addFrame _ => True
  | .snapshotRange job _ _ | .nearestFrame job _ | .latestFrame job => s.readers job = .idle
  | .selectFramesForClip job sorted selected eventAt pre post fps => ∃ origin frames,
      s.readers job = .picked origin frames ∧ sorted.Perm frames ∧
      sorted.Pairwise (fun left right => ¬ right.timestamp < left.timestamp) ∧
      VideoRecorder.selectFramesForClip sorted eventAt pre post fps = some selected
  | .readFrame job => ∃ origin read frame left items,
      s.readers job = .loading origin read (frame :: left) items

def after (limits : Limits) (s : Clips) : Action → Clips
  | .addFrame entry => { s with recorder := s.recorder.call limits { entry } }
  | .snapshotRange job start stop =>
    s.setReader job (.picked s.origin (s.recorder.buffer.snapshotRange start stop))
  | .selectFramesForClip job _ selected _ _ _ _ =>
    match s.readers job with
    | .picked origin _ => s.setReader job (.loading origin [] selected [])
    | _ => s
  | .nearestFrame job target =>
    s.setReader job (.loading s.origin [] (s.recorder.buffer.nearest target).toList [])
  | .latestFrame job => s.setReader job (.loading s.origin [] s.recorder.buffer.latest.toList [])
  | .readFrame job => s.setReader job (read s.recorder.buffer (s.readers job))

/-- Every interleaving of the capture loop with jobs, when no file operation fails. -/
def system (limits : Limits) : System Clips Action := .guarded (· = {}) Enabled (after limits)

end Clips

/-- What a job has read is what was added for these frames. -/
def Reader.Faithful : Reader → Prop
  | .loading origin read _ items => List.Forall₂ (fun frame item => (frame, item) ∈ origin) read items
  | .failed _ => False
  | _ => True

def CameraBuffer.Holds (b : CameraBuffer) (path : String) : Prop :=
  b.activeSegment = some path ∨ ∃ frame ∈ b.frames, frame.segmentPath = path

/-- A frame is read while the buffer holds its segment. -/
def Clips.ReadsHeld (s : Clips) : Clips.Action → Prop
  | .readFrame job => ∀ origin read frame left items,
      s.readers job = .loading origin read (frame :: left) items →
        s.recorder.buffer.Holds frame.segmentPath
  | _ => True

theorem mem_advance (target : Int)
    (h : frame ∈ (advance target last rest).1 :: (advance target last rest).2) :
    frame ∈ last :: rest := by
  induction rest generalizing last with
  | nil => exact h
  | cons next rest ih =>
    rw [advance] at h
    split at h
    · exact h
    · exact mem_cons_of_mem _ (ih h)

theorem mem_selectFrom (h : frame ∈ selectFrom step targets target last rest) :
    frame ∈ last :: rest := by
  induction targets generalizing target last rest with
  | zero => cases h
  | succ targets ih =>
    rw [selectFrom] at h
    apply mem_advance target
    rcases mem_cons.1 h with rfl | h
    · exact mem_cons_self ..
    · exact ih h

theorem mem_selectFramesForClip
    (h : selectFramesForClip frames eventAt pre post fps = some selected)
    (hframe : frame ∈ selected) : frame ∈ frames := by
  unfold selectFramesForClip at h
  split at h
  · cases h
    cases hframe
  · split at h
    · cases h
      cases hframe
    · dsimp only at h
      split at h
      · cases h
      · cases h
        split at hframe
        · rw [mem_singleton.1 hframe]
          exact getLast_mem _
        · exact mem_selectFrom hframe

theorem mem_nearest {b : CameraBuffer} (h : b.nearest target = some frame) : frame ∈ b.frames := by
  obtain ⟨last, hlast, rfl⟩ := Option.map_eq_some_iff.1 h
  have hbest (frames : List BufferedFrame) : ∀ best ∈ b.frames, (∀ frame ∈ frames, frame ∈ b.frames) →
      frames.foldl (fun best frame =>
        if absDuration (sub frame.timestamp target) < absDuration (sub best.timestamp target) then frame
        else best) best ∈ b.frames := by
    induction frames with
    | nil => exact fun best hb _ => hb
    | cons first rest ih =>
      intro best hb hall
      obtain ⟨hfirst, hrest⟩ := forall_mem_cons.1 hall
      rw [foldl_cons]
      split
      · exact ih first hfirst hrest
      · exact ih best hb hrest
  exact hbest b.frames last (List.mem_of_getLast? hlast) fun _ h => h

structure Reader.Known (limits : Limits) (b : CameraBuffer)
    (origin : List (BufferedFrame × FrameEntry)) (frames : List BufferedFrame) : Prop where
  recorded : ∀ p ∈ origin, Recorded limits b p
  known : ∀ frame ∈ frames, ∃ entry, (frame, entry) ∈ origin

/-- The frames that a job is going to read were recorded. -/
def Reader.Sound (limits : Limits) (b : CameraBuffer) : Reader → Prop
  | .picked origin frames => Known limits b origin frames
  | .loading origin _ left _ => Known limits b origin left
  | _ => True

structure Clips.Inv (limits : Limits) (s : Clips) : Prop where
  intact : Intact limits s.recorder
  unspoilt : ∀ path, ¬ Spoilt s.recorder.buffer path
  readers : ∀ job, (s.readers job).Sound limits s.recorder.buffer

section
variable {limits : Limits} {s : Clips}

theorem Reader.Known.evolves (h : Reader.Known limits b origin frames)
    (hevolves : Evolves limits b after) : Reader.Known limits after origin frames :=
  ⟨fun p hp => hevolves.keeps p (h.recorded p hp), h.known⟩

theorem Reader.Sound.evolves {reader : Reader} (h : reader.Sound limits b)
    (hevolves : Evolves limits b after) : reader.Sound limits after := by
  cases reader with
  | idle => trivial
  | picked origin frames => exact Reader.Known.evolves h hevolves
  | loading origin read left items => exact Reader.Known.evolves h hevolves
  | failed error => trivial

theorem Clips.Inv.known (h : Clips.Inv limits s)
    (hframes : ∀ frame ∈ frames, frame ∈ s.recorder.buffer.frames) :
    Reader.Known limits s.recorder.buffer s.origin frames := by
  obtain ⟨kept, hagrees⟩ := h.intact.agrees
  have horigin : s.origin = kept := by
    rw [Clips.origin, hagrees.frames, hagrees.entries, ← unzip_fst, ← unzip_snd, zip_unzip]
  constructor
  · rw [horigin]
    exact hagrees.recorded
  · intro frame hframe
    have hmem := hframes frame hframe
    rw [hagrees.frames] at hmem
    obtain ⟨p, hp, rfl⟩ := mem_map.1 hmem
    rw [horigin]
    exact ⟨p.2, hp⟩

theorem Clips.Inv.setReader (h : Clips.Inv limits s) (job : Nat)
    (hreader : reader.Sound limits s.recorder.buffer) : Clips.Inv limits (s.setReader job reader) := by
  refine ⟨h.intact, h.unspoilt, ?_⟩
  intro other
  by_cases hjob : other = job
  · subst hjob
    simpa [Clips.setReader] using hreader
  · simpa [Clips.setReader, hjob] using h.readers other

theorem Intact.evolves_works (h : Intact limits r) (entry : FrameEntry) :
    Evolves limits r.buffer (r.call limits { entry }).buffer := by
  rw [h.call_works]
  cases hnew : isNew r.buffer.lastImageID entry with
  | false =>
    rw [addFrame_of_not_isNew hnew]
    exact h.sound.refl
  | true =>
    obtain ⟨after, hafter, hadded⟩ := h.sound.addFrame_works hnew
    rw [hafter]
    exact hadded.evolves

theorem Clips.Inv.addFrame (h : Clips.Inv limits s) (entry : FrameEntry) :
    Clips.Inv limits (after limits s (.addFrame entry)) where
  intact := h.intact.call_survivable h.unspoilt entry
  unspoilt := by
    change ∀ path, ¬ Spoilt (s.recorder.call limits { entry }).buffer path
    rw [h.intact.call_works]
    exact h.intact.sound.not_spoilt_addFrame h.unspoilt entry
  readers := fun job => (h.readers job).evolves (h.intact.evolves_works entry)

theorem Clips.Inv.read (h : Clips.Inv limits s) {job : Nat}
    {origin : List (BufferedFrame × FrameEntry)} {read left : List BufferedFrame}
    (hjob : s.readers job = .loading origin read (frame :: left) items) :
    ∃ entry, (frame, entry) ∈ origin ∧
      (s.recorder.buffer.Holds frame.segmentPath → Clips.read s.recorder.buffer (s.readers job) =
        .loading origin (read ++ [frame]) left (items ++ [entry])) ∧
      (¬ s.recorder.buffer.Holds frame.segmentPath →
        Clips.read s.recorder.buffer (s.readers job) = .failed "open segment") := by
  have hknown := h.readers job
  rw [hjob] at hknown
  obtain ⟨entry, hentry⟩ := hknown.known frame (mem_cons_self ..)
  have hread := (hknown.recorded _ hentry).readFrame_eq h.intact.sound.stored
  have hholds : frame.segmentPath ∈ s.recorder.buffer.segments ↔
      s.recorder.buffer.Holds frame.segmentPath := h.intact.sound.mem_segments_iff
  refine ⟨entry, hentry, ?_, ?_⟩
  · intro hheld
    rw [if_pos (hholds.2 hheld)] at hread
    rw [hjob, Clips.read, hread]
  · intro hheld
    rw [if_neg (fun hmem => hheld (hholds.1 hmem))] at hread
    rw [hjob, Clips.read, hread]

theorem Clips.after_select {job : Nat} {origin : List (BufferedFrame × FrameEntry)} {sorted selected : List BufferedFrame}
    (h : s.readers job = .picked origin frames) (eventAt pre post fps : Int) :
    Clips.after limits s (.selectFramesForClip job sorted selected eventAt pre post fps) =
      s.setReader job (.loading origin [] selected []) := by
  rw [Clips.after, h]

theorem Clips.Inv.after (h : Clips.Inv limits s) {a : Clips.Action} (henabled : s.Enabled a) :
    Clips.Inv limits (s.after limits a) := by
  cases a with
  | addFrame entry => exact h.addFrame entry
  | snapshotRange job start stop =>
    apply h.setReader job
    exact h.known fun frame hframe => (mem_filter.1 hframe).1
  | selectFramesForClip job sorted selected eventAt pre post fps =>
    obtain ⟨origin, frames, hjob, hperm, -, hselected⟩ := henabled
    rw [after_select hjob]
    have hknown := h.readers job
    rw [hjob] at hknown
    apply h.setReader job
    refine ⟨hknown.recorded, ?_⟩
    intro frame hframe
    apply hknown.known
    exact hperm.mem_iff.1 (mem_selectFramesForClip hselected hframe)
  | nearestFrame job target =>
    apply h.setReader job
    exact h.known fun frame hframe => mem_nearest (Option.mem_toList.1 hframe)
  | latestFrame job =>
    apply h.setReader job
    exact h.known fun frame hframe => List.mem_of_getLast? (Option.mem_toList.1 hframe)
  | readFrame job =>
    obtain ⟨origin, read, frame, left, items, hjob⟩ := henabled
    obtain ⟨entry, -, hheld, hgone⟩ := h.read hjob
    have hknown := h.readers job
    rw [hjob] at hknown
    apply h.setReader job
    by_cases hholds : s.recorder.buffer.Holds frame.segmentPath
    · rw [hheld hholds]
      exact ⟨hknown.recorded, fun frame hframe => hknown.known frame (mem_cons_of_mem _ hframe)⟩
    · rw [hgone hholds]
      trivial

theorem Clips.faithful_setReader (h : ∀ job, (s.readers job).Faithful)
    (job : Nat) (hreader : reader.Faithful) : ∀ other, ((s.setReader job reader).readers other).Faithful := by
  intro other
  by_cases hjob : other = job
  · subst hjob
    simpa [Clips.setReader] using hreader
  · simpa [Clips.setReader, hjob] using h other

theorem Clips.Inv.faithful_after (h : Clips.Inv limits s) (henabled : s.Enabled a)
    (hfaithful : ∀ job, (s.readers job).Faithful) (hheld : s.ReadsHeld a) :
    ∀ job, ((s.after limits a).readers job).Faithful := by
  cases a with
  | addFrame entry => exact hfaithful
  | snapshotRange job start stop => exact faithful_setReader hfaithful job trivial
  | selectFramesForClip job sorted selected eventAt pre post fps =>
    obtain ⟨origin, frames, hjob, -⟩ := henabled
    rw [after_select hjob]
    exact faithful_setReader hfaithful job .nil
  | nearestFrame job target => exact faithful_setReader hfaithful job .nil
  | latestFrame job => exact faithful_setReader hfaithful job .nil
  | readFrame job =>
    obtain ⟨origin, read, frame, left, items, hjob⟩ := henabled
    obtain ⟨entry, hentry, hread, -⟩ := h.read hjob
    apply faithful_setReader hfaithful job
    rw [hread (hheld origin read frame left items hjob)]
    have hsofar := hfaithful job
    rw [hjob] at hsofar
    exact rel_append hsofar (.cons hentry .nil)

theorem Clips.Inv.readsHeld_of_faithful (h : Clips.Inv limits s)
    (hfaithful : ∀ job, ((s.after limits a).readers job).Faithful) : s.ReadsHeld a := by
  cases a with
  | readFrame job =>
    intro origin read frame left items hjob
    by_contra hholds
    obtain ⟨entry, -, -, hgone⟩ := h.read hjob
    have hfailed := hfaithful job
    simp only [Clips.after, Clips.setReader, Function.update_self, hgone hholds] at hfailed
    exact hfailed
  | _ => trivial

theorem Clips.inv_initial (limits : Limits) : Clips.Inv limits {} := by
  refine ⟨intact_initial limits, ?_, fun _ => trivial⟩
  rintro path ⟨content, hfile, -⟩
  cases hfile

/-- In every interleaving, jobs read what was added exactly if each segment is held when it is
read. -/
theorem clips_faithful_iff (hrun : (Clips.system limits).Run {} tr s) :
    (∀ u ∈ states tr s, ∀ job, (u.readers job).Faithful) ↔ ∀ p ∈ tr, p.1.ReadsHeld p.2 := by
  have hinv : ∀ u ∈ states tr s, Clips.Inv limits u := by
    apply hrun.forall_states (Clips.inv_initial limits)
    rintro p - hp u ⟨henabled, rfl⟩
    exact hp.after henabled
  constructor
  · intro hfaithful p hp
    obtain ⟨u, ⟨-, rfl⟩, hu⟩ := hrun.exists_mem_states hp
    exact (hinv p.1 (mem_states_of_mem hp)).readsHeld_of_faithful (hfaithful _ hu)
  · intro hheld
    refine hrun.forall_states (I := fun u => ∀ job, (u.readers job).Faithful) (fun _ => trivial) ?_
    rintro p hp hfaithful u ⟨henabled, rfl⟩
    exact (hinv p.1 (mem_states_of_mem hp)).faithful_after henabled hfaithful (hheld p hp)

end

def oneFrame : Limits where
  duration := 100
  maxBytes := 1000
  maxFrames := 1
  segmentMaxByte := 2
  rootDir := "/buffer"

def firstFrame : BufferedFrame := ⟨"a", 0, "/buffer/segment-000000.bin", 0, 2⟩

def pickFirst : List Clips.Action :=
  [.addFrame ⟨"a", 0, [1, 2]⟩, .snapshotRange 0 0 10,
    .selectFramesForClip 0 [firstFrame] [firstFrame, firstFrame] 0 0 0 1]

theorem enabled_pickFirst : ∀ p ∈ (replay (Clips.after oneFrame) {} pickFirst).1, p.1.Enabled p.2 := by
  intro p hp
  simp only [pickFirst, replay, mem_cons, not_mem_nil, or_false] at hp
  obtain rfl | rfl | rfl := hp
  · trivial
  · rfl
  · exact ⟨_, _, rfl, .refl _, pairwise_singleton _ _, rfl⟩

theorem clips_faithful_iff_pickFirst :
    ∃ tr s, (Clips.system oneFrame).Run {} tr s ∧ tr.map Prod.snd = pickFirst ++ [.readFrame 0] ∧
      ((∀ u ∈ states tr s, ∀ job, (u.readers job).Faithful) ↔ ∀ p ∈ tr, p.1.ReadsHeld p.2) ∧
      ∀ p ∈ tr, p.1.ReadsHeld p.2 := by
  have hrun : (Clips.system oneFrame).Run {}
      (replay (Clips.after oneFrame) {} (pickFirst ++ [.readFrame 0])).1
      (replay (Clips.after oneFrame) {} (pickFirst ++ [.readFrame 0])).2 := by
    apply System.run_replay
    apply forall_mem_append.2 ⟨enabled_pickFirst, _⟩
    intro p hp
    rw [mem_singleton.1 hp]
    exact ⟨_, _, _, _, _, rfl⟩
  refine ⟨_, _, hrun, replay_labels _ _ _, clips_faithful_iff hrun, ?_⟩
  intro p hp
  simp only [pickFirst, cons_append, nil_append, replay, mem_cons, not_mem_nil, or_false] at hp
  obtain rfl | rfl | rfl | rfl := hp
  · trivial
  · trivial
  · trivial
  · intro origin read frame left items hjob
    injection hjob with _ _ hleft _
    injection hleft with hframe _
    rw [← hframe]
    exact .inl rfl

/-- Another frame comes before the job reads, and the first segment is pruned. -/
theorem read_fails_after_addFrame : ∃ tr s, (Clips.system oneFrame).Run {} tr s ∧
      tr.map Prod.snd = pickFirst ++ [.addFrame ⟨"b", 1, [3, 4]⟩, .readFrame 0] ∧
      s.readers 0 = .failed "open segment" ∧ ¬ ∀ u ∈ states tr s, ∀ job, (u.readers job).Faithful := by
  have hrun : (Clips.system oneFrame).Run {}
      (replay (Clips.after oneFrame) {} (pickFirst ++ [.addFrame ⟨"b", 1, [3, 4]⟩, .readFrame 0])).1
      (replay (Clips.after oneFrame) {}
        (pickFirst ++ [.addFrame ⟨"b", 1, [3, 4]⟩, .readFrame 0])).2 := by
    apply System.run_replay
    apply forall_mem_append.2 ⟨enabled_pickFirst, _⟩
    intro p hp
    rcases mem_cons.1 hp with rfl | hp
    · trivial
    · rw [mem_singleton.1 hp]
      exact ⟨_, _, _, _, _, rfl⟩
  refine ⟨_, _, hrun, replay_labels _ _ _, rfl, ?_⟩
  intro h
  exact h _ (end_mem_states _ _) 0

end Trakrai.VideoRecorder
