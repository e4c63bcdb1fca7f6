import Mathlib.Logic.Function.Basic
import Trakrai.Lib.Transition
import Trakrai.LiveFeed.Regions

namespace Trakrai.LiveFeed
open Option Function List Lib

abbrev Bytes := List UInt8

/-- What is read of Redis: strings, and the fields `raw` and `imgID` of hashes. -/
structure Redis where
  strings : String → Option Bytes
  hashes : String → Option Bytes × Option Bytes

def cameraKey (keyPrefix cameraName suffix : String) : String := keyPrefix ++ ":" ++ cameraName ++ ":" ++ suffix

def LiveFrameSource.text : LiveFrameSource → String
  | .raw => "raw"
  | .processed => "processed"

def frameCacheKey (cameraName : String) (frameSource : LiveFrameSource) : String :=
  frameSource.text ++ "|" ++ cameraName

structure Frame where
  data : Bytes
  imgID : Bytes

structure CachedDecodedFrame (Image : Type) where
  image : Image
  imgID : Bytes

/-- Where a call of `readDecodedFrameForSource` is, between two steps that other calls or stores can see. -/
inductive Stage (Image : Type) where
  | started
  /-- The picture of a processed frame is there, its id is not. -/
  | readData (frameData : Bytes)
  | readFrame (frameData imgID : Bytes)
  | readFailed (error : String)
  | decoded (image : Image) (imgID : Bytes)
  | returned (result : Except String Image)

structure Call (Image : Type) where
  cameraName : String
  frameSource : LiveFrameSource
  stage : Stage Image

structure MosaicComposer (Image : Type) where
  redis : Redis
  cache : String → Option (CachedDecodedFrame Image)
  calls : Nat → Option (Call Image)
  /-- The processed frames that have been stored for each camera, the last one first. -/
  stored : String → List Frame

inductive FeedAction where
  /-- The transaction of `_store_outputs`. -/
  | store (cameraName : String) (frame : Frame)
  | storeRaw (cameraName : String) (raw imgID : Option Bytes)
  | start (call : Nat) (cameraName : String) (frameSource : LiveFrameSource)
  | advance (call : Nat)
  /-- The command that is next fails. -/
  | fail (call : Nat) (error : String)

namespace MosaicComposer
variable {Image : Type}

def initial : MosaicComposer Image where
  redis := ⟨fun _ => none, fun _ => (none, none)⟩
  cache _ := none
  calls _ := none
  stored _ := []

section
variable (keyPrefix : String) (decode : Bytes → Except String Image)

/-- The first command of `ReadFrame`. -/
def firstRead (redis : Redis) (cameraName : String) : LiveFrameSource → Stage Image
  | .processed =>
    match redis.strings (cameraKey keyPrefix cameraName "processed") with
    | none => .readFailed ("no processed frame available for " ++ cameraName)
    | some frameData => .readData frameData
  | .raw =>
    match redis.hashes (cameraKey keyPrefix cameraName "latest") with
    | (none, _) => .readFailed ("no raw frame available for " ++ cameraName)
    | (some frameData, imgID) => .readFrame frameData (imgID.getD [])

section
variable (mc : MosaicComposer Image)

def next (call : Call Image) : Stage Image :=
  let cached := mc.cache (frameCacheKey call.cameraName call.frameSource)
  match call.stage with
  | .started => firstRead keyPrefix mc.redis call.cameraName call.frameSource
  | .readData frameData =>
    .readFrame frameData ((mc.redis.strings (cameraKey keyPrefix call.cameraName "processed_time")).getD [])
  | .readFailed error =>
    .returned (match cached with
      | some cached => .ok cached.image
      | none => .error error)
  | .readFrame frameData imgID =>
    match cached.filter (·.imgID = imgID) with
    | some cached => .returned (.ok cached.image)
    | none =>
      match decode frameData with
      | .error error => .returned (.error ("jpeg decode: " ++ error))
      | .ok image => .decoded image imgID
  | .decoded image _ => .returned (.ok image)
  | .returned result => .returned result

/-- How a command that fails is reported. -/
def failure (error : String) (call : Call Image) : Stage Image :=
  match call.stage, call.frameSource with
  | .started, .processed => .readFailed ("redis get: " ++ error)
  | .started, .raw => .readFailed ("redis hget: " ++ error)
  | .readData _, _ => .readFailed ("redis get processed time: " ++ error)
  | stage, _ => stage

def setStage (n : Nat) (call : Call Image) (stage : Stage Image) : MosaicComposer Image :=
  { mc with calls := update mc.calls n (some { call with stage := stage }) }

def cacheAfter (call : Call Image) : String → Option (CachedDecodedFrame Image) :=
  match call.stage with
  | .decoded image imgID =>
    update mc.cache (frameCacheKey call.cameraName call.frameSource) (some ⟨image, imgID⟩)
  | _ => mc.cache

def after : FeedAction → MosaicComposer Image
  | .store cameraName frame => {
      mc with
      redis := {
        mc.redis with
        strings := update
          (update mc.redis.strings (cameraKey keyPrefix cameraName "processed") (some frame.data))
          (cameraKey keyPrefix cameraName "processed_time") (some frame.imgID) }
      stored := update mc.stored cameraName (frame :: mc.stored cameraName) }
  | .storeRaw cameraName raw imgID =>
    { mc with
      redis := {
        mc.redis with
        hashes := update mc.redis.hashes (cameraKey keyPrefix cameraName "latest") (raw, imgID) } }
  | .start n cameraName frameSource =>
    { mc with calls := update mc.calls n (some ⟨cameraName, frameSource, .started⟩) }
  | .advance n =>
    match mc.calls n with
    | none => mc
    | some call => { mc.setStage n call (mc.next keyPrefix decode call) with cache := mc.cacheAfter call }
  | .fail n error =>
    match mc.calls n with
    | none => mc
    | some call => mc.setStage n call (failure error call)

/-- The frames that are stored can be decoded, and those of a camera have distinct ids. -/
def Enabled : FeedAction → Prop
  | .store cameraName frame =>
    (∃ image, decode frame.data = .ok image) ∧ frame.imgID ∉ (mc.stored cameraName).map (·.imgID)
  | .start n _ _ => mc.calls n = none
  | .storeRaw .. | .advance _ | .fail .. => True

end

def system : System (MosaicComposer Image) FeedAction :=
  .guarded (· = initial) (Enabled decode) (after keyPrefix decode)

end

end MosaicComposer

theorem cameraKey_inj : cameraKey keyPrefix a suffix = cameraKey keyPrefix b suffix ↔ a = b := by
  simp [cameraKey]

theorem cameraKey_processed_ne (keyPrefix a b : String) :
    cameraKey keyPrefix a "processed" ≠ cameraKey keyPrefix b "processed_time" := by
  intro h
  have hlast := congrArg (fun key => key.toList.reverse.head?) h
  simp [cameraKey] at hlast

theorem frameCacheKey_inj :
    frameCacheKey a frameSource = frameCacheKey b frameSource' ↔ a = b ∧ frameSource = frameSource' := by
  have hne : ∀ c d : String, "raw" ++ "|" ++ c ≠ "processed" ++ "|" ++ d := by
    intro c d h
    have hfirst := congrArg (fun key => key.toList.head?) h
    simp at hfirst
  cases frameSource <;> cases frameSource'
  · simp [frameCacheKey]
  · simpa [frameCacheKey, LiveFrameSource.text] using hne a b
  · simpa [frameCacheKey, LiveFrameSource.text] using (hne b a).symm
  · simp [frameCacheKey]

namespace MosaicComposer
variable {Image : Type} {keyPrefix : String} {decode : Bytes → Except String Image} {mc : MosaicComposer Image}
  {call : Call Image} {frames : List Frame} {frame : Frame} {cameraName : String} {a : FeedAction}

/-- What a call for processed frames has read belongs to one of the frames. Where its id is still to be read, that is
the last one. -/
def Within (decode : Bytes → Except String Image) (frames : List Frame) : Stage Image → Prop
  | .readData frameData => frames.head?.map (·.data) = some frameData
  | .readFrame frameData imgID => ∃ frame ∈ frames, frame.data = frameData ∧ frame.imgID = imgID
  | .decoded image imgID => ∃ frame ∈ frames, decode frame.data = .ok image ∧ frame.imgID = imgID
  | .started | .readFailed _ | .returned _ => True

/-- Redis has the last frame of each camera, and the cache and the calls have pictures with their own ids. -/
structure Coherent (keyPrefix : String) (decode : Bytes → Except String Image) (mc : MosaicComposer Image) : Prop where
  ids : ∀ cameraName, ((mc.stored cameraName).map (·.imgID)).Nodup
  pictures : ∀ cameraName, ∀ frame ∈ mc.stored cameraName, ∃ image, decode frame.data = .ok image
  data : ∀ cameraName,
    mc.redis.strings (cameraKey keyPrefix cameraName "processed") = (mc.stored cameraName).head?.map (·.data)
  time : ∀ cameraName,
    mc.redis.strings (cameraKey keyPrefix cameraName "processed_time") = (mc.stored cameraName).head?.map (·.imgID)
  cached : ∀ cameraName cached, mc.cache (frameCacheKey cameraName .processed) = some cached →
    ∃ frame ∈ mc.stored cameraName, decode frame.data = .ok cached.image ∧ frame.imgID = cached.imgID
  calls : ∀ n call, mc.calls n = some call → call.frameSource = .processed →
    Within decode (mc.stored call.cameraName) call.stage

/-- A frame is not stored while a call for processed frames of the camera has a picture without its id. -/
def Apart (mc : MosaicComposer Image) : FeedAction → Prop
  | .store cameraName _ => ∀ n frameData, mc.calls n ≠ some ⟨cameraName, .processed, .readData frameData⟩
  | _ => True

theorem initial_coherent : Coherent keyPrefix decode initial where
  ids _ := nodup_nil
  pictures _ := nofun
  data _ := rfl
  time _ := rfl
  cached _ _ := nofun
  calls _ _ := nofun

theorem Coherent.eq_of_imgID (h : Coherent keyPrefix decode mc)
    (hframe : frame ∈ mc.stored cameraName) (hframe' : frame' ∈ mc.stored cameraName)
    (hid : frame.imgID = frame'.imgID) : frame = frame' :=
  inj_on_of_nodup_map (h.ids cameraName) hframe hframe' hid

theorem Within.store (h : Within decode frames stage) (hread : ∀ frameData, stage ≠ .readData frameData) :
    Within decode (frame :: frames) stage := by
  cases stage with
  | readData frameData => exact absurd rfl (hread frameData)
  | readFrame frameData imgID =>
    obtain ⟨g, hg, hdata⟩ := h
    exact ⟨g, mem_cons_of_mem _ hg, hdata⟩
  | decoded image imgID =>
    obtain ⟨g, hg, himage⟩ := h
    exact ⟨g, mem_cons_of_mem _ hg, himage⟩
  | started => trivial
  | readFailed error => trivial
  | returned result => trivial

theorem Coherent.next_within (h : Coherent keyPrefix decode mc) (hsource : call.frameSource = .processed)
    (hwithin : Within decode (mc.stored call.cameraName) call.stage) :
    Within decode (mc.stored call.cameraName) (mc.next keyPrefix decode call) := by
  obtain ⟨cameraName, frameSource, stage⟩ := call
  cases hsource
  cases stage with
  | started =>
    rw [next, firstRead, h.data]
    cases hhead : (mc.stored cameraName).head? with
    | none => trivial
    | some frame =>
      simp only [map_some, Within]
      rw [hhead]
      rfl
  | readData frameData =>
    obtain ⟨frame, hhead, rfl⟩ := map_eq_some_iff.1 hwithin
    rw [next, h.time, hhead]
    exact ⟨frame, List.mem_of_head? hhead, rfl, rfl⟩
  | readFrame frameData imgID =>
    obtain ⟨frame, hframe, rfl, rfl⟩ := hwithin
    simp only [next]
    cases (mc.cache (frameCacheKey cameraName .processed)).filter (·.imgID = frame.imgID) with
    | some cached => trivial
    | none =>
      obtain ⟨image, himage⟩ := h.pictures cameraName frame hframe
      rw [himage]
      exact ⟨frame, hframe, himage, rfl⟩
  | readFailed error => trivial
  | decoded image imgID => trivial
  | returned result => trivial

theorem failure_within (error : String) (hwithin : Within decode frames call.stage) :
    Within decode frames (failure error call) := by
  obtain ⟨cameraName, frameSource, stage⟩ := call
  cases stage with
  | started => cases frameSource <;> trivial
  | readData frameData => trivial
  | readFrame frameData imgID => exact hwithin
  | readFailed error => trivial
  | decoded image imgID => exact hwithin
  | returned result => trivial

theorem cacheAfter_eq (mc : MosaicComposer Image) (call : Call Image) (cameraName : String) :
    mc.cacheAfter call (frameCacheKey cameraName .processed) = mc.cache (frameCacheKey cameraName .processed) ∨
      call.cameraName = cameraName ∧ call.frameSource = .processed ∧ ∃ image imgID, call.stage = .decoded image imgID ∧
        mc.cacheAfter call (frameCacheKey cameraName .processed) = some ⟨image, imgID⟩ := by
  obtain ⟨name, source, stage⟩ := call
  cases stage with
  | decoded image imgID =>
    by_cases hkey : frameCacheKey cameraName .processed = frameCacheKey name source
    · right
      obtain ⟨hname, hsource⟩ := frameCacheKey_inj.1 hkey
      refine ⟨hname.symm, hsource.symm, image, imgID, rfl, ?_⟩
      rw [hkey]
      exact update_self ..
    · left
      exact update_of_ne hkey ..
  | started => exact .inl rfl
  | readData frameData => exact .inl rfl
  | readFrame frameData imgID => exact .inl rfl
  | readFailed error => exact .inl rfl
  | returned result => exact .inl rfl

theorem Coherent.setStage {stage : Stage Image} {cache : String → Option (CachedDecodedFrame Image)}
    (h : Coherent keyPrefix decode mc) (n : Nat) (call : Call Image)
    (hcached : ∀ cameraName cached, cache (frameCacheKey cameraName .processed) = some cached →
      ∃ frame ∈ mc.stored cameraName, decode frame.data = .ok cached.image ∧ frame.imgID = cached.imgID)
    (hstage : call.frameSource = .processed → Within decode (mc.stored call.cameraName) stage) :
    Coherent keyPrefix decode { mc.setStage n call stage with cache := cache } where
  ids := h.ids
  pictures := h.pictures
  data := h.data
  time := h.time
  cached := hcached
  calls := by
    intro m other hother
    simp only [MosaicComposer.setStage] at hother
    by_cases hm : m = n
    · rw [hm, update_self] at hother
      cases hother
      exact hstage
    · rw [update_of_ne hm] at hother
      exact h.calls m other hother

theorem Coherent.advance (h : Coherent keyPrefix decode mc) (n : Nat) :
    Coherent keyPrefix decode (after keyPrefix decode mc (.advance n)) := by
  cases hcall : mc.calls n with
  | none => simpa only [after, hcall] using h
  | some call =>
    simp only [after, hcall]
    apply h.setStage
    · intro cameraName cached hcached
      rcases cacheAfter_eq mc call cameraName with hsame | ⟨rfl, hsource, image, imgID, hstage, hnew⟩
      · exact h.cached cameraName cached (hsame.symm.trans hcached)
      · cases some.inj (hnew.symm.trans hcached)
        have hwithin := h.calls n call hcall hsource
        rw [hstage] at hwithin
        exact hwithin
    · intro hsource
      exact h.next_within hsource (h.calls n call hcall hsource)

theorem Coherent.fail (h : Coherent keyPrefix decode mc) (n : Nat) (error : String) :
    Coherent keyPrefix decode (after keyPrefix decode mc (.fail n error)) := by
  cases hcall : mc.calls n with
  | none => simpa only [after, hcall] using h
  | some call =>
    simp only [after, hcall]
    apply h.setStage n call h.cached
    intro hsource
    exact failure_within error (h.calls n call hcall hsource)

theorem strings_store (cameraName' : String) :
    let mc' := after keyPrefix decode mc (.store cameraName frame)
    mc'.redis.strings (cameraKey keyPrefix cameraName' "processed") =
      (if cameraName' = cameraName then some frame.data
        else mc.redis.strings (cameraKey keyPrefix cameraName' "processed")) ∧
    mc'.redis.strings (cameraKey keyPrefix cameraName' "processed_time") =
      if cameraName' = cameraName then some frame.imgID
        else mc.redis.strings (cameraKey keyPrefix cameraName' "processed_time") := by
  have hne := cameraKey_processed_ne keyPrefix
  have hne' : ∀ a b, cameraKey keyPrefix a "processed_time" ≠ cameraKey keyPrefix b "processed" :=
    fun a b => (hne b a).symm
  simp [after, update_apply, hne, hne', cameraKey_inj]

theorem Coherent.store (h : Coherent keyPrefix decode mc) (henabled : Enabled decode mc (.store cameraName frame))
    (hapart : Apart mc (.store cameraName frame)) :
    Coherent keyPrefix decode (after keyPrefix decode mc (.store cameraName frame)) := by
  obtain ⟨hpicture, hid⟩ := henabled
  have hstored : ∀ name, (after keyPrefix decode mc (.store cameraName frame)).stored name =
      if name = cameraName then frame :: mc.stored cameraName else mc.stored name := by
    intro name
    exact update_apply ..
  exact {
    ids := by
      intro name
      rw [hstored]
      split
      · exact nodup_cons.2 ⟨hid, h.ids cameraName⟩
      · exact h.ids name
    pictures := by
      intro name
      rw [hstored]
      split
      · exact forall_mem_cons.2 ⟨hpicture, h.pictures cameraName⟩
      · exact h.pictures name
    data := by
      intro name
      rw [(strings_store name).1, hstored]
      split
      · rfl
      · exact h.data name
    time := by
      intro name
      rw [(strings_store name).2, hstored]
      split
      · rfl
      · exact h.time name
    cached := by
      intro name cached hcached
      obtain ⟨g, hg, hcached⟩ := h.cached name cached hcached
      refine ⟨g, ?_, hcached⟩
      rw [hstored]
      split
      · rename_i heq
        rw [← heq]
        exact mem_cons_of_mem _ hg
      · exact hg
    calls := by
      intro n call hcall hsource
      have hwithin := h.calls n call hcall hsource
      rw [hstored]
      split
      · rename_i heq
        rw [← heq]
        apply hwithin.store
        intro frameData hstage
        apply hapart n frameData
        rw [← heq, ← hsource, ← hstage]
        exact hcall
      · exact hwithin }

theorem Coherent.step (h : Coherent keyPrefix decode mc) (henabled : Enabled decode mc a) (hapart : Apart mc a) :
    Coherent keyPrefix decode (after keyPrefix decode mc a) := by
  cases a with
  | store cameraName frame => exact h.store henabled hapart
  | storeRaw cameraName raw imgID => exact ⟨h.ids, h.pictures, h.data, h.time, h.cached, h.calls⟩
  | start n cameraName frameSource => exact h.setStage n ⟨cameraName, frameSource, .started⟩ h.cached fun _ => trivial
  | advance n => exact h.advance n
  | fail n error => exact h.fail n error

def Shows (decode : Bytes → Except String Image) (frame : Frame) : Stage Image → Prop
  | .started => True
  | .readData frameData => frameData = frame.data
  | .readFrame frameData imgID => frameData = frame.data ∧ imgID = frame.imgID
  | .readFailed _ => False
  | .decoded image imgID => decode frame.data = .ok image ∧ imgID = frame.imgID
  | .returned result => result = decode frame.data

theorem Coherent.cached_eq {cached : CachedDecodedFrame Image} (h : Coherent keyPrefix decode mc)
    (hframe : frame ∈ mc.stored cameraName) (hcached : mc.cache (frameCacheKey cameraName .processed) = some cached)
    (hid : cached.imgID = frame.imgID) : decode frame.data = .ok cached.image := by
  obtain ⟨other, hother, himage, hid'⟩ := h.cached cameraName cached hcached
  rw [h.eq_of_imgID hframe hother (hid.symm.trans hid'.symm)]
  exact himage

theorem Coherent.next_shows {stage : Stage Image} (h : Coherent keyPrefix decode mc)
    (hlast : (mc.stored cameraName).head? = some frame) (hshows : Shows decode frame stage) :
    Shows decode frame (mc.next keyPrefix decode ⟨cameraName, .processed, stage⟩) := by
  have hframe : frame ∈ mc.stored cameraName := List.mem_of_head? hlast
  cases stage with
  | started =>
    rw [next, firstRead, h.data, hlast]
    rfl
  | readData frameData =>
    rw [next, h.time, hlast]
    exact ⟨hshows, rfl⟩
  | readFrame frameData imgID =>
    obtain ⟨rfl, rfl⟩ := hshows
    simp only [next]
    cases hcached : (mc.cache (frameCacheKey cameraName .processed)).filter (·.imgID = frame.imgID) with
    | some cached =>
      obtain ⟨hcached, hid⟩ := filter_eq_some_iff.1 hcached
      exact (h.cached_eq hframe hcached (of_decide_eq_true hid)).symm
    | none =>
      obtain ⟨image, himage⟩ := h.pictures cameraName frame hframe
      rw [himage]
      exact ⟨himage, rfl⟩
  | readFailed error => exact hshows.elim
  | decoded image imgID => exact hshows.1.symm
  | returned result => exact hshows

structure Current (keyPrefix : String) (decode : Bytes → Except String Image) (cameraName : String) (frame : Frame)
    (n : Nat) (mc : MosaicComposer Image) : Prop where
  coherent : Coherent keyPrefix decode mc
  last : (mc.stored cameraName).head? = some frame
  shows : ∃ stage, mc.calls n = some ⟨cameraName, .processed, stage⟩ ∧ Shows decode frame stage

theorem last_after (hlast : (mc.stored cameraName).head? = some frame) (hstore : ∀ other, a ≠ .store cameraName other) :
    ((after keyPrefix decode mc a).stored cameraName).head? = some frame := by
  cases a with
  | store name other =>
    have hname : cameraName ≠ name := by
      rintro rfl
      exact hstore other rfl
    simp only [after]
    rw [update_of_ne hname]
    exact hlast
  | storeRaw name raw imgID => exact hlast
  | start m name frameSource => exact hlast
  | advance m | fail m error =>
    simp only [after]
    split
    · exact hlast
    · exact hlast

theorem Coherent.run
    (h : Coherent keyPrefix decode mc) (hrun : (system keyPrefix decode).Run mc tr mc')
    (hapart : ∀ p ∈ tr, Apart p.1 p.2) : ∀ u ∈ states tr mc', Coherent keyPrefix decode u := by
  refine hrun.forall_states h ?_
  rintro p hp hcoherent u ⟨henabled, rfl⟩
  exact hcoherent.step henabled (hapart p hp)

theorem last_run
    (hlast : (mc.stored cameraName).head? = some frame) (hrun : (system keyPrefix decode).Run mc tr mc')
    (hstore : ∀ p ∈ tr, ∀ other, p.2 ≠ .store cameraName other) :
    (mc'.stored cameraName).head? = some frame := by
  apply hrun.forall_states hlast ?_ mc' (end_mem_states tr mc')
  rintro p hp hlast u ⟨-, rfl⟩
  exact last_after hlast (hstore p hp)

theorem calls_after (hcall : mc.calls n = some call) (henabled : Enabled decode mc a)
    (hadvance : a ≠ .advance n) (hfail : ∀ error, a ≠ .fail n error) :
    (after keyPrefix decode mc a).calls n = some call := by
  cases a with
  | store name other => exact hcall
  | storeRaw name raw imgID => exact hcall
  | start m name frameSource =>
    have hm : n ≠ m := by
      rintro rfl
      cases hcall.symm.trans henabled
    exact (update_of_ne hm ..).trans hcall
  | advance m =>
    have hm : n ≠ m := by
      rintro rfl
      exact hadvance rfl
    simp only [after]
    split
    · exact hcall
    · exact (update_of_ne hm ..).trans hcall
  | fail m error =>
    have hm : n ≠ m := by
      rintro rfl
      exact hfail error rfl
    simp only [after]
    split
    · exact hcall
    · exact (update_of_ne hm ..).trans hcall

theorem Current.step {n : Nat} (h : Current keyPrefix decode cameraName frame n mc) (henabled : Enabled decode mc a)
    (hapart : Apart mc a) (hstore : ∀ other, a ≠ .store cameraName other) (hfail : ∀ error, a ≠ .fail n error) :
    Current keyPrefix decode cameraName frame n (after keyPrefix decode mc a) where
  coherent := h.coherent.step henabled hapart
  last := last_after h.last hstore
  shows := by
    obtain ⟨stage, hcall, hshows⟩ := h.shows
    by_cases hadvance : a = .advance n
    · refine ⟨_, ?_, h.coherent.next_shows h.last hshows⟩
      rw [hadvance]
      simp only [after, hcall]
      exact update_self ..
    · exact ⟨stage, calls_after hcall henabled hadvance hfail, hshows⟩

theorem Current.run
    (h : Current keyPrefix decode cameraName frame n mc) (hrun : (system keyPrefix decode).Run mc tr mc')
    (hapart : ∀ p ∈ tr, Apart p.1 p.2)
    (hmid : ∀ p ∈ tr, (∀ other, p.2 ≠ .store cameraName other) ∧ ∀ error, p.2 ≠ .fail n error) :
    Current keyPrefix decode cameraName frame n mc' := by
  have hstates : ∀ u ∈ states tr mc', Current keyPrefix decode cameraName frame n u := by
    refine hrun.forall_states h ?_
    rintro p hp hcurrent u ⟨henabled, rfl⟩
    exact hcurrent.step henabled (hapart p hp) (hmid p hp).1 (hmid p hp).2
  exact hstates mc' (end_mem_states tr mc')

def remaining : Stage Image → Nat
  | .started => 4
  | .readData _ => 3
  | .readFrame .. => 2
  | .readFailed _ | .decoded .. => 1
  | .returned _ => 0

theorem remaining_next (keyPrefix : String) (decode : Bytes → Except String Image) (mc : MosaicComposer Image)
    (call : Call Image) :
    remaining (mc.next keyPrefix decode call) ≤ remaining call.stage - 1 := by
  obtain ⟨name, source, stage⟩ := call
  cases stage with
  | started =>
    cases source with
    | raw | processed =>
      simp only [next, firstRead]
      split <;> simp [remaining]
  | readData frameData => simp [next, remaining]
  | readFrame frameData imgID =>
    simp only [next]
    split
    · simp [remaining]
    · split <;> simp [remaining]
  | readFailed error => simp [next, remaining]
  | decoded image imgID => simp [next, remaining]
  | returned result => simp [next, remaining]

theorem returns_of_remaining (hcall : mc.calls n = some call) (hk : remaining call.stage ≤ k) :
    ∃ result, (replay (after keyPrefix decode) mc (List.replicate k (.advance n))).2.calls n =
      some ⟨call.cameraName, call.frameSource, .returned result⟩ := by
  induction k generalizing mc call with
  | zero =>
    obtain ⟨name, source, stage⟩ := call
    cases stage with
    | returned result => exact ⟨result, hcall⟩
    | started => cases hk
    | readData frameData => cases hk
    | readFrame frameData imgID => cases hk
    | readFailed error => cases hk
    | decoded image imgID => cases hk
  | succ k ih =>
    have hnext : (after keyPrefix decode mc (.advance n)).calls n =
        some { call with stage := mc.next keyPrefix decode call } := by
      simp only [after, hcall]
      exact update_self ..
    apply ih hnext
    have := remaining_next keyPrefix decode mc call
    simp only
    omega

section
variable (keyPrefix : String) (decode : Bytes → Except String Image)

/-- A call for processed frames has started after a frame was stored and has returned a result before the next one of
the camera was. Its commands have been carried out. -/
def ReadDuring (tr : List (MosaicComposer Image × FeedAction)) (cameraName : String) (frame : Frame) (n : Nat)
    (result : Except String Image) : Prop :=
  ∃ pre mid post mc mc', tr = pre ++ (mc, .store cameraName frame) :: (mid ++ post) ∧
    (system keyPrefix decode).Run (after keyPrefix decode mc (.store cameraName frame)) mid mc' ∧
    (∀ p ∈ mid, (∀ other, p.2 ≠ .store cameraName other) ∧ ∀ error, p.2 ≠ .fail n error) ∧
    (∃ p ∈ mid, p.2 = .start n cameraName .processed) ∧
    mc'.calls n = some ⟨cameraName, .processed, .returned result⟩

/-- Whatever went before, a call that runs while a frame is the last one of its camera returns the frame. -/
def ShowsCurrent (tr : List (MosaicComposer Image × FeedAction)) : Prop :=
  ∀ cameraName frame n result, ReadDuring keyPrefix decode tr cameraName frame n result →
    ∃ image, decode frame.data = .ok image ∧ result = .ok image

/-- However far it is, a call returns after some steps of its own. -/
def Returns (mc : MosaicComposer Image) : Prop :=
  ∀ n call, mc.calls n = some call → ∃ k result,
    (replay (after keyPrefix decode) mc (List.replicate k (.advance n))).2.calls n =
      some ⟨call.cameraName, call.frameSource, .returned result⟩

end

/-- Where no frame is stored while a call has a picture of the camera without its id, the current frame is shown. -/
theorem current_of_apart (keyPrefix : String) (decode : Bytes → Except String Image) {s₀ t : MosaicComposer Image}
    {tr : List (MosaicComposer Image × FeedAction)} (hinit : (system keyPrefix decode).init s₀)
    (hrun : (system keyPrefix decode).Run s₀ tr t) (hapart : ∀ p ∈ tr, Apart p.1 p.2) :
    ShowsCurrent keyPrefix decode tr ∧ ∀ mc ∈ states tr t, Returns keyPrefix decode mc := by
  have hinitial : Coherent keyPrefix decode s₀ := by
    rw [hinit]
    exact initial_coherent
  constructor
  · rintro cameraName frame n result ⟨pre, mid, post, mc, mc', rfl, hsteps, hmid, ⟨p, hp, hstart⟩, hreturned⟩
    have hmem : (mc, .store cameraName frame) ∈ pre ++ (mc, .store cameraName frame) :: (mid ++ post) := by simp
    have hapart' : ∀ p ∈ mid, Apart p.1 p.2 := by
      intro p hp
      apply hapart
      simp [hp]
    -- the store, what happens until the call starts, and what happens then
    have hstored : Coherent keyPrefix decode (after keyPrefix decode mc (.store cameraName frame)) :=
      (hinitial.run hrun hapart mc (mem_states_of_mem hmem)).step (hrun.enabled _ hmem) (hapart _ hmem)
    have hlast : ((after keyPrefix decode mc (.store cameraName frame)).stored cameraName).head? = some frame := by
      simp [after]
    obtain ⟨before, during, rfl⟩ := append_of_mem hp
    obtain ⟨u, hbefore, hduring⟩ := hsteps.of_append
    cases hduring with
    | cons hs hduring =>
      obtain ⟨henabled, rfl⟩ := hs
      simp only at hstart
      subst hstart
      have hcoherent : Coherent keyPrefix decode u := by
        apply hstored.run hbefore _ u (end_mem_states before u)
        intro p hp
        exact hapart' p (mem_append_left _ hp)
      have hlast' : (u.stored cameraName).head? = some frame := by
        apply last_run hlast hbefore
        intro p hp
        exact (hmid p (mem_append_left _ hp)).1
      have hcurrent : Current keyPrefix decode cameraName frame n
          (after keyPrefix decode u (.start n cameraName .processed)) :=
        ⟨hcoherent.step henabled trivial, hlast', .started, update_self .., trivial⟩
      have hend := hcurrent.run hduring
        (fun p hp => hapart' p (mem_append_right _ (mem_cons_of_mem _ hp)))
        (fun p hp => hmid p (mem_append_right _ (mem_cons_of_mem _ hp)))
      obtain ⟨stage, hcall, hshows⟩ := hend.shows
      cases hcall.symm.trans hreturned
      obtain ⟨image, himage⟩ := hend.coherent.pictures cameraName frame (List.mem_of_head? hend.last)
      exact ⟨image, himage, Eq.trans hshows himage⟩
  · intro mc hmc n call hcall
    exact ⟨_, returns_of_remaining hcall le_rfl⟩

def gateFrame : Frame := ⟨[1], [97]⟩

def laterFrame : Frame := ⟨[2], [98]⟩

def apartActions : List FeedAction :=
  [.store "gate" gateFrame, .start 0 "gate" .processed, .advance 0, .advance 0, .advance 0, .advance 0,
    .store "gate" laterFrame, .start 1 "gate" .processed, .advance 1, .advance 1, .advance 1, .advance 1]

theorem current_of_apart_gate :
    ShowsCurrent "camera" Except.ok (replay (after "camera" Except.ok) initial apartActions).1 := by
  have hnew : ([98] : Bytes) ∉ [[97]] := by decide
  have hrun : (system "camera" Except.ok).Run initial (replay (after "camera" Except.ok) initial apartActions).1
      (replay (after "camera" Except.ok) initial apartActions).2 := by
    apply System.run_replay
    simp only [apartActions, replay, forall_mem_cons]
    exact ⟨⟨⟨_, rfl⟩, not_mem_nil⟩, rfl, trivial, trivial, trivial, trivial, ⟨⟨_, rfl⟩, hnew⟩, rfl, trivial, trivial,
      trivial, trivial, forall_mem_nil _⟩
  apply (current_of_apart "camera" Except.ok rfl hrun ?_).1
  simp only [apartActions, replay, forall_mem_cons]
  refine ⟨nofun, trivial, trivial, trivial, trivial, trivial, ?_, trivial, trivial, trivial, trivial, trivial,
    forall_mem_nil _⟩
  rintro (_ | n) frameData h
  · cases h
  · cases h

def torn : List FeedAction := [.store "gate" gateFrame, .start 0 "gate" .processed, .advance 0]

def afterTorn : List FeedAction :=
  [.advance 0, .advance 0, .advance 0, .start 1 "gate" .processed, .advance 1, .advance 1, .advance 1]

def gateAfter : MosaicComposer Bytes → FeedAction → MosaicComposer Bytes := after "camera" Except.ok

def tornComposer : MosaicComposer Bytes := (replay gateAfter initial torn).2

/-- The first picture stays in the cache under the second id. -/
theorem earlier_frame_shown :
    ∃ tr t, (system "camera" Except.ok).Run initial tr t ∧ ¬ ShowsCurrent "camera" Except.ok tr := by
  have hnew : ([98] : Bytes) ∉ [[97]] := by decide
  have hbefore : (system "camera" Except.ok).Run initial (replay gateAfter initial torn).1 tornComposer := by
    apply System.run_replay
    simp only [torn, replay, forall_mem_cons]
    exact ⟨⟨⟨_, rfl⟩, not_mem_nil⟩, rfl, trivial, forall_mem_nil _⟩
  have hstore : (system "camera" Except.ok).step tornComposer (.store "gate" laterFrame)
      (gateAfter tornComposer (.store "gate" laterFrame)) := ⟨⟨⟨_, rfl⟩, hnew⟩, rfl⟩
  have hduring : (system "camera" Except.ok).Run (gateAfter tornComposer (.store "gate" laterFrame))
      (replay gateAfter (gateAfter tornComposer (.store "gate" laterFrame)) afterTorn).1
      (replay gateAfter (gateAfter tornComposer (.store "gate" laterFrame)) afterTorn).2 := by
    apply System.run_replay
    simp only [afterTorn, replay, forall_mem_cons]
    exact ⟨trivial, trivial, trivial, rfl, trivial, trivial, trivial, forall_mem_nil _⟩
  refine ⟨_, _, hbefore.append (.cons hstore hduring), ?_⟩
  intro h
  obtain ⟨image, himage, hresult⟩ := h "gate" laterFrame 1 (.ok gateFrame.data)
    ⟨_, _, [], tornComposer, _, by rw [append_nil], hduring, by simp [afterTorn, replay],
      by simp [afterTorn, replay], rfl⟩
  cases himage
  cases hresult

end MosaicComposer

end Trakrai.LiveFeed
