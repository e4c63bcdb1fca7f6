import Trakrai.CloudTransfer.Paths
import Trakrai.Storage.DeviceSession

namespace Trakrai.Storage
open String List Lib CloudTransfer Backend

structure DeviceId (deviceId : String) : Prop where
  plain : plainName deviceId = true
  trimmed : jsTrim deviceId = deviceId

def objectKey (deviceId path : String) : String := deviceStoragePrefix ++ "/" ++ deviceId ++ "/" ++ path

/-- What the cloud answers to the request of a device for a normalized path. -/
def presign (deviceId : String) (contentType : Option String) (path : String) :
    Except TrpcError SignOptions :=
  signDeviceFile ⟨deviceId, sentPath path, contentType⟩

section
variable {deviceId path value fieldName : String} {contentType : Option String} {names segments : List String}

theorem objectKey_inj (h : objectKey deviceId path = objectKey deviceId path') : path = path' := by
  have hlist := congrArg String.toList h
  simp only [objectKey, toList_append, append_cancel_left_eq] at hlist
  exact toList_inj.1 hlist

theorem trimWith_slash_of_plain (h : plainName value = true) : trimWith (· == '/') value = value := by
  apply trimWith_of_forall
  intro c hc he
  exact (plainName_iff.1 h).2 (beq_iff_eq.1 he ▸ hc)

theorem DeviceId.normalizeSegments_eq (h : DeviceId deviceId) (fieldName : String) :
    normalizeSegments deviceId fieldName = .ok [deviceId] := by
  obtain ⟨hproper, hslash⟩ := plainName_iff.1 h.plain
  have hall : [deviceId].all properSegment = true := by rw [all_cons, hproper]; rfl
  simp only [normalizeSegments, h.trimmed, trimWith_slash_of_plain h.plain,
    if_neg (properSegment_iff.1 hproper).1, jsSplit_of_not_mem hslash, hall, if_true]

theorem normalizeSegments_remoteName (h : RemoteName path names) (htrim : jsTrim path = path)
    (fieldName : String) : normalizeSegments path fieldName = .ok names := by
  have hslash : trimWith (· == '/') path = path := by
    obtain ⟨⟨first, hfirst, hne⟩, last, hlast, hne'⟩ := h.ends
    apply trimWith_of_ends
    · rw [hfirst]
      simpa using hne
    · rw [hlast]
      simpa using hne'
  have hall : names.all properSegment = true :=
    all_eq_true.2 fun name hname => (plainName_iff.1 (h.plain name hname)).1
  simp only [normalizeSegments, htrim, hslash, if_neg h.ne_empty, h.jsSplit_eq, hall, if_true]

theorem jsJoin_of_normalizeSegments (h : normalizeSegments value fieldName = .ok segments) :
    jsJoin '/' segments = trimWith (· == '/') (jsTrim value) := by
  rw [(normalizeSegments_ok h).1, jsJoin_jsSplit]

theorem joinKey_eq (hid : DeviceId deviceId) (hne : segments ≠ [])
    (h : ∀ segment ∈ segments, properSegment segment ∧ '/' ∉ segment.toList) :
    joinKey deviceStoragePrefix (deviceId :: segments) = objectKey deviceId (jsJoin '/' segments) := by
  obtain ⟨first, rest, rfl⟩ := exists_cons_of_ne_nil hne
  have hall : ∀ segment ∈ deviceStoragePrefix :: deviceId :: first :: rest,
      properSegment segment ∧ '/' ∉ segment.toList :=
    forall_mem_cons.2 ⟨by decide, forall_mem_cons.2 ⟨plainName_iff.1 hid.plain, h⟩⟩
  rw [joinKey, posixJoin_proper hall]
  apply toList_inj.1
  rw [toList_jsJoin_cons_cons, toList_jsJoin_cons_cons, objectKey]
  simp

theorem presign_eq_ok_iff (hid : DeviceId deviceId) (h : RemoteName path names) :
    presign deviceId contentType path = .ok options ↔ ∃ segments, normalizeSegments path "path" = .ok segments ∧
      options = ⟨"device", contentType, objectKey deviceId (jsJoin '/' segments)⟩ := by
  have hdevice := hid.normalizeSegments_eq "deviceId"
  simp only [presign, signDeviceFile, h.sentPath_eq, bind_eq_ok_iff]
  constructor
  · rintro ⟨deviceSegments, hds, segments, hsegments, hoptions⟩
    cases hdevice.symm.trans hds
    obtain ⟨-, hne, hall⟩ := normalizeSegments_ok hsegments
    refine ⟨segments, hsegments, ?_⟩
    rw [← joinKey_eq hid hne hall]
    exact (Except.ok.inj hoptions).symm
  · rintro ⟨segments, hsegments, rfl⟩
    obtain ⟨-, hne, hall⟩ := normalizeSegments_ok hsegments
    refine ⟨[deviceId], hdevice, segments, hsegments, ?_⟩
    rw [← joinKey_eq hid hne hall]
    rfl

theorem length_trimWith_le (p : Char → Bool) (s : String) : (trimWith p s).length ≤ s.length := by
  rw [trimWith, ← length_toList, ← length_toList, toList_ofList]
  exact ((List.rdropWhile_prefix _ _).sublist.trans (dropWhile_sublist _)).length_le

theorem jsTrim_of_normalizeSegments (h : normalizeSegments path fieldName = .ok segments)
    (heq : jsJoin '/' segments = path) : jsTrim path = path := by
  apply trimWith_of_length
  rw [← jsTrim]
  conv_lhs => rw [← heq, jsJoin_of_normalizeSegments h]
  exact length_trimWith_le _ _

theorem presign_objectKey_iff (hid : DeviceId deviceId) (h : RemoteName path names) :
    presign deviceId contentType path = .ok ⟨"device", contentType, objectKey deviceId path⟩ ↔
      jsTrim path = path := by
  rw [presign_eq_ok_iff hid h]
  constructor
  · rintro ⟨segments, hsegments, hoptions⟩
    have hkey := congrArg SignOptions.key hoptions
    exact jsTrim_of_normalizeSegments hsegments (objectKey_inj hkey).symm
  · intro htrim
    exact ⟨names, normalizeSegments_remoteName h htrim "path", by rw [← h.eq]⟩

/-- The cloud names the object of a path as the device does exactly when there is nothing to trim at the
ends of the path, and two such paths name different objects. -/
theorem object_keys_agree_iff (deviceId : String) (contentType : Option String) (hid : DeviceId deviceId) :
    (∀ raw path, normalizeRemotePath raw = .ok path →
      (presign deviceId contentType path = .ok ⟨"device", contentType, objectKey deviceId path⟩ ↔
        jsTrim path = path)) ∧
      ∀ raw raw' path path' options options',
        normalizeRemotePath raw = .ok path → normalizeRemotePath raw' = .ok path' →
        jsTrim path = path → jsTrim path' = path' →
        presign deviceId contentType path = .ok options → presign deviceId contentType path' = .ok options' →
        options.key = options'.key → path = path' := by
  constructor
  · intro raw path h
    obtain ⟨names, hname⟩ := remoteName_of_normalize h
    exact presign_objectKey_iff hid hname
  · intro raw raw' path path' options options' h h' htrim htrim' hsigned hsigned' hkey
    obtain ⟨names, hname⟩ := remoteName_of_normalize h
    obtain ⟨names', hname'⟩ := remoteName_of_normalize h'
    rw [(presign_objectKey_iff hid hname).2 htrim] at hsigned
    rw [(presign_objectKey_iff hid hname').2 htrim'] at hsigned'
    cases hsigned
    cases hsigned'
    exact objectKey_inj hkey

end

theorem object_keys_agree_iff_clip :
    presign "d1" none "captures/clip.mp4" = .ok ⟨"device", none, objectKey "d1" "captures/clip.mp4"⟩ :=
  ((object_keys_agree_iff "d1" none ⟨by decide, by decide⟩).1 "captures//clip.mp4" "captures/clip.mp4"
    (by decide)).2 (by decide)

/-- Two normalized paths of a device name one object. -/
theorem one_object_of_two_paths : ¬ ∀ deviceId contentType raw raw' path path' options options',
    DeviceId deviceId → normalizeRemotePath raw = .ok path → normalizeRemotePath raw' = .ok path' →
    presign deviceId contentType path = .ok options → presign deviceId contentType path' = .ok options' →
    options.key = options'.key → path = path' := by
  intro h
  have hsame := h "d1" none "clip.mp4 /." "clip.mp4" "clip.mp4 " "clip.mp4"
    ⟨"device", none, objectKey "d1" "clip.mp4"⟩ ⟨"device", none, objectKey "d1" "clip.mp4"⟩
    ⟨by decide, by decide⟩ (by decide) (by decide) (by rfl) (by rfl) rfl
  exact absurd hsame (by decide)

end Trakrai.Storage
