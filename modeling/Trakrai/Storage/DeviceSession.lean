import Trakrai.Lib.Except
import Trakrai.Lib.Json
import Trakrai.Lib.Path
import Trakrai.Authz.Laws
import Trakrai.Backend.Schema

namespace Trakrai.Storage
open List Lib Authz Backend

def deviceStoragePrefix : String := "devices"

def normalizeSegments (value fieldName : String) : Except TrpcError (List String) :=
  let normalized := trimWith (· == '/') (jsTrim value)
  if normalized = "" then .error (.badRequest (fieldName ++ " is required"))
  else
    let segments := jsSplit '/' normalized
    if segments.all properSegment then .ok segments
    else .error (.badRequest (fieldName ++
      " must not contain empty, current-directory, or parent-directory segments"))

def joinKey (prefixValue : String) (segments : List String) : String :=
  posixJoin (prefixValue :: segments)

/-- What the middleware reads of a request. The session is the answer of `getSession`. -/
structure Context where
  devices : List DeviceRow
  authorization : Option String
  session : Option User

def readDeviceIdFromInput (input : Json) : Option String :=
  match (input.field "deviceId").bind Json.string? with
  | none => none
  | some candidate => if jsTrim candidate ≠ "" then some (jsTrim candidate) else none

def readBearerToken (authorization : Option String) : Option String :=
  let headerValue := (authorization.getD "").toList
  let matchedToken :=
    if "Bearer ".toList.isPrefixOf headerValue then
      jsTrim (String.ofList (headerValue.drop "Bearer ".length))
    else ""
  if matchedToken = "" then none else some matchedToken

def deviceProcedure (ctx : Context) (rawInput : Json) : Except TrpcError DeviceRow :=
  match readDeviceIdFromInput rawInput with
  | none => .error (.badRequest "deviceId is required for device-authenticated routes.")
  | some deviceId =>
    let foundDevice :=
      match readBearerToken ctx.authorization with
      | some accessToken => ctx.devices.find? fun device =>
          device.accessToken == accessToken && device.isActive && device.id == deviceId
      | none =>
        match ctx.session with
        | some _ => ctx.devices.find? fun device => device.isActive && device.id == deviceId
        | none => none
    match foundDevice with
    | none => .error (.unauthorized "Device access token is missing or invalid.")
    | some device => .ok device

inductive Route where
  | createDeviceDownloadSession
  | createDeviceUploadSession
deriving DecidableEq

structure FileInput where
  deviceId : String
  path : String
  contentType : Option String

/-- `z.string().min(1)` on a property of the raw input. -/
def requiredString (name : String) (input : Json) : Except TrpcError String :=
  match (input.field name).bind Json.string? with
  | some value => if value = "" then .error (.badRequest name) else .ok value
  | none => .error (.badRequest name)

/-- `z.string().min(1).optional()`. -/
def optionalString (name : String) (input : Json) : Except TrpcError (Option String) :=
  match input.field name with
  | none => .ok none
  | some _ => (requiredString name input).map some

def Route.parse : Route → Json → Except TrpcError FileInput
  | .createDeviceDownloadSession, input => do
    let deviceId ← requiredString "deviceId" input
    let path ← requiredString "path" input
    return ⟨deviceId, path, none⟩
  | .createDeviceUploadSession, input => do
    let contentType ← optionalString "contentType" input
    let deviceId ← requiredString "deviceId" input
    let path ← requiredString "path" input
    return ⟨deviceId, path, some (contentType.getD "application/octet-stream")⟩

/-- The options that the storage provider is asked to sign a URL for. -/
structure SignOptions where
  accessTarget : String
  contentType : Option String
  key : String

def signDeviceFile (input : FileInput) : Except TrpcError SignOptions := do
  let deviceSegments ← normalizeSegments input.deviceId "deviceId"
  let pathSegments ← normalizeSegments input.path "path"
  return {
    accessTarget := "device"
    contentType := input.contentType
    key := joinKey deviceStoragePrefix (deviceSegments ++ pathSegments) }

def Route.answer (route : Route) (ctx : Context) (rawInput : Json) :
    Except TrpcError SignOptions := do
  let _ ← deviceProcedure ctx rawInput
  let input ← route.parse rawInput
  signDeviceFile input

/-- The key lies strictly under the directory of the device and has only proper segments. -/
def KeyUnder (deviceId key : String) : Prop :=
  ∃ rest, rest ≠ [] ∧ jsSplit '/' key = deviceStoragePrefix :: deviceId :: rest ∧
    ∀ segment ∈ jsSplit '/' key, properSegment segment

/-- What `devices.getById` asks of a signed-in user. -/
def HasAccess (store : TupleKey → Prop) (user : User) (deviceId : String) : Prop :=
  isSysAdminRole user.role ∨
    check store (createAuthzUser user.id) .canNavigate (createAuthzObject .device deviceId)

/-- The caller presented the token of the device or is signed in and has access to it. -/
def Entitled (store : TupleKey → Prop) (ctx : Context) (device : DeviceRow) : Prop :=
  readBearerToken ctx.authorization = some device.accessToken ∨
    ∃ user, ctx.session = some user ∧ HasAccess store user device.id

theorem normalizeSegments_ok (h : normalizeSegments value fieldName = .ok segments) :
    segments = jsSplit '/' (trimWith (· == '/') (jsTrim value)) ∧ segments ≠ [] ∧
      ∀ s ∈ segments, properSegment s ∧ '/' ∉ s.toList := by
  unfold normalizeSegments at h
  generalize hn : trimWith (· == '/') (jsTrim value) = normalized at h ⊢
  by_cases he : normalized = ""
  · rw [if_pos he] at h
    cases h
  · rw [if_neg he] at h
    by_cases hproper : (jsSplit '/' normalized).all properSegment
    · rw [if_pos hproper] at h
      cases h
      refine ⟨rfl, ?_, ?_⟩
      · simp only [jsSplit, ne_eq, map_eq_nil_iff]
        exact splitOnPPrepend_ne_nil _ _ _
      · intro s hs
        exact ⟨all_eq_true.1 hproper s hs, not_mem_of_mem_jsSplit hs⟩
    · rw [if_neg hproper] at h
      cases h

theorem trimWith_of_forall (h : ∀ c ∈ s.toList, ¬ p c) : trimWith p s = s := by
  have hd : s.toList.dropWhile p = s.toList := by
    rw [dropWhile_eq_self_iff]
    exact fun hl => h _ (getElem_mem hl)
  have hr : s.toList.rdropWhile p = s.toList := by
    rw [rdropWhile_eq_self_iff]
    exact fun hl => h _ (getLast_mem hl)
  rw [trimWith, hd, hr, String.ofList_toList]

theorem normalizeSegments_id (hid : '/' ∉ (jsTrim value).toList)
    (h : normalizeSegments value fieldName = .ok segments) : segments = [jsTrim value] := by
  rw [(normalizeSegments_ok h).1, trimWith_of_forall, jsSplit_of_not_mem hid]
  intro c hc he
  exact hid (beq_iff_eq.1 he ▸ hc)

theorem deviceProcedure_ok (h : deviceProcedure ctx rawInput = .ok device) :
    device ∈ ctx.devices ∧ device.isActive ∧ readDeviceIdFromInput rawInput = some device.id ∧
      (readBearerToken ctx.authorization = some device.accessToken ∨
        readBearerToken ctx.authorization = none ∧ ctx.session.isSome) := by
  unfold deviceProcedure at h
  split at h
  · cases h
  · rename_i deviceId hid
    simp only at h
    cases ht : readBearerToken ctx.authorization with
    | some token =>
      rw [ht] at h
      simp only at h
      split at h
      · cases h
      · rename_i found hf
        cases h
        have hp := List.find?_some hf
        simp only [Bool.and_eq_true, beq_iff_eq] at hp
        obtain ⟨⟨htoken, hactive⟩, rfl⟩ := hp
        exact ⟨List.mem_of_find?_eq_some hf, hactive, hid, .inl (by rw [htoken])⟩
    | none =>
      rw [ht] at h
      simp only at h
      cases hs : ctx.session with
      | none =>
        rw [hs] at h
        cases h
      | some user =>
        rw [hs] at h
        simp only at h
        split at h
        · cases h
        · rename_i found hf
          cases h
          have hp := List.find?_some hf
          simp only [Bool.and_eq_true, beq_iff_eq] at hp
          obtain ⟨hactive, rfl⟩ := hp
          exact ⟨List.mem_of_find?_eq_some hf, hactive, hid, .inr ⟨rfl, rfl⟩⟩

theorem parse_deviceId {route : Route} (h : route.parse rawInput = .ok input) :
    (rawInput.field "deviceId").bind Json.string? = some input.deviceId := by
  have hreq {value : String} (hv : requiredString "deviceId" rawInput = .ok value) :
      (rawInput.field "deviceId").bind Json.string? = some value := by
    unfold requiredString at hv
    split at hv
    · rename_i value' hs
      split at hv
      · cases hv
      · cases hv
        exact hs
    · cases hv
  cases route with
  | createDeviceDownloadSession =>
    obtain ⟨deviceId, hd, h⟩ := bind_ok h
    obtain ⟨path, _, h⟩ := bind_ok h
    cases h
    exact hreq hd
  | createDeviceUploadSession =>
    obtain ⟨contentType, _, h⟩ := bind_ok h
    obtain ⟨deviceId, hd, h⟩ := bind_ok h
    obtain ⟨path, _, h⟩ := bind_ok h
    cases h
    exact hreq hd

theorem readDeviceIdFromInput_some
    (h : readDeviceIdFromInput input = some deviceId) (hc : (input.field "deviceId").bind Json.string?
      = some candidate) : deviceId = jsTrim candidate := by
  simp only [readDeviceIdFromInput, hc] at h
  split at h
  · exact (Option.some.inj h).symm
  · cases h

theorem keyUnder_joinKey (hid : '/' ∉ deviceId.toList) (hp : properSegment deviceId)
    (hne : segments ≠ []) (hs : ∀ s ∈ segments, properSegment s ∧ '/' ∉ s.toList) :
    KeyUnder deviceId (joinKey deviceStoragePrefix (deviceId :: segments)) := by
  have hall : ∀ s ∈ deviceStoragePrefix :: deviceId :: segments,
      properSegment s ∧ '/' ∉ s.toList := by
    intro s hmem
    rcases mem_cons.1 hmem with rfl | hmem
    · exact ⟨by decide, by decide⟩
    · rcases mem_cons.1 hmem with rfl | hmem
      · exact ⟨hp, hid⟩
      · exact hs s hmem
  have hsplit : jsSplit '/' (joinKey deviceStoragePrefix (deviceId :: segments)) =
      deviceStoragePrefix :: deviceId :: segments := by
    rw [joinKey, posixJoin_proper hall]
    exact jsSplit_jsJoin (fun s hmem => (hall s hmem).2) (cons_ne_nil _ _)
  refine ⟨segments, hne, hsplit, ?_⟩
  rw [hsplit]
  exact fun s hmem => (hall s hmem).1

theorem answer_ok {route : Route} (h : route.answer ctx rawInput = .ok options)
    (hids : ∀ device ∈ ctx.devices, '/' ∉ device.id.toList) :
    ∃ device, deviceProcedure ctx rawInput = .ok device ∧ KeyUnder device.id options.key := by
  obtain ⟨device, hd, h⟩ := bind_ok h
  obtain ⟨input, hi, h⟩ := bind_ok h
  obtain ⟨deviceSegments, hds, h⟩ := bind_ok h
  obtain ⟨pathSegments, hps, h⟩ := bind_ok h
  cases h
  obtain ⟨hmem, _, hread, _⟩ := deviceProcedure_ok hd
  have hid := hids device hmem
  have htrim := readDeviceIdFromInput_some hread (parse_deviceId hi)
  have hsegment := normalizeSegments_id (htrim ▸ hid) hds
  obtain ⟨_, _, hproper⟩ := normalizeSegments_ok hds
  obtain ⟨_, hne, hpath⟩ := normalizeSegments_ok hps
  rw [hsegment, ← htrim] at hproper ⊢
  exact ⟨device, hd, keyUnder_joinKey hid (hproper _ (mem_singleton_self _)).1 hne hpath⟩

theorem KeyUnder.unique (h : KeyUnder deviceId key) (h' : KeyUnder deviceId' key) :
    deviceId = deviceId' := by
  obtain ⟨_, _, hs, _⟩ := h
  obtain ⟨_, _, hs', _⟩ := h'
  have he := hs.symm.trans hs'
  simp only [List.cons.injEq, true_and] at he
  exact he.1

/-- An answered request stays inside one active device that its caller is entitled to exactly
when it carries a bearer token or its user has access to the device that it names. -/
theorem device_session_isolated_iff (store : TupleKey → Prop) (route : Route) (ctx : Context)
    (rawInput : Json) (options : SignOptions)
    (hids : ∀ device ∈ ctx.devices, '/' ∉ device.id.toList)
    (h : route.answer ctx rawInput = .ok options) :
    (∃ device ∈ ctx.devices, device.isActive ∧ KeyUnder device.id options.key ∧
      Entitled store ctx device) ↔
    (readBearerToken ctx.authorization).isSome ∨ ∃ user ∈ ctx.session,
      ∃ deviceId ∈ readDeviceIdFromInput rawInput, HasAccess store user deviceId := by
  obtain ⟨device, hd, hkey⟩ := answer_ok h hids
  obtain ⟨hmem, hactive, hread, hauth⟩ := deviceProcedure_ok hd
  constructor
  · rintro ⟨device', _, _, hkey', hentitled⟩
    rcases hentitled with htoken | ⟨user, huser, haccess⟩
    · exact .inl (by rw [htoken]; rfl)
    · rw [hkey'.unique hkey] at haccess
      exact .inr ⟨user, huser, device.id, hread, haccess⟩
  · intro hcond
    refine ⟨device, hmem, hactive, hkey, ?_⟩
    rcases hauth with htoken | ⟨hnone, _⟩
    · exact .inl htoken
    · rcases hcond with hsome | ⟨user, huser, deviceId, hid, haccess⟩
      · rw [hnone] at hsome
        cases hsome
      · cases hread.symm.trans hid
        exact .inr ⟨user, huser, haccess⟩

def sampleContext (authorization : Option String) (session : Option User) : Context where
  devices := [⟨"d1", "p1", "Camera", none, "token", true⟩]
  authorization := authorization
  session := session

def sampleInput : Json := .obj [("deviceId", .str " d1 "), ("path", .str "/logs/a.txt")]

theorem device_session_isolated_by_token :
    ∃ device ∈ (sampleContext (some "Bearer token") none).devices, device.isActive ∧
      KeyUnder device.id "devices/d1/logs/a.txt" ∧
      Entitled (fun _ => False) (sampleContext (some "Bearer token") none) device :=
  (device_session_isolated_iff (fun _ => False) .createDeviceDownloadSession
    (sampleContext (some "Bearer token") none) sampleInput
    ⟨"device", none, "devices/d1/logs/a.txt"⟩ (by decide) (by rfl)).2 (.inl (by decide))

/-- Any signed-in user gets a URL into any device. -/
theorem device_session_not_isolated :
    ¬ ∀ (store : TupleKey → Prop) (route : Route) (ctx : Context) (rawInput : Json)
      (options : SignOptions), (∀ device ∈ ctx.devices, '/' ∉ device.id.toList) →
      route.answer ctx rawInput = .ok options →
      ∃ device ∈ ctx.devices, device.isActive ∧ KeyUnder device.id options.key ∧
        Entitled store ctx device := by
  intro hall
  obtain ⟨device, _, _, _, hentitled⟩ := hall (fun _ => False) .createDeviceUploadSession
    (sampleContext none (some ⟨"stranger", some "user"⟩)) sampleInput
    ⟨"device", some "application/octet-stream", "devices/d1/logs/a.txt"⟩ (by decide) (by rfl)
  rcases hentitled with htoken | ⟨user, huser, hadmin | hnavigate⟩
  · have hnone : readBearerToken none = none := by decide
    cases hnone.symm.trans htoken
  · cases huser
    revert hadmin
    decide
  · exact not_related_of_empty (fun _ h => h) hnavigate

end Trakrai.Storage
