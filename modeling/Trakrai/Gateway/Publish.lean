import Mathlib.Data.Char
import Mathlib.Data.Finset.Dedup
import Mathlib.Data.List.Lex
import Mathlib.Data.List.Sort
import Mathlib.Data.Nat.Basic
import Trakrai.Backend.Schema
import Trakrai.Lib.Text

namespace Trakrai.Gateway
open List Lib Backend

structure DeviceGatewayAccessTokenPayload where
  allowedSelectors : List String
  allowedServiceNames : List String
  deviceId : String
  userId : String
deriving DecidableEq

/-- Signing and verification of a token, as the JWT library documents them: a valid token is
verified to the payload that was signed. -/
structure Jwt (Token : Type) where
  sign : DeviceGatewayAccessTokenPayload → Token
  verify : Token → Option DeviceGatewayAccessTokenPayload
  verify_sign : ∀ payload, verify (sign payload) = some payload

def normalizeStringList (values : List String) : List String :=
  ((values.map jsTrim).filter (· != "")).eraseDups.insertionSort fun s t => utf16 s ≤ utf16 t

theorem mem_normalizeStringList : s ∈ normalizeStringList values ↔
    s ≠ "" ∧ ∃ value ∈ values, jsTrim value = s := by
  simp only [normalizeStringList, mem_insertionSort, mem_eraseDups, mem_filter,
    mem_map, bne_iff_ne, and_comm]

theorem mem_normalizeStringList_twice :
    s ∈ normalizeStringList (normalizeStringList values) ↔ s ∈ normalizeStringList values := by
  rw [mem_normalizeStringList, mem_normalizeStringList]
  constructor
  · rintro ⟨hs, value, hv, rfl⟩
    obtain ⟨_, value', hv', rfl⟩ := mem_normalizeStringList.1 hv
    exact ⟨hs, value', hv', (jsTrim_idem value').symm⟩
  · rintro ⟨hs, value, hv, rfl⟩
    exact ⟨hs, jsTrim value, mem_normalizeStringList.2 ⟨hs, value, hv, rfl⟩, jsTrim_idem value⟩

def createTransportActionSelector (serviceName subtopic type : String) : Option String :=
  let normalizedServiceName := jsTrim serviceName
  let normalizedSubtopic := jsTrim subtopic
  let normalizedType := jsTrim type
  if normalizedServiceName = "" ∨ normalizedSubtopic = "" ∨ normalizedType = "" ∨
      ':' ∈ normalizedServiceName.toList ∨ ':' ∈ normalizedSubtopic.toList ∨
      ':' ∈ normalizedType.toList then none
  else some (normalizedServiceName ++ ":" ++ normalizedSubtopic ++ ":" ++ normalizedType)

theorem createTransportActionSelector_trim (serviceName subtopic type : String) :
    createTransportActionSelector (jsTrim serviceName) (jsTrim subtopic) (jsTrim type) =
      createTransportActionSelector serviceName subtopic type := by
  simp only [createTransportActionSelector, jsTrim_idem]

theorem createTransportActionSelector_some
    (h : createTransportActionSelector serviceName subtopic type = some selector) :
    jsTrim subtopic ≠ "" ∧ jsTrim type ≠ "" ∧ ':' ∈ selector.toList := by
  unfold createTransportActionSelector at h
  simp only at h
  split at h
  · cases h
  · rename_i hn
    simp only [not_or] at hn
    cases h
    exact ⟨hn.2.1, hn.2.2.1, by simp [String.toList_append]⟩

def signDeviceGatewayAccessToken (jwt : Jwt Token) (payload : DeviceGatewayAccessTokenPayload) :
    Token :=
  jwt.sign {
    allowedSelectors := normalizeStringList payload.allowedSelectors
    allowedServiceNames := normalizeStringList payload.allowedServiceNames
    deviceId := jsTrim payload.deviceId
    userId := jsTrim payload.userId }

def verifyDeviceGatewayAccessToken (jwt : Jwt Token) (token : Token) :
    Option DeviceGatewayAccessTokenPayload :=
  match jwt.verify token with
  | none => none
  | some payload =>
    let userId := jsTrim payload.userId
    let deviceId := jsTrim payload.deviceId
    if userId = "" ∨ deviceId = "" then none
    else some {
      allowedSelectors := normalizeStringList payload.allowedSelectors
      allowedServiceNames := normalizeStringList payload.allowedServiceNames
      deviceId := deviceId
      userId := userId }

theorem verify_sign_cases
    (h : verifyDeviceGatewayAccessToken jwt (signDeviceGatewayAccessToken jwt payload)
      = some parsed) :
    (∀ s, s ∈ parsed.allowedSelectors ↔ s ∈ normalizeStringList payload.allowedSelectors) ∧
    (∀ s, s ∈ parsed.allowedServiceNames ↔ s ∈ normalizeStringList payload.allowedServiceNames) ∧
    parsed.deviceId = jsTrim payload.deviceId := by
  simp only [verifyDeviceGatewayAccessToken, signDeviceGatewayAccessToken, jwt.verify_sign] at h
  split at h
  · cases h
  · cases h
    exact ⟨fun s => mem_normalizeStringList_twice, fun s => mem_normalizeStringList_twice,
      jsTrim_idem _⟩

/-- The tables that `getDeviceComponentAccessForUser` reads. -/
structure Tables where
  devices : List DeviceRow
  catalog : List CatalogRow
  installations : List InstallationRow

/-- What OpenFGA answers about a user: three checks on the device, and the ids of the
components that the user can read and write. -/
structure Answers where
  canNavigate : Bool
  canRead : Bool
  canManageUsers : Bool
  readableComponentIds : Finset String
  writableComponentIds : Finset String

/-- `listUserAuthorizedObjectIds` on the objects of a response. -/
def authorizedObjectIds (objects : List String) : Finset String :=
  (((objects.map fun objectName => (jsSplit ':' objectName).getD 1 "").map jsTrim).filter
    (· != "")).toFinset

inductive AccessLevel where
  | read
  | write
deriving DecidableEq

structure DeviceComponentAccessRecord where
  accessLevel : AccessLevel
  componentKey : String
  description : Option String
  enabled : Bool
  id : String
  navigationLabel : String
  readActions : List String
  rendererKey : Option String
  routePath : Option String
  serviceName : String
  sortOrder : Int
  writeActions : List String

def Tables.installationRows (db : Tables) (deviceRecordId : String) :
    List (InstallationRow × CatalogRow) :=
  (db.installations.filter (·.deviceId == deviceRecordId)).flatMap fun installation =>
    (db.catalog.filter (·.key == installation.componentKey)).map fun entry => (installation, entry)

structure Viewer where
  userId : String
  isSysadmin : Bool
  answers : Answers

section
variable (viewer : Viewer)

section
variable (row : InstallationRow × CatalogRow)

def Viewer.hasReadAccess : Bool :=
  viewer.isSysadmin || viewer.answers.canRead ||
    decide (row.1.id ∈ viewer.answers.readableComponentIds)

def Viewer.hasWriteAccess : Bool :=
  viewer.isSysadmin || decide (row.1.id ∈ viewer.answers.writableComponentIds)

def Viewer.accessRecord : DeviceComponentAccessRecord where
  accessLevel := if viewer.hasWriteAccess row then .write else .read
  componentKey := row.1.componentKey
  description := row.2.description
  enabled := row.1.enabled
  id := row.1.id
  navigationLabel := row.2.navigationLabel
  readActions := row.2.readActions
  rendererKey := row.2.rendererKey
  routePath := row.2.routePath
  serviceName := row.2.serviceName
  sortOrder := row.2.sortOrder
  writeActions := row.2.writeActions

end

/-- The installed components that the user gets to see. -/
def Viewer.visibleRows (db : Tables) (deviceRecordId : String) :
    List (InstallationRow × CatalogRow) :=
  (db.installationRows deviceRecordId).filter fun row => row.1.enabled && viewer.hasReadAccess row

def DeviceComponentAccessRecord.selectors (component : DeviceComponentAccessRecord) : List String :=
  match component.accessLevel with
  | .write => component.readActions ++ component.writeActions
  | .read => component.readActions

structure DeviceComponentAccess (Token : Type) where
  canManageUsers : Bool
  components : List DeviceComponentAccessRecord
  gatewayAccessToken : Token

def getDeviceComponentAccessForUser (jwt : Jwt Token) (db : Tables) (viewer : Viewer)
    (deviceRecordId : String) : Except String (DeviceComponentAccess Token) :=
  match db.devices.find? (·.id == deviceRecordId) with
  | none => .error "Device not found."
  | some foundDevice =>
    if !(viewer.isSysadmin || viewer.answers.canNavigate) then
      .error "You do not have access to this device."
    else
      let components :=
        ((viewer.visibleRows db deviceRecordId).map viewer.accessRecord).insertionSort
          fun left right => left.sortOrder ≤ right.sortOrder
      .ok {
        canManageUsers := viewer.isSysadmin || viewer.answers.canManageUsers
        components := components
        gatewayAccessToken := signDeviceGatewayAccessToken jwt {
          allowedSelectors := components.flatMap (·.selectors)
          allowedServiceNames := components.map (·.serviceName)
          deviceId := foundDevice.id
          userId := viewer.userId } }

/-- The part of a websocket client that a connection takes from its token. -/
structure ClientContext where
  allowedSelectors : List String
  allowedServiceNames : List String
  deviceId : String
  userId : String

def connect (jwt : Jwt Token) (token : Token) : Option ClientContext :=
  (verifyDeviceGatewayAccessToken jwt token).map fun payload => {
    allowedSelectors := payload.allowedSelectors
    allowedServiceNames := payload.allowedServiceNames
    deviceId := payload.deviceId
    userId := payload.userId }

structure PacketFrame where
  service : Option String
  subtopic : String
  type : String

structure TransportPacket where
  deviceId : String
  service : Option String
  subtopic : String
  type : String

def normalizeOptionalString (value : Option String) : Option String :=
  (value.map jsTrim).filter (· != "")

/-- The packet of a frame that passes `isPacketFrame`. -/
def incomingPacket (client : ClientContext) (frame : PacketFrame) : Option TransportPacket :=
  if jsTrim frame.subtopic ≠ "" ∧ jsTrim frame.type ≠ "" then
    some {
      deviceId := client.deviceId
      service := normalizeOptionalString frame.service
      subtopic := jsTrim frame.subtopic
      type := jsTrim frame.type }
  else none

def canClientPublishPacket (packet : TransportPacket) (client : ClientContext) : Bool :=
  match packet.service with
  | none =>
    packet.subtopic == "command" &&
      (packet.type == "get-status" || client.allowedSelectors.contains packet.type)
  | some service =>
    client.allowedServiceNames.contains service &&
      ((createTransportActionSelector service packet.subtopic packet.type).any
          (client.allowedSelectors.contains ·) ||
        client.allowedSelectors.contains packet.type)

/-- The user has access to an enabled component of the service whose read actions contain the
type, or write access to one whose write actions contain it. -/
def Authorized (db : Tables) (viewer : Viewer) (deviceRecordId service type : String) : Prop :=
  ∃ row ∈ db.installationRows deviceRecordId, row.1.enabled ∧ row.2.serviceName = service ∧
    (viewer.hasReadAccess row ∧ type ∈ row.2.readActions ∨
      viewer.hasWriteAccess row ∧ type ∈ row.2.writeActions)

/-- The action names that one component gives its user. -/
def Viewer.grants (row : InstallationRow × CatalogRow) : List String :=
  row.2.readActions ++ if viewer.hasWriteAccess row then row.2.writeActions else []

/-- Every action name that one visible component grants is authorized for the service of
every visible component, and so is every type whose scoped selector is such a name. -/
def Shared (db : Tables) (viewer : Viewer) (deviceRecordId : String) : Prop :=
  ∀ row ∈ viewer.visibleRows db deviceRecordId, ∀ row' ∈ viewer.visibleRows db deviceRecordId,
    ∀ action ∈ viewer.grants row', jsTrim row.2.serviceName ≠ "" → jsTrim action ≠ "" →
      Authorized db viewer deviceRecordId (jsTrim row.2.serviceName) (jsTrim action) ∧
      ∀ subtopic type, createTransportActionSelector row.2.serviceName subtopic type =
        some (jsTrim action) →
        Authorized db viewer deviceRecordId (jsTrim row.2.serviceName) (jsTrim type)

theorem selectors_accessRecord (row : InstallationRow × CatalogRow) :
    (viewer.accessRecord row).selectors = viewer.grants row := by
  unfold DeviceComponentAccessRecord.selectors Viewer.grants
  by_cases h : viewer.hasWriteAccess row
  · simp only [Viewer.accessRecord, if_pos h]
  · simp only [Viewer.accessRecord, if_neg h, append_nil]

end

/-- The client of a token may use the trimmed services and action names of the components
that its user sees. -/
theorem connect_cases
    (h : getDeviceComponentAccessForUser jwt db viewer deviceRecordId = .ok access)
    (hc : connect jwt access.gatewayAccessToken = some client) :
    (∀ service, service ∈ client.allowedServiceNames ↔ service ≠ "" ∧
      ∃ row ∈ viewer.visibleRows db deviceRecordId, jsTrim row.2.serviceName = service) ∧
    (∀ selector, selector ∈ client.allowedSelectors ↔ selector ≠ "" ∧
      ∃ row ∈ viewer.visibleRows db deviceRecordId, ∃ action ∈ viewer.grants row,
        jsTrim action = selector) := by
  unfold getDeviceComponentAccessForUser at h
  split at h
  · cases h
  · split at h
    · cases h
    · cases h
      obtain ⟨payload, hv, rfl⟩ := Option.map_eq_some_iff.1 hc
      obtain ⟨hselectors, hservices, _⟩ := verify_sign_cases hv
      constructor
      · intro service
        rw [hservices, mem_normalizeStringList]
        simp only [mem_map, mem_insertionSort]
        constructor
        · rintro ⟨hne, name, ⟨component, ⟨row, hr, rfl⟩, rfl⟩, htrim⟩
          exact ⟨hne, row, hr, htrim⟩
        · rintro ⟨hne, row, hr, htrim⟩
          exact ⟨hne, _, ⟨_, ⟨row, hr, rfl⟩, rfl⟩, htrim⟩
      · intro selector
        rw [hselectors, mem_normalizeStringList]
        simp only [mem_flatMap, mem_map, mem_insertionSort]
        constructor
        · rintro ⟨hne, action, ⟨component, ⟨row, hr, rfl⟩, ha⟩, htrim⟩
          exact ⟨hne, row, hr, action, selectors_accessRecord viewer row ▸ ha, htrim⟩
        · rintro ⟨hne, row, hr, action, ha, htrim⟩
          exact ⟨hne, action, ⟨_, ⟨row, hr, rfl⟩, (selectors_accessRecord viewer row).symm ▸ ha⟩,
            htrim⟩

theorem canClientPublishPacket_iff (hs : packet.service = some service):
    canClientPublishPacket packet client ↔ service ∈ client.allowedServiceNames ∧
      ((∃ selector, createTransportActionSelector service packet.subtopic packet.type =
          some selector ∧ selector ∈ client.allowedSelectors) ∨
        packet.type ∈ client.allowedSelectors) := by
  simp only [canClientPublishPacket, hs, Bool.and_eq_true, Bool.or_eq_true, contains_iff_mem,
    Option.any_eq_true]

theorem incomingPacket_some
    (h : incomingPacket client frame = some packet) (hs : packet.service = some service) :
    service ≠ "" ∧ jsTrim frame.type ≠ "" ∧ packet.subtopic = jsTrim frame.subtopic ∧
      packet.type = jsTrim frame.type := by
  unfold incomingPacket at h
  split at h
  · rename_i hf
    cases h
    simp only [normalizeOptionalString, Option.filter_eq_some_iff, bne_iff_ne] at hs
    exact ⟨hs.2, hf.2, rfl, rfl⟩
  · cases h

theorem incomingPacket_mk (client : ClientContext)
    (hs : jsTrim serviceName ≠ "") (hb : jsTrim subtopic ≠ "") (ht : jsTrim type ≠ "") :
    incomingPacket client ⟨some serviceName, subtopic, type⟩ =
      some ⟨client.deviceId, some (jsTrim serviceName), jsTrim subtopic, jsTrim type⟩ := by
  have hservice : normalizeOptionalString (some serviceName) = some (jsTrim serviceName) :=
    Option.filter_eq_some_iff.2 ⟨rfl, by simpa using hs⟩
  rw [incomingPacket, if_pos ⟨hb, ht⟩, hservice]

/-- A token admits only authorized packets exactly when the action names that it flattens are
shared by all the services that it names. -/
theorem publish_authorized_iff (jwt : Jwt Token) (db : Tables) (viewer : Viewer)
    (deviceRecordId : String) (access : DeviceComponentAccess Token) (client : ClientContext)
    (h : getDeviceComponentAccessForUser jwt db viewer deviceRecordId = .ok access)
    (hc : connect jwt access.gatewayAccessToken = some client) :
    (∀ frame packet service, incomingPacket client frame = some packet →
      packet.service = some service → canClientPublishPacket packet client →
      Authorized db viewer deviceRecordId service packet.type) ↔
    Shared db viewer deviceRecordId := by
  obtain ⟨hservices, hselectors⟩ := connect_cases h hc
  constructor
  · intro hall row hr row' hr' action ha hs hne
    have hservice := (hservices (jsTrim row.2.serviceName)).2 ⟨hs, row, hr, rfl⟩
    have haction := (hselectors (jsTrim action)).2 ⟨hne, row', hr', action, ha, rfl⟩
    constructor
    · have hp := incomingPacket_mk client hs (show jsTrim "command" ≠ "" by decide) hne
      exact hall _ _ _ hp rfl ((canClientPublishPacket_iff rfl).2 ⟨hservice, .inr haction⟩)
    · intro subtopic type hsel
      obtain ⟨hb, ht, _⟩ := createTransportActionSelector_some hsel
      refine hall _ _ _ (incomingPacket_mk client hs hb ht) rfl
        ((canClientPublishPacket_iff rfl).2 ⟨hservice, .inl ⟨jsTrim action, ?_, haction⟩⟩)
      exact (createTransportActionSelector_trim ..).trans hsel
  · intro hshared frame packet service hp hs hpub
    obtain ⟨hne, htype, hsub, hty⟩ := incomingPacket_some hp hs
    obtain ⟨hservice, hgrant⟩ := (canClientPublishPacket_iff hs).1 hpub
    obtain ⟨_, row, hr, rfl⟩ := (hservices service).1 hservice
    rw [hsub, hty] at hgrant
    rw [hty]
    rcases hgrant with ⟨selector, hsel, hmem⟩ | hmem
    · obtain ⟨hsne, row', hr', action, ha, rfl⟩ := (hselectors selector).1 hmem
      rw [createTransportActionSelector_trim] at hsel
      exact (hshared row hr row' hr' action ha hne hsne).2 _ _ hsel
    · obtain ⟨_, row', hr', action, ha, htrim⟩ := (hselectors _).1 hmem
      rw [← htrim]
      exact (hshared row hr row' hr' action ha hne (htrim ▸ htype)).1

def sampleTables : Tables where
  devices := [⟨"d1", "p1", "Camera", none, "token", true⟩]
  catalog :=
    [⟨"cam", "camera", "Camera", "Camera", none, none, none, 0, true, ["get-frame"], ["reboot"]⟩,
     ⟨"mic", "audio", "Audio", "Audio", none, none, none, 1, true, ["get-level"], ["reboot"]⟩]
  installations := [⟨"c1", "d1", "cam", true⟩, ⟨"c2", "d1", "mic", true⟩]

def sampleViewer (readable writable : List String) : Viewer where
  userId := "dave"
  isSysadmin := false
  answers := ⟨true, false, false, authorizedObjectIds readable, authorizedObjectIds writable⟩

def plainJwt : Jwt DeviceGatewayAccessTokenPayload := ⟨id, some, fun _ => rfl⟩

def writer : Viewer := sampleViewer ["device_component:c1"] ["device_component:c1"]

theorem publish_authorized_one_component :
    ∃ access client, getDeviceComponentAccessForUser plainJwt sampleTables
        (sampleViewer ["device_component:c1"] ["device_component:c1"]) "d1" = .ok access ∧
      connect plainJwt access.gatewayAccessToken = some client ∧
      client.allowedSelectors = ["get-frame", "reboot"] ∧
      ∀ frame packet service, incomingPacket client frame = some packet →
        packet.service = some service → canClientPublishPacket packet client →
        Authorized sampleTables (sampleViewer ["device_component:c1"] ["device_component:c1"]) "d1"
          service packet.type := by
  have hshared : Shared sampleTables writer "d1" := by
    have hplain : ∀ row ∈ writer.visibleRows sampleTables "d1",
        ∀ row' ∈ writer.visibleRows sampleTables "d1", ∀ action ∈ writer.grants row',
        ':' ∉ (jsTrim action).toList ∧
          Authorized sampleTables writer "d1" (jsTrim row.2.serviceName) (jsTrim action) := by
      unfold Authorized
      decide
    intro row hr row' hr' action ha _ _
    obtain ⟨hcolon, hauth⟩ := hplain row hr row' hr' action ha
    exact ⟨hauth, fun subtopic type hsel =>
      (hcolon (createTransportActionSelector_some hsel).2.2).elim⟩
  exact ⟨_, _, rfl, rfl, by decide,
    (publish_authorized_iff plainJwt sampleTables _ "d1" _ _ rfl rfl).2 hshared⟩

/-- A writer of one application reboots the sibling that he may only read. -/
theorem publish_not_authorized_sibling :
    ¬ ∀ (db : Tables) (viewer : Viewer) (deviceRecordId : String)
      (access : DeviceComponentAccess DeviceGatewayAccessTokenPayload) (client : ClientContext),
      getDeviceComponentAccessForUser plainJwt db viewer deviceRecordId = .ok access →
      connect plainJwt access.gatewayAccessToken = some client →
      ∀ frame packet service, incomingPacket client frame = some packet →
        packet.service = some service → canClientPublishPacket packet client →
        Authorized db viewer deviceRecordId service packet.type := by
  intro hall
  have h := hall sampleTables
    (sampleViewer ["device_component:c1", "device_component:c2"] ["device_component:c1"]) "d1"
    _ _ rfl rfl ⟨some "audio", "command", "reboot"⟩ _ "audio" rfl rfl (by decide)
  revert h
  unfold Authorized
  decide

end Trakrai.Gateway
