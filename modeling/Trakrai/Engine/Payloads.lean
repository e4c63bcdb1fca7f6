import Trakrai.Lib.Except
import Trakrai.Lib.Json
import Trakrai.Lib.Text

namespace Trakrai.Engine
open List Lib

/-- The values of Python that a payload is made of, over a type of floats. -/
inductive PayloadValue (F : Type) where
  | none
  | bool (value : Bool)
  | int (value : Int)
  | float (value : F)
  | str (value : String)
  | bytes (value : List UInt8)
  | list (items : List (PayloadValue F))
  | dict (fields : List (String × PayloadValue F))

inductive PyError where
  | valueError (message : String)
  | overflowError (message : String)
deriving DecidableEq

structure PyFloats (F : Type) where
  zero : F
  ofText : String → Option F
  ofBytes : List UInt8 → Option F
  /-- None where the integer is too large. -/
  ofInt : Int → Option F
  text : F → String
  /-- `bytes.decode("utf-8", errors="replace")`. -/
  decode : List UInt8 → String

namespace PayloadValue
variable {F : Type}

def isNone : PayloadValue F → Bool
  | .none => true
  | _ => false

/-- `dict.get`. -/
def get (fields : List (String × PayloadValue F)) (key : String) : PayloadValue F := (fields.lookup key).getD .none

def floats (values : List F) : PayloadValue F := .list (values.map .float)

end PayloadValue

section
variable {F : Type} (py : PyFloats F)

def stringValue : PayloadValue F → String
  | .none | .list _ | .dict _ => ""
  | .bytes value => pyStrip (py.decode value)
  | .bool value => pyStrip (if value then "True" else "False")
  | .int value => pyStrip (toString value)
  | .float value => pyStrip (py.text value)
  | .str value => pyStrip value

/-- `float` of an integer. -/
def floatOfInt (value : Int) : Except PyError F :=
  match py.ofInt value with
  | some float => .ok float
  | none => .error (.overflowError "int too large to convert to float")

def floatValue (fallback : Option F) : PayloadValue F → Except PyError (Option F)
  | .none | .list _ | .dict _ => .ok fallback
  | .str value => .ok (if value = "" then fallback else (py.ofText value).or fallback)
  | .bytes value => .ok ((py.ofBytes value).or fallback)
  | .bool value => (floatOfInt py (if value then 1 else 0)).map some
  | .int value => (floatOfInt py value).map some
  | .float value => .ok (some value)

/-- `or` of two texts. -/
def orText (text other : String) : String := if text ≠ "" then text else other

def coerceBbox : PayloadValue F → Except PyError (List F)
  | .list items => ((items.take 4).mapM (floatValue py none)).map (·.filterMap id)
  | _ => .ok []

variable (fields : List (String × PayloadValue F))

def labelOf : String :=
  orText (stringValue py (.get fields "label")) (orText (stringValue py (.get fields "class_name")) "object")

def confidenceOf : Except PyError F := do
  match ← floatValue py none (.get fields "conf") with
  | some confidence => return confidence
  | none => return (← floatValue py (some py.zero) (.get fields "confidence")).getD py.zero

def cornerBox : Except PyError (PayloadValue F) := do
  let x1 ← floatValue py none (.get fields "x1")
  let y1 ← floatValue py none (.get fields "y1")
  let x2 ← floatValue py none (.get fields "x2")
  let y2 ← floatValue py none (.get fields "y2")
  match x1, y1, x2, y2 with
  | some x1, some y1, some x2, some y2 => return .floats [x1, y1, x2, y2]
  | _, _, _, _ => return .none

def chosenBox : Except PyError (PayloadValue F) :=
  let raw := PayloadValue.get fields "raw_bboxes"
  let bbox := if raw.isNone then .get fields "bbox" else raw
  let xyxy := if bbox.isNone then .get fields "xyxy" else bbox
  if xyxy.isNone then cornerBox py fields else .ok xyxy

def boxOf : Except PyError (List F) := do
  let bbox ← chosenBox py fields
  coerceBbox py bbox

def corners : List F → List (String × PayloadValue F)
  | [x1, y1, x2, y2] => [("x1", .float x1), ("y1", .float y1), ("x2", .float x2), ("y2", .float y2)]
  | _ => []

def nestedField (nested : List (PayloadValue F)) : List (String × PayloadValue F) :=
  if nested.isEmpty then [] else [("detections", .list nested)]

def commonFields (label : String) (confidence : F) (box : List F) : List (String × PayloadValue F) :=
  [("label", .str label), ("class_name", .str label), ("conf", .float confidence),
    ("confidence", .float confidence), ("raw_bboxes", .floats box), ("bbox", .floats box),
    ("xyxy", .floats box)]

def detection (label : String) (confidence : F) (box : List F) (nested : List (PayloadValue F)) : PayloadValue F :=
  .dict (commonFields label confidence box ++ corners box ++ nestedField nested)

mutual
def normalizeDetection : PayloadValue F → Except PyError (PayloadValue F)
  | .dict fields => do
    let confidence ← confidenceOf py fields
    let box ← boxOf py fields
    let nested ← nestedDetections fields
    return detection (labelOf py fields) confidence box nested
  | _ => .error (.valueError "each detection must be an object")
termination_by structural value => value

def nestedDetections : List (String × PayloadValue F) → Except PyError (List (PayloadValue F))
  | [] => .ok []
  | field :: fields => if field.1 = "detections" then nestedIn field else nestedDetections fields
termination_by structural fields => fields

def nestedIn : String × PayloadValue F → Except PyError (List (PayloadValue F))
  | (_, value) => listedDetections value
termination_by structural field => field

def listedDetections : PayloadValue F → Except PyError (List (PayloadValue F))
  | .list items => normalizeDetections items
  | _ => .ok []
termination_by structural value => value

def normalizeDetections : List (PayloadValue F) → Except PyError (List (PayloadValue F))
  | [] => .ok []
  | item :: items => do
    let detection ← normalizeDetection item
    let detections ← normalizeDetections items
    return detection :: detections
termination_by structural items => items
end

def countedLabel : PayloadValue F → String
  | .dict fields => orText (stringValue py (.get fields "label")) "object"
  | _ => "object"

def countByLabel (detections : List (PayloadValue F)) : PayloadValue F :=
  let counts : List (String × Nat) := detections.foldl (fun counts item =>
    setKey counts (countedLabel py item) ((counts.lookup (countedLabel py item)).getD 0 + 1)) []
  .dict (counts.map fun count => (count.1, .int count.2))

structure NormalizedDetectionRequest (F : Type) where
  requestId : String
  payload : List (String × PayloadValue F)

def isDict : PayloadValue F → Bool
  | .dict _ => true
  | _ => false

def withCounts (detections : List (PayloadValue F)) (payload : List (String × PayloadValue F)) :
    List (String × PayloadValue F) :=
  if isDict (.get payload "DetectionPerClass") then payload
  else setKey payload "DetectionPerClass" (countByLabel py detections)

def detectionDataPayload (data : List (String × PayloadValue F)) :
    Except PyError (List (String × PayloadValue F)) := do
  match (data.lookup "bbox").getD (.list []) with
  | .list items =>
    let detections ← normalizeDetections py items
    return withCounts py detections (setKey data "bbox" (.list detections))
  | _ => throw (.valueError "detectionData.bbox must be an array")

def cameraPayload (raw : List (String × PayloadValue F)) : Except PyError (List (String × PayloadValue F)) := do
  let text (key : String) := stringValue py (.get raw key)
  let cameraId := orText (text "cameraId") (text "cam_id")
  let cameraName := orText (text "cameraName") (text "cam_name")
  let frameId := orText (text "frameId") (orText (text "imageId") (text "imgID"))
  match (raw.lookup "detections").getD ((raw.lookup "bbox").getD (.list [])) with
  | .list items =>
    let detections ← normalizeDetections py items
    let classCounts := PayloadValue.get raw "DetectionPerClass"
    return [("bbox", .list detections),
      ("DetectionPerClass", if isDict classCounts then classCounts else countByLabel py detections),
      ("cam_id", .str cameraId), ("cameraId", .str cameraId), ("cam_name", .str cameraName),
      ("cameraName", .str cameraName), ("frame_id", .str frameId), ("imgID", .str frameId),
      ("imageId", .str frameId)]
  | _ => throw (.valueError "detections must be an array")

def payloadOf (raw : List (String × PayloadValue F)) : Except PyError (List (String × PayloadValue F)) :=
  match PayloadValue.get raw "detectionData" with
  | .dict data => detectionDataPayload py data
  | _ => cameraPayload py raw

/-- `normalize_detection_request` at a time in milliseconds. -/
def normalizeDetectionRequest (now : Nat) (raw : List (String × PayloadValue F)) :
    Except PyError (NormalizedDetectionRequest F) := do
  let requestId := orText (stringValue py (.get raw "requestId")) ("wf-" ++ toString now)
  let payload ← payloadOf py raw
  return ⟨requestId, payload⟩

inductive Normalized : PayloadValue F → Prop
  | mk {label : String} {confidence : F} {box : List F} {nested : List (PayloadValue F)}
    (hlabel : pyStrip label = label) (hne : label ≠ "") (hbox : box.length ≤ 4)
    (hnested : ∀ item ∈ nested, Normalized item) : Normalized (detection label confidence box nested)

section
variable {py} {fields : List (String × PayloadValue F)} {value result : PayloadValue F}

theorem pyStrip_stringValue (value : PayloadValue F) : pyStrip (stringValue py value) = stringValue py value := by
  have hempty : pyStrip "" = "" := by decide
  cases value with
  | none | list | dict => exact hempty
  | bool | int | float | str | bytes => exact trimWith_idem isPySpace _

theorem orText_ne (h : other ≠ "") : orText text other ≠ "" := by
  rw [orText]
  split
  · assumption
  · exact h

theorem pyStrip_orText (htext : pyStrip text = text) (hother : pyStrip other = other) :
    pyStrip (orText text other) = orText text other := by
  rw [orText]
  split
  · exact htext
  · exact hother

theorem labelOf_ne (fields : List (String × PayloadValue F)) : labelOf py fields ≠ "" :=
  orText_ne (orText_ne (by decide))

theorem pyStrip_labelOf (fields : List (String × PayloadValue F)) :
    pyStrip (labelOf py fields) = labelOf py fields :=
  pyStrip_orText (pyStrip_stringValue _) (pyStrip_orText (pyStrip_stringValue _) (by decide))

theorem length_coerceBbox (h : coerceBbox py value = .ok box) : box.length ≤ 4 := by
  cases value with
  | list items =>
    rw [coerceBbox] at h
    cases hparsed : (items.take 4).mapM (floatValue py none) with
    | error error => simp [hparsed, Except.map] at h
    | ok parsed =>
      obtain rfl : parsed.filterMap id = box := by simpa [hparsed, Except.map] using h
      have hlength : parsed.length = (items.take 4).length := by
        clear h
        generalize items.take 4 = items at hparsed
        induction items generalizing parsed with
        | nil =>
          cases hparsed
          rfl
        | cons item items ih =>
          rw [mapM_cons] at hparsed
          obtain ⟨first, -, hparsed⟩ := bind_ok hparsed
          obtain ⟨rest, hrest, hparsed⟩ := bind_ok hparsed
          cases hparsed
          rw [length_cons, length_cons, ih rest hrest]
      have hle := length_filterMap_le id parsed
      rw [hlength, length_take] at hle
      omega
  | none | bool | int | float | str | bytes | dict =>
    cases h
    exact Nat.zero_le 4

theorem length_boxOf (h : boxOf py fields = .ok box) : box.length ≤ 4 := by
  rw [boxOf] at h
  obtain ⟨bbox, -, h⟩ := bind_ok h
  exact length_coerceBbox h

theorem nestedDetections_eq (label : String) (confidence : F) (box : List F) (nested : List (PayloadValue F)) :
    nestedDetections py (commonFields label confidence box ++ corners box ++ nestedField nested) =
      normalizeDetections py nested := by
  have hcorners : ∀ field ∈ corners box, field.1 ≠ "detections" := by
    rw [corners.eq_def]
    split
    · simp
    · exact forall_mem_nil _
  have hskip : ∀ field ∈ commonFields label confidence box ++ corners box, field.1 ≠ "detections" :=
    forall_mem_append.2 ⟨by simp [commonFields], hcorners⟩
  generalize commonFields label confidence box ++ corners box = before at hskip
  induction before with
  | nil =>
    cases nested with
    | nil => rfl
    | cons item items => rfl
  | cons field before ih =>
    obtain ⟨hfield, hbefore⟩ := forall_mem_cons.1 hskip
    rw [cons_append, nestedDetections, if_neg hfield, ih hbefore]

theorem get_commonFields (label : String) (confidence : F) (box : List F)
    (rest : List (String × PayloadValue F)) (i : Nat)
    (h : (commonFields label confidence box)[i]? = some (key, found)) :
    PayloadValue.get (commonFields label confidence box ++ rest) key = found := by
  have hnodup : ((commonFields label confidence box).map Prod.fst).Nodup := by
    simp only [commonFields, map_cons, map_nil]
    decide
  have hlookup := lookup_of_mem hnodup (List.mem_of_getElem? h)
  rw [PayloadValue.get, lookup_eq_find?, List.find?_append, Option.map_or, ← lookup_eq_find?, hlookup]
  rfl

theorem coerceBbox_floats (h : box.length ≤ 4) : coerceBbox py (.floats box) = .ok box := by
  have hall (box : List F) : (box.map .float).mapM (floatValue py none) = .ok (box.map some) := by
    induction box with
    | nil => rfl
    | cons value box ih =>
      rw [map_cons, mapM_cons, ih]
      rfl
  rw [PayloadValue.floats, coerceBbox, take_of_length_le (by rwa [length_map]), hall, Except.map,
    filterMap_map]
  simp

theorem normalizeDetections_eq (h : ∀ item ∈ items, normalizeDetection py item = .ok item): normalizeDetections py items = .ok items := by
  induction items with
  | nil => rfl
  | cons item items ih =>
    obtain ⟨hitem, hitems⟩ := forall_mem_cons.1 h
    rw [normalizeDetections, hitem, ih hitems]
    rfl

theorem Normalized.normalizeDetection_eq (h : Normalized value) : normalizeDetection py value = .ok value := by
  induction h with
  | @mk label confidence box nested hlabel hne hbox hnested ih =>
    have hitems := normalizeDetections_eq ih
    have hget (i : Nat) {key : String} {found : PayloadValue F}
        (hi : (commonFields label confidence box)[i]? = some (key, found)) :
        PayloadValue.get (commonFields label confidence box ++ corners box ++ nestedField nested) key = found := by
      rw [append_assoc]
      exact get_commonFields label confidence box _ i hi
    have hlabelOf : labelOf py (commonFields label confidence box ++ corners box ++ nestedField nested) = label := by
      rw [labelOf, hget 0 rfl, stringValue, hlabel, orText, if_pos hne]
    have hconfidence : confidenceOf py (commonFields label confidence box ++ corners box ++ nestedField nested) =
        .ok confidence := by
      rw [confidenceOf, hget 2 rfl]
      rfl
    have hboxOf : boxOf py (commonFields label confidence box ++ corners box ++ nestedField nested) = .ok box := by
      have hchosen : chosenBox py (commonFields label confidence box ++ corners box ++ nestedField nested) =
          .ok (.floats box) := by
        rw [chosenBox, hget 4 rfl]
        rfl
      rw [boxOf, hchosen]
      exact coerceBbox_floats hbox
    rw [detection, normalizeDetection, hconfidence, hboxOf, nestedDetections_eq, hitems, hlabelOf]
    rfl

mutual

theorem normalized_of_normalizeDetection : ∀ (value result : PayloadValue F),
    normalizeDetection py value = .ok result → Normalized result
  | .dict fields, result, h => by
    rw [normalizeDetection] at h
    obtain ⟨confidence, -, h⟩ := bind_ok h
    obtain ⟨box, hbox, h⟩ := bind_ok h
    obtain ⟨nested, hnested, h⟩ := bind_ok h
    cases h
    exact .mk (pyStrip_labelOf fields) (labelOf_ne fields) (length_boxOf hbox)
      (normalized_of_nestedDetections fields nested hnested)
  | .none, _, h | .bool _, _, h | .int _, _, h | .float _, _, h | .str _, _, h | .bytes _, _, h
  | .list _, _, h => by simp only [normalizeDetection, reduceCtorEq] at h

theorem normalized_of_nestedDetections : ∀ (fields : List (String × PayloadValue F))
    (results : List (PayloadValue F)), nestedDetections py fields = .ok results →
    ∀ result ∈ results, Normalized result
  | [], results, h => by
    cases h
    exact forall_mem_nil _
  | field :: fields, results, h => by
    rw [nestedDetections] at h
    split at h
    · exact normalized_of_nestedIn field results h
    · exact normalized_of_nestedDetections fields results h

theorem normalized_of_nestedIn : ∀ (field : String × PayloadValue F) (results : List (PayloadValue F)),
    nestedIn py field = .ok results → ∀ result ∈ results, Normalized result
  | (_, value), results, h => normalized_of_listedDetections value results h

theorem normalized_of_listedDetections : ∀ (value : PayloadValue F) (results : List (PayloadValue F)),
    listedDetections py value = .ok results → ∀ result ∈ results, Normalized result
  | .list items, results, h => normalized_of_normalizeDetections items results h
  | .none, _, h | .bool _, _, h | .int _, _, h | .float _, _, h | .str _, _, h | .bytes _, _, h
  | .dict _, _, h => by
    cases h
    exact forall_mem_nil _

theorem normalized_of_normalizeDetections : ∀ (items results : List (PayloadValue F)),
    normalizeDetections py items = .ok results → ∀ result ∈ results, Normalized result
  | [], results, h => by
    cases h
    exact forall_mem_nil _
  | item :: items, results, h => by
    rw [normalizeDetections] at h
    obtain ⟨first, hfirst, h⟩ := bind_ok h
    obtain ⟨rest, hrest, h⟩ := bind_ok h
    cases h
    exact forall_mem_cons.2 ⟨normalized_of_normalizeDetection item first hfirst,
      normalized_of_normalizeDetections items rest hrest⟩

end

structure SettledPayload (payload : List (String × PayloadValue F)) : Prop where
  bbox : ∃ items, payload.lookup "bbox" = some (.list items) ∧
    (∀ entry ∈ payload, entry.1 = "bbox" → entry.2 = .list items) ∧ ∀ item ∈ items, Normalized item
  counted : isDict (.get payload "DetectionPerClass") = true

theorem setKey_eq_self (hlookup : fields.lookup key = some found)
    (hall : ∀ entry ∈ fields, entry.1 = key → entry.2 = found) : setKey fields key found = fields := by
  rw [setKey, if_pos (any_key_iff.2 ⟨_, mem_of_lookup hlookup, rfl⟩)]
  conv_rhs => rw [← map_id fields]
  apply map_congr_left
  intro entry hentry
  rw [setWhere]
  split
  · rename_i hkey
    exact Prod.ext rfl (hall entry hentry hkey).symm
  · rfl

theorem SettledPayload.detectionDataPayload_eq (h : SettledPayload payload) :
    detectionDataPayload py payload = .ok payload := by
  obtain ⟨items, hlookup, hall, hitems⟩ := h.bbox
  have hdetections : normalizeDetections py items = .ok items :=
    normalizeDetections_eq fun item hitem => (hitems item hitem).normalizeDetection_eq
  have hcounts : withCounts py items (setKey payload "bbox" (.list items)) = payload := by
    rw [setKey_eq_self hlookup hall, withCounts, if_pos h.counted]
  simp only [detectionDataPayload, hlookup, Option.getD_some, hdetections]
  exact congrArg Except.ok hcounts

theorem settled_of_detectionData (h : detectionDataPayload py data = .ok payload): SettledPayload payload := by
  rw [detectionDataPayload] at h
  split at h
  · rename_i items _
    obtain ⟨detections, hdetections, h⟩ := bind_ok h
    have hnormal := normalized_of_normalizeDetections items detections hdetections
    cases h
    by_cases hcounted : isDict (.get (setKey data "bbox" (.list detections)) "DetectionPerClass")
    · rw [withCounts, if_pos hcounted]
      refine ⟨⟨detections, by rw [lookup_setKey, if_pos rfl], ?_, hnormal⟩, hcounted⟩
      intro entry hentry hkey
      rcases mem_setKey hentry with rfl | ⟨-, hne⟩
      · rfl
      · exact absurd hkey hne
    · rw [withCounts, if_neg hcounted]
      refine ⟨⟨detections, ?_, ?_, hnormal⟩, ?_⟩
      · rw [lookup_setKey, if_neg (by decide), lookup_setKey, if_pos rfl]
      · intro entry hentry hkey
        rcases mem_setKey hentry with rfl | ⟨hentry, -⟩
        · exact absurd hkey (by simp only [String.reduceEq, not_false_eq_true])
        · rcases mem_setKey hentry with rfl | ⟨-, hne⟩
          · rfl
          · exact absurd hkey hne
      · rw [PayloadValue.get, lookup_setKey, if_pos rfl]
        rfl
  · cases h

theorem settled_of_camera (h : cameraPayload py raw = .ok payload): SettledPayload payload := by
  rw [cameraPayload] at h
  split at h
  · rename_i items _
    obtain ⟨detections, hdetections, h⟩ := bind_ok h
    have hnormal := normalized_of_normalizeDetections items detections hdetections
    cases h
    refine ⟨⟨detections, rfl, by simp, hnormal⟩, ?_⟩
    rw [PayloadValue.get, lookup_cons, lookup_cons]
    change isDict (if isDict (.get raw "DetectionPerClass") then .get raw "DetectionPerClass"
      else countByLabel py detections) = true
    split
    · assumption
    · rfl
  · cases h

theorem pyStrip_fallbackId (now : Nat) : pyStrip ("wf-" ++ toString now) = "wf-" ++ toString now := by
  have hplain : ∀ c ∈ ("wf-" ++ toString now).toList, ¬ isPySpace c := by
    intro c hc
    rw [String.toList_append, mem_append, Nat.toString_eq_ofList_toDigits] at hc
    rcases hc with hc | hc
    · have hprefix : ("wf-".toList.all fun c => ¬ isPySpace c) = true := by decide
      exact forall_mem_of_all hprefix c hc
    · rw [String.toList_ofList] at hc
      have hdigit := Nat.isDigit_of_mem_toDigits (b := 10) (by decide) (by decide) hc
      simp only [Char.isDigit, Bool.and_eq_true, decide_eq_true_eq, UInt32.le_iff_toNat_le] at hdigit
      have hrange : 48 ≤ c.toNat ∧ c.toNat ≤ 57 := hdigit
      simp only [isPySpace, mem_cons, not_mem_nil, or_false, Bool.or_eq_true, decide_eq_true_eq,
        Bool.and_eq_true]
      omega
  apply trimWith_of_ends
  · exact fun c hc => hplain c (List.mem_of_head? hc)
  · exact fun c hc => hplain c (List.mem_of_getLast? hc)

theorem fallbackId_ne (now : Nat) : "wf-" ++ toString now ≠ "" := by
  intro h
  have hlist := congrArg String.toList h
  simp at hlist

end

/-- A normalized payload that is sent again under its request id is normalized as it is. -/
theorem normalizeDetectionRequest_again (py : PyFloats F) (now later : Nat)
    (raw again : List (String × PayloadValue F)) (result : NormalizedDetectionRequest F)
    (h : normalizeDetectionRequest py now raw = .ok result)
    (hid : again.lookup "requestId" = some (.str result.requestId))
    (hdata : again.lookup "detectionData" = some (.dict result.payload)) :
    normalizeDetectionRequest py later again = .ok result := by
  rw [normalizeDetectionRequest] at h
  obtain ⟨payload, hpayload, h⟩ := bind_ok h
  cases h
  have hsettled : SettledPayload payload := by
    rw [payloadOf] at hpayload
    split at hpayload
    · exact settled_of_detectionData hpayload
    · exact settled_of_camera hpayload
  have hrequestId (now : Nat) (value : PayloadValue F) :
      pyStrip (orText (stringValue py value) ("wf-" ++ toString now)) =
        orText (stringValue py value) ("wf-" ++ toString now) :=
    pyStrip_orText (pyStrip_stringValue value) (pyStrip_fallbackId now)
  have hsame : orText (stringValue py (.get again "requestId")) ("wf-" ++ toString later) =
      orText (stringValue py (.get raw "requestId")) ("wf-" ++ toString now) := by
    rw [PayloadValue.get, hid, Option.getD_some, stringValue, hrequestId, orText,
      if_pos (orText_ne (fallbackId_ne now))]
  have hagain : payloadOf py again = .ok payload := by
    simp only [payloadOf, PayloadValue.get, hdata, Option.getD_some]
    exact hsettled.detectionDataPayload_eq
  rw [normalizeDetectionRequest, hagain, hsame]
  rfl

end

def wholeFloats : PyFloats Int where
  zero := 0
  ofText := String.toInt?
  ofBytes := fun _ => none
  ofInt := some
  text := fun value => toString value ++ ".0"
  decode := fun bytes => String.ofList (bytes.map fun byte => Char.ofNat byte.toNat)

def personRequest : List (String × PayloadValue Int) :=
  [("requestId", .str " r1 "), ("detections", .list [.dict [("class_name", .str "person "), ("confidence", .int 1),
    ("bbox", .list [.int 10, .str "20", .none, .int 30]), ("detections", .list [.dict [("label", .int 7)]])]])]

theorem normalizeDetectionRequest_again_person :
    ∃ result, normalizeDetectionRequest wholeFloats 0 personRequest = .ok result ∧
      normalizeDetectionRequest wholeFloats 1
        [("requestId", .str result.requestId), ("detectionData", .dict result.payload)] = .ok result := by
  have hok : (normalizeDetectionRequest wholeFloats 0 personRequest).isOk = true := by decide +kernel
  cases h : normalizeDetectionRequest wholeFloats 0 personRequest with
  | error error =>
    rw [h] at hok
    cases hok
  | ok result =>
    exact ⟨result, rfl, normalizeDetectionRequest_again wholeFloats 0 1 personRequest _ result h rfl rfl⟩

end Trakrai.Engine
