import Trakrai.Ipc.Registry
import Trakrai.Lib.Framing

namespace Trakrai.Ipc.Delivery
open List hiding count
open Option Lib

inductive Method where
  | mqttMessage
  | serviceMessage

def Method.name : Method → String
  | .mqttMessage => "mqtt-message"
  | .serviceMessage => "service-message"

structure Notification where
  method : Method
  params : Json

inductive Frame where
  | response (response : Response)
  | notification (notification : Notification)

def Frame.id : Frame → String
  | .response r => r.id
  | .notification _ => ""

def Frame.method : Frame → String
  | .response _ => ""
  | .notification n => n.method.name

/-- The fields of a response in a frame; those that a notification lacks are zero. -/
def Frame.asResponse : Frame → Response
  | .response r => r
  | .notification _ => { id := "" }

def Frame.notification? : Frame → Option Notification
  | .response _ => none
  | .notification n => some n

/-- `json.Marshal` of a frame and `json.Unmarshal` into the types that the client reads. -/
structure Codec where
  marshal : Frame → List UInt8
  /-- The fields `id` and `method`. -/
  unmarshalEnvelope : List UInt8 → Option (String × String)
  unmarshalResponse : List UInt8 → Option Response
  unmarshalNotification : List UInt8 → Option Notification

/-- What `encoding/json` does on a frame: the text is on one line, each type reads its own fields
and ignores the others, and white space after the text does not matter. -/
structure Codec.Faithful (codec : Codec) (frame : Frame) : Prop where
  newline : 10 ∉ codec.marshal frame
  carriageReturn : 13 ∉ codec.marshal frame
  envelope : codec.unmarshalEnvelope (codec.marshal frame) = some (frame.id, frame.method)
  response : codec.unmarshalResponse (codec.marshal frame ++ [10]) = some frame.asResponse
  notification : ∀ notification, frame = .notification notification →
    codec.unmarshalNotification (codec.marshal frame) = some notification

/-- How far the server is with the register request. -/
inductive Handling where
  | idle
  | received
  /-- The connection is in the services map, the response is not written. -/
  | published
  | responded
deriving DecidableEq

/-- How far the client is with the connection, and what its reader holds. -/
inductive Reading where
  | registering (buffer : List UInt8)
  | failed
  | reading (buffer : List UInt8)
  | down
deriving DecidableEq

def maxLine : Nat := 512 * 1024

/-- Whether the reader may take this many bytes more. -/
def Reading.room (count : Nat) : Reading → Bool
  | .registering _ => true
  | .reading buffer => buffer.length + count ≤ maxLine
  | _ => false

def Reading.line? : Reading → Option (List UInt8 × List UInt8)
  | .reading buffer => cut 10 buffer
  | _ => none

def Reading.full : Reading → Bool
  | .reading buffer => (cut 10 buffer).isNone && maxLine ≤ buffer.length
  | _ => false

/-- What the reader of `registerService` holds when it goes out of scope after reading a chunk. -/
def Reading.discarded (chunk : List UInt8) : Reading → List UInt8
  | .registering buffer =>
    match cut 10 (buffer ++ chunk) with
    | some (_, rest) => rest
    | none => []
  | _ => []

structure Link where
  server : Handling
  /-- The frames that the server has written. -/
  written : List Frame
  /-- The bytes that are written and not read. -/
  wire : List UInt8
  client : Reading
  /-- The response on which `registerService` succeeded. -/
  accepted : Option Response
  /-- The responses handed to waiting requests. -/
  answered : List Response
  /-- The notifications put on the channel. -/
  delivered : List Notification

def Link.initial : Link := ⟨.idle, [], [], .registering [], none, [], []⟩

def sent (frames : List Frame) : List Notification := frames.filterMap Frame.notification?

def registerRequest (id service : String) : Request := ⟨id, .registerService (.ok service)⟩

def registerResponse (id service : String) : Response :=
  if service = "" then errorResponse (registerRequest id service) (-3) "service name is required"
  else okResponse id

def writeJSON (codec : Codec) (s : Link) (frame : Frame) : Link :=
  { s with written := s.written ++ [frame], wire := s.wire ++ (codec.marshal frame ++ [10]) }

/-- `registerService` with the line that its reader returned. The reader goes out of scope then,
and what it holds after the line with it. -/
def registered (codec : Codec) (s : Link) (line : List UInt8) : Link :=
  match codec.unmarshalResponse (line ++ [10]) with
  | none => { s with client := .failed }
  | some response =>
    if response.error.isSome then { s with client := .failed }
    else { s with client := .reading [], accepted := some response }

/-- `bufio.ScanLines` drops a carriage return at the end of the line. -/
def dropCR (line : List UInt8) : List UInt8 :=
  if line.getLast? = some 13 then line.dropLast else line

/-- The body of `readLoop` for one line. -/
def readLine (codec : Codec) (s : Link) (line : List UInt8) : Link :=
  match codec.unmarshalEnvelope line with
  | none => s
  | some (id, method) =>
    if id ≠ "" then
      match codec.unmarshalResponse line with
      | none => s
      | some response => { s with answered := s.answered ++ [response] }
    else if method ≠ "" then
      match codec.unmarshalNotification line with
      | none => s
      | some notification => { s with delivered := s.delivered ++ [notification] }
    else s

inductive Action where
  | receive
  | publish
  | respond
  | notify (notification : Notification)
  /-- The response to a later request. -/
  | reply (response : Response)
  | read (count : Nat)
  | scan
  | tooLong
  /-- The connection is lost. -/
  | drop

def Enabled (service : String) (s : Link) : Action → Prop
  | .receive => s.server = .idle
  | .publish => s.server = .received ∧ service ≠ ""
  | .respond => s.server = .published ∨ s.server = .received ∧ service = ""
  | .notify _ => s.server = .published ∨ s.server = .responded ∧ service ≠ ""
  | .reply _ => s.server = .responded
  | .read count => 0 < count ∧ count ≤ s.wire.length ∧ s.client.room count
  | .scan => s.client.line?.isSome
  | .tooLong => s.client.full
  | .drop => True

instance (service : String) (s : Link) (action : Action) : Decidable (Enabled service s action) :=
  match action with
  | .receive | .reply _ | .scan | .tooLong => inferInstanceAs (Decidable (_ = _))
  | .publish | .read _ => inferInstanceAs (Decidable (_ ∧ _))
  | .respond | .notify _ => inferInstanceAs (Decidable (_ ∨ _))
  | .drop => inferInstanceAs (Decidable True)

def after (codec : Codec) (id service : String) (s : Link) : Action → Link
  | .receive => { s with server := .received }
  | .publish => { s with server := .published }
  | .respond =>
    { writeJSON codec s (.response (registerResponse id service)) with server := .responded }
  | .notify notification => writeJSON codec s (.notification notification)
  | .reply response => writeJSON codec s (.response response)
  | .read count =>
    let chunk := s.wire.take count
    let s := { s with wire := s.wire.drop count }
    match s.client with
    | .registering buffer =>
      match cut 10 (buffer ++ chunk) with
      | none => { s with client := .registering (buffer ++ chunk) }
      | some (line, _) => registered codec s line
    | .reading buffer => { s with client := .reading (buffer ++ chunk) }
    | _ => s
  | .scan =>
    match s.client with
    | .reading buffer =>
      match cut 10 buffer with
      | none => s
      | some (line, rest) => readLine codec { s with client := .reading rest } (dropCR line)
    | _ => s
  | .tooLong => { s with client := .down }
  | .drop => { s with client := .down }

def system (codec : Codec) (id service : String) : System Link Action :=
  .guarded (· = .initial) (Enabled service) (after codec id service)

def Action.frame (id service : String) : Action → Option Frame
  | .respond => some (.response (registerResponse id service))
  | .notify notification => some (.notification notification)
  | .reply response => some (.response response)
  | _ => none

/-- No notification is written between the entry of the connection and the register response, and
the read that completes this response takes nothing after it. -/
def Orderly (s : Link) : Action → Prop
  | .notify _ => s.server ≠ .published
  | .read count => s.client.discarded (s.wire.take count) = []
  | _ => True

instance (s : Link) (action : Action) : Decidable (Orderly s action) :=
  match action with
  | .notify _ => inferInstanceAs (Decidable (_ ≠ _))
  | .read _ => inferInstanceAs (Decidable (_ = _))
  | .receive | .publish | .respond | .reply _ | .scan | .tooLong | .drop =>
    inferInstanceAs (Decidable True)

/-- The server has written the register response first. -/
def Led (id service : String) (s : Link) : Prop :=
  (s.server = .published → service ≠ "") ∧
  match s.server with
  | .responded => ∃ frames, s.written = .response (registerResponse id service) :: frames
  | _ => s.written = []

/-- What the client has taken and what it has yet to take are the frames written. -/
def Intact (codec : Codec) (id service : String) (s : Link) : Prop :=
  ∃ consumed rest, s.written = consumed ++ rest ∧ s.delivered = sent consumed ∧ match s.client with
    | .registering buffer => consumed = [] ∧ s.accepted = none ∧
      buffer ++ s.wire = framed 10 codec.marshal rest
    | .reading buffer => s.accepted = some (registerResponse id service) ∧
      buffer ++ s.wire = framed 10 codec.marshal rest
    | .failed => s.accepted = none ∧ service = ""
    | .down => ∀ response, s.accepted = some response → response = registerResponse id service

theorem sent_append (frames frames' : List Frame) :
    sent (frames ++ frames') = sent frames ++ sent frames' :=
  filterMap_append

section
variable {codec : Codec} {id service : String} {s : Link}

theorem Intact.write (h : Intact codec id service s) (frame : Frame) :
    Intact codec id service (writeJSON codec s frame) := by
  obtain ⟨consumed, rest, hw, hd, hc⟩ := h
  refine ⟨consumed, rest ++ [frame], ?_, hd, ?_⟩
  · rw [writeJSON, hw, append_assoc]
  · have hwire : ∀ buffer, buffer ++ s.wire = framed 10 codec.marshal rest →
        buffer ++ (s.wire ++ (codec.marshal frame ++ [10])) =
          framed 10 codec.marshal (rest ++ [frame]) := by
      intro buffer hb
      rw [framed_append, framed_singleton, ← hb, append_assoc]
    cases hs : s.client with
    | registering buffer =>
      rw [hs] at hc
      simp only [writeJSON, hs]
      exact ⟨hc.1, hc.2.1, hwire buffer hc.2.2⟩
    | reading buffer =>
      rw [hs] at hc
      simp only [writeJSON, hs]
      exact ⟨hc.1, hwire buffer hc.2⟩
    | failed | down =>
      rw [hs] at hc
      simpa only [writeJSON, hs] using hc

theorem registered_frame (codec : Codec) (s : Link) (line : List UInt8) :
    (registered codec s line).server = s.server ∧ (registered codec s line).written = s.written ∧
    (registered codec s line).wire = s.wire ∧ (registered codec s line).delivered = s.delivered := by
  unfold registered
  split
  · exact ⟨rfl, rfl, rfl, rfl⟩
  · split <;> exact ⟨rfl, rfl, rfl, rfl⟩

theorem readLine_frame (codec : Codec) (s : Link) (line : List UInt8) :
    (readLine codec s line).server = s.server ∧ (readLine codec s line).written = s.written ∧
    (readLine codec s line).wire = s.wire ∧ (readLine codec s line).client = s.client ∧
    (readLine codec s line).accepted = s.accepted := by
  unfold readLine
  split
  · exact ⟨rfl, rfl, rfl, rfl, rfl⟩
  · split
    · split <;> exact ⟨rfl, rfl, rfl, rfl, rfl⟩
    · split
      · split <;> exact ⟨rfl, rfl, rfl, rfl, rfl⟩
      · exact ⟨rfl, rfl, rfl, rfl, rfl⟩

theorem read_frame (codec : Codec) (id service : String) (s : Link) (count : Nat) :
    (after codec id service s (.read count)).server = s.server ∧
    (after codec id service s (.read count)).written = s.written := by
  simp only [after]
  split
  · split
    · exact ⟨rfl, rfl⟩
    · obtain ⟨hs, hw, -⟩ := registered_frame codec { s with wire := s.wire.drop count } _
      exact ⟨hs, hw⟩
  · exact ⟨rfl, rfl⟩
  · exact ⟨rfl, rfl⟩

theorem scan_frame (codec : Codec) (id service : String) (s : Link) :
    (after codec id service s .scan).server = s.server ∧
    (after codec id service s .scan).written = s.written := by
  simp only [after]
  split
  · split
    · exact ⟨rfl, rfl⟩
    · obtain ⟨hs, hw, -⟩ := readLine_frame codec { s with client := .reading _ } _
      exact ⟨hs, hw⟩
  · exact ⟨rfl, rfl⟩

theorem Led.congr (h : Led id service s) (hs : t.server = s.server) (hw : t.written = s.written) :
    Led id service t := by
  unfold Led at h ⊢
  rwa [hs, hw]

theorem Led.step (h : Led id service s) (ho : Orderly s action) (he : Enabled service s action) :
    Led id service (after codec id service s action) := by
  obtain ⟨hp, hw⟩ := h
  cases action with
  | receive =>
    have hidle : s.server = .idle := he
    rw [hidle] at hw
    exact ⟨nofun, hw⟩
  | publish =>
    obtain ⟨hr, hs⟩ := he
    rw [hr] at hw
    exact ⟨fun _ => hs, hw⟩
  | respond =>
    have hnil : s.written = [] := by
      rcases he with hr | ⟨hr, -⟩ <;> rw [hr] at hw <;> exact hw
    refine ⟨nofun, ?_⟩
    simp only [after, writeJSON, hnil]
    exact ⟨_, rfl⟩
  | notify n =>
    have hresponded : s.server = .responded := (he.resolve_left ho).1
    rw [hresponded] at hw
    obtain ⟨frames, hw⟩ := hw
    refine ⟨hp, ?_⟩
    simp only [after, writeJSON, hresponded, hw]
    exact ⟨_, rfl⟩
  | reply r =>
    have hresponded : s.server = .responded := he
    rw [hresponded] at hw
    obtain ⟨frames, hw⟩ := hw
    refine ⟨hp, ?_⟩
    simp only [after, writeJSON, hresponded, hw]
    exact ⟨_, rfl⟩
  | read count =>
    obtain ⟨hs, hw'⟩ := read_frame codec id service s count
    exact Led.congr ⟨hp, hw⟩ hs hw'
  | scan =>
    obtain ⟨hs, hw'⟩ := scan_frame codec id service s
    exact Led.congr ⟨hp, hw⟩ hs hw'
  | tooLong => exact ⟨hp, hw⟩
  | drop => exact ⟨hp, hw⟩

theorem dropCR_of_not_mem (h : 13 ∉ line) : dropCR line = line := by
  refine if_neg fun hlast => h ?_
  exact List.mem_of_getLast? hlast

theorem readLine_delivered (hf : codec.Faithful frame) :
    (readLine codec s (codec.marshal frame)).delivered = s.delivered ++ sent [frame] := by
  rw [readLine, hf.envelope]
  cases frame with
  | response r =>
    have hnone : sent [.response r] = [] := rfl
    rw [hnone, append_nil]
    by_cases hid : r.id = ""
    · simp [Frame.id, Frame.method, hid]
    · simp only [Frame.id, ne_eq, hid, not_false_eq_true, if_true]
      split <;> rfl
  | notification n =>
    have hm : n.method.name ≠ "" := by cases n.method <;> decide
    simp [Frame.id, Frame.method, hm, hf.notification n rfl, sent, Frame.notification?]

/-- Under its condition, `registerService` takes the register response and nothing else. -/
theorem Intact.register (hl : Led id service s) (h : Intact codec id service s)
    (hf : ∀ frame ∈ s.written, codec.Faithful frame) (hs : s.client = .registering buffer)
    (hc : cut 10 (buffer ++ s.wire.take count) = some (line, [])) :
    Intact codec id service (registered codec { s with wire := s.wire.drop count } line) := by
  obtain ⟨consumed, rest, hw, hd, hm⟩ := h
  rw [hs] at hm
  obtain ⟨rfl, ha, hb⟩ := hm
  rw [nil_append] at hw
  have hsplit : (buffer ++ s.wire.take count) ++ s.wire.drop count =
      framed 10 codec.marshal rest := by
    rw [append_assoc, take_append_drop, hb]
  have hsep : ∀ frame ∈ rest, 10 ∉ codec.marshal frame := fun frame hmem =>
    (hf frame (hw ▸ hmem)).newline
  obtain ⟨frame, rest', rfl, rfl, hrest⟩ := cut_framed hsep hsplit hc
  -- the first frame written is the register response
  have hfirst : frame = .response (registerResponse id service) := by
    obtain ⟨-, hled⟩ := hl
    cases hsv : s.server with
    | responded =>
      rw [hsv] at hled
      obtain ⟨frames, hled⟩ := hled
      rw [hw] at hled
      exact (List.cons.inj hled).1
    | _ =>
      rw [hsv, hw] at hled
      cases hled
  subst hfirst
  have hresp := (hf _ (by rw [hw]; exact mem_cons_self ..)).response
  rw [registered, hresp]
  by_cases hservice : service = ""
  · subst hservice
    simp only [Frame.asResponse, registerResponse, if_true, errorResponse, isSome_some]
    exact ⟨[], _, hw, hd, ha, rfl⟩
  · simp only [Frame.asResponse, registerResponse, if_neg hservice, okResponse,
      isSome_none, Bool.false_eq_true, if_false]
    refine ⟨[.response (registerResponse id service)], rest', by rw [hw]; rfl, by rw [hd]; rfl, ?_⟩
    exact ⟨by simp [registerResponse, hservice, okResponse], hrest⟩

theorem Intact.scan (h : Intact codec id service s) (hf : ∀ frame ∈ s.written, codec.Faithful frame)
    (hs : s.client = .reading buffer) (hc : cut 10 buffer = some (line, buffer')) :
    Intact codec id service
      (readLine codec { s with client := .reading buffer' } (dropCR line)) := by
  obtain ⟨consumed, rest, hw, hd, hm⟩ := h
  rw [hs] at hm
  obtain ⟨ha, hb⟩ := hm
  have hfrest : ∀ frame ∈ rest, codec.Faithful frame := fun frame hmem =>
    hf frame (by rw [hw]; exact mem_append_right _ hmem)
  obtain ⟨frame, rest', rfl, rfl, hrest⟩ :=
    cut_framed (fun frame hmem => (hfrest frame hmem).newline) hb hc
  have hff : codec.Faithful frame := hfrest frame (mem_cons_self ..)
  rw [dropCR_of_not_mem hff.carriageReturn]
  obtain ⟨-, hw', hwire, hclient, hacc⟩ :=
    readLine_frame codec { s with client := .reading buffer' } (codec.marshal frame)
  refine ⟨consumed ++ [frame], rest', ?_, ?_, ?_⟩
  · rw [hw', append_assoc]
    exact hw
  · rw [readLine_delivered hff, sent_append, hd]
  · rw [hclient, hacc, hwire]
    exact ⟨ha, hrest⟩

theorem Intact.down (h : Intact codec id service s) :
    Intact codec id service { s with client := .down } := by
  obtain ⟨consumed, rest, hw, hd, hm⟩ := h
  refine ⟨consumed, rest, hw, hd, ?_⟩
  intro response ha
  have ha' : s.accepted = some response := ha
  cases hs : s.client with
  | registering buffer =>
    rw [hs, ha'] at hm
    cases hm.2.1
  | failed =>
    rw [hs, ha'] at hm
    cases hm.1
  | reading buffer =>
    rw [hs, ha'] at hm
    exact some.inj hm.1
  | down =>
    rw [hs] at hm
    exact hm response ha'

theorem Intact.step (hl : Led id service s) (h : Intact codec id service s)
    (hf : ∀ frame ∈ s.written, codec.Faithful frame) (ho : Orderly s action)
    (he : Enabled service s action) :
    Intact codec id service (after codec id service s action) := by
  cases action with
  | receive => exact h
  | publish => exact h
  | respond => exact h.write (.response (registerResponse id service))
  | notify n => exact h.write (.notification n)
  | reply r => exact h.write (.response r)
  | read count =>
    simp only [after]
    split
    case h_1 buffer hs =>
      split
      case h_1 =>
        obtain ⟨consumed, rest, hw, hd, hm⟩ := h
        rw [hs] at hm
        refine ⟨consumed, rest, hw, hd, hm.1, hm.2.1, ?_⟩
        rw [append_assoc, take_append_drop]
        exact hm.2.2
      case h_2 line rest hc =>
        obtain rfl : rest = [] := by simpa [Orderly, Reading.discarded, hs, hc] using ho
        exact h.register hl hf hs hc
    case h_2 buffer hs =>
      obtain ⟨consumed, rest, hw, hd, hm⟩ := h
      rw [hs] at hm
      refine ⟨consumed, rest, hw, hd, hm.1, ?_⟩
      rw [append_assoc, take_append_drop]
      exact hm.2
    case h_3 hne hne' =>
      obtain ⟨-, -, hclient⟩ := he
      cases hs : s.client with
      | registering buffer => exact (hne buffer hs).elim
      | reading buffer => exact (hne' buffer hs).elim
      | failed => rw [hs] at hclient; cases hclient
      | down => rw [hs] at hclient; cases hclient
  | scan =>
    simp only [after]
    split
    case h_1 buffer hs =>
      split
      case h_1 => exact h
      case h_2 line rest hc => exact h.scan hf hs hc
    case h_2 => exact h
  | tooLong => exact h.down
  | drop => exact h.down

theorem after_written (codec : Codec) (id service : String) (s : Link) (action : Action) :
    (after codec id service s action).written = s.written ++ (action.frame id service).toList := by
  cases action with
  | respond => rfl
  | notify n => rfl
  | reply r => rfl
  | read count =>
    rw [(read_frame codec id service s count).2]
    exact (append_nil _).symm
  | scan =>
    rw [(scan_frame codec id service s).2]
    exact (append_nil _).symm
  | _ => exact (append_nil _).symm

/-- The client has read every byte and taken every line. -/
def Quiet (service : String) (s : Link) : Prop :=
  ¬ Enabled service s (.read 1) ∧ ¬ Enabled service s .scan ∧ ¬ Enabled service s .tooLong

theorem Intact.delivered_of_quiet (h : Intact codec id service s) (hs : s.client = .reading buffer)
    (hq : Quiet service s) : s.delivered = sent s.written := by
  obtain ⟨hread, hscan, hlong⟩ := hq
  have hcut : cut 10 buffer = none := by
    simpa [Enabled, Reading.line?, hs] using hscan
  have hshort : buffer.length < maxLine := by
    simpa [Enabled, Reading.full, hs, hcut] using hlong
  have hwire : s.wire = [] := by
    by_contra hw
    refine hread ⟨Nat.one_pos, length_pos_iff.2 hw, ?_⟩
    rw [hs]
    exact decide_eq_true hshort
  obtain ⟨consumed, rest, hw, hd, hm⟩ := h
  rw [hs] at hm
  obtain ⟨-, hb⟩ := hm
  rw [hwire, append_nil] at hb
  have hrest : rest = [] := eq_nil_of_framed (hb ▸ cut_eq_none hcut)
  rw [hd, hw, hrest, append_nil]

/-- In a run of orderly steps, the notifications delivered are the first ones written, in order and
each once, and all of them when the client is done reading; the registration succeeds on its own
response only, and fails only where the server refuses the name. -/
theorem delivered_of_orderly (h : (system codec id service).Run .initial tr s)
    (hf : ∀ p ∈ tr, ∀ frame ∈ p.2.frame id service, codec.Faithful frame)
    (ho : ∀ p ∈ tr, Orderly p.1 p.2) :
    ∀ u ∈ states tr s, u.delivered <+: sent u.written ∧
      (∀ buffer, u.client = .reading buffer → Quiet service u → u.delivered = sent u.written) ∧
      (∀ response, u.accepted = some response → response = registerResponse id service) ∧
      (u.client = .failed → service = "") := by
  have hall : ∀ u ∈ states tr s, Led id service u ∧ Intact codec id service u ∧
      ∀ frame ∈ u.written, codec.Faithful frame := by
    refine h.forall_states ⟨⟨nofun, rfl⟩, ⟨[], [], rfl, rfl, rfl, rfl, rfl⟩, nofun⟩ ?_
    rintro p hp ⟨hl, hi, hw⟩ u ⟨he, rfl⟩
    refine ⟨hl.step (ho p hp) he, hi.step hl hw (ho p hp) he, ?_⟩
    intro frame hframe
    rw [after_written] at hframe
    rcases mem_append.1 hframe with hold | hnew
    · exact hw frame hold
    · exact hf p hp frame (mem_toList.1 hnew)
  intro u hu
  obtain ⟨-, hi, -⟩ := hall u hu
  refine ⟨?_, fun buffer hs hq => hi.delivered_of_quiet hs hq, ?_, ?_⟩
  · obtain ⟨consumed, rest, hw, hd, -⟩ := hi
    rw [hd, hw, sent_append]
    exact prefix_append _ _
  · intro response ha
    obtain ⟨consumed, rest, -, -, hm⟩ := hi.down
    exact hm response ha
  · intro hs
    obtain ⟨consumed, rest, -, -, hm⟩ := hi
    rw [hs] at hm
    exact hm.2

end

def sampleResponse : Response := okResponse "register-1"

def sampleNotification : Notification where
  method := .mqttMessage
  params := .obj [("service", .str "live-feed"), ("subtopic", .str "command"),
    ("envelope", .obj [("msgId", .str "1"), ("timestamp", .str "2026-01-01T00:00:00Z"),
      ("type", .str "start-live"), ("payload", .obj [])])]

def ascii (parts : List String) : List UInt8 :=
  parts.flatMap fun part => part.toList.map fun c => c.toNat.toUInt8

def sampleResponseText : List UInt8 :=
  ascii ["\x7b\"id\":", "\"register-1\",", "\"result\":", "\x7b\"ok\":true\x7d\x7d"]

def sampleNotificationText : List UInt8 :=
  ascii ["\x7b\"method\":", "\"mqtt-message\",", "\"params\":\x7b", "\"service\":",
    "\"live-feed\",", "\"subtopic\":", "\"command\",", "\"envelope\":\x7b", "\"msgId\":\"1\",",
    "\"timestamp\":", "\"2026-01-01", "T00:00:00Z\",", "\"type\":", "\"start-live\",",
    "\"payload\":", "\x7b\x7d\x7d\x7d\x7d"]

def sampleCodec : Codec where
  marshal
    | .response _ => sampleResponseText
    | .notification _ => sampleNotificationText
  unmarshalEnvelope line :=
    if line = sampleResponseText then some ("register-1", "")
    else if line = sampleNotificationText then some ("", "mqtt-message")
    else none
  unmarshalResponse line :=
    if line = sampleResponseText ++ [10] then some sampleResponse
    else if line = sampleNotificationText ++ [10] then some { id := "" }
    else none
  unmarshalNotification line :=
    if line = sampleNotificationText then some sampleNotification else none

theorem sampleCodec_faithful_response : sampleCodec.Faithful (.response sampleResponse) where
  newline := by decide +kernel
  carriageReturn := by decide +kernel
  envelope := by decide +kernel
  response := by simp [sampleCodec, Frame.asResponse]
  notification := nofun

theorem sampleCodec_faithful_notification :
    sampleCodec.Faithful (.notification sampleNotification) where
  newline := by decide +kernel
  carriageReturn := by decide +kernel
  envelope := by decide +kernel
  response := by
    have hne : sampleNotificationText ≠ sampleResponseText := by decide +kernel
    simp [sampleCodec, Frame.asResponse, hne]
  notification n hn := by
    cases hn
    simp [sampleCodec]

instance (service : String) (s : Link) : Decidable (Quiet service s) :=
  inferInstanceAs (Decidable (_ ∧ _))

def sampleAfter : Link → Action → Link := after sampleCodec "register-1" "live-feed"

def orderlyReads : List Action :=
  [.receive, .publish, .respond, .read 20, .read 21, .notify sampleNotification, .read 100,
   .read 73, .scan]

theorem delivered_of_orderly_reads :
    ∃ tr s, (system sampleCodec "register-1" "live-feed").Run .initial tr s ∧
      (sent s.written).length = 1 ∧ s.delivered = sent s.written := by
  have hrun : (system sampleCodec "register-1" "live-feed").Run .initial
      (replay sampleAfter .initial orderlyReads).1 (replay sampleAfter .initial orderlyReads).2 :=
    System.run_replay orderlyReads (by decide +kernel)
  have hf : ∀ p ∈ (replay sampleAfter .initial orderlyReads).1,
      ∀ frame ∈ p.2.frame "register-1" "live-feed", sampleCodec.Faithful frame := by
    simp only [orderlyReads, replay, forall_mem_cons, not_mem_nil, false_imp_iff,
      implies_true, and_true, Action.frame, mem_def, reduceCtorEq, some.injEq,
      forall_eq', true_and]
    exact ⟨sampleCodec_faithful_response, sampleCodec_faithful_notification⟩
  obtain ⟨-, hall, -⟩ := delivered_of_orderly hrun hf (by decide +kernel) _ (end_mem_states _ _)
  exact ⟨_, _, hrun, by decide +kernel, hall [] (by decide +kernel) (by decide +kernel)⟩

def overtaken : List Action :=
  [.receive, .publish, .notify sampleNotification, .respond, .read 173, .read 41, .scan]

def swallowed : List Action :=
  [.receive, .publish, .respond, .notify sampleNotification, .read 214]

theorem notification_lost :
    (∃ tr s, (system sampleCodec "register-1" "live-feed").Run .initial tr s ∧
      s.client = .reading [] ∧ Quiet "live-feed" s ∧ (sent s.written).length = 1 ∧
      s.delivered.length = 0 ∧ s.accepted.map Response.id = some "") ∧
    ∃ tr s, (system sampleCodec "register-1" "live-feed").Run .initial tr s ∧
      s.client = .reading [] ∧ Quiet "live-feed" s ∧ (sent s.written).length = 1 ∧
      s.delivered.length = 0 := by
  refine ⟨⟨_, _, System.run_replay overtaken (by decide +kernel), ?_⟩,
    _, _, System.run_replay swallowed (by decide +kernel), ?_⟩
  · decide +kernel
  · decide +kernel

end Trakrai.Ipc.Delivery
