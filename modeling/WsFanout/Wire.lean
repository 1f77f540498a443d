import Mathlib.Data.List.Basic
import Mathlib.Data.List.Nodup
import WsFanout.Lib.Json
import WsFanout.Protocol

/-!
# The frames on the wire

`ServerMessage::to_frame` of `protocol.rs`: one JSON object, tagged by `type`, its fields in the
order of their declaration.  Two of them are left out when they are empty, and a payload goes in as
the text it came in.

`decode` is a client that reads frames by the table of `docs/protocol.md`, and `frame_decodes` says
that it reads what was written.  The other modules carry a message in the place of its frame;
`ServerMessage.eq_of_toFrame_eq` is what allows that.
-/

namespace WsFanout.Wire

open WsFanout.Lib

/-- A refused channel; the source keeps the reason as a string. -/
structure Rejected where
  channel : String
  reason : String
  deriving DecidableEq, Repr

/-- `ServerMessage` with the types of its fields as `protocol.rs` has them: a code is any string. -/
inductive Message where
  | authenticated (subject : String)
  | subscribed (channels : List String) (rejected : List Rejected)
  | unsubscribed (channels : List String)
  | data (channel : String) (payload : RawValue)
  | snapshot (channel : String) (payload : RawValue)
  | resync (channels : List String)
  | pong (timestamp : UInt64)
  | error (code message : String)
  deriving DecidableEq, Repr

/-! ## Serialising -/

def text (s : String) : List Char :=
  Json.quote s.toList

def texts (ss : List String) : List Char :=
  Json.array (ss.map text)

/-- An object from the names of its fields and the texts of their values. -/
def object (fields : List (String × List Char)) : List Char :=
  Json.object (fields.map fun f => (f.1.toList, f.2))

namespace Rejected

def members (r : Rejected) : List (String × List Char) :=
  [("channel", text r.channel), ("reason", text r.reason)]

def serialize (r : Rejected) : List Char :=
  object r.members

end Rejected

def rejections (rs : List Rejected) : List Char :=
  Json.array (rs.map Rejected.serialize)

namespace Message

/-- The fields that are serialised: the tag, then those of the variant. -/
def members : Message → List (String × List Char)
  | authenticated subject => [("type", text "authenticated"), ("subject", text subject)]
  | subscribed channels rejected =>
    [("type", text "subscribed"), ("channels", texts channels)] ++
      -- skip_serializing_if = "Vec::is_empty"
      if rejected.isEmpty then [] else [("rejected", rejections rejected)]
  | unsubscribed channels => [("type", text "unsubscribed"), ("channels", texts channels)]
  | data channel payload =>
    [("type", text "data"), ("channel", text channel), ("payload", payload.get.toList)]
  | snapshot channel payload =>
    [("type", text "snapshot"), ("channel", text channel), ("payload", payload.get.toList)]
  | resync channels =>
    [("type", text "resync")] ++
      -- skip_serializing_if = "Vec::is_empty"
      if channels.isEmpty then [] else [("channels", texts channels)]
  | pong timestamp => [("type", text "pong"), ("timestamp", Json.decimal timestamp.toNat)]
  | error code message =>
    [("type", text "error"), ("code", text code), ("message", text message)]

/-- Serialise into a frame. -/
def toFrame (m : Message) : String :=
  String.ofList (object m.members)

/-- Every payload is the text of one JSON value, which is what a `RawValue` holds. -/
def WellFormed : Message → Prop
  | data _ payload => Json.Value payload.get.toList
  | snapshot _ payload => Json.Value payload.get.toList
  | _ => True

/-- The names a frame has, by the variant and by what is empty. -/
def fieldNames : Message → List String
  | authenticated _ => ["type", "subject"]
  | subscribed _ [] => ["type", "channels"]
  | subscribed _ (_ :: _) => ["type", "channels", "rejected"]
  | unsubscribed _ => ["type", "channels"]
  | data _ _ => ["type", "channel", "payload"]
  | snapshot _ _ => ["type", "channel", "payload"]
  | resync [] => ["type"]
  | resync (_ :: _) => ["type", "channels"]
  | pong _ => ["type", "timestamp"]
  | error _ _ => ["type", "code", "message"]

end Message

/-! ## Reading a frame -/

def readString (raw : List Char) : Option String :=
  (Json.string? raw).map String.ofList

def readStrings (raw : List Char) : Option (List String) := do
  let items ← Json.items raw
  items.mapM readString

/-- The names of an object's fields and the texts of their values; no name may come twice. -/
def readObject (raw : List Char) : Option (List (String × List Char)) := do
  let fields ← Json.fields raw
  let named := fields.map fun f => (String.ofList f.1, f.2)
  if (named.map Prod.fst).Nodup then some named else none

/-- A field that must be there. -/
def required {α : Type} (fields : List (String × List Char)) (name : String)
    (read : List Char → Option α) : Option α :=
  (fields.lookup name).bind read

/-- A list that is empty when it is absent. -/
def optional {α : Type} (fields : List (String × List Char)) (name : String)
    (read : List Char → Option (List α)) : Option (List α) :=
  match fields.lookup name with
  | none => some []
  | some raw => read raw

def readRejected (raw : List Char) : Option Rejected := do
  let fields ← readObject raw
  let channel ← required fields "channel" readString
  let reason ← required fields "reason" readString
  some { channel, reason }

def readRejections (raw : List Char) : Option (List Rejected) := do
  let items ← Json.items raw
  items.mapM readRejected

def readTimestamp (raw : List Char) : Option UInt64 := do
  let n ← Json.nat? raw
  if n < UInt64.size then some (UInt64.ofNat n) else none

/-- The text of a value as it stands. -/
def readRaw (raw : List Char) : Option RawValue :=
  some { get := String.ofList raw }

/-- A client of `docs/protocol.md`: dispatch on `type`. -/
def decode (frame : String) : Option Message := do
  let fields ← readObject frame.toList
  match ← required fields "type" readString with
  | "authenticated" => some (.authenticated (← required fields "subject" readString))
  | "subscribed" =>
    some (.subscribed (← required fields "channels" readStrings)
      (← optional fields "rejected" readRejections))
  | "unsubscribed" => some (.unsubscribed (← required fields "channels" readStrings))
  | "data" =>
    some (.data (← required fields "channel" readString) (← required fields "payload" readRaw))
  | "snapshot" =>
    some (.snapshot (← required fields "channel" readString) (← required fields "payload" readRaw))
  | "resync" => some (.resync (← optional fields "channels" readStrings))
  | "pong" => some (.pong (← required fields "timestamp" readTimestamp))
  | "error" =>
    some (.error (← required fields "code" readString) (← required fields "message" readString))
  | _ => none

/-! ## Reading what was serialised -/

@[simp] theorem readString_text (s : String) : readString (text s) = some s := by
  simp [readString, text]

theorem value_text (s : String) : Json.Value (text s) :=
  Json.value_quote s.toList

theorem value_texts (ss : List String) : Json.Value (texts ss) :=
  Json.value_array (List.forall_mem_map.mpr fun s _ => value_text s)

@[simp] theorem readStrings_texts (ss : List String) : readStrings (texts ss) = some ss := by
  have items : Json.items (texts ss) = some (ss.map text) :=
    Json.items_array (List.forall_mem_map.mpr fun s _ => value_text s)
  rw [readStrings, items]
  exact Json.mapM_map_of_back fun s _ => readString_text s

/-- The fields of a written object, when their names differ. -/
theorem readObject_object {fields : List (String × List Char)}
    (values : ∀ f ∈ fields, Json.Value f.2) (distinct : (fields.map Prod.fst).Nodup) :
    readObject (object fields) = some fields := by
  have read : Json.fields (object fields) = some (fields.map fun f => (f.1.toList, f.2)) :=
    Json.fields_object (List.forall_mem_map.mpr values)
  rw [readObject, read]
  simpa [Function.comp_def] using distinct

theorem value_object {fields : List (String × List Char)} (values : ∀ f ∈ fields, Json.Value f.2) :
    Json.Value (object fields) :=
  Json.value_object (List.forall_mem_map.mpr values)

theorem Rejected.value_of_mem_members (r : Rejected) : ∀ f ∈ r.members, Json.Value f.2 := by
  simp [members, value_text]

theorem value_serialize (r : Rejected) : Json.Value r.serialize :=
  value_object r.value_of_mem_members

@[simp] theorem readRejected_serialize (r : Rejected) : readRejected r.serialize = some r := by
  have fields : readObject r.serialize = some r.members :=
    readObject_object r.value_of_mem_members (by simp [Rejected.members])
  rw [readRejected, fields]
  simp [Rejected.members, required, List.lookup_cons]

theorem value_rejections (rs : List Rejected) : Json.Value (rejections rs) :=
  Json.value_array (List.forall_mem_map.mpr fun r _ => value_serialize r)

@[simp] theorem readRejections_rejections (rs : List Rejected) :
    readRejections (rejections rs) = some rs := by
  have items : Json.items (rejections rs) = some (rs.map Rejected.serialize) :=
    Json.items_array (List.forall_mem_map.mpr fun r _ => value_serialize r)
  rw [readRejections, items]
  exact Json.mapM_map_of_back fun r _ => readRejected_serialize r

@[simp] theorem readTimestamp_decimal (timestamp : UInt64) :
    readTimestamp (Json.decimal timestamp.toNat) = some timestamp := by
  simp [readTimestamp, Json.nat?_decimal, timestamp.toNat_lt_size]

@[simp] theorem readRaw_get (payload : RawValue) : readRaw payload.get.toList = some payload := by
  simp [readRaw]

namespace Message

variable {m : Message}

theorem map_fst_members (m : Message) : m.members.map Prod.fst = m.fieldNames := by
  cases m with
  | subscribed channels rejected => cases rejected <;> rfl
  | resync channels => cases channels <;> rfl
  | _ => rfl

theorem nodup_fieldNames (m : Message) : m.fieldNames.Nodup := by
  cases m with
  | subscribed channels rejected => cases rejected <;> simp [fieldNames]
  | resync channels => cases channels <;> simp [fieldNames]
  | _ => simp [fieldNames]

/-- Every field is serialised as one value. -/
theorem value_of_mem_members (wellFormed : m.WellFormed) : ∀ f ∈ m.members, Json.Value f.2 := by
  cases m with
  | subscribed channels rejected =>
      cases rejected <;> simp [members, value_text, value_texts, value_rejections]
  | resync channels => cases channels <;> simp [members, value_text, value_texts]
  | data channel payload =>
      rw [WellFormed] at wellFormed
      simp [members, value_text, wellFormed]
  | snapshot channel payload =>
      rw [WellFormed] at wellFormed
      simp [members, value_text, wellFormed]
  | _ => simp [members, value_text, value_texts, Json.value_decimal]

theorem readObject_toFrame (wellFormed : m.WellFormed) :
    readObject m.toFrame.toList = some m.members := by
  rw [toFrame, String.toList_ofList]
  apply readObject_object (value_of_mem_members wellFormed)
  rw [map_fst_members]
  exact m.nodup_fieldNames

theorem decode_toFrame (wellFormed : m.WellFormed) : decode m.toFrame = some m := by
  rw [decode, readObject_toFrame wellFormed]
  cases m with
  | subscribed channels rejected =>
      cases rejected <;> simp [members, required, optional, List.lookup_cons]
  | resync channels => cases channels <;> simp [members, required, optional, List.lookup_cons]
  | _ => simp [members, required, List.lookup_cons]

-- The frames `protocol.rs` tests for.
example : (subscribed ["a"] []).toFrame =
    "\x7b\"type\":\"subscribed\",\"channels\":[\"a\"]\x7d" := by decide

example : (resync []).toFrame = "\x7b\"type\":\"resync\"\x7d" := by decide

theorem toFrame_injective {other : Message} (wellFormed : m.WellFormed)
    (otherWellFormed : other.WellFormed) (same : other.toFrame = m.toFrame) : other = m := by
  have first := decode_toFrame wellFormed
  have second := decode_toFrame otherWellFormed
  rw [same, first] at second
  exact (Option.some.inj second).symm

/-- Every frame is one JSON object with the fields of its variant and no others, each name once.  It
decodes to the message it was serialised from, and to no other. -/
theorem frame_decodes (m : Message) (wellFormed : m.WellFormed) :
    Json.Value m.toFrame.toList ∧
      (Json.fields m.toFrame.toList).map (List.map fun f => String.ofList f.1) =
        some m.fieldNames ∧
      m.fieldNames.Nodup ∧ decode m.toFrame = some m ∧
      ∀ other : Message, other.WellFormed → other.toFrame = m.toFrame → other = m := by
  have values := value_of_mem_members wellFormed
  have names : (Json.fields m.toFrame.toList).map (List.map fun f => String.ofList f.1) =
      some m.fieldNames := by
    have read : Json.fields m.toFrame.toList = some (m.members.map fun f => (f.1.toList, f.2)) := by
      rw [toFrame, String.toList_ofList]
      exact Json.fields_object (List.forall_mem_map.mpr values)
    rw [read, ← map_fst_members]
    simp [Function.comp_def]
  refine ⟨?_, names, m.nodup_fieldNames, decode_toFrame wellFormed, ?_⟩
  · rw [toFrame, String.toList_ofList]
    exact value_object values
  · intro other otherWellFormed same
    exact toFrame_injective wellFormed otherWellFormed same

/-- A channel and a payload that both spell out fields of other messages. -/
def forged : Message :=
  .data "a\",\"type\":\"pong" { get := "\x7b\"type\":\"pong\",\"timestamp\":7\x7d" }

theorem frame_decodes_forged : forged.WellFormed ∧ decode forged.toFrame = some forged := by
  have wellFormed : forged.WellFormed := by
    exact @Json.value_object
      [("type".toList, Json.quote "pong".toList), ("timestamp".toList, Json.decimal 7)]
      (by simp [Json.value_quote, Json.value_decimal])
  exact ⟨wellFormed, (frame_decodes forged wellFormed).2.2.2.1⟩

end Message

end WsFanout.Wire

namespace WsFanout

/-! ## The messages of the model -/

def Reason.asStr : Reason → String
  | invalid => "invalid"
  | unauthorized => "unauthorized"
  | limit => "limit"

def ErrorCode.asStr : ErrorCode → String
  | unauthenticated => "unauthenticated"
  | alreadyAuthenticated => "already_authenticated"
  | invalidMessage => "invalid_message"
  | protocol => "protocol"

def Rejected.toWire (r : Rejected) : Wire.Rejected where
  channel := r.channel
  reason := r.reason.asStr

namespace ServerMessage

/-- A message with its codes as they are sent. -/
def toWire : ServerMessage → Wire.Message
  | authenticated subject => .authenticated subject
  | subscribed channels rejected => .subscribed channels (rejected.map Rejected.toWire)
  | unsubscribed channels => .unsubscribed channels
  | data channel payload => .data channel payload
  | snapshot channel payload => .snapshot channel payload
  | resync channels => .resync channels
  | pong timestamp => .pong timestamp
  | error code message => .error code.asStr message

def toFrame (m : ServerMessage) : String :=
  m.toWire.toFrame

end ServerMessage

theorem Reason.asStr_injective : Function.Injective Reason.asStr := by
  intro a b same
  cases a <;> cases b <;> first | rfl | exact absurd same (by decide)

theorem ErrorCode.asStr_injective : Function.Injective ErrorCode.asStr := by
  intro a b same
  cases a <;> cases b <;> first | rfl | exact absurd same (by decide)

theorem Rejected.toWire_injective : Function.Injective Rejected.toWire := by
  rintro ⟨channel, reason⟩ ⟨channel', reason'⟩ same
  injection same with sameChannel sameReason
  cases (sameChannel : channel = channel')
  cases Reason.asStr_injective sameReason
  rfl

theorem ServerMessage.toWire_injective : Function.Injective ServerMessage.toWire := by
  intro m m' same
  cases m <;> cases m' <;> injection same
  case subscribed.subscribed sameChannels sameRejected =>
    rw [sameChannels, Rejected.toWire_injective.list_map sameRejected]
  case error.error sameCode sameMessage =>
    rw [ErrorCode.asStr_injective sameCode, sameMessage]
  all_goals simp_all

/-- Two messages of the model with one frame are one message, which is why a queue of messages
stands for a queue of frames. -/
theorem ServerMessage.eq_of_toFrame_eq {m m' : ServerMessage} (wellFormed : m.toWire.WellFormed)
    (wellFormed' : m'.toWire.WellFormed) (same : m'.toFrame = m.toFrame) : m' = m :=
  toWire_injective (Wire.Message.toFrame_injective wellFormed wellFormed' same)

end WsFanout
