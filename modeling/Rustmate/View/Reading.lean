import Rustmate.Events.AddressRoundTrip
import Rustmate.Events.Hex
import Rustmate.Inventory.Store
import Rustmate.View.Types

/-!
# What the view reads of the inventory

The fields of an inventory event, read back by the view: the row has the values of the record.
-/

namespace Rustmate.View

open Message (Text)
open Events
open Inventory (StreamRecord DirectionRecord ContentKind StreamStatus objectValue textValue optionValue
  inventoryEvent)

/-! ## Fields -/

/-- A field of an object is found by its name. -/
theorem get_objectValue (fields : List (String × Value)) (name : String) :
    (objectValue fields).get name = fields.lookup name := by
  unfold objectValue Value.get
  dsimp only
  induction fields with
  | nil => rfl
  | cons x fields ih =>
    rw [List.map_cons, List.lookup_cons, List.lookup_cons, ih]
    have hname : (name.toList == x.1.toList) = (name == x.1) := by
      rw [Bool.eq_iff_iff, beq_iff_eq, beq_iff_eq, String.toList_inj]
    rw [hname]

section Fields

variable {fields : Value} {name : String}

/-- A number that fits is read as it was written. -/
theorem u64Field_eq {n : ℕ} (h : fields.get name = some (.number n)) (hn : n < 2^64) :
    u64Field fields name = some n := by
  have hle : n ≤ u64Max := by
    unfold u64Max
    omega
  rw [u64Field, h, Option.bind_some, Value.asU64, if_pos hle]

/-- A text is read as it was written. -/
theorem stringField_eq {t : Text} (h : fields.get name = some (.text t)) :
    stringField fields name = some t := by
  rw [stringField, h, Option.bind_some, Value.asStr]

/-- A text that may be missing is read as it was written. -/
theorem stringField_option {t : Option Text}
    (h : fields.get name = some (optionValue (t.map .text))) : stringField fields name = t := by
  rw [stringField, h]
  cases t <;> rfl

/-- A sequence number that may be missing is read as it was written. -/
theorem optionalU32Field_eq {n : Option (BitVec 32)}
    (h : fields.get name = some (optionValue (n.map fun n => .number n.toNat))) :
    optionalU32Field fields name = some n := by
  unfold optionalU32Field
  rw [h]
  rcases n with - | n
  · rfl
  · have hlt := n.isLt
    have hle : n.toNat ≤ u64Max := by
      unfold u64Max
      omega
    simp [optionValue, Value.asU64, hle, tryInto, hlt]

/-- A port is read as it was written. -/
theorem u16Field_eq {n : BitVec 16} (h : fields.get name = some (.number n.toNat)) :
    u16Field fields name = some n := by
  have hlt := n.isLt
  rw [u16Field, u64Field_eq h (by omega), Option.bind_some, tryInto, if_pos hlt, Option.map_some,
    BitVec.ofNat_toNat, BitVec.setWidth_eq]

/-- A number that fits a byte is read as it was written. -/
theorem u8Field_eq {n : ℕ} (h : fields.get name = some (.number n)) (hn : n < 256) :
    u8Field fields name = some n := by
  rw [u8Field, u64Field_eq h (by omega), Option.bind_some, tryInto, if_pos (by omega)]

/-- A length that may be missing is read as it was written. -/
theorem optionalUsizeField_eq {n : Option ℕ} (h : fields.get name = some (optionValue (n.map .number)))
    (hn : ∀ k ∈ n, k < 2^64) : optionalUsizeField fields name = some n := by
  unfold optionalUsizeField
  rw [h]
  rcases n with - | n
  · rfl
  · have hlt := hn n rfl
    have hle : n ≤ u64Max := by
      unfold u64Max
      omega
    have hfits : tryInto 64 n = some n := if_pos hlt
    simp [optionValue, Value.asU64, hle, hfits]

end Fields

/-! ## Records -/

/-- The kind of content, as the view has it. -/
def contentKindOf : ContentKind → StreamViewContentKind
  | .unknown => .unknown
  | .text => .text
  | .binary => .binary
  | .mixed => .mixed

/-- The kind of content is read as it was written. -/
theorem contentKindField_eq {fields : Value} {name : String} {kind : ContentKind}
    (h : fields.get name = some (textValue kind.asStr)) :
    contentKindField fields name = contentKindOf kind := by
  rw [contentKindField, stringField_eq h]
  cases kind <;> rfl

/-- The status, as the view has it. -/
def statusOf : StreamStatus → StreamViewStatus
  | .open_ => .open_
  | .closing => .closing
  | .closed => .closed

/-- The counters and offsets of a direction fit their fields. -/
structure DirectionFits (record : DirectionRecord) : Prop where
  packets : record.packets < 2^64
  bytes : record.bytes < 2^64
  payload_bytes : record.payload_bytes < 2^64
  stream_bytes : record.stream_bytes < 2^64
  stream_chunks : record.stream_chunks < 2^64

/-- A direction of the row. -/
def directionOf (record : DirectionRecord) : StreamViewDirection where
  packets := record.packets
  bytes := record.bytes
  payload_bytes := record.payload_bytes
  stream_bytes := record.stream_bytes
  stream_chunks := record.stream_chunks
  first_sequence := record.first_sequence
  last_sequence := record.last_sequence
  content_kind := contentKindOf record.content.kind
  preview_base64 := base64 record.preview
  preview_text := Inventory.previewText record.preview record.content.kind

/-- A direction is read as it was written. -/
theorem directionSnapshotField_eq {record : DirectionRecord} (h : DirectionFits record)
    {value : Value} {name : String} (hget : value.get name = some record.fields) :
    directionSnapshotField value name = some (directionOf record) := by
  have hfirst : optionalU32Field record.fields "first_sequence" = some record.first_sequence :=
    optionalU32Field_eq (get_objectValue _ _)
  have hlast : optionalU32Field record.fields "last_sequence" = some record.last_sequence :=
    optionalU32Field_eq (get_objectValue _ _)
  unfold directionSnapshotField objectField
  rw [hget, Option.bind_eq_bind, Option.bind_some,
    u64Field_eq (get_objectValue _ "packets") h.packets,
    u64Field_eq (get_objectValue _ "bytes") h.bytes,
    u64Field_eq (get_objectValue _ "payload_bytes") h.payload_bytes,
    u64Field_eq (get_objectValue _ "stream_bytes") h.stream_bytes,
    u64Field_eq (get_objectValue _ "stream_chunks") h.stream_chunks, hfirst, hlast,
    contentKindField_eq (get_objectValue _ "content_kind"),
    stringField_eq (get_objectValue _ "preview_base64"),
    stringField_option (get_objectValue _ "preview_text")]
  rfl

/-- The numbers of a record fit their fields. -/
structure RecordFits (record : StreamRecord) : Prop where
  content_shard : ∀ shard ∈ record.content_shard, shard < 2^64
  first_seen_us : record.first_seen_us < 2^64
  last_seen_us : record.last_seen_us < 2^64
  confidence : record.service.confidence < 256
  packets : record.packets < 2^64
  bytes : record.bytes < 2^64
  payload_bytes : record.payload_bytes < 2^64
  stream_bytes : record.stream_bytes < 2^64
  stream_chunks : record.stream_chunks < 2^64
  aToB : DirectionFits record.directions.aToB
  bToA : DirectionFits record.directions.bToA

/-- The service of a row. -/
def serviceOf (service : Inventory.ProtocolDetection) : StreamViewService where
  name := service.service.asStr.toList
  side := service.side.asStr.toList
  confidence := service.confidence
  source := some service.source.asStr.toList
  evidence := some service.evidence.toList

/-- The row of a record. -/
def rowOf (record : StreamRecord) : StreamViewEntry where
  stream_id := record.id
  content_shard := record.content_shard
  first_seen_us := record.first_seen_us
  last_seen_us := record.last_seen_us
  protocol := record.key.protocol
  endpoint_a := record.key.a
  endpoint_b := record.key.b
  service := serviceOf record.service
  status := statusOf record.status
  content_kind := contentKindOf record.contentKind
  packets := record.packets
  bytes := record.bytes
  payload_bytes := record.payload_bytes
  stream_bytes := record.stream_bytes
  stream_chunks := record.stream_chunks
  directions := ⟨directionOf record.directions.aToB, directionOf record.directions.bToA⟩
  matches_ := []
  match_count := 0
  pattern_ids := ∅

/-- An endpoint is read as it was written. -/
theorem endpointField_eq {fields : Value} {name : String} {endpoint : Endpoint}
    (h : fields.get name = some (Inventory.endpointFields endpoint)) :
    endpointField fields name = some endpoint := by
  unfold endpointField objectField
  rw [h, Option.bind_eq_bind, Option.bind_some, stringField_eq (get_objectValue _ "addr"),
    u16Field_eq (get_objectValue _ "port"), Option.bind_some, parseIpAddr_showIpAddr]
  rfl

/-- The view reads from an inventory event the row of its record. -/
theorem fromStreamEvent_fields {record : StreamRecord} (h : RecordFits record) (event_type : String)
    (packet : DecodedPacket) : StreamViewEntry.fromStreamEvent
      (inventoryEvent event_type packet record.fields) = some (rowOf record) := by
  have hfields : (inventoryEvent event_type packet record.fields).fields.toValue = record.fields := rfl
  have hservice : serviceField record.fields "service" = some (serviceOf record.service) := by
    have hget : record.fields.get "service" = some (objectValue
        [("name", textValue record.service.service.asStr),
          ("side", textValue record.service.side.asStr),
          ("confidence", .number record.service.confidence),
          ("source", textValue record.service.source.asStr),
          ("evidence", textValue record.service.evidence)]) := get_objectValue _ "service"
    unfold serviceField objectField
    rw [hget, Option.bind_eq_bind, Option.bind_some, stringField_eq (get_objectValue _ "name"),
      stringField_eq (get_objectValue _ "side"),
      u8Field_eq (get_objectValue _ "confidence") h.confidence,
      stringField_eq (get_objectValue _ "source"), stringField_eq (get_objectValue _ "evidence")]
    rfl
  have hdirections : directionsField record.fields = some
      ⟨directionOf record.directions.aToB, directionOf record.directions.bToA⟩ := by
    have hget : record.fields.get "directions" = some
        (objectValue [("a_to_b", record.directions.aToB.fields),
          ("b_to_a", record.directions.bToA.fields)]) := get_objectValue _ "directions"
    unfold directionsField objectField
    rw [hget, Option.bind_eq_bind, Option.bind_some, directionSnapshotField_eq h.aToB (get_objectValue _ "a_to_b"),
      directionSnapshotField_eq h.bToA (get_objectValue _ "b_to_a")]
    rfl
  have hprotocol : protocolField record.fields "protocol" = some record.key.protocol := by
    rw [protocolField, stringField_eq (get_objectValue _ "protocol"), Option.bind_some]
    cases record.key.protocol <;> rfl
  have hstatus : StreamViewStatus.fromStr record.status.asStr.toList = statusOf record.status := by
    cases record.status <;> rfl
  unfold StreamViewEntry.fromStreamEvent
  dsimp only
  rw [hfields, streamIdField_eq (get_objectValue _ "stream_id"),
    u64Field_eq (get_objectValue _ "first_seen_us") h.first_seen_us,
    u64Field_eq (get_objectValue _ "last_seen_us") h.last_seen_us, hprotocol,
    endpointField_eq (get_objectValue _ "endpoint_a"), endpointField_eq (get_objectValue _ "endpoint_b"), hservice,
    u64Field_eq (get_objectValue _ "packets") h.packets,
    u64Field_eq (get_objectValue _ "bytes") h.bytes,
    u64Field_eq (get_objectValue _ "payload_bytes") h.payload_bytes,
    u64Field_eq (get_objectValue _ "stream_bytes") h.stream_bytes,
    u64Field_eq (get_objectValue _ "stream_chunks") h.stream_chunks, hdirections,
    optionalUsizeField_eq (get_objectValue _ "content_shard") h.content_shard,
    contentKindField_eq (get_objectValue _ "content_kind"),
    stringField_eq (get_objectValue _ "status"), Option.map_some, hstatus]
  rfl

end Rustmate.View
