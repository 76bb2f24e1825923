import Rustmate.Machine
import Rustmate.Events.Address
import Rustmate.Events.Encode
import Rustmate.Message.Types

/-!
# Events

What the layers publish and what the views read: an analyzer, a type, the ports of the packet, and fields.
The fields are the JSON object that the analyzer wrote, or the serialized form of a protocol message. Of the
latter the views read the whole message or the stream identifier. The time, the addresses and the link layer
of the packet are left out: no reader modelled here looks at them.
-/

namespace Rustmate.Events

open Message (Text StreamMessage fromStrRadix)

/-- A JSON value. A number is a `u64`, or so much below zero. Those that `serde_json` keeps as floats, with a fraction
or out of range, are left out: what is said of values is said of the others. -/
inductive Value where
  | null
  | bool (value : Bool)
  | number (value : ℕ)
  | negative (value : ℕ)
  | text (value : Text)
  | array (items : List Value)
  | object (fields : List (Text × Value))

namespace Value

/-- `get`: a field of an object. -/
def get (value : Value) (name : String) : Option Value :=
  match value with
  | object fields => fields.lookup name.toList
  | _ => none

/-- `as_u64`. -/
def asU64 : Value → Option ℕ
  | number value => if value ≤ u64Max then some value else none
  | _ => none

/-- `as_str`. -/
def asStr : Value → Option Text
  | text value => some value
  | _ => none

end Value

/-! ## Fields

Each reader of `src/stream_view.rs` is named as there. -/

/-- `object_field`. -/
def objectField (fields : Value) (name : String) : Option Value := fields.get name

/-- `string_field`. -/
def stringField (fields : Value) (name : String) : Option Text := (fields.get name).bind Value.asStr

/-- `u64_field`. -/
def u64Field (fields : Value) (name : String) : Option ℕ := (fields.get name).bind Value.asU64

/-- `try_into` an unsigned integer of so many bits. -/
def tryInto (bits value : ℕ) : Option ℕ := if value < 2^bits then some value else none

/-- `usize_field`. -/
def usizeField (fields : Value) (name : String) : Option ℕ := (u64Field fields name).bind (tryInto 64)

/-- `optional_usize_field`: no field and a null are both nothing, and anything else must be a number. -/
def optionalUsizeField (fields : Value) (name : String) : Option (Option ℕ) :=
  match fields.get name with
  | none => some none
  | some .null => some none
  | some value => (value.asU64.bind (tryInto 64)).map some

/-- `u16_field`. -/
def u16Field (fields : Value) (name : String) : Option (BitVec 16) :=
  ((u64Field fields name).bind (tryInto 16)).map (BitVec.ofNat 16)

/-- `u8_field`. -/
def u8Field (fields : Value) (name : String) : Option ℕ := (u64Field fields name).bind (tryInto 8)

/-- `optional_u32_field`: the field must be there. -/
def optionalU32Field (fields : Value) (name : String) : Option (Option (BitVec 32)) :=
  match fields.get name with
  | none => none
  | some .null => some none
  | some value => ((value.asU64.bind (tryInto 32)).map (BitVec.ofNat 32)).map some

/-- `stream_id_field`: the identifier in hexadecimal. -/
def streamIdField (fields : Value) (name : String) : Option (BitVec 64) :=
  ((stringField fields name).bind (fromStrRadix 16 u64Max)).map (BitVec.ofNat 64)

/-- `parse_protocol`. -/
def parseProtocol (value : Text) : Option TransportProtocol :=
  if value = "tcp".toList then some .tcp
  else if value = "udp".toList then some .udp
  else if value = "icmpv4".toList then some .icmpv4
  else if value = "icmpv6".toList then some .icmpv6
  else none

/-- `protocol_field`. -/
def protocolField (fields : Value) (name : String) : Option TransportProtocol :=
  (stringField fields name).bind parseProtocol

/-- `direction_field`. -/
def directionField (fields : Value) (name : String) : Option FlowDirection :=
  (stringField fields name).bind fun value =>
    if value = "a_to_b".toList then some .aToB
    else if value = "b_to_a".toList then some .bToA
    else none

/-! ## Events -/

/-- What an event carries. -/
inductive Fields where
  | value (fields : Value)
  | message (message : StreamMessage)

/-- The fields as a JSON object. Of a serialized message the stream identifier is kept. -/
def Fields.toValue : Fields → Value
  | .value fields => fields
  | .message m => .object [("stream_id".toList, .number m.stream_id.toNat)]

structure Event where
  analyzer : Text
  event_type : Text
  source_port : Option (BitVec 16)
  destination_port : Option (BitVec 16)
  fields : Fields

/-- `StreamMessage::from_event`. -/
def messageFromEvent (event : Event) : Option StreamMessage :=
  if event.analyzer ≠ "protocol_message".toList then none
  else
    match event.fields with
    | .value _ => none
    | .message message => some message

end Rustmate.Events
