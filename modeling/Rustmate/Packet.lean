import Rustmate.Machine

/-!
# Packets, endpoints and flows

The data that the layers above the packet decoder read. The decoder itself is `etherparse`, outside the
repository: a packet is what `DecodedPacket` gives of it.
-/

namespace Rustmate

/-- The transport protocols that the decoder tells apart. -/
inductive TransportProtocol where
  | tcp
  | udp
  | icmpv4
  | icmpv6
  deriving DecidableEq, Repr

/-- An address, as its octets. -/
inductive IpAddr where
  | v4 (octets : Vector UInt8 4)
  | v6 (octets : Vector UInt8 16)
  deriving DecidableEq, Repr

/-- The IPv4 address of four octets. -/
def IpAddr.ofOctets (a b c d : UInt8) : IpAddr := .v4 #v[a, b, c, d]

structure Endpoint where
  addr : IpAddr
  port : BitVec 16
  deriving DecidableEq, Repr

structure FlowKey where
  protocol : TransportProtocol
  a : Endpoint
  b : Endpoint
  deriving DecidableEq, Repr

inductive FlowDirection where
  | aToB
  | bToA
  deriving DecidableEq, Repr

structure FlowRoute where
  key : FlowKey
  direction : FlowDirection
  deriving DecidableEq, Repr

/-- What the source keeps as an array of two, indexed by a direction. -/
structure PerDirection (α : Type*) where
  aToB : α
  bToA : α
  deriving DecidableEq, Repr

namespace PerDirection

variable {α : Type*}

/-- The entry of a direction. -/
def get (p : PerDirection α) : FlowDirection → α
  | .aToB => p.aToB
  | .bToA => p.bToA

/-- Replace the entry of a direction. -/
def set (p : PerDirection α) (d : FlowDirection) (x : α) : PerDirection α :=
  match d with
  | .aToB => { p with aToB := x }
  | .bToA => { p with bToA := x }

/-- The entry just set. -/
@[simp]
theorem get_set (p : PerDirection α) (d : FlowDirection) (x : α) : (p.set d x).get d = x := by
  cases d <;> rfl

/-- Setting one direction leaves the other alone. -/
theorem get_set_ne (p : PerDirection α) {d d' : FlowDirection} (x : α) (h : d' ≠ d) :
    (p.set d x).get d' = p.get d' := by
  cases d <;> cases d' <;> first | rfl | exact absurd rfl h

end PerDirection

structure TcpFlags where
  fin : Bool
  syn : Bool
  rst : Bool
  psh : Bool
  ack : Bool
  urg : Bool
  ece : Bool
  cwr : Bool
  deriving DecidableEq, Repr

structure TcpSegment where
  sequence_number : BitVec 32
  acknowledgment_number : BitVec 32
  flags : TcpFlags
  window_size : BitVec 16
  payload_len : ℕ
  deriving DecidableEq, Repr

/-- `u32::from(bool)`. -/
def u32OfBool (b : Bool) : BitVec 32 := if b then 1 else 0

/-- How many sequence numbers the segment takes: its payload, and one for each of SYN and FIN. -/
def TcpSegment.sequenceSpan (s : TcpSegment) : BitVec 32 :=
  saturatingAdd32 (saturatingAdd32 (BitVec.ofNat 32 s.payload_len) (u32OfBool s.flags.syn))
    (u32OfBool s.flags.fin)

/-- The sequence number of the first payload byte. -/
def TcpSegment.payloadSequenceStart (s : TcpSegment) : BitVec 32 :=
  s.sequence_number + u32OfBool s.flags.syn

/-- The sequence number after the last payload byte. -/
def TcpSegment.payloadSequenceEnd (s : TcpSegment) : BitVec 32 :=
  s.payloadSequenceStart + BitVec.ofNat 32 s.payload_len

structure PacketTimestamp where
  sec : ℕ
  usec : ℕ
  deriving DecidableEq, Repr

/-- What the decoder finds of the transport layer. -/
structure TransportPayload where
  protocol : TransportProtocol
  source_port : Option (BitVec 16)
  destination_port : Option (BitVec 16)
  bytes : List UInt8
  tcp : Option TcpSegment
  deriving DecidableEq, Repr

/-- A decoded packet: when it was captured, its raw length, its addresses, and its transport payload
when it has one. -/
structure DecodedPacket where
  timestamp : PacketTimestamp
  raw_len : ℕ
  ip_addresses : Option IpAddr × Option IpAddr
  transport_payload : Option TransportPayload
  deriving DecidableEq, Repr

end Rustmate
