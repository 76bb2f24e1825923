import Mathlib.Data.List.Lex
import Rustmate.Packet

/-!
# Flow keys

The key of a flow does not depend on the direction of the packet: the endpoint that sorts first is `a`.
-/

namespace Rustmate

/-- `timestamp_us` of the stores: microseconds since the epoch. -/
def timestampUs (timestamp : PacketTimestamp) : ℕ :=
  saturatingAdd (saturatingMul timestamp.sec 1000000) timestamp.usec

/-! ## Identifiers -/

/-- `Fnv64`: the FNV-1a hash of some bytes, continued from a state. -/
def fnv64 (hash : BitVec 64) (bytes : List UInt8) : BitVec 64 :=
  bytes.foldl (fun hash byte => (hash ^^^ byte.toBitVec.setWidth 64) * 0x100000001b3) hash

/-- The two bytes of a port, most significant first. -/
def portBytes (port : BitVec 16) : List UInt8 :=
  [UInt8.ofBitVec ((port >>> 8).setWidth 8), UInt8.ofBitVec (port.setWidth 8)]

/-- What `write_endpoint` hashes. -/
def Endpoint.hashBytes (endpoint : Endpoint) : List UInt8 :=
  (match endpoint.addr with
    | .v4 octets => 4 :: octets.toList
    | .v6 octets => 6 :: octets.toList) ++ portBytes endpoint.port

/-- What `stable_id` hashes for a protocol. -/
def TransportProtocol.hashByte : TransportProtocol → UInt8
  | .tcp => 1
  | .udp => 2
  | .icmpv4 => 3
  | .icmpv6 => 4

/-- `FlowKey::stable_id`. -/
def FlowKey.stableId (key : FlowKey) : BitVec 64 :=
  fnv64 (fnv64 (fnv64 0xcbf29ce484222325 [key.protocol.hashByte]) key.a.hashBytes) key.b.hashBytes

/-! ## Routes -/

/-- `endpoint_sort_key`, as one list of numbers to be compared lexicographically: the version, the sixteen
octets and the port. -/
def endpointSortKey (endpoint : Endpoint) : List ℕ :=
  match endpoint.addr with
  | .v4 octets =>
    4 :: List.replicate 12 0 ++ octets.toList.map (fun b => b.toNat) ++ [endpoint.port.toNat]
  | .v6 octets => 6 :: octets.toList.map (fun b => b.toNat) ++ [endpoint.port.toNat]

/-- `FlowRoute::new`. -/
def FlowRoute.new (protocol : TransportProtocol) (source destination : Endpoint) : FlowRoute :=
  if endpointSortKey source ≤ endpointSortKey destination then
    ⟨⟨protocol, source, destination⟩, .aToB⟩
  else ⟨⟨protocol, destination, source⟩, .bToA⟩

/-- `FlowRoute::from_packet`: a packet with addresses and ports has a route. -/
def FlowRoute.fromPacket (packet : DecodedPacket) : Option FlowRoute := do
  let transport ← packet.transport_payload
  let source_port ← transport.source_port
  let destination_port ← transport.destination_port
  let (source_addr, destination_addr) := packet.ip_addresses
  let source : Endpoint := ⟨← source_addr, source_port⟩
  let destination : Endpoint := ⟨← destination_addr, destination_port⟩
  return FlowRoute.new transport.protocol source destination

end Rustmate
