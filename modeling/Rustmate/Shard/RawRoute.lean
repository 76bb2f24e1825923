import Rustmate.Decode.Fragments
import Rustmate.Flow.Key

/-!
# The quick parser of the dispatcher

`flow_route_from_raw_result` of `src/shard.rs`, which finds the flow of a packet before it is decoded.
-/

namespace Rustmate.Shard

open Decode

inductive FallbackRouteReason where
  | unsupportedLink
  | nonIp
  | malformed
  | fragmented
  | unsupportedTransport
  deriving DecidableEq, Repr

/-- What a step of the parser gives: a value, a reason for the fallback, or `none` for an access outside the
bytes. -/
def Quick (A : Type) : Type := Option (Except FallbackRouteReason A)

namespace Quick

variable {A B : Type}

/-- `Ok`. -/
def ok (a : A) : Quick A := some (.ok a)

/-- `Err`. -/
def fail (reason : FallbackRouteReason) : Quick A := some (.error reason)

/-- The operator `?`. -/
def andThen (x : Quick A) (f : A → Quick B) : Quick B :=
  match x with
  | none => none
  | some (.error reason) => fail reason
  | some (.ok a) => f a

instance : Monad Quick where
  pure := ok
  bind := andThen

end Quick

open Quick

/-- `data[i]`. -/
def index (data : List UInt8) (i : ℕ) : Quick UInt8 := data[i]?.map .ok

/-- `ok_or(FallbackRouteReason::Malformed)`. -/
def orMalformed {A : Type} : Option A → Quick A
  | some a => ok a
  | none => fail .malformed

/-- The transport protocols that are routed. -/
def routedProtocol (protocol : UInt8) : Quick TransportProtocol :=
  if protocol = 6 then ok .tcp else if protocol = 17 then ok .udp else fail .unsupportedTransport

/-- `route_transport`. -/
def routeTransport (data : List UInt8) (offset : ℕ) (protocol : UInt8) (source_addr destination_addr : IpAddr) :
    Quick FlowRoute := do
  let protocol ← routedProtocol protocol
  let source_port ← orMalformed (readU16 data offset)
  let destination_port ← orMalformed (readU16 data (offset + 2))
  ok (FlowRoute.new protocol ⟨source_addr, source_port⟩ ⟨destination_addr, destination_port⟩)

/-- The four octets of an address. -/
def ipv4At (data : List UInt8) (offset : ℕ) : Quick IpAddr := do
  let a ← index data offset
  let b ← index data (offset + 1)
  let c ← index data (offset + 2)
  let d ← index data (offset + 3)
  ok (IpAddr.ofOctets a b c d)

/-- `route_ipv4`. -/
def routeIpv4 (data : List UInt8) (offset : ℕ) : Quick FlowRoute :=
  if data.length < offset + 20 then fail .malformed
  else do
    let first ← index data offset
    let header_len := (first &&& 0x0f).toNat * 4
    if first >>> 4 ≠ 4 ∨ header_len < 20 ∨ data.length < offset + header_len then fail .malformed
    else
      let total_len ← orMalformed (readU16 data (offset + 2))
      if total_len.toNat < header_len then fail .malformed
      else
        let fragment ← orMalformed (readU16 data (offset + 6))
        if fragment &&& 0x1fff ≠ 0 then fail .fragmented
        else
          let protocol ← index data (offset + 9)
          let source ← ipv4At data (offset + 12)
          let destination ← ipv4At data (offset + 16)
          routeTransport data (offset + header_len) protocol source destination

/-- The loop of `route_ipv6_transport`, for so many headers. -/
def routeIpv6Transport (data : List UInt8) (source destination : IpAddr) : ℕ → ℕ → UInt8 → Quick FlowRoute
  | 0, _, _ => fail .unsupportedTransport
  | turns + 1, offset, next_header =>
    if next_header = 6 ∨ next_header = 17 then routeTransport data offset next_header source destination
    else if isOptionsHeader next_header then
      if data.length < offset + 2 then fail .malformed
      else do
        let next ← index data offset
        let length ← index data (offset + 1)
        routeIpv6Transport data source destination turns (saturatingAdd offset ((length.toNat + 1) * 8)) next
    else if next_header = 44 then
      if data.length < offset + 8 then fail .malformed
      else do
        let fragment ← orMalformed (readU16 data (offset + 2))
        if fragment &&& 0xfff8 ≠ 0 then fail .fragmented
        else
          let next ← index data offset
          routeIpv6Transport data source destination turns (saturatingAdd offset 8) next
    else if next_header = 51 then
      if data.length < offset + 2 then fail .malformed
      else do
        let next ← index data offset
        let length ← index data (offset + 1)
        routeIpv6Transport data source destination turns (saturatingAdd offset ((length.toNat + 2) * 4)) next
    else fail .unsupportedTransport

/-- The sixteen octets of an address, if there are so many. -/
def ipv6At (data : List UInt8) (offset : ℕ) : Option IpAddr :=
  if offset + 16 ≤ data.length then some (.v6 (Vector.ofFn fun i => data.getD (offset + i.val) 0)) else none

/-- `route_ipv6`. -/
def routeIpv6 (data : List UInt8) (offset : ℕ) : Quick FlowRoute :=
  if data.length < offset + 40 then fail .malformed
  else do
    let first ← index data offset
    if first >>> 4 ≠ 6 then fail .malformed
    else
      let source ← orMalformed (ipv6At data (offset + 8))
      let destination ← orMalformed (ipv6At data (offset + 24))
      let next_header ← index data (offset + 6)
      routeIpv6Transport data source destination 8 (offset + 40) next_header

/-- `route_ip_by_ethertype`. -/
def routeIpByEthertype (data : List UInt8) (offset : ℕ) (ethertype : BitVec 16) : Quick FlowRoute :=
  if ethertype = 0x0800 then routeIpv4 data offset
  else if ethertype = 0x86dd then routeIpv6 data offset
  else fail .nonIp

/-- `route_raw_ip`. -/
def routeRawIp (data : List UInt8) (offset : ℕ) : Quick FlowRoute := do
  let first ← orMalformed data[offset]?
  if first >>> 4 = 4 then routeIpv4 data offset
  else if first >>> 4 = 6 then routeIpv6 data offset
  else fail .nonIp

/-- The loop of `ethernet_payload`, for so many tags. -/
def skipTags (data : List UInt8) : ℕ → BitVec 16 → ℕ → Quick (BitVec 16 × ℕ)
  | 0, ethertype, offset => ok (ethertype, offset)
  | tags + 1, ethertype, offset =>
    if !isVlanTag ethertype then ok (ethertype, offset)
    else if data.length < offset + 4 then fail .malformed
    else do
      let ethertype ← orMalformed (readU16 data (offset + 2))
      skipTags data tags ethertype (offset + 4)

/-- `ethernet_payload` of the dispatcher. -/
def quickEthernetPayload (data : List UInt8) : Quick (BitVec 16 × ℕ) :=
  if data.length < 14 then fail .malformed
  else do
    let ethertype ← orMalformed (readU16 data 12)
    skipTags data 2 ethertype 14

/-- `flow_route_from_raw_result`. -/
def flowRouteFromRawResult (raw : RawPacket) : Quick FlowRoute :=
  match raw.link_layer with
  | .ethernet => do
    let (ethertype, payload_offset) ← quickEthernetPayload raw.data
    routeIpByEthertype raw.data payload_offset ethertype
  | .linuxSll =>
    if raw.data.length < 16 then fail .malformed
    else do
      let ethertype ← orMalformed (readU16 raw.data 14)
      routeIpByEthertype raw.data 16 ethertype
  | .rawIp => routeRawIp raw.data 0
  | .bsdLoopback => routeRawIp raw.data 4
  | .unsupported => fail .unsupportedLink

end Rustmate.Shard
