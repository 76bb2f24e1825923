import Rustmate.Packet
import Mathlib.Data.Finset.Insert

/-!
# Fragments

`raw_packet_is_fragmented` of `src/packet/mod.rs`: a walk over the link layer, the IPv4 header or the chain of IPv6
extension headers. Indexing outside the bytes is `none`.
-/

namespace Rustmate.Decode

inductive LinkLayer where
  | ethernet
  | linuxSll
  | rawIp
  | bsdLoopback
  | unsupported
  deriving DecidableEq, Repr

/-- What is read of a captured packet before it is decoded. -/
structure RawPacket where
  link_layer : LinkLayer
  data : List UInt8
  deriving DecidableEq, Repr

/-- `read_u16`. -/
def readU16 (data : List UInt8) (offset : ℕ) : Option (BitVec 16) := do
  let high ← data[offset]?
  let low ← data[offset + 1]?
  return high.toBitVec ++ low.toBitVec

/-- The ethertypes of a VLAN tag. -/
def isVlanTag (ethertype : BitVec 16) : Bool := ethertype = 0x8100 || ethertype = 0x88a8 || ethertype = 0x9100

/-- The loop of `ethernet_payload`, for so many tags. -/
def skipVlanTags (data : List UInt8) : ℕ → BitVec 16 → ℕ → Option (BitVec 16 × ℕ)
  | 0, ethertype, offset => some (ethertype, offset)
  | tags + 1, ethertype, offset =>
    if !isVlanTag ethertype then some (ethertype, offset)
    else if data.length < offset + 4 then none
    else (readU16 data (offset + 2)).bind fun ethertype => skipVlanTags data tags ethertype (offset + 4)

/-- `ethernet_payload`. -/
def ethernetPayload (data : List UInt8) : Option (BitVec 16 × ℕ) :=
  if data.length < 14 then none
  else (readU16 data 12).bind fun ethertype => skipVlanTags data 2 ethertype 14

inductive NetworkHeader where
  | ipv4
  | ipv6
  deriving DecidableEq, Repr

/-- `network_from_ethertype`. -/
def networkFromEthertype (ethertype : BitVec 16) : Option NetworkHeader :=
  if ethertype = 0x0800 then some .ipv4 else if ethertype = 0x86dd then some .ipv6 else none

/-- `network_from_ip_version`. -/
def networkFromIpVersion (data : List UInt8) (offset : ℕ) : Option NetworkHeader :=
  data[offset]?.bind fun first =>
    if first >>> 4 = 4 then some .ipv4 else if first >>> 4 = 6 then some .ipv6 else none

/-- `network_payload`. -/
def networkPayload (link_layer : LinkLayer) (data : List UInt8) : Option (NetworkHeader × ℕ) :=
  match link_layer with
  | .ethernet => do
    let (ethertype, offset) ← ethernetPayload data
    return (← networkFromEthertype ethertype, offset)
  | .linuxSll => do
    let ethertype ← readU16 data 14
    return (← networkFromEthertype ethertype, 16)
  | .rawIp => (networkFromIpVersion data 0).map fun network => (network, 0)
  | .bsdLoopback => (networkFromIpVersion data 4).map fun network => (network, 4)
  | .unsupported => none

/-- `ipv4_is_fragmented`. -/
def ipv4IsFragmented (data : List UInt8) (offset : ℕ) : Bool :=
  (readU16 data (offset + 6)).any fun flags_and_offset => flags_and_offset &&& 0x3fff ≠ 0

/-- The extension headers whose length is counted in eight octets. -/
def isOptionsHeader (next_header : UInt8) : Bool := next_header = 0 || next_header = 43 || next_header = 60

/-- The loop of `ipv6_is_fragmented`, for so many headers. -/
def ipv6HeadersFragmented (data : List UInt8) : ℕ → UInt8 → ℕ → Option Bool
  | 0, _, _ => some false
  | turns + 1, next_header, cursor =>
    if next_header = 44 then some true
    else if isOptionsHeader next_header then
      if data.length < cursor + 2 then some false
      else do
        let next ← data[cursor]?
        let length ← data[cursor + 1]?
        ipv6HeadersFragmented data turns next (saturatingAdd cursor ((length.toNat + 1) * 8))
    else if next_header = 51 then
      if data.length < cursor + 2 then some false
      else do
        let next ← data[cursor]?
        let length ← data[cursor + 1]?
        ipv6HeadersFragmented data turns next (saturatingAdd cursor ((length.toNat + 2) * 4))
    else some false

/-- `ipv6_is_fragmented`. -/
def ipv6IsFragmented (data : List UInt8) (offset : ℕ) : Option Bool :=
  if data.length < offset + 40 then some false
  else do
    let first ← data[offset]?
    if first >>> 4 ≠ 6 then some false
    else
      let next_header ← data[offset + 6]?
      ipv6HeadersFragmented data 8 next_header (offset + 40)

/-- `raw_packet_is_fragmented`. -/
def rawPacketIsFragmented (raw : RawPacket) : Option Bool :=
  match networkPayload raw.link_layer raw.data with
  | none => some false
  | some (.ipv4, offset) => some (ipv4IsFragmented raw.data offset)
  | some (.ipv6, offset) => ipv6IsFragmented raw.data offset

end Rustmate.Decode
