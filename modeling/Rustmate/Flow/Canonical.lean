import Rustmate.Flow.Key
import Rustmate.Lib.Canonical

/-!
# The canonical form of a flow

A flow key is the canonical form of an unordered pair of endpoints, put in order by `endpoint_sort_key`, which
tells all endpoints apart. What `stable_id` hashes is a code of the key: the protocol, and for each endpoint
its version, its octets and its port. -/

namespace Rustmate

open Canonical

/-- The zeros before the octets of an IPv4 address do not hide them, and the version keeps them from being
taken for those of an IPv6 address. -/
theorem endpointSortKey_injective : Function.Injective endpointSortKey := by
  have hoctets : ∀ {n : ℕ} {v w : Vector UInt8 n},
      v.toList.map (fun b => b.toNat) = w.toList.map (fun b => b.toNat) → v = w := by
    intro n v w h
    exact Vector.toList_inj.mp (List.map_injective_iff.mpr (fun _ _ => UInt8.toNat_inj.mp) h)
  rintro ⟨addr, port⟩ ⟨addr', port'⟩ h
  unfold endpointSortKey at h
  cases addr with
  | v4 octets =>
    cases addr' with
    | v4 octets' =>
      simp only [List.cons_append, List.append_assoc, List.cons.injEq, true_and, List.append_cancel_left_eq] at h
      obtain ⟨ho, hp⟩ := List.append_inj' h rfl
      rw [hoctets ho, BitVec.eq_of_toNat_eq (List.cons.inj hp).1]
    | v6 octets' => simp at h
  | v6 octets =>
    cases addr' with
    | v4 octets' => simp at h
    | v6 octets' =>
      simp only [List.cons_append, List.cons.injEq, true_and] at h
      obtain ⟨ho, hp⟩ := List.append_inj' h rfl
      rw [hoctets ho, BitVec.eq_of_toNat_eq (List.cons.inj hp).1]

/-- A sorted pair as a route. -/
def FlowRoute.ofSorted (protocol : TransportProtocol) (sorted : (Endpoint × Endpoint) × Bool) : FlowRoute :=
  ⟨⟨protocol, sorted.1.1, sorted.1.2⟩, if sorted.2 then .aToB else .bToA⟩

/-- `FlowRoute::new` sorts the endpoints. -/
theorem FlowRoute.new_eq (protocol : TransportProtocol) (source destination : Endpoint) :
    FlowRoute.new protocol source destination =
      FlowRoute.ofSorted protocol (sortPair endpointSortKey source destination) := by
  unfold FlowRoute.new sortPair
  split_ifs <;> rfl

/-! ## What is hashed -/

/-- The two bytes of a port tell it. -/
theorem portBytes_injective : Function.Injective portBytes := by
  intro p q h
  simp only [portBytes, List.cons.injEq, and_true] at h
  obtain ⟨hhigh, hlow⟩ := h
  have hhigh := congrArg UInt8.toNat hhigh
  have hlow := congrArg UInt8.toNat hlow
  simp [BitVec.toNat_setWidth, BitVec.toNat_ushiftRight] at hhigh hlow
  apply BitVec.eq_of_toNat_eq
  omega

/-- The version of an address says how many octets come before the port. -/
theorem delimited_hashBytes : Delimited Endpoint.hashBytes := by
  rintro ⟨addr, port⟩ ⟨addr', port'⟩ r r' h
  unfold Endpoint.hashBytes at h
  cases addr with
  | v4 octets =>
    cases addr' with
    | v4 octets' =>
      simp only [List.cons_append, List.append_assoc, List.cons.injEq, true_and] at h
      obtain ⟨ho, hrest⟩ := List.append_inj h (by simp)
      obtain ⟨hp, hr⟩ := List.append_inj hrest rfl
      rw [Vector.toList_inj.mp ho, portBytes_injective hp]
      exact ⟨rfl, hr⟩
    | v6 octets' => simp at h
  | v6 octets =>
    cases addr' with
    | v4 octets' => simp at h
    | v6 octets' =>
      simp only [List.cons_append, List.append_assoc, List.cons.injEq, true_and] at h
      obtain ⟨ho, hrest⟩ := List.append_inj h (by simp)
      obtain ⟨hp, hr⟩ := List.append_inj hrest rfl
      rw [Vector.toList_inj.mp ho, portBytes_injective hp]
      exact ⟨rfl, hr⟩

/-- Every protocol has its byte. -/
theorem delimited_hashByte : Delimited fun protocol : TransportProtocol => [protocol.hashByte] := by
  refine delimited_of_length (fun _ => rfl) fun p q h => ?_
  cases p <;> cases q <;> first | rfl | exact absurd h (by decide)

/-- The bytes that `stable_id` hashes, in their order. -/
def FlowKey.hashBytes (key : FlowKey) : List UInt8 :=
  [key.protocol.hashByte] ++ (key.a.hashBytes ++ key.b.hashBytes)

/-- The identifier is the hash of these bytes. -/
theorem FlowKey.stableId_eq (key : FlowKey) : key.stableId = fnv64 0xcbf29ce484222325 key.hashBytes := by
  unfold FlowKey.stableId FlowKey.hashBytes fnv64
  rw [List.foldl_append, List.foldl_append]

/-- Different keys are hashed from different bytes. -/
theorem FlowKey.hashBytes_injective : Function.Injective FlowKey.hashBytes := by
  intro key key' h
  have hcode := (delimited_hashByte.append (delimited_hashBytes.append delimited_hashBytes)).injective
  have hkey := @hcode (key.protocol, key.a, key.b) (key'.protocol, key'.a, key'.b) h
  simp only [Prod.mk.injEq] at hkey
  cases key
  cases key'
  simp only [FlowKey.mk.injEq]
  exact hkey

/-! ## What a key stands for -/

/-- The protocol of a packet, and its source and destination. -/
def DecodedPacket.conversation (packet : DecodedPacket) : Option (TransportProtocol × Endpoint × Endpoint) := do
  let transport ← packet.transport_payload
  let source_port ← transport.source_port
  let destination_port ← transport.destination_port
  let source_addr ← packet.ip_addresses.1
  let destination_addr ← packet.ip_addresses.2
  return (transport.protocol, ⟨source_addr, source_port⟩, ⟨destination_addr, destination_port⟩)

/-- The route of a packet is that of its conversation. -/
theorem FlowRoute.fromPacket_eq (packet : DecodedPacket) :
    FlowRoute.fromPacket packet = packet.conversation.map fun c => FlowRoute.new c.1 c.2.1 c.2.2 := by
  unfold FlowRoute.fromPacket DecodedPacket.conversation
  cases packet.transport_payload with
  | none => rfl
  | some transport =>
    obtain ⟨source_addr, destination_addr⟩ := packet.ip_addresses
    cases hs : transport.source_port <;> cases hd : transport.destination_port <;> cases source_addr <;>
      cases destination_addr <;> simp [hs, hd]

/-- Two routes have the same key exactly if they have the same protocol and the same unordered pair of
endpoints. -/
theorem FlowRoute.key_eq_iff (p p' : TransportProtocol) (s d s' d' : Endpoint) :
    (FlowRoute.new p s d).key = (FlowRoute.new p' s' d').key ↔ p = p' ∧ s(s, d) = s(s', d') := by
  rw [FlowRoute.new_eq, FlowRoute.new_eq, ← sortPair_fst_eq_iff endpointSortKey_injective]
  unfold FlowRoute.ofSorted
  rw [FlowKey.mk.injEq, Prod.ext_iff]

/-- The key does not depend on the direction of the packet, and its direction tells which way it went. Packets
have the same key exactly if their protocol and their unordered pair of endpoints are the same, and different
keys are hashed from different bytes. -/
theorem FlowRoute.new_canonical (p : TransportProtocol) (s d : Endpoint) :
    (FlowRoute.new p s d).key = (FlowRoute.new p d s).key ∧
      (FlowRoute.new p s d).key.stableId = (FlowRoute.new p d s).key.stableId ∧
      ((FlowRoute.new p s d).direction = (FlowRoute.new p d s).direction ↔ s = d) ∧
      (∀ p' s' d', FlowRoute.new p s d = FlowRoute.new p' s' d' ↔ p = p' ∧ s = s' ∧ d = d') ∧
      (∀ packet packet' : DecodedPacket, ∀ c ∈ packet.conversation, ∀ c' ∈ packet'.conversation,
        ((FlowRoute.fromPacket packet).map FlowRoute.key = (FlowRoute.fromPacket packet').map FlowRoute.key ↔
          c.1 = c'.1 ∧ s(c.2.1, c.2.2) = s(c'.2.1, c'.2.2))) ∧
      Function.Injective FlowKey.hashBytes ∧
      ∀ key : FlowKey, key.stableId = fnv64 0xcbf29ce484222325 key.hashBytes := by
  have hkey : (FlowRoute.new p s d).key = (FlowRoute.new p d s).key :=
    (FlowRoute.key_eq_iff p p s d d s).mpr ⟨rfl, Sym2.eq_swap⟩
  refine ⟨hkey, by rw [hkey], ?_, ?_, ?_, FlowKey.hashBytes_injective, FlowKey.stableId_eq⟩
  · rw [← sortPair_snd endpointSortKey_injective, FlowRoute.new_eq, FlowRoute.new_eq]
    unfold FlowRoute.ofSorted
    generalize (sortPair endpointSortKey s d).2 = x
    generalize (sortPair endpointSortKey d s).2 = y
    cases x <;> cases y <;> simp
  · intro p' s' d'
    constructor
    · intro h
      rw [FlowRoute.new_eq, FlowRoute.new_eq] at h
      simp only [FlowRoute.ofSorted, FlowRoute.mk.injEq, FlowKey.mk.injEq] at h
      obtain ⟨⟨hp, ha, hb⟩, hdir⟩ := h
      have hnote : (sortPair endpointSortKey s d).2 = (sortPair endpointSortKey s' d').2 := by
        revert hdir
        generalize (sortPair endpointSortKey s d).2 = x
        generalize (sortPair endpointSortKey s' d').2 = y
        cases x <;> cases y <;> simp
      exact ⟨hp, sortPair_inj endpointSortKey (Prod.ext (Prod.ext ha hb) hnote)⟩
    · rintro ⟨rfl, rfl, rfl⟩
      rfl
  · intro packet packet' c hc c' hc'
    rw [FlowRoute.fromPacket_eq, FlowRoute.fromPacket_eq, hc, hc', Option.map_some, Option.map_some, Option.map_some,
      Option.map_some, Option.some.injEq]
    exact FlowRoute.key_eq_iff _ _ _ _ _ _

end Rustmate
