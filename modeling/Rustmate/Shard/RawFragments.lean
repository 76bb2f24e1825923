import Mathlib.Logic.Relation
import Rustmate.Shard.RawRoute

/-!
# Fragments at the dispatcher

The quick parser never reads outside the bytes. It falls back on a fragment only where
`raw_packet_is_fragmented` sees one too, and a fragment that it routes nevertheless is the first of its
packet. -/

namespace Rustmate.Shard

open Decode Relation

/-! ## What a step of the parser meets -/

/-- The step does not read outside the bytes, its value satisfies `P`, and its reason for a fallback `Q`. -/
def Quick.Meets {A : Type} (x : Quick A) (P : A → Prop) (Q : FallbackRouteReason → Prop) : Prop :=
  match x with
  | none => False
  | some (.error reason) => Q reason
  | some (.ok a) => P a

open Quick

section Rules

variable {A B : Type} {P : A → Prop} {R : B → Prop} {Q Q' : FallbackRouteReason → Prop}

/-- A step and what comes after it. -/
theorem Quick.Meets.bind {x : Quick A} {f : A → Quick B} (hx : x.Meets P Q) (hf : ∀ a, P a → (f a).Meets R Q) :
    (x >>= f).Meets R Q := by
  cases x with
  | none => exact hx.elim
  | some result =>
    cases result with
    | error reason => exact hx
    | ok a => exact hf a hx

/-- A weaker demand. -/
theorem Quick.Meets.mono {x : Quick A} {P' : A → Prop} (hx : x.Meets P Q) (hP : ∀ a, P a → P' a)
    (hQ : ∀ reason, Q reason → Q' reason) : x.Meets P' Q' := by
  cases x with
  | none => exact hx.elim
  | some result =>
    cases result with
    | error reason => exact hQ reason hx
    | ok a => exact hP a hx

/-- A byte that is there. -/
theorem meets_index {data : List UInt8} {i : ℕ} (h : i < data.length) :
    (index data i).Meets (fun byte => data[i]? = some byte) Q := by
  unfold index
  rw [List.getElem?_eq_getElem h]
  rfl

/-- What may not be there. -/
theorem meets_orMalformed {x : Option A} (h : Q .malformed) : (orMalformed x).Meets (fun a => x = some a) Q := by
  cases x with
  | none => exact h
  | some a => rfl

end Rules

/-- What the parser makes of the transport header is no fragment. -/
theorem meets_routeTransport (data : List UInt8) (offset : ℕ) (protocol : UInt8) (source destination : IpAddr) :
    (routeTransport data offset protocol source destination).Meets (fun _ => True) (fun e => e ≠ .fragmented) := by
  unfold routeTransport
  refine Meets.bind (P := fun _ => True) ?_ fun protocol _ => ?_
  · unfold routedProtocol
    split_ifs
    · trivial
    · trivial
    · exact FallbackRouteReason.noConfusion
  · refine (meets_orMalformed (by decide)).bind fun source_port _ => ?_
    exact (meets_orMalformed (by decide)).bind fun destination_port _ => trivial

/-! ## Masks -/

/-- The lower mask is part of the higher one. -/
theorem and_0x3fff_ne_zero {word : BitVec 16} (h : word &&& 0x1fff ≠ 0) : word &&& 0x3fff ≠ 0 := by
  intro h0
  apply h
  have hmask : (0x1fff : BitVec 16) = 0x3fff &&& 0x1fff := by decide
  rw [hmask, ← BitVec.and_assoc, h0]
  exact BitVec.zero_and

/-- The mask of the fragment offset of IPv4. -/
theorem mod_eq_zero_of_and {word : BitVec 16} (h : word &&& 0x1fff = 0) : word.toNat % 2^13 = 0 := by
  have hnat := congrArg BitVec.toNat h
  rw [BitVec.toNat_and] at hnat
  rw [← Nat.and_two_pow_sub_one_eq_mod]
  exact hnat

/-- The mask of the fragment offset of IPv6. -/
theorem div_eq_zero_of_and {word : BitVec 16} (h : word &&& 0xfff8 = 0) : word.toNat / 8 = 0 := by
  have hnat := congrArg (fun w : BitVec 16 => w.toNat >>> 3) h
  simp only [BitVec.toNat_and, Nat.shiftRight_and_distrib] at hnat
  have hmod : (word.toNat >>> 3) % 2^13 = 0 := by
    rw [← Nat.and_two_pow_sub_one_eq_mod]
    exact hnat
  have hlt := word.isLt
  rw [Nat.shiftRight_eq_div_pow] at hmod
  omega

/-! ## Fragment offsets -/

/-- One IPv6 header comes after another. A header is its number and where it begins. -/
inductive Follows (data : List UInt8) : UInt8 × ℕ → UInt8 × ℕ → Prop
  | options {kind next length : UInt8} {cursor : ℕ} (hkind : isOptionsHeader kind)
    (hnext : data[cursor]? = some next) (hlength : data[cursor + 1]? = some length) :
    Follows data (kind, cursor) (next, cursor + (length.toNat + 1) * 8)
  | fragment {next : UInt8} {cursor : ℕ} (hnext : data[cursor]? = some next) :
    Follows data (44, cursor) (next, cursor + 8)
  | authentication {next length : UInt8} {cursor : ℕ} (hnext : data[cursor]? = some next)
    (hlength : data[cursor + 1]? = some length) :
    Follows data (51, cursor) (next, cursor + (length.toNat + 2) * 4)

/-- The fragment offsets in a packet: the one of its IPv4 header, or those of the fragment headers among its IPv6
extension headers. -/
inductive FragmentOffset (raw : RawPacket) : ℕ → Prop
  | ipv4 {offset : ℕ} {word : BitVec 16} (hnetwork : networkPayload raw.link_layer raw.data = some (.ipv4, offset))
    (hword : readU16 raw.data (offset + 6) = some word) : FragmentOffset raw (word.toNat % 2^13)
  | ipv6 {offset cursor : ℕ} {next : UInt8} {word : BitVec 16}
    (hnetwork : networkPayload raw.link_layer raw.data = some (.ipv6, offset))
    (hnext : raw.data[offset + 6]? = some next)
    (hchain : ReflTransGen (Follows raw.data) (next, offset + 40) (44, cursor))
    (hword : readU16 raw.data (cursor + 2) = some word) : FragmentOffset raw (word.toNat / 8)

/-- From this header on, every fragment header has the offset zero. -/
def ZeroFrom (data : List UInt8) (next : UInt8) (offset : ℕ) : Prop :=
  ∀ cursor, ReflTransGen (Follows data) (next, offset) (44, cursor) →
    ∃ word, readU16 data (cursor + 2) = some word ∧ word.toNat / 8 = 0

/-- The transport header ends the chain. -/
theorem zeroFrom_transport {data : List UInt8} {next : UInt8} {offset : ℕ} (h : next = 6 ∨ next = 17) :
    ZeroFrom data next offset := by
  intro cursor hchain
  rcases ReflTransGen.cases_head hchain with heq | ⟨header, hfollows, -⟩
  · rcases h with rfl | rfl <;> cases heq
  · rcases h with rfl | rfl
    · cases hfollows with
      | options hkind => exact absurd hkind (by decide)
    · cases hfollows with
      | options hkind => exact absurd hkind (by decide)

/-- A header that is no fragment header, and the one after it. -/
theorem zeroFrom_step {data : List UInt8} {kind next : UInt8} {offset after : ℕ} (hkind : kind ≠ 44)
    (hstep : ∀ header, Follows data (kind, offset) header → header = (next, after))
    (h : ZeroFrom data next after) : ZeroFrom data kind offset := by
  intro cursor hchain
  rcases ReflTransGen.cases_head hchain with heq | ⟨header, hfollows, hrest⟩
  · exact absurd (Prod.mk.inj heq).1 hkind
  · rw [hstep header hfollows] at hrest
    exact h cursor hrest

/-- A fragment header, and the one after it. -/
theorem zeroFrom_fragment {data : List UInt8} {next : UInt8} {offset : ℕ} {word : BitVec 16}
    (hword : readU16 data (offset + 2) = some word) (hzero : word &&& 0xfff8 = 0)
    (hnext : data[offset]? = some next) (h : ZeroFrom data next (offset + 8)) : ZeroFrom data 44 offset := by
  intro cursor hchain
  rcases ReflTransGen.cases_head hchain with heq | ⟨header, hfollows, hrest⟩
  · obtain rfl := (Prod.mk.inj heq).2
    exact ⟨word, hword, div_eq_zero_of_and hzero⟩
  · cases hfollows with
    | options hkind => exact absurd hkind (by decide)
    | fragment hnext' =>
      obtain rfl := Option.some.inj (hnext.symm.trans hnext')
      exact h cursor hrest

/-! ## The walks -/

/-- The chain of IPv6 headers: a fallback on a fragment is one that the decoder's walk sees too, and a route
leaves no fragment header with another offset than zero. -/
theorem meets_routeIpv6Transport (data : List UInt8) (source destination : IpAddr) (turns offset : ℕ)
    (next_header : UInt8) (hroom : offset + 2048 * turns < 2^64) :
    (routeIpv6Transport data source destination turns offset next_header).Meets
      (fun _ => ZeroFrom data next_header offset)
      (fun e => e = .fragmented → ipv6HeadersFragmented data turns next_header offset = some true) := by
  induction turns generalizing offset next_header with
  | zero => exact FallbackRouteReason.noConfusion
  | succ turns ih =>
    unfold routeIpv6Transport ipv6HeadersFragmented
    by_cases htransport : next_header = 6 ∨ next_header = 17
    · rw [if_pos htransport]
      exact (meets_routeTransport _ _ _ _ _).mono (fun _ _ => zeroFrom_transport htransport)
        fun reason hne he => absurd he hne
    rw [if_neg htransport]
    by_cases hfragment : next_header = 44
    · -- the decoder's walk stops here
      subst hfragment
      rw [if_neg (by decide), if_pos rfl, if_pos rfl]
      split_ifs with hshort
      · exact fun _ => rfl
      · refine (meets_orMalformed fun _ => rfl).bind fun word hword => ?_
        split_ifs with hmask
        · exact fun _ => rfl
        · refine (meets_index (by omega)).bind fun next hnext => ?_
          have hoffset : saturatingAdd offset 8 = offset + 8 := saturatingAdd_eq (by omega)
          rw [hoffset]
          exact (ih (offset + 8) next (by omega)).mono
            (fun _ hzero => zeroFrom_fragment hword (not_not.mp hmask) hnext hzero) fun _ _ _ => rfl
    rw [if_neg hfragment, if_neg hfragment]
    by_cases hoptions : isOptionsHeader next_header = true
    · rw [if_pos hoptions, if_pos hoptions]
      split_ifs with hshort
      · exact FallbackRouteReason.noConfusion
      · refine (meets_index (by omega)).bind fun next hnext => ?_
        refine (meets_index (by omega)).bind fun length hlength => ?_
        have hlt := length.toNat_lt
        have hoffset : saturatingAdd offset ((length.toNat + 1) * 8) = offset + (length.toNat + 1) * 8 :=
          saturatingAdd_eq (by omega)
        rw [hoffset, hnext, hlength]
        refine (ih _ next (by omega)).mono (fun _ hzero => zeroFrom_step hfragment ?_ hzero) fun reason hr he => ?_
        · intro header hfollows
          cases hfollows with
          | options hkind hnext' hlength' =>
            rw [Option.some.inj (hnext.symm.trans hnext'), Option.some.inj (hlength.symm.trans hlength')]
          | fragment => exact absurd rfl hfragment
          | authentication => exact absurd hoptions (by decide)
        · exact (congrArg _ hoffset).trans (hr he)
    rw [if_neg hoptions, if_neg hoptions]
    by_cases hauthentication : next_header = 51
    · subst hauthentication
      rw [if_pos rfl, if_pos rfl]
      split_ifs with hshort
      · exact FallbackRouteReason.noConfusion
      · refine (meets_index (by omega)).bind fun next hnext => ?_
        refine (meets_index (by omega)).bind fun length hlength => ?_
        have hlt := length.toNat_lt
        have hoffset : saturatingAdd offset ((length.toNat + 2) * 4) = offset + (length.toNat + 2) * 4 :=
          saturatingAdd_eq (by omega)
        rw [hoffset, hnext, hlength]
        refine (ih _ next (by omega)).mono (fun _ hzero => zeroFrom_step hfragment ?_ hzero) fun reason hr he => ?_
        · intro header hfollows
          cases hfollows with
          | options hkind => exact absurd hkind (by decide)
          | authentication hnext' hlength' =>
            rw [Option.some.inj (hnext.symm.trans hnext'), Option.some.inj (hlength.symm.trans hlength')]
        · exact (congrArg _ hoffset).trans (hr he)
    · rw [if_neg hauthentication]
      exact FallbackRouteReason.noConfusion

/-- The IPv6 header. -/
theorem meets_routeIpv6 (data : List UInt8) (offset : ℕ) (hoffset : offset < 2^63) :
    (routeIpv6 data offset).Meets
      (fun _ => ∃ next, data[offset + 6]? = some next ∧ ZeroFrom data next (offset + 40))
      (fun e => e = .fragmented → ipv6IsFragmented data offset = some true) := by
  unfold routeIpv6 ipv6IsFragmented
  split_ifs with hshort
  · exact FallbackRouteReason.noConfusion
  · refine (meets_index (by omega)).bind fun first hfirst => ?_
    rw [hfirst]
    by_cases hversion : first >>> 4 ≠ 6
    · rw [if_pos hversion]
      exact FallbackRouteReason.noConfusion
    · rw [if_neg hversion]
      refine (meets_orMalformed FallbackRouteReason.noConfusion).bind fun source _ => ?_
      refine (meets_orMalformed FallbackRouteReason.noConfusion).bind fun destination _ => ?_
      refine (meets_index (by omega)).bind fun next hnext => ?_
      refine (meets_routeIpv6Transport data source destination 8 (offset + 40) next (by omega)).mono
        (fun _ hzero => ⟨next, hnext, hzero⟩) fun reason hr he => ?_
      simp only [Option.bind_eq_bind, Option.bind_some, if_neg hversion, hnext]
      exact hr he

/-- The IPv4 header. -/
theorem meets_routeIpv4 (data : List UInt8) (offset : ℕ) :
    (routeIpv4 data offset).Meets
      (fun _ => ∃ word, readU16 data (offset + 6) = some word ∧ word.toNat % 2^13 = 0)
      (fun e => e = .fragmented → ipv4IsFragmented data offset = true) := by
  unfold routeIpv4
  split_ifs with hshort
  · exact FallbackRouteReason.noConfusion
  · refine (meets_index (by omega)).bind fun first _ => ?_
    dsimp only
    split_ifs with hheader
    · exact FallbackRouteReason.noConfusion
    · refine (meets_orMalformed FallbackRouteReason.noConfusion).bind fun total_len _ => ?_
      split_ifs with htotal
      · exact FallbackRouteReason.noConfusion
      · refine (meets_orMalformed FallbackRouteReason.noConfusion).bind fun word hword => ?_
        split_ifs with hmask
        · intro _
          unfold ipv4IsFragmented
          rw [hword]
          exact decide_eq_true (and_0x3fff_ne_zero hmask)
        · have hzero := mod_eq_zero_of_and (not_not.mp hmask)
          have haddress : ∀ i, i + 4 ≤ data.length →
              (ipv4At data i).Meets (fun _ => True) (fun e => e = .fragmented → ipv4IsFragmented data offset = true) := by
            intro i hi
            unfold ipv4At
            refine (meets_index (by omega)).bind fun a _ => (meets_index (by omega)).bind fun b _ => ?_
            exact (meets_index (by omega)).bind fun c _ => (meets_index (by omega)).bind fun d _ => trivial
          refine (meets_index (by omega)).bind fun protocol _ => ?_
          refine (haddress _ (by omega)).bind fun source _ => ?_
          refine (haddress _ (by omega)).bind fun destination _ => ?_
          exact (meets_routeTransport _ _ _ _ _).mono (fun _ _ => ⟨word, hword, hzero⟩)
            fun reason hne he => absurd he hne

/-- Where the decoder's walk sees a fragment, there is a fragment header. -/
theorem exists_fragment_header {data : List UInt8} {turns cursor : ℕ} {next_header : UInt8}
    (hroom : cursor + 2048 * turns < 2^64) (h : ipv6HeadersFragmented data turns next_header cursor = some true) :
    ∃ at_, ReflTransGen (Follows data) (next_header, cursor) (44, at_) := by
  induction turns generalizing cursor next_header with
  | zero => cases h
  | succ turns ih =>
    unfold ipv6HeadersFragmented at h
    split_ifs at h with hfragment hoptions hshort hauthentication hshort
    · subst hfragment
      exact ⟨cursor, .refl⟩
    · cases h
    · simp only [Option.bind_eq_bind, Option.bind_eq_some_iff] at h
      obtain ⟨next, hnext, length, hlength, hrest⟩ := h
      have hlt := length.toNat_lt
      rw [saturatingAdd_eq (by omega)] at hrest
      obtain ⟨at_, hchain⟩ := ih (by omega) hrest
      exact ⟨at_, .head (.options hoptions hnext hlength) hchain⟩
    · cases h
    · subst hauthentication
      simp only [Option.bind_eq_bind, Option.bind_eq_some_iff] at h
      obtain ⟨next, hnext, length, hlength, hrest⟩ := h
      have hlt := length.toNat_lt
      rw [saturatingAdd_eq (by omega)] at hrest
      obtain ⟨at_, hchain⟩ := ih (by omega) hrest
      exact ⟨at_, .head (.authentication hnext hlength) hchain⟩
    · cases h

/-- The decoder's walk begins after the IPv6 header. -/
theorem ipv6HeadersFragmented_of {data : List UInt8} {offset : ℕ} (h : ipv6IsFragmented data offset = some true) :
    ∃ next, data[offset + 6]? = some next ∧ ipv6HeadersFragmented data 8 next (offset + 40) = some true := by
  unfold ipv6IsFragmented at h
  split_ifs at h
  · cases h
  · simp only [Option.bind_eq_bind, Option.bind_eq_some_iff] at h
    obtain ⟨first, -, hrest⟩ := h
    split_ifs at hrest
    · cases hrest
    · exact Option.bind_eq_some_iff.mp hrest

/-! ## The packet -/

/-- What is said of a packet with a route: if it is a fragment, then one with the offset zero. -/
def FirstFragment (raw : RawPacket) : Prop :=
  rawPacketIsFragmented raw = some true → (∃ o, FragmentOffset raw o) ∧ ∀ o, FragmentOffset raw o → o = 0

/-- The walk over a packet whose IPv4 header is found. -/
theorem meets_ipv4_at {raw : RawPacket} {offset : ℕ}
    (hnetwork : networkPayload raw.link_layer raw.data = some (.ipv4, offset)) :
    (routeIpv4 raw.data offset).Meets (fun _ => FirstFragment raw)
      (fun e => e = .fragmented → rawPacketIsFragmented raw = some true) := by
  refine (meets_routeIpv4 raw.data offset).mono ?_ fun reason hr he => ?_
  · rintro - ⟨word, hword, hzero⟩ -
    refine ⟨⟨_, .ipv4 hnetwork hword⟩, fun o ho => ?_⟩
    cases ho with
    | ipv4 hnetwork' hword' =>
      obtain rfl := (Prod.mk.inj (Option.some.inj (hnetwork.symm.trans hnetwork'))).2
      obtain rfl := Option.some.inj (hword.symm.trans hword')
      exact hzero
    | ipv6 hnetwork' => cases hnetwork.symm.trans hnetwork'
  · unfold rawPacketIsFragmented
    rw [hnetwork]
    exact congrArg some (hr he)

/-- The walk over a packet whose IPv6 header is found. -/
theorem meets_ipv6_at {raw : RawPacket} {offset : ℕ} (hoffset : offset < 2^63)
    (hnetwork : networkPayload raw.link_layer raw.data = some (.ipv6, offset)) :
    (routeIpv6 raw.data offset).Meets (fun _ => FirstFragment raw)
      (fun e => e = .fragmented → rawPacketIsFragmented raw = some true) := by
  refine (meets_routeIpv6 raw.data offset hoffset).mono ?_ fun reason hr he => ?_
  · rintro - ⟨next, hnext, hzero⟩ hfragmented
    refine ⟨?_, fun o ho => ?_⟩
    · unfold rawPacketIsFragmented at hfragmented
      rw [hnetwork] at hfragmented
      obtain ⟨next', hsame, hwalk⟩ := ipv6HeadersFragmented_of hfragmented
      obtain rfl := Option.some.inj (hnext.symm.trans hsame)
      obtain ⟨cursor, hchain⟩ := exists_fragment_header (by omega) hwalk
      obtain ⟨word, hword, -⟩ := hzero cursor hchain
      exact ⟨_, .ipv6 hnetwork hnext hchain hword⟩
    · cases ho with
      | ipv4 hnetwork' => cases hnetwork.symm.trans hnetwork'
      | ipv6 hnetwork' hnext' hchain hword =>
        obtain rfl := (Prod.mk.inj (Option.some.inj (hnetwork.symm.trans hnetwork'))).2
        obtain rfl := Option.some.inj (hnext.symm.trans hnext')
        obtain ⟨word', hword', hdiv⟩ := hzero _ hchain
        rw [Option.some.inj (hword.symm.trans hword')]
        exact hdiv
  · unfold rawPacketIsFragmented
    rw [hnetwork]
    exact hr he

/-- Both parsers skip the same tags. -/
theorem skipTags_eq (data : List UInt8) (tags : ℕ) (ethertype : BitVec 16) (offset : ℕ) :
    skipTags data tags ethertype offset = orMalformed (skipVlanTags data tags ethertype offset) := by
  induction tags generalizing ethertype offset with
  | zero => rfl
  | succ tags ih =>
    unfold skipTags skipVlanTags
    split_ifs
    · rfl
    · rfl
    · cases readU16 data (offset + 2) with
      | none => rfl
      | some ethertype => exact ih ethertype (offset + 4)

/-- And find the same payload. -/
theorem quickEthernetPayload_eq (data : List UInt8) : quickEthernetPayload data = orMalformed (ethernetPayload data) := by
  unfold quickEthernetPayload ethernetPayload
  split_ifs
  · rfl
  · cases readU16 data 12 with
    | none => rfl
    | some ethertype => exact skipTags_eq data 2 ethertype 14

/-- It begins early in the packet. -/
theorem skipVlanTags_le {data : List UInt8} {tags offset payload_offset : ℕ} {ethertype found : BitVec 16}
    (h : skipVlanTags data tags ethertype offset = some (found, payload_offset)) :
    payload_offset ≤ offset + 4 * tags := by
  induction tags generalizing ethertype offset with
  | zero =>
    obtain ⟨-, rfl⟩ := Prod.mk.inj (Option.some.inj h)
    omega
  | succ tags ih =>
    unfold skipVlanTags at h
    split_ifs at h
    · obtain ⟨-, rfl⟩ := Prod.mk.inj (Option.some.inj h)
      omega
    · obtain ⟨next, -, hrest⟩ := Option.bind_eq_some_iff.mp h
      have hle := ih hrest
      omega

/-- An ethertype. -/
theorem meets_routeIpByEthertype {raw : RawPacket} {offset : ℕ} {ethertype : BitVec 16} (hoffset : offset < 2^63)
    (hnetwork : networkPayload raw.link_layer raw.data =
      (networkFromEthertype ethertype).map fun network => (network, offset)) :
    (routeIpByEthertype raw.data offset ethertype).Meets (fun _ => FirstFragment raw)
      (fun e => e = .fragmented → rawPacketIsFragmented raw = some true) := by
  unfold routeIpByEthertype
  unfold networkFromEthertype at hnetwork
  split_ifs at hnetwork ⊢
  · exact meets_ipv4_at hnetwork
  · exact meets_ipv6_at hoffset hnetwork
  · exact FallbackRouteReason.noConfusion

/-- The version of an IP header. -/
theorem meets_routeRawIp {raw : RawPacket} {offset : ℕ} (hoffset : offset < 2^63)
    (hnetwork : networkPayload raw.link_layer raw.data =
      (networkFromIpVersion raw.data offset).map fun network => (network, offset)) :
    (routeRawIp raw.data offset).Meets (fun _ => FirstFragment raw)
      (fun e => e = .fragmented → rawPacketIsFragmented raw = some true) := by
  refine (meets_orMalformed FallbackRouteReason.noConfusion).bind fun first hfirst => ?_
  rw [networkFromIpVersion, hfirst, Option.bind_some] at hnetwork
  split_ifs at hnetwork ⊢
  · exact meets_ipv4_at hnetwork
  · exact meets_ipv6_at hoffset hnetwork
  · exact FallbackRouteReason.noConfusion

/-- All link layers. -/
theorem meets_flowRouteFromRawResult (raw : RawPacket) :
    (flowRouteFromRawResult raw).Meets (fun _ => FirstFragment raw)
      (fun e => e = .fragmented → rawPacketIsFragmented raw = some true) := by
  obtain ⟨link_layer, data⟩ := raw
  cases link_layer with
  | ethernet =>
    unfold flowRouteFromRawResult
    rw [quickEthernetPayload_eq]
    refine (meets_orMalformed FallbackRouteReason.noConfusion).bind ?_
    rintro ⟨ethertype, offset⟩ hpayload
    have hle : offset ≤ 22 := by
      unfold ethernetPayload at hpayload
      split_ifs at hpayload
      obtain ⟨first, -, htags⟩ := Option.bind_eq_some_iff.mp hpayload
      have hle := skipVlanTags_le htags
      omega
    refine meets_routeIpByEthertype (by omega) ?_
    simp only [networkPayload, hpayload]
    rw [Option.map_eq_bind]
    rfl
  | linuxSll =>
    unfold flowRouteFromRawResult
    split_ifs with hshort
    · exact FallbackRouteReason.noConfusion
    · refine (meets_orMalformed FallbackRouteReason.noConfusion).bind fun ethertype hethertype => ?_
      refine meets_routeIpByEthertype (by omega) ?_
      simp only [networkPayload, hethertype]
      rw [Option.map_eq_bind]
      rfl
  | rawIp => exact meets_routeRawIp (by omega) rfl
  | bsdLoopback => exact meets_routeRawIp (by omega) rfl
  | unsupported => exact FallbackRouteReason.noConfusion

/-- On every packet the quick parser stays inside the bytes, a packet that it takes for a fragment is one for
the decoder too, and a fragment that it routes is the first one of its packet. -/
theorem flowRouteFromRawResult_agrees (raw : RawPacket) :
    flowRouteFromRawResult raw ≠ none ∧
      (flowRouteFromRawResult raw = some (.error .fragmented) → rawPacketIsFragmented raw = some true) ∧
      ∀ route, flowRouteFromRawResult raw = some (.ok route) → rawPacketIsFragmented raw = some true →
        (∃ o, FragmentOffset raw o) ∧ ∀ o, FragmentOffset raw o → o = 0 := by
  have hmeets := meets_flowRouteFromRawResult raw
  refine ⟨fun hnone => ?_, fun herror => ?_, fun route hroute => ?_⟩
  · rw [hnone] at hmeets
    exact hmeets
  · rw [herror] at hmeets
    exact hmeets rfl
  · rw [hroute] at hmeets
    exact hmeets

end Rustmate.Shard
