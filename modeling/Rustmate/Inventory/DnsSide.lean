import Rustmate.Inventory.Detection

/-!
# The side of a DNS message

Over TCP a DNS message comes after its length. `dns_side` is not told the transport and takes the first two
bytes of any payload for a length if they can be one. Over UDP they are the transaction id of the message, so
for some ids the bit of the direction is looked for two bytes behind its place. -/

namespace Rustmate.Inventory

/-- The QR bit of a message that begins with its header: the message is a response. -/
def IsResponse (bytes : List UInt8) : Prop := bytes.getD 2 0 &&& 0x80 ≠ 0

instance (bytes : List UInt8) : Decidable (IsResponse bytes) :=
  inferInstanceAs (Decidable (bytes.getD 2 0 &&& 0x80 ≠ 0))

/-- The first two bytes could be the length of what follows. -/
def LooksLengthPrefixed (bytes : List UInt8) : Prop :=
  14 ≤ bytes.length ∧ be16 bytes 0 + 2 ≤ bytes.length ∧ 12 ≤ be16 bytes 0

instance (bytes : List UInt8) : Decidable (LooksLengthPrefixed bytes) :=
  inferInstanceAs (Decidable (14 ≤ bytes.length ∧ be16 bytes 0 + 2 ≤ bytes.length ∧ 12 ≤ be16 bytes 0))

/-- The first of two rules applies, or the second does. -/
theorem ite_some_eq {α : Type} {c : Prop} [Decidable c] {first d : α} {rest : Option α}
    (h : (if c then some first else rest) = some d) : (c ∧ first = d) ∨ (¬ c ∧ rest = some d) := by
  by_cases hc : c
  · rw [if_pos hc] at h
    exact .inl ⟨hc, Option.some.inj h⟩
  · rw [if_neg hc] at h
    exact .inr ⟨hc, h⟩

/-- No other rule gives the evidence of the DNS header. -/
theorem payloadRule_dns {transport : TransportProtocol} {bytes : List UInt8}
    {source_side destination_side : ProtocolServiceSide} {port_detection d : ProtocolDetection}
    (h : payloadRule transport bytes source_side destination_side port_detection = some d)
    (hevidence : d.evidence = "dns_header") :
    isDnsPayload transport bytes = true ∧
      d = payloadDetection .dns (dnsSide bytes source_side destination_side) 91 "dns_header" := by
  have hother : ∀ {service : Service} {side : ProtocolServiceSide} {confidence : ℕ} {evidence : String},
      payloadDetection service side confidence evidence = d → evidence = "dns_header" := by
    rintro service side confidence evidence rfl
    exact hevidence
  unfold payloadRule at h
  cases hdetected : detectHttp bytes source_side destination_side with
  | some service =>
    rw [hdetected] at h
    obtain rfl := Option.some.inj h
    unfold detectHttp at hdetected
    rcases ite_some_eq hdetected with ⟨-, hd⟩ | ⟨-, hdetected⟩
    · exact absurd (hother hd) (by decide)
    by_cases hrequest : looksLikeHttpRequest bytes = true
    · rw [if_pos hrequest] at hdetected
      rcases ite_some_eq hdetected with ⟨-, hd⟩ | ⟨-, hdetected⟩
      · exact absurd (hother hd) (by decide)
      · exact absurd (hother (Option.some.inj hdetected)) (by decide)
    rw [if_neg hrequest] at hdetected
    rcases ite_some_eq hdetected with ⟨-, hd⟩ | ⟨-, hdetected⟩
    · exact absurd (hother hd) (by decide)
    · cases hdetected
  | none =>
    rw [hdetected] at h
    dsimp only at h
    by_cases htls : isTlsRecord bytes = true
    · rw [if_pos htls] at h
      rcases ite_some_eq h with ⟨-, hd⟩ | ⟨-, h⟩
      · exact absurd (hother hd) (by decide)
      · exact absurd (hother (Option.some.inj h)) (by decide)
    rw [if_neg htls] at h
    rcases ite_some_eq h with ⟨-, hd⟩ | ⟨-, h⟩
    · exact absurd (hother hd) (by decide)
    rcases ite_some_eq h with ⟨-, hd⟩ | ⟨-, h⟩
    · exact absurd (hother hd) (by decide)
    rcases ite_some_eq h with ⟨-, hd⟩ | ⟨-, h⟩
    · exact absurd (hother hd) (by decide)
    rcases ite_some_eq h with ⟨-, hd⟩ | ⟨-, h⟩
    · exact absurd (hother hd) (by decide)
    rcases ite_some_eq h with ⟨-, hd⟩ | ⟨-, h⟩
    · exact absurd (hother hd) (by decide)
    rcases ite_some_eq h with ⟨-, hd⟩ | ⟨-, h⟩
    · exact absurd (hother hd) (by decide)
    -- the rule of DNS
    rcases ite_some_eq h with ⟨hdns, hd⟩ | ⟨-, h⟩
    · exact ⟨hdns, hd.symm⟩
    rcases ite_some_eq h with ⟨-, hd⟩ | ⟨-, h⟩
    · exact absurd (hother hd) (by decide)
    rcases ite_some_eq h with ⟨-, hd⟩ | ⟨-, h⟩
    · exact absurd (hother hd) (by decide)
    rcases ite_some_eq h with ⟨-, hd⟩ | ⟨-, h⟩
    · exact absurd (hother hd) (by decide)
    rcases ite_some_eq h with ⟨-, hd⟩ | ⟨-, h⟩
    · exact absurd (hother hd) (by decide)
    cases h

/-- What a port says has another evidence than a header. -/
theorem fromPort_evidence (key : FlowKey) : (ProtocolDetection.fromPort key).evidence ≠ "dns_header" := by
  unfold ProtocolDetection.fromPort
  dsimp only
  cases knownService key.protocol key.a.port with
  | some found =>
    change "well_known_port" ≠ "dns_header"
    decide
  | none =>
    cases knownService key.protocol key.b.port with
    | some found =>
      change "well_known_port" ≠ "dns_header"
      decide
    | none =>
      change "none" ≠ "dns_header"
      decide

/-- A side that is known takes the place of another one. -/
theorem mergeSide_known {left right : ProtocolServiceSide} (h : right ≠ .unknown) :
    ProtocolDetection.mergeSide left right = right := by
  unfold ProtocolDetection.mergeSide
  by_cases hleft : left = .unknown
  · rw [if_pos hleft]
  rw [if_neg hleft]
  by_cases hsame : right = .unknown ∨ left = right
  · rw [if_pos hsame]
    exact hsame.resolve_left h
  · rw [if_neg hsame]

/-- The sides of a direction are known, and differ. -/
theorem sides_known (direction : FlowDirection) :
    sourceSide direction ≠ .unknown ∧ destinationSide direction ≠ .unknown ∧
      sourceSide direction ≠ destinationSide direction := by
  cases direction with
  | aToB => decide
  | bToA => decide

/-- The service side of a payload that is classified by its DNS header is what `dns_side` says. -/
theorem detectPayload_dns {key : FlowKey} {direction : FlowDirection} {bytes : List UInt8} {d : ProtocolDetection}
    (h : detectPayload key direction bytes = some d) (hevidence : d.evidence = "dns_header") :
    isDnsPayload key.protocol bytes = true ∧
      d.side = dnsSide bytes (sourceSide direction) (destinationSide direction) := by
  unfold detectPayload at h
  by_cases hempty : bytes.isEmpty = true
  · rw [if_pos hempty] at h
    cases h
  rw [if_neg hempty] at h
  obtain ⟨next, hrule, rfl⟩ := Option.map_eq_some_iff.mp h
  have hport := fromPort_evidence key
  generalize ProtocolDetection.fromPort key = port at hrule hport hevidence ⊢
  have hnext : next.evidence = "dns_header" → isDnsPayload key.protocol bytes = true ∧
      next = payloadDetection .dns (dnsSide bytes (sourceSide direction) (destinationSide direction)) 91
        "dns_header" := payloadRule_dns hrule
  have hknown : dnsSide bytes (sourceSide direction) (destinationSide direction) ≠ .unknown := by
    have hone : dnsSide bytes (sourceSide direction) (destinationSide direction) = sourceSide direction ∨
        dnsSide bytes (sourceSide direction) (destinationSide direction) = destinationSide direction := by
      unfold dnsSide
      exact ite_eq_or_eq _ _ _
    rcases hone with hsource | hdestination
    · rw [hsource]
      exact (sides_known direction).1
    · rw [hdestination]
      exact (sides_known direction).2.1
  -- the merged detection has the evidence of the payload only where the payload decides
  unfold ProtocolDetection.merge at hevidence ⊢
  by_cases hunknown : next.service = .unknown
  · rw [if_pos hunknown] at hevidence
    exact absurd hevidence hport
  rw [if_neg hunknown] at hevidence ⊢
  by_cases hself : port.service = .unknown
  · rw [if_pos hself] at hevidence ⊢
    obtain ⟨hdns, rfl⟩ := hnext hevidence
    exact ⟨hdns, rfl⟩
  rw [if_neg hself] at hevidence ⊢
  by_cases hsame : port.service = next.service ∨ ProtocolDetection.servicesAreCompatible port.service next.service = true
  · rw [if_pos hsame] at hevidence ⊢
    obtain ⟨hdns, rfl⟩ := hnext hevidence
    exact ⟨hdns, mergeSide_known hknown⟩
  rw [if_neg hsame] at hevidence ⊢
  by_cases hbetter : min (port.confidence + 8) 255 ≤ next.confidence
  · rw [if_pos hbetter] at hevidence ⊢
    obtain ⟨hdns, rfl⟩ := hnext hevidence
    exact ⟨hdns, rfl⟩
  · rw [if_neg hbetter] at hevidence
    exact absurd hevidence hport

/-- Over UDP a DNS message has its header at the beginning, and no more questions than one byte counts. -/
theorem isDnsPayload_udp {bytes : List UInt8} (h : isDnsPayload .udp bytes = true) :
    12 ≤ bytes.length ∧ bytes.getD 4 0 = 0 := by
  unfold isDnsPayload at h
  simp only [Option.any_some, Bool.and_eq_true, decide_eq_true_eq] at h
  obtain ⟨⟨⟨⟨hlength, -⟩, -⟩, hquestions⟩, -⟩ := h
  refine ⟨hlength, UInt8.toNat_inj.mp ?_⟩
  unfold be16 at hquestions
  change (bytes.getD 4 0).toNat = 0
  omega

/-- Over UDP the side is that of the source if the message is a response whose id cannot be a length. -/
theorem dnsSide_udp {bytes : List UInt8} (h : isDnsPayload .udp bytes = true)
    (source_side destination_side : ProtocolServiceSide) :
    dnsSide bytes source_side destination_side =
      if IsResponse bytes ∧ ¬ LooksLengthPrefixed bytes then source_side else destination_side := by
  obtain ⟨hlength, hfour⟩ := isDnsPayload_udp h
  have hbyte : ∀ i < 12, bytes[i]? = some (bytes.getD i 0) := by
    intro i hi
    rw [List.getD_eq_getElem?_getD, List.getElem?_eq_getElem (by omega), Option.getD_some]
  unfold dnsSide
  dsimp only
  by_cases hprefixed : LooksLengthPrefixed bytes
  · -- the flags are looked for where the high byte of the questions is, and that is zero
    rw [if_pos (show 14 ≤ bytes.length ∧ be16 bytes 0 + 2 ≤ bytes.length ∧ 12 ≤ be16 bytes 0 from hprefixed),
      hbyte 4 (by omega), hfour, if_neg (by decide), if_neg (fun hresponse => hresponse.2 hprefixed)]
  · rw [if_neg (show ¬ (14 ≤ bytes.length ∧ be16 bytes 0 + 2 ≤ bytes.length ∧ 12 ≤ be16 bytes 0) from hprefixed),
      hbyte 2 (by omega)]
    simp only [Option.any_some, decide_eq_true_eq]
    by_cases hresponse : IsResponse bytes
    · rw [if_pos (show bytes.getD 2 0 &&& 0x80 ≠ 0 from hresponse), if_pos ⟨hresponse, hprefixed⟩]
    · rw [if_neg (show ¬ bytes.getD 2 0 &&& 0x80 ≠ 0 from hresponse), if_neg fun h => hresponse h.1]

/-- Over UDP the side follows the QR bit exactly when the message is a query or its id cannot be a length; and
it is the same for two payloads that differ in their ids only exactly when they are queries or both ids can be
a length or neither can. -/
theorem detectPayload_dns_side_iff {key : FlowKey} {direction : FlowDirection} {bytes : List UInt8}
    {d : ProtocolDetection} (hudp : key.protocol = .udp) (h : detectPayload key direction bytes = some d)
    (hevidence : d.evidence = "dns_header") :
    (d.side = (if IsResponse bytes then sourceSide direction else destinationSide direction) ↔
      ¬ IsResponse bytes ∨ ¬ LooksLengthPrefixed bytes) ∧
    ∀ bytes' d', bytes'.length = bytes.length → bytes'.drop 2 = bytes.drop 2 →
      detectPayload key direction bytes' = some d' → d'.evidence = "dns_header" →
      (d'.side = d.side ↔ ¬ IsResponse bytes ∨ (LooksLengthPrefixed bytes' ↔ LooksLengthPrefixed bytes)) := by
  obtain ⟨hdns, hside⟩ := detectPayload_dns h hevidence
  rw [hudp] at hdns
  have hdiffer := (sides_known direction).2.2
  rw [hside, dnsSide_udp hdns]
  constructor
  · by_cases hresponse : IsResponse bytes
    · by_cases hprefixed : LooksLengthPrefixed bytes
      · rw [if_neg fun h => h.2 hprefixed, if_pos hresponse]
        exact ⟨fun h => absurd h.symm hdiffer, fun h => (h.elim (absurd hresponse) (absurd hprefixed))⟩
      · rw [if_pos ⟨hresponse, hprefixed⟩, if_pos hresponse]
        exact ⟨fun _ => .inr hprefixed, fun _ => rfl⟩
    · rw [if_neg fun h => hresponse h.1, if_neg hresponse]
      exact ⟨fun _ => .inl hresponse, fun _ => rfl⟩
  · intro bytes' d' hlength hrest h' hevidence'
    obtain ⟨hdns', hside'⟩ := detectPayload_dns h' hevidence'
    rw [hudp] at hdns'
    have hbit : IsResponse bytes' ↔ IsResponse bytes := by
      have hbyte : bytes'.getD 2 0 = bytes.getD 2 0 := by
        have hhead := congrArg (fun rest : List UInt8 => rest.getD 0 0) hrest
        simpa only [List.getD_eq_getElem?_getD, List.getElem?_drop] using hhead
      unfold IsResponse
      rw [hbyte]
    rw [hside', dnsSide_udp hdns']
    simp only [hbit]
    by_cases hresponse : IsResponse bytes
    · by_cases hprefixed : LooksLengthPrefixed bytes
      · by_cases hprefixed' : LooksLengthPrefixed bytes'
        · simp only [hresponse, hprefixed, hprefixed', not_true_eq_false, and_false, if_false, or_true]
        · simp only [hresponse, hprefixed, hprefixed', not_true_eq_false, and_false, if_false, not_false_eq_true,
            and_true, if_true, hdiffer, false_or, false_iff, not_true_eq_false]
      · by_cases hprefixed' : LooksLengthPrefixed bytes'
        · simp only [hresponse, hprefixed, hprefixed', not_true_eq_false, and_false, if_false, not_false_eq_true,
            and_true, if_true, hdiffer.symm, false_or, iff_false, not_true_eq_false]
        · simp only [hresponse, hprefixed, hprefixed', not_false_eq_true, and_true, if_true, or_true]
    · simp only [hresponse, false_and, if_false, not_false_eq_true, true_or]

/-- A flow of a resolver. -/
def resolverFlow : FlowKey := ⟨.udp, ⟨.ofOctets 10 0 0 1, 40000⟩, ⟨.ofOctets 10 0 0 2, 53⟩⟩

/-- A response to a question for the root, with this id. -/
def rootResponse (low : UInt8) : List UInt8 := [0, low, 0x80, 0, 0, 1, 0, 0, 0, 0, 0, 0, 0, 0, 1, 0, 1]

theorem detectPayload_dns_side_iff_sample :
    (ProtocolServiceSide.b = .b ↔ ¬ IsResponse (rootResponse 0) ∨ ¬ LooksLengthPrefixed (rootResponse 0)) ∧
      detectPayload resolverFlow .bToA (rootResponse 0) = some ⟨.dns, .b, 97, .portAndPayload, "dns_header"⟩ :=
  have hdetected : detectPayload resolverFlow .bToA (rootResponse 0) =
      some ⟨.dns, .b, 97, .portAndPayload, "dns_header"⟩ := by decide +kernel
  ⟨(detectPayload_dns_side_iff rfl hdetected rfl).1, hdetected⟩

/-- The response with the id 12 is taken for a query. -/
theorem detectPayload_response_of_destination :
    resolverFlow.protocol = .udp ∧ IsResponse (rootResponse 12) ∧
      detectPayload resolverFlow .bToA (rootResponse 12) =
        some ⟨.dns, destinationSide .bToA, 97, .portAndPayload, "dns_header"⟩ ∧
      destinationSide .bToA ≠ sourceSide .bToA := by
  decide +kernel

end Rustmate.Inventory
