import Rustmate.Flow.Canonical
import Rustmate.Flow.Steps

/-!
# What is observed of the flows of each protocol

The flow table reassembles the flows of TCP, and no others: the observations of these come with chunks, and
those of datagrams do not. -/

namespace Rustmate.Flow

/-- The transport payload has a TCP segment exactly if it is one of TCP, as `transport_payload` makes it. -/
def WellDecoded (packet : DecodedPacket) : Prop :=
  ∀ transport ∈ packet.transport_payload, transport.tcp.isSome = true ↔ transport.protocol = .tcp

/-- The observation comes with chunks exactly if it is of a flow of TCP. -/
def FlowObservation.OfItsKind (flow : FlowObservation) : Prop := flow.tcp.isSome = true ↔ flow.key.protocol = .tcp

/-- The entries keep the state of TCP exactly for the flows of TCP. -/
def FlowTable.OfTheirKinds (table : FlowTable) : Prop :=
  ∀ key entry, table.entries.lookup key = some entry → ((∃ tcp, entry.transport = .tcp tcp) ↔ key.protocol = .tcp)

/-- An entry keeps the state of TCP as it did, and observes segments exactly then. -/
theorem FlowEntry.observe_kind {self : FlowEntry} {p : Prop} (h : (∃ tcp, self.transport = .tcp tcp) ↔ p)
    (packet : FlowPacket) (hsegment : packet.tcp_segment.isSome = true ↔ p) (config : FlowTableConfig)
    (stats : FlowTableStats) :
    ((∃ tcp, (self.observe packet config stats).1.transport = .tcp tcp) ↔ p) ∧
      ((self.observe packet config stats).2.2.isSome = true ↔ p) := by
  rcases self.observe_transport packet config stats with
    ⟨tcp, segment, htcp, -, hafter, hresult⟩ | ⟨hnot, hafter, hresult⟩
  · have hp : p := h.mp ⟨tcp, htcp⟩
    rw [hafter, hresult]
    exact ⟨iff_of_true ⟨_, rfl⟩ hp, iff_of_true rfl hp⟩
  · rw [hafter, hresult]
    refine ⟨h, iff_of_false nofun fun hp => ?_⟩
    rcases hnot with hdatagram | hnone
    · obtain ⟨tcp, htcp⟩ := h.mpr hp
      rw [hdatagram] at htcp
      cases htcp
    · have hsome := hsegment.mpr hp
      rw [hnone] at hsome
      cases hsome

/-- The key of a packet has the protocol of the packet. -/
theorem fromPacket_protocol {packet : DecodedPacket} {route : FlowRoute} (h : FlowRoute.fromPacket packet = some route)
    {transport : TransportPayload} (htransport : packet.transport_payload = some transport) :
    route.key.protocol = transport.protocol := by
  unfold FlowRoute.fromPacket at h
  rw [htransport] at h
  simp only [Option.bind_eq_bind, Option.bind_some, Option.bind_eq_some_iff, Option.pure_def, Option.some.injEq] at h
  obtain ⟨source_port, -, destination_port, -, source_addr, -, destination_addr, -, rfl⟩ := h
  unfold FlowRoute.new
  split_ifs
  · rfl
  · rfl

namespace FlowTable

variable {self : FlowTable}

/-- At first there is no entry. -/
theorem ofTheirKinds_new (config : FlowTableConfig) : (new config).OfTheirKinds := by
  intro key entry hentry
  rw [show (new config).entries.lookup key = none from AList.lookup_empty key] at hentry
  exact nomatch hentry

/-- A packet keeps the entries of their kinds, and its observation is of its kind. -/
theorem OfTheirKinds.observe (h : self.OfTheirKinds) (order : IterOrder FlowKey FlowEntry) {packet : DecodedPacket}
    (hpacket : WellDecoded packet) :
    (self.observe order packet).1.OfTheirKinds ∧ ∀ flow ∈ (self.observe order packet).2, flow.OfItsKind := by
  unfold FlowTable.observe
  cases hroute : FlowRoute.fromPacket packet with
  | none => exact ⟨h, fun flow hflow => absurd hflow (Option.not_mem_none flow)⟩
  | some route =>
    -- the key has the protocol of the packet
    have hprotocol : ∀ transport, packet.transport_payload = some transport →
        (transport.tcp.isSome = true ↔ route.key.protocol = .tcp) := by
      intro transport htransport
      rw [fromPacket_protocol hroute htransport]
      exact hpacket transport htransport
    have hobserves := self.observeWithRoute_observes order packet route
    dsimp only
    generalize self.observeWithRoute order packet route = r at hobserves ⊢
    have hinsert : ∀ (t : FlowTable) (entry : FlowEntry), Evicted self t →
        ((∃ tcp, entry.transport = .tcp tcp) ↔ route.key.protocol = .tcp) → ∀ key other,
        (t.entries.insert route.key entry).lookup key = some other →
        ((∃ tcp, other.transport = .tcp tcp) ↔ key.protocol = .tcp) := by
      intro t entry hevicted hentry key other hlookup
      by_cases hkey : key = route.key
      · rw [hkey, AList.lookup_insert] at hlookup
        obtain rfl := Option.some.inj hlookup
        rw [hkey]
        exact hentry
      · rw [AList.lookup_insert_ne hkey] at hlookup
        exact h key other (hevicted.entries.lookup_some hlookup)
    cases hobserves with
    | nothing hevicted hnone =>
      exact ⟨fun key entry hentry => h key entry (hevicted.entries.lookup_some hentry),
        fun flow hflow => absurd hflow (Option.not_mem_none flow)⟩
    | refused hevicted hfull =>
      exact ⟨fun key entry hentry => h key entry (hevicted.entries.lookup_some hentry),
        fun flow hflow => absurd hflow (Option.not_mem_none flow)⟩
    | @goesOn t transport entry hevicted htransport hentry result hresult =>
      have hold := h route.key entry (hevicted.entries.lookup_some hentry)
      obtain ⟨hkeeps, hobserved⟩ := FlowEntry.observe_kind hold (.of packet transport route.direction)
        (hprotocol transport htransport) t.config t.stats
      rw [← hresult] at hkeeps hobserved
      refine ⟨hinsert t result.1 hevicted hkeeps, fun flow hflow => ?_⟩
      obtain rfl := Option.some.inj hflow
      exact hobserved
    | @opens t transport hevicted htransport hentry hroom result hresult =>
      have hnew : (∃ tcp, (FlowEntry.new (timestampUs packet.timestamp) route.key.protocol).transport = .tcp tcp) ↔
          route.key.protocol = .tcp := by
        unfold FlowEntry.new
        dsimp only
        split_ifs with htcp
        · exact iff_of_true ⟨_, rfl⟩ htcp
        · exact iff_of_false (fun ⟨tcp, heq⟩ => nomatch heq) htcp
      obtain ⟨hkeeps, hobserved⟩ := FlowEntry.observe_kind hnew (.of packet transport route.direction)
        (hprotocol transport htransport) t.config t.stats
      rw [← hresult] at hkeeps hobserved
      refine ⟨hinsert t result.1 hevicted hkeeps, fun flow hflow => ?_⟩
      obtain rfl := Option.some.inj hflow
      exact hobserved

end FlowTable

end Rustmate.Flow
