import Mathlib.Order.Bounds.Basic
import Rustmate.Flow.Buffer
import Rustmate.Flow.Steps

/-!
# The budgets of out-of-order buffering

What a flow may buffer: so many segments in each direction, and so many bytes in both together. The count of
the buffered bytes is kept by additions and subtractions that saturate; it never drifts from what the buffers
hold. -/

namespace Rustmate.Flow

/-- The buffers of a flow are within the budgets, and their bytes are counted. -/
structure WithinBudget (config : FlowTableConfig) (flow : TcpFlowState) : Prop where
  counted : ∀ direction, (flow.directions.get direction).buffered_bytes =
    heldBytes (flow.directions.get direction).buffered
  segments : ∀ direction, (flow.directions.get direction).buffered.length ≤
    config.max_tcp_out_of_order_segments_per_direction
  bytes : flow.bufferedBytes ≤ config.max_tcp_buffered_bytes_per_flow

/-- The bytes that may come to be buffered are fewer than a `usize` counts: because the budget is, or because
there are no more of them. -/
def Countable (config : FlowTableConfig) (bytes : ℕ) : Prop :=
  config.max_tcp_buffered_bytes_per_flow < u64Max ∨ bytes ≤ u64Max

/-- One segment leaves the direction within its budgets. -/
theorem Effect.withinBudget {s s' : TcpDirectionState} {segment : TcpSegment} {payload : List UInt8}
    {config : FlowTableConfig} {flow_buffered_bytes : ℕ} {counters counters' : ByteCounters}
    {chunks : List StreamChunk}
    (h : Effect s segment payload config flow_buffered_bytes counters s' counters' chunks)
    (hcounted : s.buffered_bytes = heldBytes s.buffered)
    (hsegments : s.buffered.length ≤ config.max_tcp_out_of_order_segments_per_direction)
    (hpart : s.buffered_bytes ≤ flow_buffered_bytes)
    (hfits : Countable config (flow_buffered_bytes + payload.length)) :
    s'.buffered_bytes = heldBytes s'.buffered ∧
      s'.buffered.length ≤ config.max_tcp_out_of_order_segments_per_direction ∧
      (s'.buffered_bytes ≤ s.buffered_bytes ∨
        (s'.buffered_bytes = s.buffered_bytes + payload.length ∧
          flow_buffered_bytes + payload.length ≤ config.max_tcp_buffered_bytes_per_flow)) := by
  have hsame : SameBuffer s s' → s'.buffered_bytes = heldBytes s'.buffered ∧
      s'.buffered.length ≤ config.max_tcp_out_of_order_segments_per_direction ∧
      s'.buffered_bytes ≤ s.buffered_bytes := by
    rintro ⟨hbuffered, hbytes⟩
    rw [hbuffered, hbytes]
    exact ⟨hcounted, hsegments, Nat.le_refl _⟩
  have hdrains : ∀ {drained}, Drained s s' drained → s'.buffered_bytes = heldBytes s'.buffered ∧
      s'.buffered.length ≤ config.max_tcp_out_of_order_segments_per_direction ∧
      s'.buffered_bytes ≤ s.buffered_bytes := by
    intro drained hdrained
    have hcounted' := hdrained.counted hcounted
    have hbytes := hdrained.bytes
    have hchunks := hdrained.chunks
    exact ⟨hcounted', by omega, by omega⟩
  cases h with
  | reported hstay hwhy => exact ⟨(hsame hstay).1, (hsame hstay).2.1, .inl (hsame hstay).2.2⟩
  | current hlength hsource hbytes hdrained =>
    exact ⟨(hdrains hdrained).1, (hdrains hdrained).2.1, .inl (hdrains hdrained).2.2⟩
  | overlap hlength hsource hbytes hdrained =>
    exact ⟨(hdrains hdrained).1, (hdrains hdrained).2.1, .inl (hdrains hdrained).2.2⟩
  | retransmitted hstay => exact ⟨(hsame hstay).1, (hsame hstay).2.1, .inl (hsame hstay).2.2⟩
  | buffered hroom hbudget hheld hlength hcounter =>
    -- the sum is below the maximum, so neither addition saturates
    have hsum : flow_buffered_bytes + payload.length ≤ u64Max ∧
        flow_buffered_bytes + payload.length ≤ config.max_tcp_buffered_bytes_per_flow := by
      unfold saturatingAdd at hbudget
      rcases hfits with hless | hless
      · omega
      · omega
    have hexact : saturatingAdd s.buffered_bytes payload.length = s.buffered_bytes + payload.length := by
      unfold saturatingAdd
      omega
    rw [hexact] at hcounter
    exact ⟨by omega, by omega, .inr ⟨hcounter, hsum.2⟩⟩
  | dropped hstay => exact ⟨(hsame hstay).1, (hsame hstay).2.1, .inl (hsame hstay).2.2⟩

namespace TcpFlowState

variable {config : FlowTableConfig}

/-- One direction is part of the flow. -/
theorem get_le_bufferedBytes (self : TcpFlowState) (direction : FlowDirection) :
    (self.directions.get direction).buffered_bytes ≤ self.bufferedBytes := by
  unfold bufferedBytes
  cases direction with
  | aToB => exact Nat.le_add_right _ _
  | bToA => exact Nat.le_add_left _ _

/-- What a flow holds when one direction has changed. -/
theorem bufferedBytes_set {self after : TcpFlowState} {direction : FlowDirection} {state : TcpDirectionState}
    (h : after.directions = self.directions.set direction state) :
    after.bufferedBytes + (self.directions.get direction).buffered_bytes =
      self.bufferedBytes + state.buffered_bytes := by
  unfold bufferedBytes
  rw [h]
  cases direction with
  | aToB =>
    simp only [PerDirection.set, PerDirection.get]
    omega
  | bToA =>
    simp only [PerDirection.set, PerDirection.get]
    omega

/-- One segment leaves the flow within its budgets, with its bytes at most added to what is buffered. -/
theorem observe_withinBudget {self : TcpFlowState} (h : WithinBudget config self) (direction : FlowDirection)
    (segment : TcpSegment) (payload : List UInt8) (stats : FlowTableStats)
    (hfits : Countable config (self.bufferedBytes + payload.length)) :
    WithinBudget config (self.observe direction segment payload config stats).1 ∧
      (self.observe direction segment payload config stats).1.bufferedBytes ≤
        self.bufferedBytes + payload.length := by
  obtain ⟨counters, state, heffect, hdirections, -, -⟩ :=
    self.observe_parts direction segment payload config stats
  obtain ⟨hcounted, hsegments, hgrowth⟩ := heffect.withinBudget (h.counted direction) (h.segments direction)
    (self.get_le_bufferedBytes direction) hfits
  generalize (self.observe direction segment payload config stats).1 = after at hdirections ⊢
  have hbytes := bufferedBytes_set hdirections
  have hbudget := h.bytes
  refine ⟨⟨fun other => ?_, fun other => ?_, ?_⟩, ?_⟩
  · by_cases hother : other = direction
    · rw [hother, hdirections, PerDirection.get_set]
      exact hcounted
    · rw [hdirections, PerDirection.get_set_ne _ _ hother]
      exact h.counted other
  · by_cases hother : other = direction
    · rw [hother, hdirections, PerDirection.get_set]
      exact hsegments
    · rw [hdirections, PerDirection.get_set_ne _ _ hother]
      exact h.segments other
  · rcases hgrowth with hless | ⟨hmore, hroom⟩
    · omega
    · omega
  · rcases hgrowth with hless | ⟨hmore, -⟩
    · omega
    · omega

/-- The peak is raised to what the flow holds after the segment. -/
theorem observe_peak (self : TcpFlowState) (direction : FlowDirection) (segment : TcpSegment) (payload : List UInt8)
    (config : FlowTableConfig) (stats : FlowTableStats) :
    (self.observe direction segment payload config stats).2.1.tcp_reassembly_buffered_bytes_peak =
      max stats.tcp_reassembly_buffered_bytes_peak
        (self.observe direction segment payload config stats).1.bufferedBytes := by
  obtain ⟨-, -, -, -, -, hcounters⟩ := self.observe_parts direction segment payload config stats
  have hfold : ∀ (chunks : List StreamChunk) (c : ChunkCounters), (chunks.foldl ChunkCounters.observe c).peak = c.peak := by
    intro chunks
    induction chunks with
    | nil => exact fun c => rfl
    | cons chunk chunks ih =>
      intro c
      rw [List.foldl_cons, ih]
      unfold ChunkCounters.observe
      cases chunk.source with
      | currentSegment => rfl
      | bufferedSegment => rfl
      | overlapTrimmed => rfl
  have hpeak := congrArg ChunkCounters.peak hcounters
  unfold ChunkCounters.observeAll at hpeak
  dsimp only at hpeak
  rw [hfold] at hpeak
  exact hpeak

end TcpFlowState

/-! ## Runs -/

/-- A segment of a flow, in its direction. -/
structure FlowSegment where
  direction : FlowDirection
  segment : TcpSegment
  payload : List UInt8
  deriving DecidableEq, Repr

/-- The segments of one flow, one after the other, with the statistics. -/
def TcpFlowState.observeAll (config : FlowTableConfig) (start : TcpFlowState × FlowTableStats)
    (xs : List FlowSegment) : TcpFlowState × FlowTableStats :=
  xs.foldl
    (fun s x =>
      let r := s.1.observe x.direction x.segment x.payload config s.2
      (r.1, r.2.1))
    start

/-- The last segment comes after the others. -/
theorem TcpFlowState.observeAll_concat (config : FlowTableConfig) (start : TcpFlowState × FlowTableStats)
    (xs : List FlowSegment) (x : FlowSegment) :
    TcpFlowState.observeAll config start (xs ++ [x]) =
      let s := TcpFlowState.observeAll config start xs
      let r := s.1.observe x.direction x.segment x.payload config s.2
      (r.1, r.2.1) := by
  unfold observeAll
  rw [List.foldl_append]
  rfl

/-- What is the greatest value so far, when there is one more. -/
theorem isGreatest_concat {α : Type*} {f : List α → ℕ} {xs : List α} {x : α} {peak : ℕ}
    (h : IsGreatest {n | ∃ ys, ys <+: xs ∧ f ys = n} peak) :
    IsGreatest {n | ∃ ys, ys <+: xs ++ [x] ∧ f ys = n} (max peak (f (xs ++ [x]))) := by
  obtain ⟨⟨ys, hys, hpeak⟩, hupper⟩ := h
  constructor
  · rcases Nat.le_total (f (xs ++ [x])) peak with hle | hle
    · rw [Nat.max_eq_left hle]
      exact ⟨ys, hys.trans (List.prefix_append _ _), hpeak⟩
    · rw [Nat.max_eq_right hle]
      exact ⟨xs ++ [x], List.prefix_rfl, rfl⟩
  · rintro n ⟨zs, hzs, rfl⟩
    rcases List.prefix_concat_iff.mp hzs with rfl | hzs
    · exact Nat.le_max_right _ _
    · exact Nat.le_trans (hupper ⟨zs, hzs, rfl⟩) (Nat.le_max_left _ _)

/-- Before the first segment there is one value. -/
theorem isGreatest_nil {α : Type*} (f : List α → ℕ) : IsGreatest {n | ∃ ys, ys <+: [] ∧ f ys = n} (f []) := by
  constructor
  · exact ⟨[], List.prefix_rfl, rfl⟩
  · rintro n ⟨ys, hys, rfl⟩
    rw [List.prefix_nil.mp hys]

/-- The run lemma of the budgets. -/
theorem TcpFlowState.observeAll_within {config : FlowTableConfig} (xs : List FlowSegment)
    (hfits : Countable config (xs.map fun x => x.payload.length).sum) :
    WithinBudget config (TcpFlowState.observeAll config ({}, {}) xs).1 ∧
      (TcpFlowState.observeAll config ({}, {}) xs).1.bufferedBytes ≤ (xs.map fun x => x.payload.length).sum := by
  induction xs using List.reverseRecOn with
  | nil =>
    refine ⟨⟨fun direction => ?_, fun direction => ?_, Nat.zero_le _⟩, Nat.zero_le _⟩
    · cases direction with
      | aToB => rfl
      | bToA => rfl
    · cases direction with
      | aToB => exact Nat.zero_le _
      | bToA => exact Nat.zero_le _
  | append_singleton xs x ih =>
    rw [List.map_append, List.sum_append] at hfits ⊢
    have hone : ([x].map fun x => x.payload.length).sum = x.payload.length := by simp
    rw [hone] at hfits ⊢
    obtain ⟨hwithin, hle⟩ := ih (by
      rcases hfits with hbudget | hfew
      · exact .inl hbudget
      · exact .inr (by omega))
    rw [observeAll_concat]
    obtain ⟨hwithin', hle'⟩ := observe_withinBudget hwithin x.direction x.segment x.payload
      (TcpFlowState.observeAll config ({}, {}) xs).2 (by
        rcases hfits with hbudget | hfew
        · exact .inl hbudget
        · exact .inr (by omega))
    exact ⟨hwithin', by dsimp only; omega⟩

/-- The bytes that a flow's entry holds buffered. -/
def FlowEntry.bufferedBytes (self : FlowEntry) : ℕ :=
  match self.transport with
  | .tcp tcp => tcp.bufferedBytes
  | .datagram => 0

/-- The bytes that the table holds buffered for a flow. -/
def FlowTable.bufferedOf (self : FlowTable) (key : FlowKey) : ℕ :=
  (self.entries.lookup key).elim 0 FlowEntry.bufferedBytes

/-- A flow that lost its entry holds nothing. -/
theorem FlowTable.bufferedOf_shrinks {before after : FlowTable} (h : Table.Shrinks before.entries after.entries)
    (key : FlowKey) : after.bufferedOf key ≤ before.bufferedOf key := by
  unfold bufferedOf
  rcases h key with hnone | hsame
  · rw [hnone]
    exact Nat.zero_le _
  · rw [hsame]

/-- With every packet of the flow the peak is raised to what the table then holds for it. -/
theorem FlowTable.observeWithRoute_peak {self : FlowTable} (order : IterOrder FlowKey FlowEntry)
    (packet : DecodedPacket) (route : FlowRoute)
    (hpeak : self.bufferedOf route.key ≤ self.stats.tcp_reassembly_buffered_bytes_peak) :
    (self.observeWithRoute order packet route).1.stats.tcp_reassembly_buffered_bytes_peak =
      max self.stats.tcp_reassembly_buffered_bytes_peak
        ((self.observeWithRoute order packet route).1.bufferedOf route.key) := by
  have hstays : ∀ {t : FlowTable}, Evicted self t →
      t.stats.tcp_reassembly_buffered_bytes_peak = self.stats.tcp_reassembly_buffered_bytes_peak ∧
      t.bufferedOf route.key ≤ self.stats.tcp_reassembly_buffered_bytes_peak := by
    intro t hevicted
    rw [hevicted.stats]
    exact ⟨rfl, Nat.le_trans (bufferedOf_shrinks hevicted.entries _) hpeak⟩
  -- an entry that held no more than the peak
  have hentry : ∀ {entry : FlowEntry} {transport : TransportPayload} {t : FlowTable}, Evicted self t →
      entry.bufferedBytes ≤ self.stats.tcp_reassembly_buffered_bytes_peak →
      (entry.observe (.of packet transport route.direction) t.config t.stats).2.1.tcp_reassembly_buffered_bytes_peak =
        max self.stats.tcp_reassembly_buffered_bytes_peak
          (entry.observe (.of packet transport route.direction) t.config t.stats).1.bufferedBytes := by
    intro entry transport t hevicted hle
    rcases entry.observe_transport (.of packet transport route.direction) t.config t.stats with
      ⟨tcp, segment, htcp, hsegment, hafter, hstats⟩ | ⟨-, hafter, hstats⟩
    · rw [hstats, TcpFlowState.observe_peak, (hstays hevicted).1]
      unfold FlowEntry.bufferedBytes
      rw [hafter]
    · rw [hstats, (hstays hevicted).1]
      unfold FlowEntry.bufferedBytes at hle ⊢
      rw [hafter]
      exact (Nat.max_eq_left hle).symm
  have hobserves := self.observeWithRoute_observes order packet route
  generalize self.observeWithRoute order packet route = after at hobserves ⊢
  cases hobserves with
  | nothing hevicted hnone =>
    rw [(hstays hevicted).1]
    exact (Nat.max_eq_left (hstays hevicted).2).symm
  | @goesOn t transport entry hevicted htransport hlookup result hresult =>
    have hle : entry.bufferedBytes ≤ self.stats.tcp_reassembly_buffered_bytes_peak := by
      have hstay := (hstays hevicted).2
      unfold bufferedOf at hstay
      rw [hlookup] at hstay
      exact hstay
    unfold bufferedOf
    dsimp only
    rw [AList.lookup_insert, hresult]
    exact hentry hevicted hle
  | @opens t transport hevicted htransport hlookup hroom result hresult =>
    have hle : (FlowEntry.new (timestampUs packet.timestamp) route.key.protocol).bufferedBytes ≤
        self.stats.tcp_reassembly_buffered_bytes_peak := by
      unfold FlowEntry.bufferedBytes FlowEntry.new
      dsimp only
      by_cases htcp : route.key.protocol = .tcp
      · rw [if_pos htcp]
        exact Nat.zero_le _
      · rw [if_neg htcp]
        exact Nat.zero_le _
    unfold bufferedOf
    dsimp only
    rw [AList.lookup_insert, hresult]
    exact hentry hevicted hle
  | refused hevicted hfull =>
    change _ = max _ (FlowTable.bufferedOf _ route.key)
    dsimp only
    rw [(hstays hevicted).1]
    exact (Nat.max_eq_left (hstays hevicted).2).symm

/-- The peak of a table that sees the packets of one flow is the greatest that it ever held. -/
theorem FlowTable.routeAll_peak (config : FlowTableConfig) (key : FlowKey) (xs : List RoutedPacket)
    (hkey : ∀ x ∈ xs, x.route.key = key) :
    IsGreatest {n | ∃ ys, ys <+: xs ∧ ((FlowTable.new config).routeAll ys).bufferedOf key = n}
      ((FlowTable.new config).routeAll xs).stats.tcp_reassembly_buffered_bytes_peak := by
  induction xs using List.reverseRecOn with
  | nil => exact isGreatest_nil fun ys => ((FlowTable.new config).routeAll ys).bufferedOf key
  | append_singleton xs x ih =>
    have hbefore := ih fun y hy => hkey y (List.mem_append_left _ hy)
    have hx : x.route.key = key := hkey x (List.mem_append_right _ List.mem_cons_self)
    have hmore := isGreatest_concat (x := x) hbefore
    have hheld : ((FlowTable.new config).routeAll xs).bufferedOf x.route.key ≤
        ((FlowTable.new config).routeAll xs).stats.tcp_reassembly_buffered_bytes_peak := by
      rw [hx]
      exact hbefore.2 ⟨xs, List.prefix_rfl, rfl⟩
    have hpeak := observeWithRoute_peak x.order x.packet x.route hheld
    rw [hx, ← routeAll_concat] at hpeak
    rw [hpeak]
    exact hmore

/-- After every segment of a flow, whatever came before, each direction counts the bytes that it buffers, and
the buffers are within their budgets; and the peak is the greatest that the flow held so far. It is in a table
too that sees the packets of one flow only, evicted or not. -/
theorem TcpFlowState.observeAll_withinBudget (config : FlowTableConfig) (xs : List FlowSegment)
    (hfits : Countable config (xs.map fun x => x.payload.length).sum) :
    WithinBudget config (TcpFlowState.observeAll config ({}, {}) xs).1 ∧
    IsGreatest {n | ∃ ys, ys <+: xs ∧ (TcpFlowState.observeAll config ({}, {}) ys).1.bufferedBytes = n}
      (TcpFlowState.observeAll config ({}, {}) xs).2.tcp_reassembly_buffered_bytes_peak ∧
    ∀ (key : FlowKey) (packets : List RoutedPacket), (∀ x ∈ packets, x.route.key = key) →
      IsGreatest {n | ∃ ys, ys <+: packets ∧ ((FlowTable.new config).routeAll ys).bufferedOf key = n}
        ((FlowTable.new config).routeAll packets).stats.tcp_reassembly_buffered_bytes_peak := by
  refine ⟨(observeAll_within xs hfits).1, ?_, fun key packets => FlowTable.routeAll_peak config key packets⟩
  clear hfits
  induction xs using List.reverseRecOn with
  | nil => exact isGreatest_nil fun ys => (TcpFlowState.observeAll config ({}, {}) ys).1.bufferedBytes
  | append_singleton xs x ih =>
    have hmore := isGreatest_concat (x := x) ih
    rw [observeAll_concat] at hmore ⊢
    dsimp only at hmore ⊢
    rw [observe_peak]
    exact hmore

/-- The first segment of a flow, one behind a gap of two bytes, and the two bytes. -/
def gapSegments : List FlowSegment :=
  let segment (sequence_number : BitVec 32) (len : ℕ) : FlowSegment :=
    { direction := .aToB
      segment := ⟨sequence_number, 0, ⟨false, false, false, false, true, false, false, false⟩, 0, len⟩
      payload := List.replicate len 0 }
  [segment 0 1, segment 3 4, segment 1 2]

theorem TcpFlowState.observeAll_withinBudget_gap :
    (TcpFlowState.observeAll (FlowTableConfig.new 1 1 100 2) ({}, {})
        gapSegments).2.tcp_reassembly_buffered_bytes_peak = 4 ∧
      WithinBudget (FlowTableConfig.new 1 1 100 2)
        (TcpFlowState.observeAll (FlowTableConfig.new 1 1 100 2) ({}, {}) gapSegments).1 :=
  ⟨by decide +kernel, (TcpFlowState.observeAll_withinBudget _ gapSegments (.inl (by decide))).1⟩

end Rustmate.Flow
