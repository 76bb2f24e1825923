import Rustmate.Content.Intact

/-!
# A content record by itself

As long as the content store evicts and drops nothing, what becomes of the record of a stream depends on the
packets of the stream only. -/

namespace Rustmate.Content

open Rustmate.Flow

namespace StreamContent

variable {self : StreamContent}

/-- A packet without content changes nothing. -/
theorem observeFlow_quiet (order : IterOrder FlowKey ContentRecord) {packet : DecodedPacket} {flow : FlowObservation}
    (h : (self.config.enabled && flowHasContent packet flow) = false) :
    (self.observeFlow order packet flow).1 = self := by
  unfold observeFlow
  have hquiet : (!self.config.enabled || !flowHasContent packet flow) = true := by
    rw [← Bool.not_and, h]
    rfl
  rw [if_pos hquiet]

/-- A record for the stream changes no configuration. -/
theorem ensureStream_config (order : IterOrder FlowKey ContentRecord) (key : FlowKey) (now_us : ℕ) :
    (self.ensureStream order key now_us).1.config = self.config := by
  rcases self.ensureStream_cases order key now_us with ⟨-, heq⟩ | ⟨-, room, hroom, ⟨-, heq⟩ | heq⟩
  · rw [heq]
  · rw [heq]
    exact hroom.evicts.config
  · rw [heq]
    exact hroom.evicts.config

/-- Updating the record changes no configuration. -/
theorem observeRecord_config (order : IterOrder FlowKey ContentRecord) (packet : DecodedPacket) (flow : FlowObservation)
    (now_us : ℕ) : (self.observeRecord order packet flow now_us).1.config = self.config := by
  cases hlookup : self.streams.lookup flow.key with
  | none =>
    unfold observeRecord
    rw [hlookup]
  | some record =>
    cases hupdate : updateRecord self.config record packet flow now_us with
    | none =>
      unfold observeRecord
      simp only [hlookup, hupdate]
    | some updated =>
      obtain ⟨record', update⟩ := updated
      rcases self.observeRecord_cases order now_us hlookup hupdate with ⟨-, heq⟩ | ⟨-, last, hlast, heq, -⟩
      · rw [heq]
      · rw [heq]
        exact hlast.config

/-- A packet changes no configuration. -/
theorem observeFlow_config (order : IterOrder FlowKey ContentRecord) (packet : DecodedPacket) (flow : FlowObservation) :
    (self.observeFlow order packet flow).1.config = self.config := by
  unfold observeFlow
  split_ifs
  · rfl
  · dsimp only
    have hensure := (self.tick order (timestampUs packet.timestamp)).ensureStream_config order flow.key
      (timestampUs packet.timestamp)
    have htick := (self.tick_evicts order (timestampUs packet.timestamp)).config
    generalize (self.tick order (timestampUs packet.timestamp)).ensureStream order flow.key
      (timestampUs packet.timestamp) = ensured at hensure ⊢
    obtain ⟨room, found⟩ := ensured
    cases found with
    | false => exact hensure.trans htick
    | true => exact (room.observeRecord_config order packet flow _).trans (hensure.trans htick)

/-- The record of another flow is there after a packet with content only when it was there as the packet was
counted. -/
theorem observeFlow_lookup_ne (order : IterOrder FlowKey ContentRecord) {packet : DecodedPacket} {flow : FlowObservation}
    (hcontent : flowHasContent packet flow = true) (henabled : self.config.enabled = true) {key : FlowKey}
    (hne : key ≠ flow.key) {record : ContentRecord}
    (h : (self.observeFlow order packet flow).1.streams.lookup key = some record) :
    (self.tick order (timestampUs packet.timestamp)).streams.lookup key = some record := by
  have hloud : ¬ (!self.config.enabled || !flowHasContent packet flow) = true := by
    rw [henabled, hcontent]
    exact Bool.false_ne_true
  unfold observeFlow at h
  rw [if_neg hloud] at h
  dsimp only at h
  generalize self.tick order (timestampUs packet.timestamp) = ticked at h ⊢
  -- making room evicts, and the new record is that of the flow
  have hensure : ∀ {r},
      (ticked.ensureStream order flow.key (timestampUs packet.timestamp)).1.streams.lookup key = some r →
        ticked.streams.lookup key = some r := by
    intro r hr
    rcases ticked.ensureStream_cases order flow.key (timestampUs packet.timestamp) with
      ⟨-, heq⟩ | ⟨-, room, hroom, ⟨-, heq⟩ | heq⟩
    · rwa [heq] at hr
    · rw [heq] at hr
      dsimp only at hr
      rw [AList.lookup_insert_ne hne] at hr
      exact hroom.evicts.lookup_some hr
    · rw [heq] at hr
      exact hroom.evicts.lookup_some hr
  generalize ticked.ensureStream order flow.key (timestampUs packet.timestamp) = ensured at h hensure
  obtain ⟨room, found⟩ := ensured
  cases found with
  | false => exact hensure h
  | true =>
    dsimp only at h hensure
    refine hensure ?_
    cases hlookup : room.streams.lookup flow.key with
    | none =>
      unfold observeRecord at h
      rwa [hlookup] at h
    | some old =>
      obtain ⟨record', update, hupdate⟩ := updateRecord_isSome room.config old (timestampUs packet.timestamp) hcontent
      rcases room.observeRecord_cases order _ hlookup hupdate with ⟨-, heq⟩ | ⟨-, last, hlast, heq, -⟩
      · rw [heq] at h
        dsimp only at h
        rwa [AList.lookup_insert_ne hne] at h
      · rw [heq] at h
        have hbefore := hlast.lookup_some h
        change (room.streams.insert flow.key record').lookup key = some record at hbefore
        rwa [AList.lookup_insert_ne hne] at hbefore

/-- What is there after the packet was counted was there before. -/
theorem mem_of_mem_tick {order : IterOrder FlowKey ContentRecord} {now_us : ℕ} {key : FlowKey}
    (h : key ∈ (self.tick order now_us).streams) : key ∈ self.streams := by
  obtain ⟨record, hrecord⟩ := Table.exists_lookup h
  exact Table.mem_of_lookup ((self.tick_evicts order now_us).lookup_some hrecord)

/-- A packet with content adds no record but that of its flow. -/
theorem mem_tick_of_ne (order : IterOrder FlowKey ContentRecord) {packet : DecodedPacket} {flow : FlowObservation}
    (hcontent : flowHasContent packet flow = true) (henabled : self.config.enabled = true) {key : FlowKey}
    (hne : key ≠ flow.key) (h : key ∈ (self.observeFlow order packet flow).1.streams) :
    key ∈ (self.tick order (timestampUs packet.timestamp)).streams := by
  obtain ⟨record, hrecord⟩ := Table.exists_lookup h
  exact Table.mem_of_lookup (observeFlow_lookup_ne order hcontent henabled hne hrecord)

/-- What a packet with content does to a store that has dropped nothing afterwards: the record of its stream
is updated, and the others stay. -/
theorem observeFlow_undropped (hmax : 0 < self.config.max_streams) (order : IterOrder FlowKey ContentRecord)
    {packet : DecodedPacket} {flow : FlowObservation} (henabled : self.config.enabled = true)
    (hcontent : flowHasContent packet flow = true) (h : (self.observeFlow order packet flow).1.Undropped) :
    self.Undropped ∧
      (∀ key, key ≠ flow.key →
        (self.observeFlow order packet flow).1.streams.lookup key = self.streams.lookup key) ∧
      (self.observeFlow order packet flow).1.streams.lookup flow.key =
        (updateRecord self.config ((self.streams.lookup flow.key).getD (.new flow.key (timestampUs packet.timestamp)))
          packet flow (timestampUs packet.timestamp)).map Prod.fst := by
  have hloud : ¬ (!self.config.enabled || !flowHasContent packet flow) = true := by
    rw [henabled, hcontent]
    exact Bool.false_ne_true
  unfold observeFlow at h ⊢
  rw [if_neg hloud] at h ⊢
  dsimp only at h ⊢
  have htick := self.tick_evicts order (timestampUs packet.timestamp)
  generalize self.tick order (timestampUs packet.timestamp) = ticked at h htick ⊢
  have hmax' : 0 < ticked.config.max_streams := by
    rw [htick.config]
    exact hmax
  have hensure := ensureStream_undropped hmax' order flow.key (timestampUs packet.timestamp)
  have hconfig := ticked.ensureStream_config order flow.key (timestampUs packet.timestamp)
  generalize ticked.ensureStream order flow.key (timestampUs packet.timestamp) = ensured at h hensure hconfig ⊢
  obtain ⟨room, found⟩ := ensured
  cases found with
  | false =>
    obtain ⟨-, hfound, -⟩ := hensure h
    exact nomatch hfound
  | true =>
    dsimp only at h hensure hconfig ⊢
    have hupdated : ∀ record, ∃ record' update, updateRecord room.config record packet flow
        (timestampUs packet.timestamp) = some (record', update) :=
      fun record => updateRecord_isSome room.config record (timestampUs packet.timestamp) hcontent
    -- the record is there, whether it is new or not
    have hroom : room.Undropped := by
      cases hlookup : room.streams.lookup flow.key with
      | none =>
        unfold observeRecord at h
        rw [hlookup] at h
        exact h
      | some record =>
        obtain ⟨record', update, hupdate⟩ := hupdated record
        exact (observeRecord_undropped order _ hlookup hupdate h).1
    obtain ⟨hticked, -, hlook⟩ := hensure hroom
    obtain ⟨hself, hstreams⟩ := htick.undropped hticked
    have hrecord : room.streams.lookup flow.key =
        some ((self.streams.lookup flow.key).getD (.new flow.key (timestampUs packet.timestamp))) := by
      rw [hlook, hstreams]
      cases hlookup : self.streams.lookup flow.key with
      | none => exact if_pos ⟨rfl, rfl⟩
      | some record => exact if_neg fun hnew => nomatch hnew.2
    obtain ⟨record', update, hupdate⟩ :=
      hupdated ((self.streams.lookup flow.key).getD (.new flow.key (timestampUs packet.timestamp)))
    obtain ⟨-, -, hlookup⟩ := observeRecord_undropped order _ hrecord hupdate h
    rw [hconfig, htick.config] at hupdate
    refine ⟨hself, fun key hne => ?_, ?_⟩
    · rw [hlookup, if_neg hne, hlook, if_neg fun hnew => hne hnew.1, hstreams]
    · rw [hlookup, if_pos rfl, hupdate]
      rfl

end StreamContent

end Rustmate.Content
