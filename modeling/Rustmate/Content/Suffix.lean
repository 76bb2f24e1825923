import Rustmate.Content.Record

/-!
# The store is a sliding suffix of each stream

Over any sequence of packets, whatever the store trims and evicts: what a record holds of a direction is a
suffix of all the bytes appended to it since the record was created, under their offsets in that log.
-/

namespace Rustmate.Content

open Rustmate.Flow Tiling

/-! ## Evictions -/

/-- The store after some records were evicted: the others are as they were. -/
structure Evicts (before after : StreamContent) : Prop where
  config : after.config = before.config
  lookup : ∀ k, after.streams.lookup k = none ∨ after.streams.lookup k = before.streams.lookup k
  unchanged : after.stats.evicted_content_streams = 0 →
    after.streams = before.streams ∧ before.stats.evicted_content_streams = 0 ∧
      after.stats.dropped_content_bytes = before.stats.dropped_content_bytes

/-- Evicting nothing. -/
theorem Evicts.refl (before : StreamContent) : Evicts before before :=
  ⟨rfl, fun _ => .inr rfl, fun h => ⟨rfl, h, rfl⟩⟩

/-- Evicting some and then some more. -/
theorem Evicts.trans {s₁ s₂ s₃ : StreamContent} (h : Evicts s₁ s₂) (h' : Evicts s₂ s₃) :
    Evicts s₁ s₃ := by
  refine ⟨h'.config.trans h.config, fun k => ?_, fun hzero => ?_⟩
  · rcases h'.lookup k with hnone | hsame
    · exact .inl hnone
    · rw [hsame]
      exact h.lookup k
  · obtain ⟨hstreams', hevicted', hdropped'⟩ := h'.unchanged hzero
    obtain ⟨hstreams, hevicted, hdropped⟩ := h.unchanged hevicted'
    exact ⟨hstreams'.trans hstreams, hevicted, hdropped'.trans hdropped⟩

/-- What is there after evictions was there before. -/
theorem Evicts.lookup_some {before after : StreamContent} (h : Evicts before after) {k : FlowKey}
    {record : ContentRecord} (hk : after.streams.lookup k = some record) :
    before.streams.lookup k = some record := by
  rcases h.lookup k with hnone | hsame
  · rw [hk] at hnone
    exact absurd hnone (by simp)
  · rw [← hsame, hk]

namespace StreamContent

/-- Removing one record. -/
theorem removeStream_evicts (self : StreamContent) (key : FlowKey) :
    Evicts self (self.removeStream key) := by
  unfold removeStream
  cases hkey : self.streams.lookup key with
  | none => exact .refl self
  | some record =>
    refine ⟨rfl, fun k => ?_, fun hzero => ?_⟩
    · by_cases hk : k = key
      · subst hk
        exact .inl (AList.lookup_erase k _)
      · exact .inr (AList.lookup_erase_ne hk)
    · have hcount : saturatingAdd self.stats.evicted_content_streams 1 = 0 := hzero
      unfold saturatingAdd u64Max at hcount
      omega

end StreamContent

/-- The store after some records were removed, one after the other. -/
def Removed (before after : StreamContent) : Prop :=
  ∃ keys : List FlowKey, after = keys.foldl StreamContent.removeStream before

/-- Removing nothing. -/
theorem Removed.refl (before : StreamContent) : Removed before before := ⟨[], rfl⟩

/-- Removing some and then some more. -/
theorem Removed.trans {s₁ s₂ s₃ : StreamContent} (h : Removed s₁ s₂) (h' : Removed s₂ s₃) :
    Removed s₁ s₃ := by
  obtain ⟨keys, rfl⟩ := h
  obtain ⟨keys', rfl⟩ := h'
  exact ⟨keys ++ keys', (List.foldl_append).symm⟩

/-- What removing one record keeps, removing several keeps. -/
theorem Removed.preserves {P : StreamContent → Prop} (hP : ∀ s key, P s → P (s.removeStream key))
    {before after : StreamContent} (h : Removed before after) (hbefore : P before) : P after := by
  obtain ⟨keys, rfl⟩ := h
  induction keys generalizing before with
  | nil => exact hbefore
  | cons key keys ih => exact ih (hP before key hbefore)

/-- Removed records are evicted. -/
theorem Removed.evicts {before after : StreamContent} (h : Removed before after) :
    Evicts before after :=
  h.preserves (fun s key hs => hs.trans (s.removeStream_evicts key)) (.refl before)

namespace StreamContent

/-- Removing what was idle. -/
theorem evictIdle_removed (self : StreamContent) (order : IterOrder FlowKey ContentRecord)
    (now_us : ℕ) : Removed self (self.evictIdle order now_us) := ⟨_, rfl⟩

/-- Removing the oldest record. -/
theorem evictOldest_removed (self : StreamContent) (order : IterOrder FlowKey ContentRecord)
    (except : Option FlowKey) : Removed self (self.evictOldest order except).1 := by
  unfold evictOldest
  cases self.streams.oldest order (fun record => record.last_seen_us) (fun k => some k ≠ except) with
  | none => exact .refl self
  | some key => exact ⟨[key], rfl⟩

/-- Removing records until the store is within its limit. -/
theorem enforceGlobalLimitLoop_removed (order : IterOrder FlowKey ContentRecord)
    (current_key : FlowKey) (fuel : ℕ) (self : StreamContent) :
    Removed self (enforceGlobalLimitLoop order current_key fuel self) := by
  induction fuel generalizing self with
  | zero => exact .refl self
  | succ fuel ih =>
    unfold enforceGlobalLimitLoop
    by_cases hle : self.stored_bytes ≤ self.config.max_total_bytes
    · rw [if_pos hle]
      exact .refl self
    · rw [if_neg hle]
      dsimp only
      generalize (if 1 < self.streams.size then some current_key else none) = except
      have hone := self.evictOldest_removed order except
      generalize self.evictOldest order except = r at hone ⊢
      obtain ⟨after, _ | _⟩ := r
      · exact hone
      · exact hone.trans (ih after)

/-- Counting the packet, and evicting when it is due. -/
theorem tick_evicts (self : StreamContent) (order : IterOrder FlowKey ContentRecord) (now_us : ℕ) :
    Evicts self (self.tick order now_us) := by
  have hcount : Evicts self { self with observed_packets := saturatingAdd self.observed_packets 1 } :=
    ⟨rfl, fun _ => .inr rfl, fun h => ⟨rfl, h, rfl⟩⟩
  unfold tick
  dsimp only
  split_ifs with hdue
  · exact hcount.trans (evictIdle_removed _ order now_us).evicts
  · exact hcount

/-! ## The record of a flow -/

/-- Everything `ensure_stream` can do: the record is there, or a new one is put there after evictions, or
there is no room for it. -/
theorem ensureStream_cases (self : StreamContent) (order : IterOrder FlowKey ContentRecord)
    (key : FlowKey) (now_us : ℕ) :
    ((self.streams.lookup key).isSome = true ∧
      self.ensureStream order key now_us = (self, true)) ∨
    ((self.streams.lookup key).isSome = false ∧ ∃ room, Removed self room ∧
      ((room.streams.size < room.config.max_streams ∧ self.ensureStream order key now_us =
          ({ room with streams := room.streams.insert key (.new key now_us) }, true)) ∨
        self.ensureStream order key now_us = (room, false))) := by
  unfold ensureStream
  by_cases hkey : (self.streams.lookup key).isSome = true
  · rw [if_pos hkey]
    exact .inl ⟨hkey, rfl⟩
  · rw [if_neg hkey]
    refine .inr ⟨by simpa using hkey, ?_⟩
    have hroom : ∀ room, room =
        (if self.config.max_streams ≤ self.streams.size then
          let self := self.evictIdle order now_us
          if self.config.max_streams ≤ self.streams.size then (self.evictOldest order none).1
          else self
        else self) → Removed self room := by
      rintro room rfl
      have hidle := self.evictIdle_removed order now_us
      dsimp only
      split_ifs
      · exact hidle.trans (evictOldest_removed _ order none)
      · exact hidle
      · exact .refl self
    refine ⟨_, hroom _ rfl, ?_⟩
    generalize (if self.config.max_streams ≤ self.streams.size then
          let self := self.evictIdle order now_us
          if self.config.max_streams ≤ self.streams.size then (self.evictOldest order none).1
          else self
        else self) = room
    dsimp only
    by_cases hfull : room.config.max_streams ≤ room.streams.size
    · rw [if_pos hfull]
      exact .inr rfl
    · rw [if_neg hfull]
      exact .inl ⟨Nat.lt_of_not_le hfull, rfl⟩

/-- A packet with content has bytes to add. -/
theorem updateRecord_isSome (config : StreamContentConfig) (record : ContentRecord)
    {packet : DecodedPacket} {flow : FlowObservation} (now_us : ℕ)
    (h : flowHasContent packet flow = true) :
    ∃ record' update, updateRecord config record packet flow now_us = some (record', update) := by
  unfold updateRecord
  unfold flowHasContent at h
  cases htcp : flow.tcp with
  | some tcp => exact ⟨_, _, rfl⟩
  | none =>
    rw [htcp] at h
    cases hpayload : packet.transport_payload with
    | none => simp [hpayload] at h
    | some transport => exact ⟨_, _, rfl⟩

/-- The record of a flow is updated, and perhaps evicted afterwards. -/
theorem observeRecord_cases (self : StreamContent) (order : IterOrder FlowKey ContentRecord)
    {packet : DecodedPacket} {flow : FlowObservation} (now_us : ℕ) {record record' : ContentRecord}
    {update : RecordUpdate} (hlookup : self.streams.lookup flow.key = some record)
    (hupdate : updateRecord self.config record packet flow now_us = some (record', update)) :
    (update.ranges = [] ∧ self.observeRecord order packet flow now_us =
        ({ self with streams := self.streams.insert flow.key record' }, none)) ∨
      (update.ranges ≠ [] ∧ ∃ last,
        Evicts (account { self with streams := self.streams.insert flow.key record' } update) last ∧
        (self.observeRecord order packet flow now_us).1 = last ∧
        ∃ stored_bytes_after, (self.observeRecord order packet flow now_us).2 =
          some ⟨flow.key.stableId, flow.key, update.ranges, update.appended.observed_bytes,
            stored_bytes_after⟩) := by
  unfold observeRecord
  simp only [hlookup, hupdate]
  by_cases hranges : update.ranges = []
  · exact .inl ⟨hranges, by simp [hranges]⟩
  · have hsome : update.ranges.isEmpty = false := by simpa using hranges
    refine .inr ⟨hranges, _, ?_, rfl, ?_⟩
    · simp only [hsome, Bool.false_eq_true, if_false]
      exact (enforceGlobalLimitLoop_removed order flow.key _ _).evicts
    · simp only [hsome, Bool.false_eq_true, if_false]
      exact ⟨_, rfl⟩

end StreamContent

/-! ## The logs of all streams -/

/-- Every record belongs to its flow and stores suffixes of its log. -/
def StreamContent.Holds (store : StreamContent) (logs : FlowKey → Log) : Prop :=
  ∀ key record, store.streams.lookup key = some record →
    record.id = key.stableId ∧ record.Holds store.config.max_segment_bytes (logs key)

/-- The logs once the flow has a record: a record that is new begins with an empty log. -/
def openLog (store : StreamContent) (key : FlowKey) (logs : FlowKey → Log) : FlowKey → Log :=
  if (store.streams.lookup key).isSome then logs else Function.update logs key Log.empty

/-- The logs after a packet: what it brings is appended to those of its flow. -/
def stepLogs (store : StreamContent) (order : IterOrder FlowKey ContentRecord)
    (packet : DecodedPacket) (flow : FlowObservation) (logs : FlowKey → Log) : FlowKey → Log :=
  if !store.config.enabled || !flowHasContent packet flow then logs
  else
    let logs := openLog (store.tick order (timestampUs packet.timestamp)) flow.key logs
    Function.update logs flow.key ((logs flow.key).add (contentOf packet flow))

/-- What a call reports of a flow: an update that covers what was appended, or none, when the flow is left
without a record or nothing was appended. -/
def Reports (key : FlowKey) (before after : Log)
    (result : StreamContent × Option StreamContentUpdate) : Prop :=
  match result.2 with
  | none => (result.1.streams.lookup key).isSome → Covers key.stableId before after []
  | some update =>
    update.key = key ∧ update.stream_id = key.stableId ∧
      Covers key.stableId before after update.ranges

namespace StreamContent

/-- What is left after evictions is as it was. -/
theorem Holds.evicts {before after : StreamContent} {logs : FlowKey → Log} (h : before.Holds logs)
    (hevicts : Evicts before after) : after.Holds logs := by
  intro key record hkey
  rw [hevicts.config]
  exact h key record (hevicts.lookup_some hkey)

/-- A flow without a record may have any log. -/
theorem Holds.update {store : StreamContent} {logs : FlowKey → Log} (h : store.Holds logs)
    {key : FlowKey} (hnone : store.streams.lookup key = none) (log : Log) :
    store.Holds (Function.update logs key log) := by
  intro k record hk
  by_cases hkey : k = key
  · subst hkey
    rw [hk] at hnone
    exact absurd hnone (by simp)
  · rw [Function.update_of_ne hkey]
    exact h k record hk

/-- The record of one flow is replaced, and its log. -/
theorem Holds.insert {store : StreamContent} {logs : FlowKey → Log} (h : store.Holds logs)
    (key : FlowKey) {record : ContentRecord} {log : Log} (hid : record.id = key.stableId)
    (hrecord : record.Holds store.config.max_segment_bytes log) :
    Holds { store with streams := store.streams.insert key record } (Function.update logs key log) := by
  intro k record' hk
  by_cases hkey : k = key
  · subst hkey
    dsimp only at hk
    rw [AList.lookup_insert] at hk
    rw [Function.update_self, ← Option.some.inj hk]
    exact ⟨hid, hrecord⟩
  · dsimp only at hk
    rw [AList.lookup_insert_ne hkey] at hk
    rw [Function.update_of_ne hkey]
    exact h k record' hk

/-- Giving a flow a record. -/
theorem Holds.ensureStream {store : StreamContent} {logs : FlowKey → Log} (h : store.Holds logs)
    (order : IterOrder FlowKey ContentRecord) (key : FlowKey) (now_us : ℕ) :
    (store.ensureStream order key now_us).1.Holds (openLog store key logs) ∧
      (store.ensureStream order key now_us).1.config = store.config := by
  unfold openLog
  rcases store.ensureStream_cases order key now_us with
    ⟨hsome, heq⟩ | ⟨hnone, room, hroom, ⟨-, heq⟩ | heq⟩
  · rw [heq, if_pos hsome]
    exact ⟨h, rfl⟩
  · rw [heq, if_neg (by simp [hnone])]
    exact ⟨(h.evicts hroom.evicts).insert key rfl (ContentRecord.holds_new _ key now_us),
      hroom.evicts.config⟩
  · rw [heq, if_neg (by simp [hnone])]
    refine ⟨(h.evicts hroom.evicts).update ?_ _, hroom.evicts.config⟩
    rcases hroom.evicts.lookup key with hgone | hsame
    · exact hgone
    · rw [hsame]
      simpa using hnone

/-- Updating the record of a flow. -/
theorem Holds.observeRecord {store : StreamContent} {logs : FlowKey → Log} (h : store.Holds logs)
    (hmax : 0 < store.config.max_segment_bytes) (order : IterOrder FlowKey ContentRecord)
    {packet : DecodedPacket} {flow : FlowObservation} (now_us : ℕ)
    (hcontent : flowHasContent packet flow = true) :
    (store.observeRecord order packet flow now_us).1.Holds
        (Function.update logs flow.key ((logs flow.key).add (contentOf packet flow))) ∧
      (store.observeRecord order packet flow now_us).1.config = store.config ∧
      Reports flow.key (logs flow.key) ((logs flow.key).add (contentOf packet flow))
        (store.observeRecord order packet flow now_us) := by
  cases hlookup : store.streams.lookup flow.key with
  | none =>
    have heq : store.observeRecord order packet flow now_us = (store, none) := by
      unfold StreamContent.observeRecord
      simp only [hlookup]
    rw [heq]
    exact ⟨h.update hlookup _, rfl, by simp [Reports, hlookup]⟩
  | some record =>
    obtain ⟨record', update, hupdate⟩ := updateRecord_isSome store.config record now_us hcontent
    obtain ⟨hid, hrecord⟩ := h flow.key record hlookup
    obtain ⟨hrecord', hid', hcovers⟩ := hrecord.updateRecord hmax hupdate
    have hinsert := h.insert flow.key (hid'.trans hid) hrecord'
    rw [hid] at hcovers
    rcases store.observeRecord_cases order now_us hlookup hupdate with
      ⟨hnil, heq⟩ | ⟨-, last, hlast, hfst, stored, hsnd⟩
    · rw [heq]
      rw [hnil] at hcovers
      exact ⟨hinsert, rfl, fun _ => hcovers⟩
    · unfold Reports
      rw [hfst, hsnd]
      have haccount : Holds
          (account { store with streams := store.streams.insert flow.key record' } update)
          (Function.update logs flow.key ((logs flow.key).add (contentOf packet flow))) := hinsert
      exact ⟨haccount.evicts hlast, hlast.config, rfl, rfl, hcovers⟩

/-- One call of `observe_flow`. -/
theorem Holds.observeFlow {store : StreamContent} {logs : FlowKey → Log} (h : store.Holds logs)
    (hmax : store.config.enabled = true → 0 < store.config.max_segment_bytes)
    (order : IterOrder FlowKey ContentRecord) (packet : DecodedPacket) (flow : FlowObservation) :
    (store.observeFlow order packet flow).1.Holds (stepLogs store order packet flow logs) ∧
      (store.observeFlow order packet flow).1.config = store.config ∧
      ((!store.config.enabled || !flowHasContent packet flow) = false →
        Reports flow.key
          (openLog (store.tick order (timestampUs packet.timestamp)) flow.key logs flow.key)
          (stepLogs store order packet flow logs flow.key) (store.observeFlow order packet flow)) := by
  unfold StreamContent.observeFlow stepLogs
  by_cases hquiet : (!store.config.enabled || !flowHasContent packet flow) = true
  · rw [if_pos hquiet, if_pos hquiet]
    exact ⟨h, rfl, fun hloud => absurd hquiet (by simp [hloud])⟩
  · simp only [hquiet, if_false, Bool.false_eq_true]
    simp only [Bool.or_eq_true, Bool.not_eq_true', not_or, Bool.not_eq_false] at hquiet
    obtain ⟨henabled, hcontent⟩ := hquiet
    have htick := store.tick_evicts order (timestampUs packet.timestamp)
    obtain ⟨hopen, hconfig⟩ := (h.evicts htick).ensureStream order flow.key
      (timestampUs packet.timestamp)
    have hconfig' := hconfig.trans htick.config
    have hstep := hopen.observeRecord (by rw [hconfig']; exact hmax henabled) order
      (timestampUs packet.timestamp) hcontent
    rcases hensure : (store.tick order (timestampUs packet.timestamp)).ensureStream order flow.key
      (timestampUs packet.timestamp) with ⟨room, found⟩
    rw [hensure] at hopen hconfig' hstep
    cases found with
    | false =>
      -- Without a record the log does not matter.
      have hgone : room.streams.lookup flow.key = none := by
        rcases (store.tick order (timestampUs packet.timestamp)).ensureStream_cases order flow.key
          (timestampUs packet.timestamp) with ⟨-, heq⟩ | ⟨hnone, room', hroom, ⟨-, heq⟩ | heq⟩
        · rw [hensure] at heq
          simp at heq
        · rw [hensure] at heq
          simp at heq
        · rw [hensure] at heq
          obtain rfl : room = room' := by simpa using heq
          rcases hroom.evicts.lookup flow.key with hgone | hsame
          · exact hgone
          · rw [hsame]
            simpa using hnone
      exact ⟨hopen.update hgone _, hconfig', fun _ => by simp [Reports, hgone]⟩
    | true =>
      obtain ⟨h1, h2, h3⟩ := hstep
      refine ⟨h1, h2.trans hconfig', fun _ => ?_⟩
      rw [Function.update_self]
      exact h3

end StreamContent

/-! ## Runs -/

/-- One call of `observe_flow`: a packet with its flow observation, and the order in which the streams are
iterated at that time. -/
structure ContentCall where
  order : IterOrder FlowKey ContentRecord
  packet : DecodedPacket
  flow : FlowObservation

/-- How many bytes a call brings in one direction of a flow. -/
def ContentCall.sent (self : ContentCall) (key : FlowKey) (d : FlowDirection) : ℕ :=
  if self.flow.key = key then
    (((contentOf self.packet self.flow).filter fun x => x.1 = d).map fun x => x.2.length).sum
  else 0

/-- One call, with the logs beside it. -/
def StreamContent.logged (x : StreamContent × (FlowKey → Log)) (call : ContentCall) :
    StreamContent × (FlowKey → Log) :=
  ((x.1.observeFlow call.order call.packet call.flow).1,
    stepLogs x.1 call.order call.packet call.flow x.2)

/-- The store and the logs after some calls. -/
def StreamContent.observeAll (config : StreamContentConfig) (calls : List ContentCall) :
    StreamContent × (FlowKey → Log) :=
  calls.foldl logged (new config, fun _ => Log.empty)

/-- A normalized configuration that is enabled has positive limits. -/
theorem StreamContentConfig.normalized_limits (config : StreamContentConfig)
    (h : config.normalized.enabled = true) :
    0 < config.normalized.max_segment_bytes ∧ 0 < config.normalized.max_streams := by
  unfold normalized at h ⊢
  split_ifs with hoff
  · rw [if_pos hoff] at h
    exact absurd h (by decide)
  · exact ⟨Nat.le_max_right _ 1, Nat.le_max_right _ 1⟩

/-- After any calls every record stores suffixes of its log. -/
theorem StreamContent.observeAll_holds (config : StreamContentConfig) (calls : List ContentCall) :
    (observeAll config calls).1.Holds (observeAll config calls).2 ∧
      (observeAll config calls).1.config = config.normalized := by
  have hrun : ∀ (calls : List ContentCall) (x : StreamContent × (FlowKey → Log)), x.1.Holds x.2 →
      x.1.config = config.normalized → (calls.foldl logged x).1.Holds (calls.foldl logged x).2 ∧
        (calls.foldl logged x).1.config = config.normalized := by
    intro calls
    induction calls with
    | nil => exact fun x h hconfig => ⟨h, hconfig⟩
    | cons call calls ih =>
      intro x h hconfig
      obtain ⟨hholds, hsame, -⟩ := h.observeFlow (by
        rw [hconfig]
        exact fun henabled => (config.normalized_limits henabled).1) call.order call.packet call.flow
      exact ih (logged x call) hholds (hsame.trans hconfig)
  refine hrun calls _ ?_ rfl
  intro key record hkey
  simp [new] at hkey

/-- What the store says of one direction of a stream is true of the log. -/
structure Faithful (store : StreamContent) (key : FlowKey) (record : ContentRecord)
    (d : FlowDirection) (log : List UInt8) : Prop where
  nonempty : ∀ s ∈ (record.directions.get d).segments, s.bytes ≠ []
  fits : ∀ s ∈ (record.directions.get d).segments,
    s.bytes.length ≤ store.config.max_segment_bytes
  consecutive : (record.directions.get d).segments.IsChain fun s t =>
    t.logical_start = s.logicalEnd
  last : ∀ s ∈ (record.directions.get d).segments.getLast?,
    s.logicalEnd = (record.directions.get d).next_offset
  index : ∀ s ∈ (record.directions.get d).segments, ∀ i, i < s.bytes.length →
    log[s.logical_start + i]? = s.bytes[i]?
  suffix : ∃ first ≤ log.length, store.directionBytes key d = some (log.drop first) ∧
    ∀ lo hi, store.directionWindows key d lo hi =
      some (if max first lo < min log.length hi then
        [⟨key.stableId, d, max first lo, (log.drop (max first lo)).take
          (min log.length hi - max first lo)⟩]
      else [])

/-- The store is a faithful sliding suffix of each direction: whatever was trimmed, and whatever happened to
other streams, a stream's record holds the end of all that was appended since the record was created. -/
theorem StreamContent.observeAll_faithful (config : StreamContentConfig) (calls : List ContentCall)
    (key : FlowKey) (record : ContentRecord) (d : FlowDirection)
    (hkey : (observeAll config calls).1.streams.lookup key = some record)
    (hsmall : (((observeAll config calls).2 key).get d).length < 2^64) :
    Faithful (observeAll config calls).1 key record d (((observeAll config calls).2 key).get d) := by
  obtain ⟨hid, hrecord⟩ := (observeAll_holds config calls).1 key record hkey
  have h := hrecord d hsmall
  generalize hlog : ((observeAll config calls).2 key).get d = log at hsmall h ⊢
  have hmem : ∀ s ∈ (record.directions.get d).segments, ∃ j, s.logical_start = 0 + j ∧
      log.length - (record.directions.get d).stored_bytes ≤ j ∧ j + s.bytes.length ≤ log.length ∧
      s.bytes ≠ [] ∧ s.bytes = (log.drop j).take s.bytes.length :=
    fun s hs => h.tiles.mem (List.mem_map.mpr ⟨s, hs, rfl⟩)
  have hend : ∀ s ∈ (record.directions.get d).segments,
      s.logicalEnd = s.logical_start + s.bytes.length := by
    intro s hs
    obtain ⟨j, hj, -, hle, -, -⟩ := hmem s hs
    exact saturatingAdd_eq (by omega)
  refine ⟨fun s hs => ?_, h.fits, ?_, ?_, ?_, ?_⟩
  · obtain ⟨j, -, -, -, hne, -⟩ := hmem s hs
    exact hne
  · have hchain := h.tiles.chain
    unfold DirectionContent.chunks at hchain
    rw [List.isChain_map] at hchain
    refine hchain.imp_of_mem_imp fun s t hs _ hst => ?_
    rw [hend s hs]
    exact hst
  · intro s hs
    obtain ⟨init, hsplit⟩ : ∃ init, (record.directions.get d).segments = init ++ [s] :=
      ⟨_, (List.dropLast_append_getLast? s hs).symm⟩
    have htiles := h.tiles
    unfold DirectionContent.chunks at htiles
    rw [hsplit, List.map_append] at htiles
    obtain ⟨j, -, hlast⟩ := htiles.split
    obtain ⟨hstart, -, -, -, hnil⟩ := hlast.cons_inv
    rw [hend s (by rw [hsplit]; simp), h.next_offset, hstart, Nat.zero_add]
    generalize hk : j + s.bytes.length = k at hnil
    cases hnil
    rfl
  · intro s hs i hi
    obtain ⟨j, hj, -, -, -, hslice⟩ := hmem s hs
    rw [hj, Nat.zero_add, hslice, List.getElem?_take_of_lt hi, List.getElem?_drop]
  · refine ⟨log.length - (record.directions.get d).stored_bytes, Nat.sub_le _ _, ?_,
      fun lo hi => ?_⟩
    · unfold directionBytes
      rw [hkey, Option.map_some, h.bytes_eq]
    · unfold directionWindows
      rw [hkey, Option.map_some, h.windows_eq hsmall, hid]

/-- The key of a datagram flow between two hosts. -/
def sampleKey : FlowKey where
  protocol := .udp
  a := ⟨.v4 #v[10, 0, 0, 1], 1111⟩
  b := ⟨.v4 #v[10, 0, 0, 2], 5353⟩

/-- A datagram of that flow, from `a`. -/
def datagramCall (bytes : List UInt8) : ContentCall where
  order := .plain
  packet :=
    { timestamp := ⟨10, 20⟩
      raw_len := bytes.length
      ip_addresses := (none, none)
      transport_payload := some ⟨.udp, some 1111, some 5353, bytes, none⟩ }
  flow := ⟨sampleKey, .aToB, 1, bytes.length, false, none⟩

/-- Seven bytes in two datagrams, of which the record may keep five. -/
theorem observeAll_faithful_trimmed :
    ∃ record, Faithful
      (StreamContent.observeAll ⟨true, 8, 1000, 64, 5, 4⟩
        [datagramCall [97, 98, 99], datagramCall [100, 101, 102, 103]]).1
      sampleKey record .aToB [97, 98, 99, 100, 101, 102, 103] :=
  ⟨_, StreamContent.observeAll_faithful ⟨true, 8, 1000, 64, 5, 4⟩
    [datagramCall [97, 98, 99], datagramCall [100, 101, 102, 103]] sampleKey _ .aToB rfl (by decide)⟩

end Rustmate.Content
