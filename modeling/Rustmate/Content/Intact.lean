import Rustmate.Content.Account

/-!
# A store that has dropped nothing

As long as the counters say that no byte was dropped and no stream evicted, every record stores its whole
log, and a flow without a record has an empty log.
-/

namespace Rustmate.Content

open Rustmate.Flow

namespace ContentRecord

variable {max_segment_bytes : ℕ} {log : Log}

/-- Between two states of a record, each direction stores more by as much as its log has grown. -/
def Grows (log : Log) (record : ContentRecord) (log' : Log) (record' : ContentRecord) : Prop :=
  ∀ d, (record'.directions.get d).stored_bytes + (log.get d).length =
    (record.directions.get d).stored_bytes + (log'.get d).length

/-- Growing and growing on. -/
theorem Grows.trans {log₁ log₂ log₃ : Log} {r₁ r₂ r₃ : ContentRecord} (h : Grows log₁ r₁ log₂ r₂)
    (h' : Grows log₂ r₂ log₃ r₃) : Grows log₁ r₁ log₃ r₃ := by
  intro d
  have := h d
  have := h' d
  omega

/-- Trimming that reports nothing has trimmed nothing. -/
theorem Holds.trimToLimitLoop_zero {max_bytes_per_stream : ℕ}
    (hsmall : ∀ d, (log.get d).length < 2^64) (fuel : ℕ) {record : ContentRecord}
    (h : record.Holds max_segment_bytes log) (trimmed : ℕ)
    (hzero : (ContentRecord.trimToLimitLoop max_bytes_per_stream fuel record trimmed).2 = 0) :
    trimmed = 0 ∧ ∀ d, ((ContentRecord.trimToLimitLoop max_bytes_per_stream fuel record
      trimmed).1.directions.get d).stored_bytes = (record.directions.get d).stored_bytes := by
  induction fuel generalizing record trimmed with
  | zero => exact ⟨hzero, fun _ => rfl⟩
  | succ fuel ih =>
    unfold ContentRecord.trimToLimitLoop at hzero ⊢
    by_cases hle : record.storedBytes ≤ max_bytes_per_stream
    · rw [if_pos hle] at hzero ⊢
      exact ⟨hzero, fun _ => rfl⟩
    rw [if_neg hle] at hzero ⊢
    cases hold : record.oldestDirection with
    | none =>
      rw [hold] at hzero
      exact ⟨hzero, fun _ => rfl⟩
    | some d =>
      rw [hold] at hzero
      obtain ⟨-, hdropped, hstored⟩ := (h d (hsmall d)).trimOldest (hsmall d)
        (record.storedBytes - max_bytes_per_stream)
      dsimp only at hzero ⊢
      by_cases hnone : ((record.directions.get d).trimOldest
          (record.storedBytes - max_bytes_per_stream)).2 = 0
      · rw [if_pos hnone] at hzero ⊢
        refine ⟨hzero, fun d' => ?_⟩
        by_cases hd : d' = d
        · subst hd
          dsimp only
          rw [PerDirection.get_set, hstored, ← hdropped, hnone, Nat.sub_zero]
        · dsimp only
          rw [PerDirection.get_set_ne _ _ hd]
      · rw [if_neg hnone] at hzero ⊢
        obtain ⟨hsum, -⟩ := ih (h.trimOldest d _ true) _ hzero
        unfold saturatingAdd u64Max at hsum
        omega

/-- One payload: an update without ranges trims nothing, and when nothing is trimmed the record grows with
its log. -/
theorem Holds.observePayload_grows {record : ContentRecord}
    (h : record.Holds max_segment_bytes log) (hmax : 0 < max_segment_bytes) (d : FlowDirection)
    (bytes : List UInt8) (sequence_start : Option (BitVec 32))
    (observed_us max_bytes_per_stream : ℕ)
    (hsmall : ∀ d', ((log.add [(d, bytes)]).get d').length < 2^64) :
    let r := record.observePayload d bytes sequence_start observed_us max_segment_bytes
      max_bytes_per_stream
    (r.2.ranges = [] → r.2.trimmed_bytes = 0) ∧
      (r.2.trimmed_bytes = 0 → Grows log record (log.add [(d, bytes)]) r.1) := by
  by_cases hnil : bytes = []
  · subst hnil
    rw [observePayload_nil]
    refine ⟨fun _ => rfl, fun _ d' => ?_⟩
    rw [Log.get_add_one, List.append_nil, ite_self]
  · obtain ⟨happended, hcovers⟩ := h.appended hmax d bytes sequence_start observed_us
    have hpos := List.length_pos_iff.mpr hnil
    have hd := hsmall d
    rw [Log.get_add_one, if_pos rfl, List.length_append] at hd
    rw [observePayload_eq record d hnil]
    dsimp only
    refine ⟨fun hranges => ?_, fun hzero => ?_⟩
    · -- The bytes are covered by ranges, so there are some.
      have hcons := hcovers d (hsmall d)
      rw [hranges, Log.get_add_one, if_pos rfl, List.length_append] at hcons
      generalize hj : (log.get d).length + bytes.length = j at hcons
      cases hcons
      omega
    · obtain ⟨-, hsame⟩ := happended.trimToLimitLoop_zero hsmall _ 0 hzero
      intro d'
      have hsame' := hsame d'
      unfold trimToLimit
      rw [hsame', Log.get_add_one]
      unfold ContentRecord.appended
      by_cases hdd : d' = d
      · subst hdd
        have hle := (h d' (by omega)).stored_le
        obtain ⟨hstored, -, -⟩ := DirectionContent.appendLoop_account record.id d' sequence_start observed_us hmax
          bytes.length (record.directions.get d') 0 bytes {} (le_refl _) (by omega) (by dsimp only; omega)
          (by dsimp only; omega)
        unfold DirectionContent.append
        rw [if_pos rfl, PerDirection.get_set, hstored, List.length_append]
        omega
      · rw [if_neg hdd, PerDirection.get_set_ne _ _ hdd]

/-- Merged updates trim nothing exactly when each of them trims nothing. -/
theorem merge_trimmed_zero {update other : RecordUpdate} :
    (update.merge other).trimmed_bytes = 0 ↔
      update.trimmed_bytes = 0 ∧ other.trimmed_bytes = 0 := by
  unfold RecordUpdate.merge saturatingAdd u64Max
  dsimp only
  omega

/-- All the chunks of an observation. -/
theorem Holds.foldl_observePayload_grows (hmax : 0 < max_segment_bytes)
    (observed_us max_bytes_per_stream : ℕ) (chunks : List StreamChunk) {log : Log}
    {record : ContentRecord} (h : record.Holds max_segment_bytes log) (update : RecordUpdate)
    (hquiet : update.ranges = [] → update.trimmed_bytes = 0)
    (hsmall : ∀ d, ((log.add (chunks.map fun chunk => (chunk.direction, chunk.bytes))).get
      d).length < 2^64) :
    let r := chunks.foldl (fun (x : ContentRecord × RecordUpdate) chunk =>
      let (self, payload_update) := x.1.observePayload chunk.direction chunk.bytes
        (some chunk.sequence_start) observed_us max_segment_bytes max_bytes_per_stream
      (self, x.2.merge payload_update)) (record, update)
    (r.2.ranges = [] → r.2.trimmed_bytes = 0) ∧
      (r.2.trimmed_bytes = 0 → update.trimmed_bytes = 0 ∧ Grows log record
        (log.add (chunks.map fun chunk => (chunk.direction, chunk.bytes))) r.1) := by
  induction chunks generalizing log record update with
  | nil => exact ⟨hquiet, fun hzero => ⟨hzero, fun _ => rfl⟩⟩
  | cons chunk chunks ih =>
    obtain ⟨hholds, -, -⟩ := h.observePayload hmax chunk.direction chunk.bytes
      (some chunk.sequence_start) observed_us max_bytes_per_stream
    have hsmall₁ : ∀ d, ((log.add [(chunk.direction, chunk.bytes)]).get d).length < 2^64 :=
      fun d => lt_of_le_of_lt (Log.length_get_le _ _ d) (hsmall d)
    obtain ⟨hquiet₁, hgrows₁⟩ := h.observePayload_grows hmax chunk.direction chunk.bytes
      (some chunk.sequence_start) observed_us max_bytes_per_stream hsmall₁
    obtain ⟨hquiet₂, hgrows₂⟩ := ih hholds
      (update.merge (record.observePayload chunk.direction chunk.bytes (some chunk.sequence_start)
        observed_us max_segment_bytes max_bytes_per_stream).2)
      (fun hranges => by
        obtain ⟨hr, hr'⟩ := List.append_eq_nil_iff.mp hranges
        exact merge_trimmed_zero.mpr ⟨hquiet hr, hquiet₁ hr'⟩) hsmall
    refine ⟨hquiet₂, fun hzero => ?_⟩
    obtain ⟨hmerge, hgrows⟩ := hgrows₂ hzero
    obtain ⟨hupdate, hpayload⟩ := merge_trimmed_zero.mp hmerge
    exact ⟨hupdate, (hgrows₁ hpayload).trans hgrows⟩

/-- Everything a packet brings. -/
theorem Holds.updateRecord_grows {config : StreamContentConfig} {record : ContentRecord}
    (h : record.Holds config.max_segment_bytes log) (hmax : 0 < config.max_segment_bytes)
    {packet : DecodedPacket} {flow : FlowObservation} {now_us : ℕ} {record' : ContentRecord}
    {update : RecordUpdate}
    (hsmall : ∀ d, ((log.add (contentOf packet flow)).get d).length < 2^64)
    (hupdate : StreamContent.updateRecord config record packet flow now_us =
      some (record', update)) :
    (update.ranges = [] → update.trimmed_bytes = 0) ∧
      (update.trimmed_bytes = 0 → Grows log record (log.add (contentOf packet flow)) record') := by
  have h' : Holds config.max_segment_bytes log { record with last_seen_us := now_us } := h
  unfold StreamContent.updateRecord at hupdate
  unfold contentOf at hsmall ⊢
  cases htcp : flow.tcp with
  | some tcp =>
    rw [htcp] at hupdate hsmall
    dsimp only at hupdate hsmall ⊢
    obtain ⟨hquiet, hgrows⟩ := h'.foldl_observePayload_grows hmax now_us config.max_bytes_per_stream
      tcp.stream_chunks {} (fun _ => rfl) hsmall
    have heq := Option.some.inj hupdate
    unfold ContentRecord.observeChunks at heq
    rw [heq] at hquiet hgrows
    exact ⟨hquiet, fun hzero => (hgrows hzero).2⟩
  | none =>
    rw [htcp] at hupdate hsmall
    dsimp only at hupdate hsmall ⊢
    cases hpayload : packet.transport_payload with
    | none => simp [hpayload] at hupdate
    | some transport =>
      rw [hpayload, Option.map_some] at hupdate
      rw [hpayload] at hsmall
      have hone := h'.observePayload_grows hmax flow.direction transport.bytes none now_us
        config.max_bytes_per_stream hsmall
      rw [Option.some.inj hupdate] at hone
      exact hone

end ContentRecord

/-! ## The store -/

/-- The counters of the store say that nothing was dropped. -/
structure StreamContent.Undropped (store : StreamContent) : Prop where
  dropped : store.stats.dropped_content_bytes = 0
  evicted : store.stats.evicted_content_streams = 0

/-- A flow without a record has an empty log, and a record stores its whole log, as long as that fits. -/
structure StreamContent.Intact (store : StreamContent) (logs : FlowKey → Log) : Prop where
  empty : ∀ key, store.streams.lookup key = none → logs key = Log.empty
  whole : ∀ key record, store.streams.lookup key = some record →
    (∀ d, ((logs key).get d).length < 2^64) →
    ∀ d, (record.directions.get d).stored_bytes = ((logs key).get d).length

/-- If evictions leave the counters at zero, there were none. -/
theorem Evicts.undropped {before after : StreamContent} (h : Evicts before after)
    (hafter : after.Undropped) : before.Undropped ∧ after.streams = before.streams := by
  obtain ⟨hstreams, hevicted, hdropped⟩ := h.unchanged hafter.evicted
  exact ⟨⟨hdropped.symm.trans hafter.dropped, hevicted⟩, hstreams⟩

namespace StreamContent

/-- Evicting the oldest record is counted, unless there is none. -/
theorem evictOldest_undropped {store : StreamContent} (order : IterOrder FlowKey ContentRecord)
    (hafter : (store.evictOldest order none).1.Undropped) : store.streams.size = 0 := by
  unfold evictOldest at hafter
  cases holdest : store.streams.oldest order (fun record => record.last_seen_us)
    (fun k => some k ≠ none) with
  | none =>
    rw [Table.oldest_eq_none] at holdest
    rw [Table.size_eq, List.length_eq_zero_iff]
    refine List.eq_nil_iff_forall_not_mem.mpr fun k hk => ?_
    simpa using holdest k (AList.mem_keys.mpr hk)
  | some key =>
    obtain ⟨record, hrecord, -, -⟩ := Table.oldest_spec holdest
    rw [holdest] at hafter
    have hcount := hafter.evicted
    unfold removeStream saturatingAdd u64Max at hcount
    simp only [hrecord] at hcount
    omega

/-- In a store that has evicted nothing there is always room for one more record. -/
theorem ensureStream_undropped {store : StreamContent} (hmax : 0 < store.config.max_streams)
    (order : IterOrder FlowKey ContentRecord) (key : FlowKey) (now_us : ℕ)
    (hafter : (store.ensureStream order key now_us).1.Undropped) :
    store.Undropped ∧ (store.ensureStream order key now_us).2 = true ∧
      ∀ k, (store.ensureStream order key now_us).1.streams.lookup k =
        if k = key ∧ store.streams.lookup key = none then some (.new key now_us)
        else store.streams.lookup k := by
  unfold ensureStream at hafter ⊢
  by_cases hkey : (store.streams.lookup key).isSome = true
  · rw [if_pos hkey] at hafter ⊢
    refine ⟨hafter, rfl, fun k => ?_⟩
    obtain ⟨record, hrecord⟩ := Option.isSome_iff_exists.mp hkey
    rw [if_neg (by simp [hrecord])]
  · rw [if_neg hkey] at hafter ⊢
    have hnone : store.streams.lookup key = none := by simpa using hkey
    have hroom : ∀ room, room =
        (if store.config.max_streams ≤ store.streams.size then
          let idle := store.evictIdle order now_us
          if idle.config.max_streams ≤ idle.streams.size then (idle.evictOldest order none).1
          else idle
        else store) → room.Undropped → store.Undropped ∧ room.streams = store.streams ∧
          room.streams.size < room.config.max_streams := by
      rintro room rfl hundropped
      have hidle := (store.evictIdle_removed order now_us).evicts
      dsimp only at hundropped ⊢
      split_ifs at hundropped ⊢ with hfull hstill
      · -- The oldest record would go, and be counted.
        have hzero := evictOldest_undropped order hundropped
        have hsame := hidle.config
        rw [hzero, hsame] at hstill
        omega
      · obtain ⟨hbefore, hstreams⟩ := hidle.undropped hundropped
        exact ⟨hbefore, hstreams, by omega⟩
      · exact ⟨hundropped, rfl, by omega⟩
    generalize hr : (if store.config.max_streams ≤ store.streams.size then
          let idle := store.evictIdle order now_us
          if idle.config.max_streams ≤ idle.streams.size then (idle.evictOldest order none).1
          else idle
        else store) = room at hafter hroom ⊢
    dsimp only at hafter ⊢
    by_cases hfull : room.config.max_streams ≤ room.streams.size
    · rw [if_pos hfull] at hafter
      obtain ⟨-, -, hlt⟩ := hroom room rfl hafter
      omega
    · rw [if_neg hfull] at hafter ⊢
      obtain ⟨hbefore, hstreams, -⟩ := hroom room rfl ⟨hafter.dropped, hafter.evicted⟩
      refine ⟨hbefore, rfl, fun k => ?_⟩
      by_cases hk : k = key
      · subst hk
        rw [if_pos ⟨rfl, hnone⟩]
        exact AList.lookup_insert _
      · rw [if_neg (fun h => hk h.1)]
        dsimp only
        rw [AList.lookup_insert_ne hk, hstreams]

/-- The record of one flow is replaced, and its log. -/
theorem Intact.replace {store after : StreamContent} {logs : FlowKey → Log} (h : store.Intact logs)
    (record : ContentRecord) {key : FlowKey} {log : Log}
    (hlookup : ∀ k, after.streams.lookup k =
      if k = key then some record else store.streams.lookup k)
    (hwhole : (∀ d, (log.get d).length < 2^64) →
      ∀ d, (record.directions.get d).stored_bytes = (log.get d).length) :
    after.Intact (Function.update logs key log) := by
  refine ⟨fun k hk => ?_, fun k record' hk hsmall => ?_⟩
  · rw [hlookup] at hk
    split_ifs at hk with hkey
    rw [Function.update_of_ne hkey]
    exact h.empty k hk
  · rw [hlookup] at hk
    split_ifs at hk with hkey
    · obtain rfl := Option.some.inj hk
      subst hkey
      rw [Function.update_self] at hsmall ⊢
      exact hwhole hsmall
    · rw [Function.update_of_ne hkey] at hsmall ⊢
      exact h.whole k record' hk hsmall

/-- The update of a record that leaves the counters at zero: they were zero before, the records are those
of before but for the one, and nothing was trimmed from that. -/
theorem observeRecord_undropped {store : StreamContent} (order : IterOrder FlowKey ContentRecord)
    {packet : DecodedPacket} {flow : FlowObservation} (now_us : ℕ) {record record' : ContentRecord}
    {update : RecordUpdate} (hlookup : store.streams.lookup flow.key = some record)
    (hupdate : updateRecord store.config record packet flow now_us = some (record', update))
    (hafter : (store.observeRecord order packet flow now_us).1.Undropped) :
    store.Undropped ∧ (update.ranges ≠ [] → update.trimmed_bytes = 0) ∧
      ∀ k, (store.observeRecord order packet flow now_us).1.streams.lookup k =
        if k = flow.key then some record' else store.streams.lookup k := by
  have hinsert : ∀ k, AList.lookup k (store.streams.insert flow.key record') =
      if k = flow.key then some record' else store.streams.lookup k := by
    intro k
    by_cases hk : k = flow.key
    · subst hk
      rw [if_pos rfl, AList.lookup_insert]
    · rw [if_neg hk, AList.lookup_insert_ne hk]
  rcases store.observeRecord_cases order now_us hlookup hupdate with
    ⟨hranges, heq⟩ | ⟨-, last, hlast, hfst, -⟩
  · rw [heq] at hafter ⊢
    exact ⟨⟨hafter.dropped, hafter.evicted⟩, fun hne => absurd hranges hne, hinsert⟩
  · rw [hfst] at hafter ⊢
    obtain ⟨haccount, hstreams⟩ := hlast.undropped hafter
    have hdropped := haccount.dropped
    unfold account saturatingAdd u64Max at hdropped
    dsimp only at hdropped
    refine ⟨⟨by omega, haccount.evicted⟩, fun _ => by omega, fun k => ?_⟩
    rw [hstreams]
    exact hinsert k

/-- One call of `observe_flow` that leaves the counters at zero: they were zero before, nothing was
evicted, and the store stays intact. -/
theorem Holds.observeFlow_intact {store : StreamContent} {logs : FlowKey → Log} (h : store.Holds logs)
    (hmax : store.config.enabled = true →
      0 < store.config.max_segment_bytes ∧ 0 < store.config.max_streams)
    (order : IterOrder FlowKey ContentRecord) (packet : DecodedPacket) (flow : FlowObservation)
    (hafter : (store.observeFlow order packet flow).1.Undropped) :
    store.Undropped ∧ (store.Intact logs →
      (store.observeFlow order packet flow).1.Intact (stepLogs store order packet flow logs) ∧
      ((!store.config.enabled || !flowHasContent packet flow) = false →
        openLog (store.tick order (timestampUs packet.timestamp)) flow.key logs = logs ∧
          ((store.observeFlow order packet flow).1.streams.lookup flow.key).isSome)) := by
  unfold StreamContent.observeFlow at hafter ⊢
  unfold stepLogs
  by_cases hquiet : (!store.config.enabled || !flowHasContent packet flow) = true
  · rw [if_pos hquiet] at hafter ⊢
    rw [if_pos hquiet]
    exact ⟨hafter, fun hintact => ⟨hintact, fun hloud => absurd hquiet (by simp [hloud])⟩⟩
  rw [if_neg hquiet] at hafter ⊢
  rw [if_neg hquiet]
  simp only [Bool.or_eq_true, Bool.not_eq_true', not_or, Bool.not_eq_false] at hquiet
  obtain ⟨henabled, hcontent⟩ := hquiet
  obtain ⟨hsegment, hstreams⟩ := hmax henabled
  dsimp only at hafter ⊢
  have htick := store.tick_evicts order (timestampUs packet.timestamp)
  generalize store.tick order (timestampUs packet.timestamp) = ticked at htick hafter ⊢
  obtain ⟨hopen, hconfig⟩ := (h.evicts htick).ensureStream order flow.key
    (timestampUs packet.timestamp)
  have hconfig' := hconfig.trans htick.config
  have hensured := ensureStream_undropped
    (show 0 < ticked.config.max_streams by rw [htick.config]; exact hstreams) order flow.key (timestampUs packet.timestamp)
  generalize ticked.ensureStream order flow.key (timestampUs packet.timestamp) = ensured
    at hafter hopen hconfig' hensured ⊢
  obtain ⟨room, found⟩ := ensured
  cases found with
  | false =>
    obtain ⟨-, hfound, -⟩ := hensured hafter
    simp at hfound
  | true =>
    dsimp only at hafter hopen hconfig' hensured ⊢
    -- The record is there, whether it is new or not.
    obtain ⟨record, hrecord⟩ : ∃ record, room.streams.lookup flow.key = some record := by
      by_contra hnone
      have hlookup : room.streams.lookup flow.key = none := by
        cases hl : room.streams.lookup flow.key with
        | none => rfl
        | some record => exact absurd ⟨record, hl⟩ hnone
      have hsame : room.observeRecord order packet flow (timestampUs packet.timestamp) =
          (room, none) := by
        unfold StreamContent.observeRecord
        simp only [hlookup]
      rw [hsame] at hafter
      obtain ⟨-, -, hlook⟩ := hensured hafter
      have hkey := hlook flow.key
      rw [hlookup] at hkey
      split_ifs at hkey with hcase
      exact hcase ⟨rfl, hkey.symm⟩
    obtain ⟨record', update, hupdate⟩ := updateRecord_isSome room.config record
      (timestampUs packet.timestamp) hcontent
    obtain ⟨hroom, htrimmed, hlookup⟩ := observeRecord_undropped order
      (timestampUs packet.timestamp) hrecord hupdate hafter
    obtain ⟨hticked, -, hlook⟩ := hensured hroom
    obtain ⟨hstore, hsame⟩ := htick.undropped hticked
    refine ⟨hstore, fun hintact => ?_⟩
    have hlog : openLog ticked flow.key logs = logs := by
      unfold openLog
      split_ifs with hsome
      · rfl
      · rw [hsame] at hsome
        rw [← hintact.empty flow.key (by simpa using hsome), Function.update_eq_self]
    rw [hlog] at hopen ⊢
    obtain ⟨-, hholds⟩ := hopen flow.key record hrecord
    refine ⟨?_, fun _ => ⟨rfl, by rw [hlookup, if_pos rfl]; rfl⟩⟩
    · refine hintact.replace record' (fun k => ?_) fun hsmall d => ?_
      · rw [hlookup]
        split_ifs with hk
        · rfl
        · rw [hlook, if_neg (fun hcase => hk hcase.1), hsame]
      · have hbefore : ∀ d, ((logs flow.key).get d).length < 2^64 :=
          fun d => lt_of_le_of_lt (Log.length_get_le _ _ d) (hsmall d)
        have hwhole : ∀ d, (record.directions.get d).stored_bytes =
            ((logs flow.key).get d).length := by
          have hkey := hlook flow.key
          rw [hrecord] at hkey
          split_ifs at hkey with hcase
          · rw [hsame] at hcase
            rw [hintact.empty flow.key hcase.2, Option.some.inj hkey]
            intro d
            cases d <;> rfl
          · rw [hsame] at hkey
            exact hintact.whole flow.key record hkey.symm hbefore
        obtain ⟨hzero, hgrows⟩ := hholds.updateRecord_grows (by rw [hconfig']; exact hsegment)
          hsmall hupdate
        have hnothing : update.trimmed_bytes = 0 := by
          by_cases hranges : update.ranges = []
          · exact hzero hranges
          · exact htrimmed hranges
        have := hgrows hnothing d
        have := hwhole d
        omega

end StreamContent

end Rustmate.Content
