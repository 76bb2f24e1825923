import Mathlib.Algebra.Order.BigOperators.Group.List
import Mathlib.Algebra.Order.Group.Nat
import Rustmate.Content.Suffix

/-!
# What the store counts

The byte counters of the store, of its records and of their directions agree, whatever is trimmed and
evicted, and no limit is ever passed.
-/

namespace Rustmate.Content

open Rustmate.Flow

namespace DirectionContent

variable {max_segment_bytes : ℕ} {log : List UInt8} {self : DirectionContent}

/-- What is stored is what the segments hold. -/
theorem Holds.stored_eq (h : Holds max_segment_bytes log self) :
    self.stored_bytes = (self.segments.map fun s => s.bytes.length).sum := by
  have hlength := congrArg List.length h.bytes_eq
  have hle := h.stored_le
  unfold bytes at hlength
  rw [List.length_flatten, List.map_map, List.length_drop] at hlength
  have hsum : (self.segments.map fun s => s.bytes.length) =
      self.segments.map (List.length ∘ fun s => s.bytes) := rfl
  rw [hsum, hlength]
  omega

/-- What one slice counts. -/
theorem appendSlice_account (self : DirectionContent) (stream_id : BitVec 64)
    (direction : FlowDirection) (slice : List UInt8) (sequence_start : Option (BitVec 32))
    (observed_us max_segment_bytes : ℕ) (append : DirectionAppend)
    (hsmall : self.stored_bytes + slice.length < 2^64)
    (hobserved : append.stats.observed_bytes + slice.length < 2^64)
    (hstored : append.stats.stored_bytes + slice.length < 2^64) :
    let r := self.appendSlice stream_id direction slice sequence_start observed_us max_segment_bytes
      append
    r.1.stored_bytes = self.stored_bytes + slice.length ∧
      r.2.stats.observed_bytes = append.stats.observed_bytes + slice.length ∧
      r.2.stats.stored_bytes = append.stats.stored_bytes + slice.length :=
  ⟨saturatingAdd_eq hsmall, saturatingAdd_eq hobserved, saturatingAdd_eq hstored⟩

/-- What an append counts. -/
theorem appendLoop_account (stream_id : BitVec 64) (direction : FlowDirection)
    (sequence_start : Option (BitVec 32)) (observed_us : ℕ) (hmax : 0 < max_segment_bytes)
    (fuel : ℕ) (self : DirectionContent) (consumed : ℕ) (bytes : List UInt8)
    (append : DirectionAppend) (hfuel : bytes.length ≤ fuel)
    (hsmall : self.stored_bytes + bytes.length < 2^64)
    (hobserved : append.stats.observed_bytes + bytes.length < 2^64)
    (hstored : append.stats.stored_bytes + bytes.length < 2^64) :
    let r := appendLoop stream_id direction sequence_start observed_us max_segment_bytes fuel self
      consumed bytes append
    r.1.stored_bytes = self.stored_bytes + bytes.length ∧
      r.2.stats.observed_bytes = append.stats.observed_bytes + bytes.length ∧
      r.2.stats.stored_bytes = append.stats.stored_bytes + bytes.length := by
  induction fuel generalizing self consumed bytes append with
  | zero =>
    rw [List.length_eq_zero_iff.mp (Nat.le_zero.mp hfuel)]
    exact ⟨rfl, rfl, rfl⟩
  | succ fuel ih =>
    unfold appendLoop
    by_cases hnil : bytes = []
    · rw [if_pos hnil, hnil]
      exact ⟨rfl, rfl, rfl⟩
    rw [if_neg hnil]
    have hpos := List.length_pos_iff.mpr hnil
    generalize htake : min bytes.length max_segment_bytes = take
    have hslice : (bytes.take take).length = take := by
      rw [List.length_take]
      omega
    have hdrop : (bytes.drop take).length = bytes.length - take := List.length_drop
    obtain ⟨h₁, h₂, h₃⟩ := self.appendSlice_account stream_id direction (bytes.take take)
      (sequence_start.map fun sequence => sequence + BitVec.ofNat 32 consumed) observed_us
      max_segment_bytes append (by omega) (by omega) (by omega)
    dsimp only
    generalize self.appendSlice stream_id direction (bytes.take take)
      (sequence_start.map fun sequence => sequence + BitVec.ofNat 32 consumed) observed_us
      max_segment_bytes append = r at h₁ h₂ h₃ ⊢
    obtain ⟨h₁', h₂', h₃'⟩ := ih r.1 (consumed + take) (bytes.drop take) r.2 (by omega) (by omega)
      (by omega) (by omega)
    exact ⟨by omega, by omega, by omega⟩

end DirectionContent

/-! ## Records -/

/-- A record has taken `n` bytes: the update counts them all, what the record stores has changed by them and
by what was trimmed, the record is within its limit if it was, and an update without ranges has nothing to
count. -/
structure Settles (max_bytes_per_stream n : ℕ) (before after : ContentRecord) (update : RecordUpdate) :
    Prop where
  observed : update.appended.observed_bytes = n
  stored : update.appended.stored_bytes = n
  balance : after.storedBytes + update.trimmed_bytes = before.storedBytes + n
  limit : before.storedBytes ≤ max_bytes_per_stream → after.storedBytes ≤ max_bytes_per_stream
  ranges : update.ranges = [] → n = 0 ∧ update.trimmed_bytes = 0

/-- The number of bytes that come with some payloads. -/
def payloadBytes (xs : List (FlowDirection × List UInt8)) : ℕ := (xs.map fun x => x.2.length).sum

/-- A log grows by no more than what comes. -/
theorem Log.length_get_add (log : Log) (xs : List (FlowDirection × List UInt8)) (d : FlowDirection) :
    ((log.add xs).get d).length ≤ (log.get d).length + payloadBytes xs := by
  rw [Log.get_add, List.length_append, List.length_flatten, List.map_map]
  unfold payloadBytes
  refine Nat.add_le_add_left ?_ _
  have hsub : ((xs.filter fun x => x.1 = d).map fun x => x.2.length).Sublist
      (xs.map fun x => x.2.length) := List.filter_sublist.map _
  exact hsub.sum_le_sum (by simp)

namespace ContentRecord

variable {max_segment_bytes : ℕ} (max_bytes_per_stream : ℕ) {log : Log} {record : ContentRecord}

/-- What is trimmed is no longer stored. -/
theorem Holds.trimToLimitLoop_account (hsmall : ∀ d, (log.get d).length < 2^64) (fuel : ℕ)
    {record : ContentRecord} (h : record.Holds max_segment_bytes log) (trimmed : ℕ)
    (hfit : trimmed + record.storedBytes < 2^64) :
    (ContentRecord.trimToLimitLoop max_bytes_per_stream fuel record trimmed).1.storedBytes +
        (ContentRecord.trimToLimitLoop max_bytes_per_stream fuel record trimmed).2 =
      record.storedBytes + trimmed := by
  induction fuel generalizing record trimmed with
  | zero => rfl
  | succ fuel ih =>
    unfold ContentRecord.trimToLimitLoop
    by_cases hle : record.storedBytes ≤ max_bytes_per_stream
    · rw [if_pos hle]
    rw [if_neg hle]
    cases hold : record.oldestDirection with
    | none => rfl
    | some d =>
      obtain ⟨-, hdropped, hstored⟩ := (h d (hsmall d)).trimOldest (hsmall d)
        (record.storedBytes - max_bytes_per_stream)
      have hset := storedBytes_set record d
        ((record.directions.get d).trimOldest (record.storedBytes - max_bytes_per_stream)).1
      have hpart : (record.directions.get d).stored_bytes ≤ record.storedBytes := by
        unfold storedBytes
        cases d
        · exact Nat.le_add_right _ _
        · exact Nat.le_add_left _ _
      dsimp only
      by_cases hnone : ((record.directions.get d).trimOldest
          (record.storedBytes - max_bytes_per_stream)).2 = 0
      · rw [if_pos hnone]
        have hsame := hset record.truncated
        dsimp only
        omega
      · rw [if_neg hnone]
        have hless := hset true
        have hsat : saturatingAdd trimmed ((record.directions.get d).trimOldest
            (record.storedBytes - max_bytes_per_stream)).2 = trimmed +
              ((record.directions.get d).trimOldest (record.storedBytes - max_bytes_per_stream)).2 :=
          saturatingAdd_eq (by omega)
        rw [hsat, ih (h.trimOldest d _ true) _ (by omega)]
        omega

/-- One payload. -/
theorem Holds.observePayload_settles (h : record.Holds max_segment_bytes log)
    (hmax : 0 < max_segment_bytes) (d : FlowDirection) (bytes : List UInt8)
    (sequence_start : Option (BitVec 32)) (observed_us : ℕ)
    (hsmall : ∀ d', ((log.add [(d, bytes)]).get d').length < 2^64)
    (hfit : record.storedBytes + bytes.length < 2^64) :
    let r := record.observePayload d bytes sequence_start observed_us max_segment_bytes
      max_bytes_per_stream
    Settles max_bytes_per_stream bytes.length record r.1 r.2 := by
  by_cases hnil : bytes = []
  · subst hnil
    rw [observePayload_nil]
    exact ⟨rfl, rfl, rfl, fun hle => hle, fun _ => ⟨rfl, rfl⟩⟩
  · obtain ⟨happended, hcovers⟩ := h.appended hmax d bytes sequence_start observed_us
    have hpart : (record.directions.get d).stored_bytes ≤ record.storedBytes := by
      unfold storedBytes
      cases d
      · exact Nat.le_add_right _ _
      · exact Nat.le_add_left _ _
    obtain ⟨hstored, hobserved, hcount⟩ := DirectionContent.appendLoop_account record.id d
      sequence_start observed_us hmax bytes.length (record.directions.get d) 0 bytes {} (le_refl _)
      (by omega) (by show 0 + _ < _; omega) (by show 0 + _ < _; omega)
    have hset := storedBytes_set record d ((record.directions.get d).append record.id d bytes
      sequence_start observed_us max_segment_bytes).1 record.truncated
    have happendedBytes : (record.appended d bytes sequence_start observed_us
        max_segment_bytes).storedBytes = record.storedBytes + bytes.length := by
      unfold ContentRecord.appended DirectionContent.append at *
      rw [hstored] at hset
      omega
    have hbalance := happended.trimToLimitLoop_account max_bytes_per_stream hsmall
      (record.appended d bytes sequence_start observed_us max_segment_bytes).storedBytes 0 (by rw [happendedBytes]; omega)
    rw [observePayload_eq record d hnil]
    refine ⟨?_, ?_, ?_, fun _ => happended.trimToLimit_le hsmall max_bytes_per_stream,
      fun hranges => ?_⟩
    · exact hobserved.trans (Nat.zero_add _)
    · exact hcount.trans (Nat.zero_add _)
    · exact hbalance.trans (by rw [happendedBytes]; rfl)
    · -- The bytes are covered by ranges, so there are some.
      have hcons := hcovers d (hsmall d)
      dsimp only at hranges
      rw [hranges, Log.get_add_one, if_pos rfl, List.length_append] at hcons
      have := hcons.nil_eq
      have := List.length_pos_iff.mpr hnil
      omega

/-- One update and then another. -/
theorem settles_merge {n m : ℕ} {r₀ r₁ r₂ : ContentRecord} {u₁ u₂ : RecordUpdate}
    (h₁ : Settles max_bytes_per_stream n r₀ r₁ u₁) (h₂ : Settles max_bytes_per_stream m r₁ r₂ u₂)
    (hfit : r₀.storedBytes + n + m < 2^64) :
    Settles max_bytes_per_stream (n + m) r₀ r₂ (u₁.merge u₂) := by
  have hobserved := h₁.observed
  have hobserved' := h₂.observed
  have hstored := h₁.stored
  have hstored' := h₂.stored
  have hbalance := h₁.balance
  have hbalance' := h₂.balance
  refine ⟨?_, ?_, ?_, fun h => h₂.limit (h₁.limit h), fun hranges => ?_⟩
  · show saturatingAdd _ _ = _
    rw [hobserved, hobserved', saturatingAdd_eq (by omega)]
  · show saturatingAdd _ _ = _
    rw [hstored, hstored', saturatingAdd_eq (by omega)]
  · show r₂.storedBytes + saturatingAdd u₁.trimmed_bytes u₂.trimmed_bytes = _
    rw [saturatingAdd_eq (by omega)]
    omega
  · obtain ⟨hr, hr'⟩ := List.append_eq_nil_iff.mp hranges
    refine ⟨by rw [(h₁.ranges hr).1, (h₂.ranges hr').1], ?_⟩
    show saturatingAdd _ _ = _
    rw [(h₁.ranges hr).2, (h₂.ranges hr').2]
    rfl

/-- All the chunks of an observation. -/
theorem Holds.foldl_settles (hmax : 0 < max_segment_bytes) (observed_us : ℕ)
    (chunks : List StreamChunk) {n : ℕ} {log : Log} {record₀ record : ContentRecord}
    (h : record.Holds max_segment_bytes log) (update : RecordUpdate)
    (hsettles : Settles max_bytes_per_stream n record₀ record update)
    (hsmall : ∀ d, ((log.add (chunks.map fun chunk => (chunk.direction, chunk.bytes))).get
      d).length < 2^64)
    (hfit : record₀.storedBytes + n +
      payloadBytes (chunks.map fun chunk => (chunk.direction, chunk.bytes)) < 2^64) :
    let r := chunks.foldl (fun (x : ContentRecord × RecordUpdate) chunk =>
      let (self, payload_update) := x.1.observePayload chunk.direction chunk.bytes
        (some chunk.sequence_start) observed_us max_segment_bytes max_bytes_per_stream
      (self, x.2.merge payload_update)) (record, update)
    Settles max_bytes_per_stream
      (n + payloadBytes (chunks.map fun chunk => (chunk.direction, chunk.bytes))) record₀ r.1 r.2 := by
  induction chunks generalizing n log record update with
  | nil => exact hsettles
  | cons chunk chunks ih =>
    have hcons : payloadBytes ((chunk :: chunks).map fun chunk => (chunk.direction, chunk.bytes)) =
        chunk.bytes.length + payloadBytes (chunks.map fun chunk => (chunk.direction, chunk.bytes)) :=
      rfl
    rw [hcons] at hfit ⊢
    have hbalance := hsettles.balance
    obtain ⟨hholds, -, -⟩ := h.observePayload hmax chunk.direction chunk.bytes
      (some chunk.sequence_start) observed_us max_bytes_per_stream
    have hsmall₁ : ∀ d, ((log.add [(chunk.direction, chunk.bytes)]).get d).length < 2^64 :=
      fun d => lt_of_le_of_lt (Log.length_get_le _ _ d) (hsmall d)
    have hone := h.observePayload_settles max_bytes_per_stream hmax
      chunk.direction chunk.bytes (some chunk.sequence_start) observed_us hsmall₁ (by omega)
    rw [← Nat.add_assoc]
    exact ih hholds _ (settles_merge max_bytes_per_stream hsettles hone (by omega)) hsmall (by omega)

/-- Everything a packet brings. -/
theorem Holds.updateRecord_settles {config : StreamContentConfig}
    (h : record.Holds config.max_segment_bytes log) (hmax : 0 < config.max_segment_bytes)
    {packet : DecodedPacket} {flow : FlowObservation} {now_us : ℕ} {record' : ContentRecord}
    {update : RecordUpdate}
    (hsmall : ∀ d, ((log.add (contentOf packet flow)).get d).length < 2^64)
    (hfit : record.storedBytes + payloadBytes (contentOf packet flow) < 2^64)
    (hupdate : StreamContent.updateRecord config record packet flow now_us =
      some (record', update)) :
    Settles config.max_bytes_per_stream (payloadBytes (contentOf packet flow)) record record'
      update := by
  have h' : Holds config.max_segment_bytes log { record with last_seen_us := now_us } := h
  unfold StreamContent.updateRecord at hupdate
  unfold contentOf at hsmall hfit ⊢
  cases htcp : flow.tcp with
  | some tcp =>
    rw [htcp] at hupdate hsmall hfit
    dsimp only at hupdate hsmall hfit ⊢
    have hall := h'.foldl_settles config.max_bytes_per_stream hmax now_us tcp.stream_chunks {}
      (show Settles _ 0 record _ _ from ⟨rfl, rfl, rfl, fun hle => hle, fun _ => ⟨rfl, rfl⟩⟩) hsmall hfit
    have heq := Option.some.inj hupdate
    unfold ContentRecord.observeChunks at heq
    rw [heq, Nat.zero_add] at hall
    exact hall
  | none =>
    rw [htcp] at hupdate hsmall hfit
    dsimp only at hupdate hsmall hfit ⊢
    cases hpayload : packet.transport_payload with
    | none => simp [hpayload] at hupdate
    | some transport =>
      rw [hpayload, Option.map_some] at hupdate
      rw [hpayload] at hsmall hfit
      have hone :=
        h'.observePayload_settles config.max_bytes_per_stream hmax flow.direction transport.bytes none now_us hsmall hfit
      rw [Option.some.inj hupdate] at hone
      have hbytes : payloadBytes [(flow.direction, transport.bytes)] = transport.bytes.length := by
        simp [payloadBytes]
      dsimp only
      rw [hbytes]
      exact ⟨hone.observed, hone.stored, hone.balance, hone.limit, hone.ranges⟩

end ContentRecord

/-! ## The store -/

/-- The counters of the store agree with its records, and so do its limits. -/
structure StreamContent.Accounts (store : StreamContent) : Prop where
  stored : store.stored_bytes = store.streams.total ContentRecord.storedBytes
  balance : store.stats.observed_content_bytes =
    store.stats.dropped_content_bytes + store.stored_bytes
  per_stream : ∀ key record, store.streams.lookup key = some record →
    record.storedBytes ≤ store.config.max_bytes_per_stream
  streams : store.streams.size ≤ store.config.max_streams

/-- What evictions keep: the accounts, and the count of what was observed, which fits. -/
structure StreamContent.Kept (observed : ℕ) (store : StreamContent) : Prop where
  accounts : store.Accounts
  observed : store.stats.observed_content_bytes = observed

namespace StreamContent

variable {store : StreamContent} {observed : ℕ}

/-- Removing a record takes it out of all counters. -/
theorem Kept.removeStream (h : store.Kept observed) (hfit : observed < 2^64) (key : FlowKey) :
    (store.removeStream key).Kept observed := by
  obtain ⟨⟨hstored, hbalance, hper, hstreams⟩, hobserved⟩ := h
  unfold StreamContent.removeStream
  cases hkey : store.streams.lookup key with
  | none => exact ⟨⟨hstored, hbalance, hper, hstreams⟩, hobserved⟩
  | some record =>
    have htotal := Table.total_erase ContentRecord.storedBytes hkey
    have hsize := Table.size_erase (Table.mem_of_lookup hkey)
    have hdropped : saturatingAdd store.stats.dropped_content_bytes record.storedBytes =
        store.stats.dropped_content_bytes + record.storedBytes := saturatingAdd_eq (by omega)
    refine ⟨⟨?_, ?_, fun k r hr => ?_, ?_⟩, hobserved⟩
    · dsimp only
      omega
    · dsimp only
      rw [hdropped]
      omega
    · refine hper k r ?_
      by_cases hk : k = key
      · subst hk
        rw [AList.lookup_erase] at hr
        exact absurd hr (by simp)
      · rwa [AList.lookup_erase_ne hk] at hr
    · dsimp only
      omega

/-- Removing several records. -/
theorem Kept.removed (h : store.Kept observed) (hfit : observed < 2^64) {after : StreamContent}
    (hremoved : Removed store after) : after.Kept observed :=
  hremoved.preserves (fun _ key hs => hs.removeStream hfit key) h

/-- Counting the packet, and evicting when it is due. -/
theorem Kept.tick (h : store.Kept observed) (hfit : observed < 2^64)
    (order : IterOrder FlowKey ContentRecord) (now_us : ℕ) : (store.tick order now_us).Kept observed := by
  have hcount : Kept observed { store with observed_packets := saturatingAdd store.observed_packets 1 } :=
    ⟨⟨h.accounts.stored, h.accounts.balance, h.accounts.per_stream, h.accounts.streams⟩, h.observed⟩
  unfold StreamContent.tick
  dsimp only
  split_ifs
  · exact hcount.removed hfit (evictIdle_removed _ order now_us)
  · exact hcount

/-- A new record stores nothing. -/
theorem Kept.ensureStream (h : store.Kept observed) (hfit : observed < 2^64)
    (order : IterOrder FlowKey ContentRecord) (key : FlowKey) (now_us : ℕ) :
    (store.ensureStream order key now_us).1.Kept observed := by
  rcases store.ensureStream_cases order key now_us with
    ⟨hsome, heq⟩ | ⟨hnone, room, hroom, ⟨hlt, heq⟩ | heq⟩
  · rw [heq]
    exact h
  · obtain ⟨⟨hstored, hbalance, hper, hstreams⟩, hobserved⟩ := h.removed hfit hroom
    have hgone : room.streams.lookup key = none := by
      rcases hroom.evicts.lookup key with hgone | hsame
      · exact hgone
      · rw [hsame]
        simpa using hnone
    have hzero : (ContentRecord.new key now_us).storedBytes = 0 := rfl
    rw [heq]
    refine ⟨⟨?_, hbalance, fun k r hr => ?_, ?_⟩, hobserved⟩
    · dsimp only
      rw [Table.total_insert _ _ hgone, hzero]
      exact hstored
    · dsimp only at hr
      by_cases hk : k = key
      · subst hk
        rw [AList.lookup_insert] at hr
        rw [← Option.some.inj hr, hzero]
        exact Nat.zero_le _
      · rw [AList.lookup_insert_ne hk] at hr
        exact hper k r hr
    · dsimp only
      rw [Table.size_insert _ (AList.lookup_eq_none.mp hgone)]
      exact hlt
  · rw [heq]
    exact h.removed hfit hroom

/-- Of a store that is not empty a record may go, though not the current one while there are others. -/
theorem exists_evictable {streams : Table FlowKey ContentRecord} (current_key : FlowKey)
    (hsize : 0 < streams.size) :
    ∃ k ∈ streams, some k ≠ (if 1 < streams.size then some current_key else none) := by
  rw [Table.size_eq] at hsize ⊢
  have hnodup := streams.keys_nodup
  have hmem : ∀ k, k ∈ streams ↔ k ∈ streams.keys := fun k => AList.mem_keys
  simp only [hmem]
  generalize streams.keys = keys at hsize hnodup ⊢
  cases keys with
  | nil => exact absurd hsize (lt_irrefl 0)
  | cons k keys =>
    cases keys with
    | nil => exact ⟨k, by simp, by simp⟩
    | cons k' keys =>
      rw [if_pos (by simp)]
      by_cases hcurrent : k = current_key
      · refine ⟨k', by simp, fun heq => ?_⟩
        have hne := (List.pairwise_cons.mp hnodup).1 k' (by simp)
        exact hne (hcurrent.trans (Option.some.inj heq).symm)
      · exact ⟨k, by simp, fun heq => hcurrent (Option.some.inj heq)⟩

/-- Records are removed until what is stored is within the limit. -/
theorem Kept.enforceGlobalLimitLoop_le (order : IterOrder FlowKey ContentRecord)
    (current_key : FlowKey) (hfit : observed < 2^64) (fuel : ℕ) {store : StreamContent}
    (h : store.Kept observed) (hfuel : store.streams.size ≤ fuel) :
    (enforceGlobalLimitLoop order current_key fuel store).stored_bytes ≤
      store.config.max_total_bytes := by
  have hempty : ∀ store : StreamContent, store.Kept observed → store.streams.size = 0 →
      store.stored_bytes = 0 := by
    intro store h hsize
    rw [h.accounts.stored]
    unfold Table.total
    rw [List.length_eq_zero_iff.mp hsize]
    rfl
  induction fuel generalizing store with
  | zero =>
    unfold enforceGlobalLimitLoop
    rw [hempty store h (by omega)]
    exact Nat.zero_le _
  | succ fuel ih =>
    unfold enforceGlobalLimitLoop
    by_cases hle : store.stored_bytes ≤ store.config.max_total_bytes
    · rw [if_pos hle]
      exact hle
    rw [if_neg hle]
    dsimp only
    -- There is a record besides the current one, or the current one may go.
    have hsize : 0 < store.streams.size := by
      by_contra hzero
      rw [hempty store h (by omega)] at hle
      exact hle (Nat.zero_le _)
    obtain ⟨k, hk, hkeep⟩ := exists_evictable current_key hsize
    generalize (if 1 < store.streams.size then some current_key else none) = except at hkeep ⊢
    unfold evictOldest
    cases hold : store.streams.oldest order (fun record => record.last_seen_us)
      (fun k => some k ≠ except) with
    | none => exact absurd (Table.oldest_eq_none.mp hold k hk) (by simpa using hkeep)
    | some key =>
      obtain ⟨record, hrecord, -, -⟩ := Table.oldest_spec hold
      have hsmaller : (store.removeStream key).streams.size + 1 = store.streams.size := by
        unfold StreamContent.removeStream
        rw [hrecord]
        exact Table.size_erase (Table.mem_of_lookup hrecord)
      have hconfig := (store.removeStream_evicts key).config
      have hrest := ih (h.removeStream hfit key) (by omega)
      rw [hconfig] at hrest
      exact hrest

/-- The record of a flow takes what a packet brings. -/
theorem Kept.observeRecord (h : store.Kept observed) {logs : FlowKey → Log} (hholds : store.Holds logs)
    (hmax : 0 < store.config.max_segment_bytes) (order : IterOrder FlowKey ContentRecord)
    {packet : DecodedPacket} {flow : FlowObservation} (now_us : ℕ)
    (hcontent : flowHasContent packet flow = true)
    (hsmall : ∀ d, (((logs flow.key).add (contentOf packet flow)).get d).length < 2^64)
    (hfit : observed + payloadBytes (contentOf packet flow) < 2^64)
    (htotal : store.stored_bytes ≤ store.config.max_total_bytes) :
    (∃ n ≤ payloadBytes (contentOf packet flow),
      (store.observeRecord order packet flow now_us).1.Kept (observed + n)) ∧
      (store.observeRecord order packet flow now_us).1.stored_bytes ≤ store.config.max_total_bytes := by
  cases hlookup : store.streams.lookup flow.key with
  | none =>
    have heq : store.observeRecord order packet flow now_us = (store, none) := by
      unfold StreamContent.observeRecord
      simp only [hlookup]
    rw [heq]
    exact ⟨⟨0, Nat.zero_le _, h⟩, htotal⟩
  | some record =>
    obtain ⟨⟨hstored, hbalance, hper, hstreams⟩, hobserved⟩ := h
    obtain ⟨record', update, hupdate⟩ := updateRecord_isSome store.config record now_us hcontent
    have hpart := Table.le_total ContentRecord.storedBytes hlookup
    have hsettles := (hholds flow.key record hlookup).2.updateRecord_settles hmax hsmall (by omega) hupdate
    generalize payloadBytes (contentOf packet flow) = n at hfit hsettles ⊢
    have hrecord := hsettles.balance
    have hreplace := Table.total_replace ContentRecord.storedBytes record' hlookup
    have hsize := Table.size_insert_mem record' (Table.mem_of_lookup hlookup)
    have hlimits : ∀ k r, (store.streams.insert flow.key record').lookup k = some r →
        r.storedBytes ≤ store.config.max_bytes_per_stream := by
      intro k r hr
      by_cases hk : k = flow.key
      · subst hk
        rw [AList.lookup_insert] at hr
        rw [← Option.some.inj hr]
        exact hsettles.limit (hper _ record hlookup)
      · rw [AList.lookup_insert_ne hk] at hr
        exact hper k r hr
    unfold StreamContent.observeRecord
    simp only [hlookup, hupdate]
    by_cases hranges : update.ranges = []
    · -- Nothing came, so nothing was trimmed.
      obtain ⟨hn, hnone⟩ := hsettles.ranges hranges
      rw [hranges]
      simp only [List.isEmpty_nil, if_true]
      refine ⟨⟨0, Nat.zero_le _, ⟨?_, hbalance, hlimits, ?_⟩, hobserved⟩, htotal⟩
      · dsimp only
        omega
      · dsimp only
        omega
    · have hsome : update.ranges.isEmpty = false := by simpa using hranges
      simp only [hsome, Bool.false_eq_true, if_false]
      have hcount := hsettles.stored
      have hcount' := hsettles.observed
      have hkept : Kept (observed + n)
          (account { store with streams := store.streams.insert flow.key record' } update) := by
        have h₁ : saturatingAdd store.stored_bytes update.appended.stored_bytes =
            store.stored_bytes + n := by
          rw [hcount]
          exact saturatingAdd_eq (by omega)
        have h₂ : saturatingAdd store.stats.observed_content_bytes update.appended.observed_bytes =
            observed + n := by
          rw [hcount', hobserved]
          exact saturatingAdd_eq (by omega)
        have h₃ : saturatingAdd store.stats.dropped_content_bytes update.trimmed_bytes =
            store.stats.dropped_content_bytes + update.trimmed_bytes := saturatingAdd_eq (by omega)
        refine ⟨⟨?_, ?_, hlimits, ?_⟩, h₂⟩
        · show saturatingAdd store.stored_bytes update.appended.stored_bytes - update.trimmed_bytes = _
          rw [h₁]
          show _ = Table.total ContentRecord.storedBytes (store.streams.insert flow.key record')
          omega
        · show saturatingAdd store.stats.observed_content_bytes update.appended.observed_bytes =
            saturatingAdd store.stats.dropped_content_bytes update.trimmed_bytes +
              (saturatingAdd store.stored_bytes update.appended.stored_bytes - update.trimmed_bytes)
          rw [h₁, h₂, h₃]
          omega
        · show Table.size (store.streams.insert flow.key record') ≤ store.config.max_streams
          omega
      refine ⟨⟨n, le_refl n, ?_⟩, ?_⟩
      · exact hkept.removed (by omega) (enforceGlobalLimitLoop_removed order flow.key _ _)
      · exact hkept.enforceGlobalLimitLoop_le order flow.key (by omega) _ (le_refl _)

/-! ## What evictions leave of the bytes -/

/-- Removing records only takes bytes away. -/
theorem removed_stored_le {before after : StreamContent} (h : Removed before after) :
    after.stored_bytes ≤ before.stored_bytes := by
  have hone : ∀ (store : StreamContent) (key : FlowKey),
      (store.removeStream key).stored_bytes ≤ store.stored_bytes := by
    intro store key
    unfold StreamContent.removeStream
    split
    · exact le_refl _
    · exact Nat.sub_le _ _
  have hall : after.stored_bytes ≤ before.stored_bytes :=
    Removed.preserves (P := fun store => store.stored_bytes ≤ before.stored_bytes)
      (fun store key hle => le_trans (hone store key) hle) h (le_refl _)
  exact hall

/-- Neither eviction nor a new record adds a byte. -/
theorem tick_ensureStream_stored_le (store : StreamContent) (order : IterOrder FlowKey ContentRecord)
    (key : FlowKey) (now_us : ℕ) :
    ((store.tick order now_us).ensureStream order key now_us).1.stored_bytes ≤ store.stored_bytes := by
  have htick : (store.tick order now_us).stored_bytes ≤ store.stored_bytes := by
    unfold StreamContent.tick
    dsimp only
    split_ifs
    · have hidle := removed_stored_le (evictIdle_removed
        { store with observed_packets := saturatingAdd store.observed_packets 1 } order now_us)
      exact hidle
    · exact le_refl _
  refine le_trans ?_ htick
  rcases (store.tick order now_us).ensureStream_cases order key now_us with
    ⟨-, heq⟩ | ⟨-, room, hroom, ⟨-, heq⟩ | heq⟩
  · rw [heq]
  · have hless := removed_stored_le hroom
    rw [heq]
    exact hless
  · rw [heq]
    exact removed_stored_le hroom

/-! ## Runs -/

/-- Where a run stands that has brought at most `total` bytes. -/
structure Audited (config : StreamContentConfig) (total : ℕ) (x : StreamContent × (FlowKey → Log)) :
    Prop where
  same : x.1.config = config
  holds : x.1.Holds x.2
  logs : ∀ key d, ((x.2 key).get d).length ≤ total
  kept : ∃ observed ≤ total, x.1.Kept observed
  limit : x.1.stored_bytes ≤ config.max_total_bytes

/-- No log grows by more than a call brings. -/
theorem length_stepLogs_le (store : StreamContent) (order : IterOrder FlowKey ContentRecord)
    (packet : DecodedPacket) (flow : FlowObservation) (logs : FlowKey → Log) (key : FlowKey)
    (d : FlowDirection) :
    ((stepLogs store order packet flow logs key).get d).length ≤
      ((logs key).get d).length + payloadBytes (contentOf packet flow) := by
  have hopen : ∀ store : StreamContent,
      ((openLog store flow.key logs key).get d).length ≤ ((logs key).get d).length := by
    intro store
    unfold openLog
    split_ifs
    · exact le_refl _
    · by_cases hk : key = flow.key
      · subst hk
        rw [Function.update_self]
        cases d <;> exact Nat.zero_le _
      · rw [Function.update_of_ne hk]
  unfold stepLogs
  split_ifs
  · exact Nat.le_add_right _ _
  · dsimp only
    by_cases hk : key = flow.key
    · subst hk
      rw [Function.update_self]
      exact le_trans (Log.length_get_add _ _ d) (Nat.add_le_add_right (hopen _) _)
    · rw [Function.update_of_ne hk]
      exact le_trans (hopen _) (Nat.le_add_right _ _)

/-- One call. -/
theorem Audited.logged {config : StreamContentConfig} {total : ℕ} {x : StreamContent × (FlowKey → Log)}
    (h : Audited config total x) (call : ContentCall)
    (hmax : config.enabled = true → 0 < config.max_segment_bytes)
    (hfit : total + payloadBytes (contentOf call.packet call.flow) < 2^64) :
    Audited config (total + payloadBytes (contentOf call.packet call.flow))
      (StreamContent.logged x call) := by
  obtain ⟨hconfig, hholds, hlogs, ⟨observed, hle, hkept⟩, hlimit⟩ := h
  obtain ⟨hholds', hconfig', -⟩ := hholds.observeFlow (by rw [hconfig]; exact hmax) call.order
    call.packet call.flow
  have hlogs' : ∀ key d, ((stepLogs x.1 call.order call.packet call.flow x.2 key).get d).length ≤
      total + payloadBytes (contentOf call.packet call.flow) := fun key d =>
    le_trans (length_stepLogs_le _ _ _ _ _ key d) (Nat.add_le_add_right (hlogs key d) _)
  suffices hstep : (∃ observed' ≤ total + payloadBytes (contentOf call.packet call.flow),
      (x.1.observeFlow call.order call.packet call.flow).1.Kept observed') ∧
      (x.1.observeFlow call.order call.packet call.flow).1.stored_bytes ≤ config.max_total_bytes from
    ⟨hconfig'.trans hconfig, hholds', hlogs', hstep.1, hstep.2⟩
  unfold StreamContent.observeFlow
  unfold stepLogs at hlogs'
  by_cases hquiet : (!x.1.config.enabled || !flowHasContent call.packet call.flow) = true
  · rw [if_pos hquiet]
    exact ⟨⟨observed, by omega, hkept⟩, hlimit⟩
  rw [if_neg hquiet]
  rw [if_neg hquiet] at hlogs'
  simp only [Bool.or_eq_true, Bool.not_eq_true', not_or, Bool.not_eq_false] at hquiet
  obtain ⟨henabled, hcontent⟩ := hquiet
  rw [hconfig] at henabled
  have htick := x.1.tick_evicts call.order (timestampUs call.packet.timestamp)
  have hensured := (hkept.tick (by omega) call.order (timestampUs call.packet.timestamp)).ensureStream
    (by omega) call.order call.flow.key (timestampUs call.packet.timestamp)
  obtain ⟨hopen, hsame⟩ := (hholds.evicts htick).ensureStream call.order call.flow.key
    (timestampUs call.packet.timestamp)
  have hless := x.1.tick_ensureStream_stored_le call.order call.flow.key
    (timestampUs call.packet.timestamp)
  rw [htick.config, hconfig] at hsame
  dsimp only at hlogs' ⊢
  generalize (x.1.tick call.order (timestampUs call.packet.timestamp)).ensureStream call.order
    call.flow.key (timestampUs call.packet.timestamp) = ensured at hensured hopen hsame hless ⊢
  obtain ⟨room, _ | _⟩ := ensured
  · exact ⟨⟨observed, by omega, hensured⟩, le_trans hless hlimit⟩
  · obtain ⟨⟨n, hn, hrecord⟩, hmost⟩ := hensured.observeRecord hopen
      (by rw [hsame]; exact hmax henabled) call.order (timestampUs call.packet.timestamp) hcontent
      (fun d => by
        have := hlogs' call.flow.key d
        rw [Function.update_self] at this
        omega)
      (by omega) (by rw [hsame]; exact le_trans hless hlimit)
    rw [hsame] at hmost
    exact ⟨⟨observed + n, by omega, hrecord⟩, hmost⟩

end StreamContent

/-- The bytes in the segments of both directions. -/
def ContentRecord.segmentBytes (record : ContentRecord) : ℕ :=
  (record.directions.aToB.segments.map fun s => s.bytes.length).sum +
    (record.directions.bToA.segments.map fun s => s.bytes.length).sum

/-- The counters of a store and its limits. -/
structure StreamContent.Balanced (config : StreamContentConfig) (store : StreamContent) : Prop where
  stored : store.stored_bytes = store.streams.total ContentRecord.storedBytes
  segments : store.stored_bytes = store.streams.total ContentRecord.segmentBytes
  total_limit : store.stored_bytes ≤ config.max_total_bytes
  stream_limit : ∀ key record, store.streams.lookup key = some record →
    record.storedBytes ≤ config.max_bytes_per_stream
  stream_count : store.streams.size ≤ config.max_streams
  balance : store.currentStats.observed_content_bytes =
    store.currentStats.dropped_content_bytes + store.currentStats.stored_content_bytes

/-- After any calls whose bytes can be counted, the counters of the store are right and no limit is passed,
through all kinds of trimming and eviction. -/
theorem StreamContent.observeAll_balanced (config : StreamContentConfig) (calls : List ContentCall)
    (hsmall : (calls.map fun call => payloadBytes (contentOf call.packet call.flow)).sum < 2^64) :
    (observeAll config calls).1.Balanced config.normalized := by
  have hrun : ∀ (calls : List ContentCall) (total : ℕ) (x : StreamContent × (FlowKey → Log)),
      Audited config.normalized total x →
      total + (calls.map fun call => payloadBytes (contentOf call.packet call.flow)).sum < 2^64 →
      ∃ total < 2^64, Audited config.normalized total (calls.foldl logged x) := by
    intro calls
    induction calls with
    | nil => exact fun total x h hsum => ⟨total, by simpa using hsum, h⟩
    | cons call calls ih =>
      intro total x h hsum
      rw [List.map_cons, List.sum_cons] at hsum
      exact ih _ _ (h.logged call (fun henabled => (config.normalized_limits henabled).1) (by omega))
        (by omega)
  have hnew : Audited config.normalized 0 (new config, fun _ => Log.empty) := by
    refine ⟨rfl, fun key record hkey => ?_, fun key d => ?_, ⟨0, le_refl 0, ?_⟩, Nat.zero_le _⟩
    · simp [new] at hkey
    · cases d <;> exact le_refl 0
    · refine ⟨⟨rfl, rfl, fun key record hkey => ?_, Nat.zero_le _⟩, rfl⟩
      simp [new] at hkey
  obtain ⟨total, htotal, hsame, hholds, hlogs, ⟨observed, -, hkept⟩, hlimit⟩ :=
    hrun calls 0 _ hnew (by omega)
  change (observeAll config calls).1.config = _ at hsame
  obtain ⟨⟨hstored, hbalance, hper, hstreams⟩, -⟩ := hkept
  have hsegments : (observeAll config calls).1.streams.total ContentRecord.segmentBytes =
      (observeAll config calls).1.streams.total ContentRecord.storedBytes := by
    refine congrArg List.sum (List.map_congr_left fun x hx => ?_)
    have hrecord := (hholds x.1 x.2 (AList.mem_lookup_iff.mpr hx)).2
    have ha := (hrecord .aToB (lt_of_le_of_lt (hlogs x.1 .aToB) htotal)).stored_eq
    have hb := (hrecord .bToA (lt_of_le_of_lt (hlogs x.1 .bToA) htotal)).stored_eq
    unfold PerDirection.get at ha hb
    unfold ContentRecord.segmentBytes ContentRecord.storedBytes
    rw [ha, hb]
  refine ⟨hstored, hstored.trans hsegments.symm, hlimit, ?_, ?_, hbalance⟩
  · rw [← hsame]
    exact hper
  · rw [← hsame]
    exact hstreams

/-- Two streams in a store that may keep five bytes: one is trimmed, and then evicted for the other. -/
theorem StreamContent.observeAll_balanced_evicted :
    (observeAll ⟨true, 8, 1000, 5, 4, 4⟩ [datagramCall [97, 98, 99, 100, 101],
      { datagramCall [1, 2] with flow := ⟨{ sampleKey with a := sampleKey.b }, .aToB, 1, 2, false, none⟩ }
      ]).1.Balanced (StreamContentConfig.normalized ⟨true, 8, 1000, 5, 4, 4⟩) :=
  observeAll_balanced _ _ (by decide)

end Rustmate.Content
