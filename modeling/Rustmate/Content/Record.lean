import Rustmate.Content.Segments

/-!
# What a record stores

Both directions of a record, each against the log of what was appended to it. Trimming to the limit takes
bytes from either direction, and leaves in each one a suffix of its own log.
-/

namespace Rustmate.Content

open Rustmate.Flow

/-- The bytes appended to the two directions since the record was created. -/
abbrev Log := PerDirection (List UInt8)

/-- The log before anything is appended. -/
def Log.empty : Log := ⟨[], []⟩

/-- The log after some more bytes of one direction and the other. -/
def Log.add (log : Log) (xs : List (FlowDirection × List UInt8)) : Log :=
  xs.foldl (fun log x => log.set x.1 (log.get x.1 ++ x.2)) log

/-- What a packet brings: the chunks of its TCP observation, or its payload. -/
def contentOf (packet : DecodedPacket) (flow : FlowObservation) :
    List (FlowDirection × List UInt8) :=
  match flow.tcp with
  | some tcp => tcp.stream_chunks.map fun chunk => (chunk.direction, chunk.bytes)
  | none =>
    match packet.transport_payload with
    | some transport => [(flow.direction, transport.bytes)]
    | none => []

/-- Each direction of the record stores a suffix of its log. A direction that has seen `2^64` bytes or
more, whose offsets no longer fit, is left aside. -/
def ContentRecord.Holds (max_segment_bytes : ℕ) (log : Log) (record : ContentRecord) : Prop :=
  ∀ d, (log.get d).length < 2^64 →
    (record.directions.get d).Holds max_segment_bytes (log.get d)

/-- The ranges of one direction cover what was appended to it. -/
def Covers (stream_id : BitVec 64) (before after : Log) (ranges : List StreamContentRange) : Prop :=
  ∀ d, (after.get d).length < 2^64 →
    Consecutive stream_id d (before.get d).length (ranges.filter fun r => r.direction = d)
      (after.get d).length

/-! ## The log -/

/-- One direction of the log after more bytes. -/
theorem Log.get_add (log : Log) (xs : List (FlowDirection × List UInt8)) (d : FlowDirection) :
    (log.add xs).get d =
      log.get d ++ ((xs.filter fun x => x.1 = d).map fun x => x.2).flatten := by
  induction xs generalizing log with
  | nil => simp [Log.add]
  | cons x xs ih =>
    have hstep : log.add (x :: xs) = Log.add (log.set x.1 (log.get x.1 ++ x.2)) xs := rfl
    rw [hstep, ih]
    by_cases hd : x.1 = d
    · subst hd
      rw [List.filter_cons_of_pos (by simp), PerDirection.get_set, List.map_cons,
        List.flatten_cons, List.append_assoc]
    · rw [List.filter_cons_of_neg (by simpa using hd), PerDirection.get_set_ne _ _ (Ne.symm hd)]

/-- The log after one payload. -/
theorem Log.get_add_one (log : Log) (d : FlowDirection) (bytes : List UInt8)
    (d' : FlowDirection) : (log.add [(d, bytes)]).get d' =
      if d' = d then log.get d' ++ bytes else log.get d' := by
  by_cases hd : d' = d
  · subst hd
    rw [Log.get_add, if_pos rfl]
    simp
  · rw [Log.get_add, if_neg hd, List.filter_cons_of_neg (by simpa using Ne.symm hd)]
    simp

/-- The log only grows. -/
theorem Log.length_get_le (log : Log) (xs : List (FlowDirection × List UInt8)) (d : FlowDirection) :
    (log.get d).length ≤ ((log.add xs).get d).length := by
  rw [Log.get_add, List.length_append]
  omega

/-- Nothing appended covers nothing. -/
theorem Covers.refl (stream_id : BitVec 64) (log : Log) : Covers stream_id log log [] :=
  fun _ _ => .nil _

/-- One update and then another. -/
theorem Covers.append {stream_id : BitVec 64} {log₁ log₂ log₃ : Log}
    {rs ss : List StreamContentRange} (hr : Covers stream_id log₁ log₂ rs)
    (hs : Covers stream_id log₂ log₃ ss)
    (hle : ∀ d, (log₂.get d).length ≤ (log₃.get d).length) :
    Covers stream_id log₁ log₃ (rs ++ ss) := by
  intro d hd
  rw [List.filter_append]
  exact (hr d (lt_of_le_of_lt (hle d) hd)).append (hs d hd)

namespace ContentRecord

variable {max_segment_bytes : ℕ} {log : Log} {record : ContentRecord}

/-- A new record stores an empty log. -/
theorem holds_new (max_segment_bytes : ℕ) (key : FlowKey) (now_us : ℕ) :
    Holds max_segment_bytes Log.empty (new key now_us) := by
  intro d _
  cases d <;> exact DirectionContent.holds_empty max_segment_bytes

/-! ## Trimming to the limit -/

/-- Trimming one direction. -/
theorem Holds.trimOldest (h : record.Holds max_segment_bytes log) (d : FlowDirection) (bytes : ℕ)
    (truncated : Bool) :
    Holds max_segment_bytes log
      { record with
        directions := record.directions.set d ((record.directions.get d).trimOldest bytes).1
        truncated } := by
  intro d' hd'
  by_cases hd : d' = d
  · subst hd
    rw [PerDirection.get_set]
    exact ((h d' hd').trimOldest hd' bytes).1
  · rw [PerDirection.get_set_ne _ _ hd]
    exact h d' hd'

/-- Trimming to the limit keeps suffixes. -/
theorem Holds.trimToLimitLoop (max_bytes_per_stream fuel : ℕ) {record : ContentRecord}
    (h : record.Holds max_segment_bytes log) (trimmed : ℕ) :
    (ContentRecord.trimToLimitLoop max_bytes_per_stream fuel record trimmed).1.Holds
        max_segment_bytes log ∧
      (ContentRecord.trimToLimitLoop max_bytes_per_stream fuel record trimmed).1.id = record.id := by
  induction fuel generalizing record trimmed with
  | zero => exact ⟨h, rfl⟩
  | succ fuel ih =>
    unfold ContentRecord.trimToLimitLoop
    split_ifs with hle
    · exact ⟨h, rfl⟩
    cases hold : record.oldestDirection with
    | none => exact ⟨h, rfl⟩
    | some d =>
      dsimp only
      split_ifs with hzero
      · exact ⟨h.trimOldest d _ record.truncated, rfl⟩
      · exact ih (h.trimOldest d _ true) _

/-- What a direction stores, it stores in segments. -/
theorem segments_ne_nil {content : DirectionContent} {log : List UInt8}
    (h : content.Holds max_segment_bytes log) (hpos : 0 < content.stored_bytes) :
    content.segments ≠ [] := by
  intro hnil
  have htiles := h.tiles
  have hle := h.stored_le
  unfold DirectionContent.chunks at htiles
  rw [hnil, List.map_nil] at htiles
  generalize hi : log.length - content.stored_bytes = i at htiles
  cases htiles
  omega

/-- A record that stores anything has an oldest direction, and that direction stores something. -/
theorem Holds.oldestDirection (h : record.Holds max_segment_bytes log)
    (hsmall : ∀ d, (log.get d).length < 2^64) (hpos : 0 < record.storedBytes) :
    ∃ d, record.oldestDirection = some d ∧ 0 < (record.directions.get d).stored_bytes := by
  have hstored : ∀ d, (record.directions.get d).segments ≠ [] →
      0 < (record.directions.get d).stored_bytes := by
    intro d hne
    obtain ⟨s, rest, hs⟩ := List.exists_cons_of_ne_nil hne
    have htiles := (h d (hsmall d)).tiles
    unfold DirectionContent.chunks at htiles
    rw [hs, List.map_cons] at htiles
    obtain ⟨-, hbytes, -, -, hrest⟩ := htiles.cons_inv
    have := List.length_pos_iff.mpr hbytes
    have := hrest.le
    have := (h d (hsmall d)).stored_le
    omega
  have hsome : record.directions.aToB.segments ≠ [] ∨ record.directions.bToA.segments ≠ [] := by
    unfold storedBytes at hpos
    rcases Nat.eq_zero_or_pos record.directions.aToB.stored_bytes with hzero | ha
    · exact .inr (segments_ne_nil (h .bToA (hsmall .bToA))
        (show 0 < record.directions.bToA.stored_bytes by omega))
    · exact .inl (segments_ne_nil (h .aToB (hsmall .aToB)) ha)
  have ha := hstored .aToB
  have hb := hstored .bToA
  unfold ContentRecord.oldestDirection
  cases hsa : record.directions.aToB.segments with
  | nil =>
    cases hsb : record.directions.bToA.segments with
    | nil => simp [hsa, hsb] at hsome
    | cons b bs => exact ⟨.bToA, rfl, hb (by simp [PerDirection.get, hsb])⟩
  | cons a as =>
    cases hsb : record.directions.bToA.segments with
    | nil => exact ⟨.aToB, rfl, ha (by simp [PerDirection.get, hsa])⟩
    | cons b bs =>
      dsimp only
      split_ifs
      · exact ⟨.bToA, rfl, hb (by simp [PerDirection.get, hsb])⟩
      · exact ⟨.aToB, rfl, ha (by simp [PerDirection.get, hsa])⟩

/-- What a record stores after one direction is replaced. -/
theorem storedBytes_set (record : ContentRecord) (d : FlowDirection) (content : DirectionContent)
    (truncated : Bool) :
    ContentRecord.storedBytes { record with
        directions := record.directions.set d content, truncated } +
      (record.directions.get d).stored_bytes = record.storedBytes + content.stored_bytes := by
  unfold storedBytes
  cases d <;> simp only [PerDirection.set, PerDirection.get] <;> omega

/-- With a unit of fuel for each stored byte, trimming reaches the limit. -/
theorem Holds.trimToLimitLoop_le {max_bytes_per_stream : ℕ} (hsmall : ∀ d, (log.get d).length < 2^64)
    (fuel : ℕ) {record : ContentRecord} (h : record.Holds max_segment_bytes log) (trimmed : ℕ)
    (hfuel : record.storedBytes ≤ fuel) :
    (ContentRecord.trimToLimitLoop max_bytes_per_stream fuel record trimmed).1.storedBytes ≤
      max_bytes_per_stream := by
  induction fuel generalizing record trimmed with
  | zero => exact le_trans hfuel (Nat.zero_le _)
  | succ fuel ih =>
    unfold ContentRecord.trimToLimitLoop
    split_ifs with hle
    · exact hle
    obtain ⟨d, hold, hpos⟩ := h.oldestDirection hsmall (by omega)
    obtain ⟨-, hdropped, hstored⟩ := (h d (hsmall d)).trimOldest (hsmall d)
      (record.storedBytes - max_bytes_per_stream)
    have hset := storedBytes_set record d
      ((record.directions.get d).trimOldest (record.storedBytes - max_bytes_per_stream)).1 true
    have hne : ¬ ((record.directions.get d).trimOldest
        (record.storedBytes - max_bytes_per_stream)).2 = 0 := by
      rw [hdropped]
      omega
    rw [hold]
    dsimp only
    rw [if_neg hne]
    exact ih (h.trimOldest d _ true) _ (by omega)

/-- After trimming the record is within the limit. -/
theorem Holds.trimToLimit_le (h : record.Holds max_segment_bytes log)
    (hsmall : ∀ d, (log.get d).length < 2^64) (max_bytes_per_stream : ℕ) :
    (record.trimToLimit max_bytes_per_stream).1.storedBytes ≤ max_bytes_per_stream :=
  h.trimToLimitLoop_le hsmall _ 0 (le_refl _)

/-! ## Observing -/

/-- Each range of an append has its direction. -/
theorem appendLoop_direction (stream_id : BitVec 64) (direction : FlowDirection)
    (sequence_start : Option (BitVec 32)) (observed_us max_segment_bytes fuel : ℕ)
    (self : DirectionContent)
    (consumed : ℕ) (bytes : List UInt8) (append : DirectionAppend)
    (h : ∀ r ∈ append.ranges, r.direction = direction) :
    ∀ r ∈ (DirectionContent.appendLoop stream_id direction sequence_start observed_us
      max_segment_bytes fuel self consumed bytes append).2.ranges, r.direction = direction := by
  induction fuel generalizing self consumed bytes append with
  | zero => exact h
  | succ fuel ih =>
    unfold DirectionContent.appendLoop
    split_ifs with hnil
    · exact h
    · obtain ⟨r', hranges, -, hdir, -⟩ := DirectionContent.appendSlice_ranges self stream_id
        direction (bytes.take (min bytes.length max_segment_bytes))
        (sequence_start.map fun sequence => sequence + BitVec.ofNat 32 consumed) observed_us
        max_segment_bytes append
      have hslice : ∀ r ∈ append.ranges ++ [r'], r.direction = direction := by
        intro r hr
        rcases List.mem_append.mp hr with hr | hr
        · exact h r hr
        · rw [List.mem_singleton.mp hr]
          exact hdir
      rw [← hranges] at hslice
      exact ih _ _ _ _ hslice

/-- The record with a payload appended to one direction, before it is trimmed. -/
def appended (record : ContentRecord) (d : FlowDirection) (bytes : List UInt8)
    (sequence_start : Option (BitVec 32)) (observed_us max_segment_bytes : ℕ) : ContentRecord :=
  { record with
    directions := record.directions.set d
      ((record.directions.get d).append record.id d bytes sequence_start observed_us
        max_segment_bytes).1 }

/-- `observe_payload` appends and trims. -/
theorem observePayload_eq (record : ContentRecord) (d : FlowDirection) {bytes : List UInt8}
    (hne : bytes ≠ []) (sequence_start : Option (BitVec 32))
    (observed_us max_segment_bytes max_bytes_per_stream : ℕ) :
    record.observePayload d bytes sequence_start observed_us max_segment_bytes
        max_bytes_per_stream =
      let trimmed := (record.appended d bytes sequence_start observed_us
        max_segment_bytes).trimToLimit max_bytes_per_stream
      let append := ((record.directions.get d).append record.id d bytes sequence_start observed_us
        max_segment_bytes).2
      (trimmed.1,
        { ranges := append.ranges
          appended := append.stats
          trimmed_bytes := trimmed.2
          newly_truncated := !record.truncated && trimmed.1.truncated }) := by
  unfold ContentRecord.observePayload
  rw [if_neg (by simpa using hne)]
  rfl

/-- An empty payload changes nothing. -/
theorem observePayload_nil (record : ContentRecord) (d : FlowDirection)
    (sequence_start : Option (BitVec 32)) (observed_us max_segment_bytes max_bytes_per_stream : ℕ) :
    record.observePayload d [] sequence_start observed_us max_segment_bytes max_bytes_per_stream =
      (record, {}) := rfl

/-- Before trimming, the payload is at the end of its direction, and its ranges cover it. -/
theorem Holds.appended (h : record.Holds max_segment_bytes log) (hmax : 0 < max_segment_bytes)
    (d : FlowDirection) (bytes : List UInt8) (sequence_start : Option (BitVec 32))
    (observed_us : ℕ) :
    (record.appended d bytes sequence_start observed_us max_segment_bytes).Holds max_segment_bytes
        (log.add [(d, bytes)]) ∧
      Covers record.id log (log.add [(d, bytes)]) ((record.directions.get d).append record.id d bytes
        sequence_start observed_us max_segment_bytes).2.ranges := by
  have hlog : (log.get d ++ bytes).length < 2^64 → (log.get d).length < 2^64 := by
    rw [List.length_append]
    omega
  refine ⟨fun d' hd' => ?_, fun d' hd' => ?_⟩
  · rw [Log.get_add_one] at hd' ⊢
    unfold ContentRecord.appended
    by_cases hd : d' = d
    · subst hd
      rw [if_pos rfl] at hd' ⊢
      rw [PerDirection.get_set]
      exact ((h d' (hlog hd')).append hmax record.id d' bytes sequence_start observed_us hd').1
    · rw [if_neg hd] at hd' ⊢
      rw [PerDirection.get_set_ne _ _ hd]
      exact h d' hd'
  · have hdir := appendLoop_direction record.id d sequence_start observed_us max_segment_bytes bytes.length
      (record.directions.get d) 0 bytes {} (by simp)
    rw [Log.get_add_one] at hd' ⊢
    by_cases hd : d' = d
    · subst hd
      rw [if_pos rfl] at hd' ⊢
      have hcons := ((h d' (hlog hd')).append hmax record.id d' bytes sequence_start observed_us
        hd').2
      rw [List.filter_eq_self.mpr (by simpa using hcons.direction_eq)]
      exact hcons
    · rw [if_neg hd]
      have hother : ((record.directions.get d).append record.id d bytes sequence_start observed_us
          max_segment_bytes).2.ranges.filter (fun r => r.direction = d') = [] := by
        refine List.filter_eq_nil_iff.mpr fun r hr => ?_
        have := hdir r hr
        simp [this, Ne.symm hd]
      rw [hother]
      exact .nil _

/-- One payload joins the log of its direction. -/
theorem Holds.observePayload (h : record.Holds max_segment_bytes log) (hmax : 0 < max_segment_bytes)
    (d : FlowDirection) (bytes : List UInt8) (sequence_start : Option (BitVec 32))
    (observed_us max_bytes_per_stream : ℕ) :
    let r := record.observePayload d bytes sequence_start observed_us max_segment_bytes
      max_bytes_per_stream
    r.1.Holds max_segment_bytes (log.add [(d, bytes)]) ∧ r.1.id = record.id ∧
      Covers record.id log (log.add [(d, bytes)]) r.2.ranges := by
  by_cases hnil : bytes = []
  · have hsame : ∀ d', (log.add [(d, bytes)]).get d' = log.get d' := by
      intro d'
      rw [Log.get_add_one, hnil, List.append_nil, ite_self]
    subst hnil
    rw [observePayload_nil]
    refine ⟨fun d' hd' => ?_, rfl, fun d' _ => ?_⟩
    · rw [hsame] at hd' ⊢
      exact h d' hd'
    · rw [hsame]
      exact .nil _
  · obtain ⟨happended, hcovers⟩ := h.appended hmax d bytes sequence_start observed_us
    rw [observePayload_eq record d hnil]
    obtain ⟨htrimmed, hid⟩ := happended.trimToLimitLoop max_bytes_per_stream _ 0
    exact ⟨htrimmed, hid, hcovers⟩

/-- All the chunks of an observation join the log. -/
theorem Holds.foldl_observePayload (hmax : 0 < max_segment_bytes)
    (observed_us max_bytes_per_stream : ℕ) (chunks : List StreamChunk) {log₀ log : Log}
    {record : ContentRecord} (h : record.Holds max_segment_bytes log) (update : RecordUpdate)
    (hcovers : Covers record.id log₀ log update.ranges) :
    let r := chunks.foldl (fun (x : ContentRecord × RecordUpdate) chunk =>
      let (self, payload_update) := x.1.observePayload chunk.direction chunk.bytes
        (some chunk.sequence_start) observed_us max_segment_bytes max_bytes_per_stream
      (self, x.2.merge payload_update)) (record, update)
    r.1.Holds max_segment_bytes
        (log.add (chunks.map fun chunk => (chunk.direction, chunk.bytes))) ∧ r.1.id = record.id ∧
      Covers record.id log₀ (log.add (chunks.map fun chunk => (chunk.direction, chunk.bytes)))
        r.2.ranges := by
  induction chunks generalizing log record update with
  | nil => exact ⟨h, rfl, hcovers⟩
  | cons chunk chunks ih =>
    obtain ⟨hholds, hid, hnew⟩ := h.observePayload hmax chunk.direction chunk.bytes
      (some chunk.sequence_start) observed_us max_bytes_per_stream
    have hcov := hcovers.append hnew fun d => Log.length_get_le _ _ d
    rw [← hid] at hcov
    have hrest := ih hholds (update.merge (record.observePayload chunk.direction chunk.bytes
      (some chunk.sequence_start) observed_us max_segment_bytes max_bytes_per_stream).2) hcov
    rw [hid] at hrest
    exact hrest

/-- Everything a packet brings joins the log. -/
theorem Holds.updateRecord {config : StreamContentConfig}
    (h : record.Holds config.max_segment_bytes log) (hmax : 0 < config.max_segment_bytes)
    {packet : DecodedPacket} {flow : FlowObservation} {now_us : ℕ} {record' : ContentRecord}
    {update : RecordUpdate}
    (hupdate : StreamContent.updateRecord config record packet flow now_us =
      some (record', update)) :
    record'.Holds config.max_segment_bytes (log.add (contentOf packet flow)) ∧
      record'.id = record.id ∧
      Covers record.id log (log.add (contentOf packet flow)) update.ranges := by
  have h' : Holds config.max_segment_bytes log { record with last_seen_us := now_us } := h
  unfold StreamContent.updateRecord at hupdate
  unfold contentOf
  cases htcp : flow.tcp with
  | some tcp =>
    rw [htcp] at hupdate
    dsimp only at hupdate
    have hall := h'.foldl_observePayload hmax now_us config.max_bytes_per_stream tcp.stream_chunks {}
      (Covers.refl _ _)
    have heq := Option.some.inj hupdate
    unfold ContentRecord.observeChunks at heq
    rw [heq] at hall
    exact hall
  | none =>
    rw [htcp] at hupdate
    dsimp only at hupdate
    cases hpayload : packet.transport_payload with
    | none => simp [hpayload] at hupdate
    | some transport =>
      rw [hpayload, Option.map_some] at hupdate
      have hone := h'.observePayload hmax flow.direction transport.bytes none now_us
        config.max_bytes_per_stream
      rw [Option.some.inj hupdate] at hone
      exact hone

end ContentRecord

end Rustmate.Content
