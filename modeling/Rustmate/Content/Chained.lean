import Rustmate.Content.Suffix

/-!
# The segments of a direction follow one another

Each segment begins where the one before ends, even where the offsets have reached the largest number and no
longer grow. So what is stored between two offsets is one window. -/

namespace Rustmate.Content

open Rustmate.Flow

/-- Saturating twice is saturating once. -/
theorem saturatingAdd_add (a b c : ℕ) : saturatingAdd a (b + c) = saturatingAdd (saturatingAdd a b) c := by
  unfold saturatingAdd
  omega

/-- Each segment begins where the one before ends, the first at `start`, and the last one ends at `stop`. -/
def Chain (start : ℕ) : List ContentSegment → ℕ → Prop
  | [], stop => start = stop
  | s :: segments, stop => s.logical_start = start ∧ Chain s.logicalEnd segments stop

/-- Two chains, one after the other. -/
theorem chain_append {start stop : ℕ} {xs ys : List ContentSegment} :
    Chain start (xs ++ ys) stop ↔ ∃ middle, Chain start xs middle ∧ Chain middle ys stop := by
  induction xs generalizing start with
  | nil => simp [Chain]
  | cons s xs ih =>
    constructor
    · rintro ⟨hstart, hrest⟩
      obtain ⟨middle, hxs, hys⟩ := ih.mp hrest
      exact ⟨middle, ⟨hstart, hxs⟩, hys⟩
    · rintro ⟨middle, ⟨hstart, hxs⟩, hys⟩
      exact ⟨hstart, ih.mpr ⟨middle, hxs, hys⟩⟩

/-- The segments of a direction are a chain up to the next offset. -/
def DirectionContent.Chained (content : DirectionContent) : Prop :=
  ∃ first, Chain first content.segments content.next_offset

/-- The segments of both directions are. -/
def ContentRecord.Chained (record : ContentRecord) : Prop := ∀ d, (record.directions.get d).Chained

namespace DirectionContent

variable {self : DirectionContent}

/-- No segment. -/
theorem chained_empty : Chained {} := ⟨0, rfl⟩

/-- A slice continues the chain, in a segment of its own or in the last one. -/
theorem Chained.appendSlice (h : self.Chained) (stream_id : BitVec 64) (direction : FlowDirection)
    (slice : List UInt8) (sequence_start : Option (BitVec 32)) (observed_us max_segment_bytes : ℕ)
    (append : DirectionAppend) :
    (self.appendSlice stream_id direction slice sequence_start observed_us max_segment_bytes append).1.Chained := by
  obtain ⟨first, hchain⟩ := h
  rw [appendSlice_fst]
  refine ⟨first, ?_⟩
  dsimp only
  cases hmerge : self.tryMergeLast sequence_start slice max_segment_bytes with
  | none =>
    rw [Option.getD_none]
    exact chain_append.mpr ⟨_, hchain, rfl, rfl⟩
  | some segments =>
    obtain ⟨init, last, hsplit, rfl, -⟩ := tryMergeLast_spec hmerge
    rw [hsplit] at hchain
    obtain ⟨middle, hinit, hstart, hend⟩ := chain_append.mp hchain
    rw [Option.getD_some]
    change saturatingAdd last.logical_start last.bytes.length = self.next_offset at hend
    refine chain_append.mpr ⟨middle, hinit, hstart, ?_⟩
    change saturatingAdd last.logical_start (last.bytes ++ slice).length = saturatingAdd self.next_offset slice.length
    rw [List.length_append, saturatingAdd_add, hend]

/-- All slices do. -/
theorem Chained.appendLoop (stream_id : BitVec 64) (direction : FlowDirection)
    (sequence_start : Option (BitVec 32)) (observed_us max_segment_bytes fuel : ℕ) {self : DirectionContent}
    (h : self.Chained) (consumed : ℕ) (bytes : List UInt8) (append : DirectionAppend) :
    (DirectionContent.appendLoop stream_id direction sequence_start observed_us max_segment_bytes fuel self consumed
      bytes append).1.Chained := by
  induction fuel generalizing self consumed bytes append with
  | zero => exact h
  | succ fuel ih =>
    unfold DirectionContent.appendLoop
    split_ifs
    · exact h
    · exact ih (h.appendSlice stream_id direction _ _ observed_us max_segment_bytes append) _ _ _

/-- What is left after trimming is a chain to the same end. -/
theorem chain_trimLoop {start stop : ℕ} {segments : List ContentSegment} (h : Chain start segments stop)
    (remaining trimmed stored_bytes : ℕ) :
    ∃ first, Chain first (trimLoop remaining segments trimmed stored_bytes).1 stop := by
  induction segments generalizing start remaining trimmed stored_bytes with
  | nil => exact ⟨start, h⟩
  | cons s segments ih =>
    unfold trimLoop
    dsimp only
    split_ifs with hzero hall
    · exact ⟨start, h⟩
    · exact ih h.2 _ _ _
    · -- the segment begins later, and ends where it did
      refine ⟨_, rfl, ?_⟩
      have hend : saturatingAdd (saturatingAdd s.logical_start (min remaining s.bytes.length))
          (s.bytes.drop (min remaining s.bytes.length)).length = s.logicalEnd := by
        unfold ContentSegment.logicalEnd
        rw [← saturatingAdd_add, List.length_drop]
        congr 1
        omega
      have hrest := h.2
      rw [← hend] at hrest
      exact hrest

/-- Trimming keeps the chain. -/
theorem Chained.trimOldest (h : self.Chained) (bytes : ℕ) : (self.trimOldest bytes).1.Chained := by
  obtain ⟨first, hchain⟩ := h
  exact chain_trimLoop hchain bytes 0 self.stored_bytes

end DirectionContent

namespace ContentRecord

variable {record : ContentRecord}

/-- Setting one direction. -/
theorem Chained.set (h : record.Chained) (d : FlowDirection) {content : DirectionContent}
    (hcontent : content.Chained) : ∀ d', ((record.directions.set d content).get d').Chained := by
  intro d'
  by_cases hd : d' = d
  · rw [hd, PerDirection.get_set]
    exact hcontent
  · rw [PerDirection.get_set_ne _ _ hd]
    exact h d'

/-- Trimming a record. -/
theorem Chained.trimToLimitLoop (max_bytes_per_stream fuel : ℕ) {record : ContentRecord} (h : record.Chained)
    (trimmed : ℕ) : (trimToLimitLoop max_bytes_per_stream fuel record trimmed).1.Chained := by
  induction fuel generalizing record trimmed with
  | zero => exact h
  | succ fuel ih =>
    unfold ContentRecord.trimToLimitLoop
    split_ifs
    · exact h
    cases record.oldestDirection with
    | none => exact h
    | some d =>
      have hset := h.set d ((h d).trimOldest (record.storedBytes - max_bytes_per_stream))
      dsimp only
      split_ifs
      · exact hset
      · have htruncated : ContentRecord.Chained { record with
            directions := record.directions.set d
              ((record.directions.get d).trimOldest (record.storedBytes - max_bytes_per_stream)).1
            truncated := true } := hset
        exact ih htruncated _

/-- Observing a payload. -/
theorem Chained.observePayload (h : record.Chained) (d : FlowDirection) (bytes : List UInt8)
    (sequence_start : Option (BitVec 32)) (observed_us max_segment_bytes max_bytes_per_stream : ℕ) :
    (record.observePayload d bytes sequence_start observed_us max_segment_bytes max_bytes_per_stream).1.Chained := by
  by_cases hnil : bytes = []
  · rw [hnil, observePayload_nil]
    exact h
  · rw [observePayload_eq record d hnil]
    have happended : (record.appended d bytes sequence_start observed_us max_segment_bytes).Chained :=
      h.set d ((h d).appendLoop ..)
    exact happended.trimToLimitLoop _ _ 0

/-- Observing several chunks. -/
theorem Chained.observeChunks (h : record.Chained) (chunks : List StreamChunk)
    (observed_us max_segment_bytes max_bytes_per_stream : ℕ) :
    (record.observeChunks chunks observed_us max_segment_bytes max_bytes_per_stream).1.Chained := by
  unfold ContentRecord.observeChunks
  generalize ({} : RecordUpdate) = update
  induction chunks generalizing record update with
  | nil => exact h
  | cons chunk chunks ih =>
    have hnext := h.observePayload chunk.direction chunk.bytes (some chunk.sequence_start) observed_us
      max_segment_bytes max_bytes_per_stream
    exact ih hnext _

/-- Observing a packet. -/
theorem Chained.updateRecord (h : record.Chained) {config : StreamContentConfig} {packet : DecodedPacket}
    {flow : FlowObservation} {now_us : ℕ} {after : ContentRecord} {update : RecordUpdate}
    (hupdate : StreamContent.updateRecord config record packet flow now_us = some (after, update)) :
    after.Chained := by
  unfold StreamContent.updateRecord at hupdate
  have hseen : ({ record with last_seen_us := now_us } : ContentRecord).Chained := h
  cases htcp : flow.tcp with
  | some tcp =>
    simp only [htcp, Option.some.injEq] at hupdate
    have hafter := hseen.observeChunks tcp.stream_chunks now_us config.max_segment_bytes config.max_bytes_per_stream
    rw [hupdate] at hafter
    exact hafter
  | none =>
    simp only [htcp] at hupdate
    obtain ⟨transport, -, hpayload⟩ := Option.map_eq_some_iff.mp hupdate
    have hafter := hseen.observePayload flow.direction transport.bytes none now_us config.max_segment_bytes
      config.max_bytes_per_stream
    rw [hpayload] at hafter
    exact hafter

end ContentRecord

/-! ## Every record -/

namespace StreamContent

variable {P : ContentRecord → Prop}

/-- What is true of a new record, and stays true when a packet is observed, is true of every record of the
store. -/
theorem observeFlow_records (hnew : ∀ key now_us, P (.new key now_us))
    (hupdate : ∀ config record packet flow now_us after update, P record →
      updateRecord config record packet flow now_us = some (after, update) → P after)
    {store : StreamContent} (h : ∀ key record, store.streams.lookup key = some record → P record)
    (order : IterOrder FlowKey ContentRecord) (packet : DecodedPacket) (flow : FlowObservation) :
    ∀ key record, (store.observeFlow order packet flow).1.streams.lookup key = some record → P record := by
  have hinsert : ∀ {store : StreamContent}, (∀ key record, store.streams.lookup key = some record → P record) →
      ∀ {key record}, P record → ∀ key' record', (store.streams.insert key record).lookup key' = some record' →
        P record' := by
    intro store hall key record hrecord key' record' hlookup
    by_cases hkey : key' = key
    · rw [hkey, AList.lookup_insert] at hlookup
      exact Option.some.inj hlookup ▸ hrecord
    · rw [AList.lookup_insert_ne hkey] at hlookup
      exact hall key' record' hlookup
  unfold observeFlow
  split_ifs with hquiet
  · exact h
  generalize timestampUs packet.timestamp = now_us
  have htick : ∀ key record, (store.tick order now_us).streams.lookup key = some record → P record :=
    fun key record hlookup => h key record ((store.tick_evicts order now_us).lookup_some hlookup)
  dsimp only
  generalize store.tick order now_us = ticked at htick ⊢
  have hensure : ∀ key record, (ticked.ensureStream order flow.key now_us).1.streams.lookup key = some record →
      P record := by
    rcases ticked.ensureStream_cases order flow.key now_us with
      ⟨-, heq⟩ | ⟨-, room, hroom, ⟨-, heq⟩ | heq⟩ <;> rw [heq]
    · exact htick
    · exact hinsert (fun key record hlookup => htick key record (hroom.evicts.lookup_some hlookup))
        (hnew flow.key now_us)
    · exact fun key record hlookup => htick key record (hroom.evicts.lookup_some hlookup)
  generalize ticked.ensureStream order flow.key now_us = ensured at hensure ⊢
  obtain ⟨ready, _ | _⟩ := ensured
  · exact hensure
  dsimp only at hensure ⊢
  cases hlookup : ready.streams.lookup flow.key with
  | none =>
    unfold observeRecord
    simp only [hlookup]
    exact hensure
  | some record =>
    cases hrecord : updateRecord ready.config record packet flow now_us with
    | none =>
      unfold observeRecord
      simp only [hlookup, hrecord]
      exact hensure
    | some updated =>
      obtain ⟨after, update⟩ := updated
      have hafter := hupdate _ _ _ _ _ _ _ (hensure _ _ hlookup) hrecord
      rcases ready.observeRecord_cases order now_us hlookup hrecord with ⟨-, heq⟩ | ⟨-, last, hevicts, heq, -⟩
      · rw [heq]
        exact hinsert hensure hafter
      · rw [heq]
        exact fun key record' hlookup' => hinsert hensure hafter key record' (hevicts.lookup_some hlookup')

/-- What is true of a new record, and stays true when a packet is observed, is true of every record of every
run. -/
theorem observeAll_records (hnew : ∀ key now_us, P (.new key now_us))
    (hupdate : ∀ config record packet flow now_us after update, P record →
      updateRecord config record packet flow now_us = some (after, update) → P after)
    (config : StreamContentConfig) (calls : List ContentCall) :
    ∀ key record, (observeAll config calls).1.streams.lookup key = some record → P record := by
  induction calls using List.reverseRecOn with
  | nil => exact fun key record hlookup => by simp [observeAll, new] at hlookup
  | append_singleton calls call ih =>
    unfold observeAll at ih ⊢
    rw [List.foldl_append]
    exact observeFlow_records hnew hupdate ih call.order call.packet call.flow

/-- Every record of every run is a chain of segments in both directions. -/
theorem observeAll_chained (config : StreamContentConfig) (calls : List ContentCall) :
    ∀ key record, (observeAll config calls).1.streams.lookup key = some record → record.Chained :=
  observeAll_records (fun _ _ d => by cases d <;> exact DirectionContent.chained_empty)
    (fun _ _ _ _ _ _ _ h hupdate => h.updateRecord hupdate) config calls

end StreamContent

/-! ## Windows -/

/-- The bytes of a segment with offsets in a range. -/
def ContentSegment.between (s : ContentSegment) (lo hi : ℕ) : List UInt8 :=
  ((s.bytes.zipIdx s.logical_start).filter fun x => lo ≤ x.2 ∧ x.2 < hi).map Prod.fst

/-- The stored bytes with offsets in a range. -/
def DirectionContent.storedBetween (self : DirectionContent) (lo hi : ℕ) : List UInt8 :=
  self.segments.flatMap fun s => s.between lo hi

/-- The bytes with offsets in a range are a part of the segment. -/
theorem filter_zipIdx_eq (bytes : List UInt8) (start lo hi : ℕ) :
    ((bytes.zipIdx start).filter fun x => lo ≤ x.2 ∧ x.2 < hi).map Prod.fst =
      (bytes.drop (lo - start)).take (hi - max start lo) := by
  induction bytes generalizing start with
  | nil => simp
  | cons byte bytes ih =>
    rw [List.zipIdx_cons]
    by_cases hlo : lo ≤ start
    · by_cases hhi : start < hi
      · rw [List.filter_cons_of_pos (by simp [hlo, hhi]), List.map_cons, ih, show lo - start = 0 by omega,
          show hi - max start lo = (hi - max (start + 1) lo) + 1 by omega, List.drop_zero, List.take_succ_cons,
          show lo - (start + 1) = 0 by omega, List.drop_zero]
      · rw [List.filter_cons_of_neg (by simp [hhi]), ih, show hi - max start lo = 0 by omega,
          show hi - max (start + 1) lo = 0 by omega, List.take_zero, List.take_zero]
    · rw [List.filter_cons_of_neg (by simp [hlo]), ih, show lo - start = (lo - (start + 1)) + 1 by omega,
        List.drop_succ_cons, show max (start + 1) lo = max start lo by omega]

/-- What one turn of `windows` takes of a segment. -/
theorem ContentSegment.between_eq (s : ContentSegment) (lo : ℕ) {hi : ℕ} (hhi : hi ≤ u64Max) :
    s.between lo hi = (s.bytes.drop (max s.logical_start lo - s.logical_start)).take
        (min s.logicalEnd hi - max s.logical_start lo) ∧
      (s.between lo hi).length = min s.logicalEnd hi - max s.logical_start lo := by
  have htake : s.between lo hi = (s.bytes.drop (max s.logical_start lo - s.logical_start)).take
      (min s.logicalEnd hi - max s.logical_start lo) := by
    unfold between logicalEnd saturatingAdd
    rw [filter_zipIdx_eq, show max s.logical_start lo - s.logical_start = lo - s.logical_start by omega,
      List.take_eq_take_iff, List.length_drop]
    omega
  refine ⟨htake, ?_⟩
  rw [htake, List.length_take, List.length_drop]
  unfold logicalEnd saturatingAdd
  omega

/-- The loop of `windows` has gathered these bytes in one piece, and the next segment begins at `next`. -/
structure InOnePiece (lo hi next : ℕ) (gathered : List UInt8) (state : DirectionContent.WindowsState) : Prop where
  windows : state.windows = []
  bytes : state.current_bytes = gathered
  place : gathered ≠ [] → lo ≤ state.current_start ∧ state.current_start + gathered.length = state.current_end ∧
    state.current_end ≤ hi ∧ (next = state.current_end ∨ hi ≤ next)

/-- One segment. -/
theorem InOnePiece.step {lo hi : ℕ} {gathered : List UInt8} {state : DirectionContent.WindowsState}
    {s : ContentSegment} (h : InOnePiece lo hi s.logical_start gathered state) (hhi : hi ≤ u64Max) :
    InOnePiece lo hi s.logicalEnd (gathered ++ s.between lo hi) (DirectionContent.windowsStep lo hi state s) := by
  obtain ⟨hwindows, hbytes, hplace⟩ := h
  obtain ⟨htake, hlength⟩ := s.between_eq lo hhi
  have hend : s.logicalEnd = min (s.logical_start + s.bytes.length) u64Max := rfl
  unfold DirectionContent.windowsStep
  dsimp only
  rw [← htake]
  generalize s.between lo hi = piece at hlength ⊢
  by_cases hempty : min s.logicalEnd hi ≤ max s.logical_start lo
  · rw [if_pos hempty, List.length_eq_zero_iff.mp (by omega : piece.length = 0), List.append_nil]
    refine ⟨hwindows, hbytes, fun hne => ?_⟩
    obtain ⟨hlo, hlen, hle, hnext⟩ := hplace hne
    have hpos := List.length_pos_iff.mpr hne
    exact ⟨hlo, hlen, hle, by omega⟩
  rw [if_neg hempty, hbytes]
  by_cases hnil : gathered = []
  · rw [hnil, List.isEmpty_nil, if_pos rfl, List.nil_append]
    refine ⟨hwindows, rfl, fun _ => ⟨?_, ?_, ?_, ?_⟩⟩ <;> dsimp only <;> omega
  · obtain ⟨hlo, hlen, hle, hnext⟩ := hplace hnil
    have hpos := List.length_pos_iff.mpr hnil
    have hjoin : max s.logical_start lo = state.current_end := by omega
    rw [if_neg (by simpa using hnil), if_pos hjoin]
    refine ⟨hwindows, rfl, fun _ => ⟨hlo, ?_, ?_, ?_⟩⟩
    · rw [List.length_append]
      dsimp only
      omega
    · dsimp only
      omega
    · dsimp only
      omega

/-- All segments of a chain. -/
theorem InOnePiece.foldl {lo hi next stop : ℕ} {gathered : List UInt8} {state : DirectionContent.WindowsState}
    {segments : List ContentSegment} (h : InOnePiece lo hi next gathered state) (hhi : hi ≤ u64Max)
    (hchain : Chain next segments stop) :
    InOnePiece lo hi stop (gathered ++ segments.flatMap fun s => s.between lo hi)
      (segments.foldl (DirectionContent.windowsStep lo hi) state) := by
  induction segments generalizing next gathered state with
  | nil =>
    rw [List.flatMap_nil, List.append_nil]
    exact hchain ▸ h
  | cons s segments ih =>
    obtain ⟨hstart, hrest⟩ := hchain
    rw [List.flatMap_cons, ← List.append_assoc]
    exact ih ((hstart ▸ h).step hhi) hrest

/-- What is stored between two offsets is one window, if it is anything. -/
theorem DirectionContent.Chained.windows_eq {self : DirectionContent} (h : self.Chained) (stream_id : BitVec 64)
    (direction : FlowDirection) (lo : ℕ) {hi : ℕ} (hhi : hi ≤ u64Max) :
    let windows := self.windows stream_id direction lo hi
    (windows.flatMap fun window => window.bytes) = self.storedBetween lo hi ∧ windows.length ≤ 1 ∧
      ∀ window ∈ windows, window.bytes ≠ [] ∧ lo ≤ window.logical_start ∧
        window.logical_start + window.bytes.length ≤ hi := by
  obtain ⟨first, hchain⟩ := h
  have hstart : InOnePiece lo hi first [] {} := ⟨rfl, rfl, fun hne => absurd rfl hne⟩
  obtain ⟨hwindows, hbytes, hplace⟩ := hstart.foldl hhi hchain
  rw [List.nil_append] at hbytes hplace
  change _ = self.storedBetween lo hi at hbytes
  change self.storedBetween lo hi ≠ [] → _ at hplace
  intro windows
  have heq : windows = self.windows stream_id direction lo hi := rfl
  unfold DirectionContent.windows at heq
  by_cases hrange : hi ≤ lo
  · have hnil : self.storedBetween lo hi = [] := by
      unfold storedBetween
      rw [List.flatMap_eq_nil_iff]
      intro s hs
      rw [← List.length_eq_zero_iff, (s.between_eq lo hhi).2]
      omega
    rw [if_pos hrange] at heq
    rw [heq, hnil]
    exact ⟨rfl, Nat.zero_le _, by simp⟩
  rw [if_neg hrange] at heq
  dsimp only at heq
  rw [hwindows, hbytes] at heq
  by_cases hnil : self.storedBetween lo hi = []
  · rw [hnil, List.isEmpty_nil, if_pos rfl, List.map_nil] at heq
    rw [heq, hnil]
    exact ⟨rfl, Nat.zero_le _, by simp⟩
  · obtain ⟨hlo, hlen, hle, -⟩ := hplace hnil
    rw [if_neg (by simpa using hnil), List.nil_append, List.map_singleton] at heq
    rw [heq]
    refine ⟨by rw [List.flatMap_singleton], le_refl _, fun window hin => ?_⟩
    rw [List.mem_singleton.mp hin]
    change _ + (self.storedBetween lo hi).length = _ at hlen
    exact ⟨hnil, hlo, hlen.trans_le hle⟩

end Rustmate.Content
