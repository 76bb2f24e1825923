import Rustmate.Inventory.Records
import Rustmate.Lib.Absorb
import Rustmate.Lib.Projection

/-!
# Summaries do not depend on the packets

What a record tells of the bytes of its stream: how many there were, how they begin, what kind of content they
are, and the first and the last sequence number. Each direction is summed up by itself, and how its bytes are
cut into payload units makes no difference. -/

namespace Rustmate.Inventory

open Rustmate.Flow (FlowObservation StreamChunk TcpSequenceStatus)

/-! ## Payload units -/

/-- What `observe_payload_unit` is called with. -/
structure PayloadUnit where
  direction : FlowDirection
  bytes : List UInt8
  sequence : Option (BitVec 32 × BitVec 32)
  deriving DecidableEq, Repr

/-- The unit that a chunk is. -/
def PayloadUnit.ofChunk (chunk : StreamChunk) : PayloadUnit :=
  ⟨chunk.direction, chunk.bytes, some (chunk.sequence_start, chunk.sequence_end)⟩

/-- A packet as the record of its stream sees it, and whether an event tells of the record then. -/
structure RecordCall where
  packet : DecodedPacket
  flow : FlowObservation
  content_shard : Option ℕ
  emitted : Bool
  deriving DecidableEq, Repr

/-- The payload units that the packet brings. -/
def RecordCall.units (self : RecordCall) : List PayloadUnit :=
  match self.flow.tcp with
  | some tcp => tcp.stream_chunks.map .ofChunk
  | none =>
    match self.packet.transport_payload with
    | some transport => [⟨self.flow.direction, transport.bytes, none⟩]
    | none => []

/-- What `observe_flow` does with the record. -/
def StreamRecord.call (preview_limit : ℕ) (self : StreamRecord) (x : RecordCall) : StreamRecord :=
  let record := self.observe preview_limit x.packet x.flow x.content_shard
  if x.emitted then record.markEmitted else record

/-- One packet after the other. -/
def StreamRecord.callAll (preview_limit : ℕ) (self : StreamRecord) (xs : List RecordCall) : StreamRecord :=
  xs.foldl (StreamRecord.call preview_limit) self

/-- A packet that the inventory records is such a call. -/
theorem StreamInventory.observeFlow_call {self : StreamInventory} {order : IterOrder FlowKey StreamRecord}
    (henabled : self.config.enabled = true) (packet : DecodedPacket) (flow : FlowObservation) (content_shard : Option ℕ)
    {record : StreamRecord}
    (h : (self.observeFlow order packet flow content_shard).1.streams.lookup flow.key = some record) :
    ∃ previous emitted, (self.streams.lookup flow.key = some previous ∨
        previous = .new flow.key (timestampUs packet.timestamp)) ∧
      record = previous.call self.config.preview_bytes_per_direction ⟨packet, flow, content_shard, emitted⟩ := by
  obtain ⟨streams, hshrinks, hcases⟩ := self.observeFlow_cases order henabled packet flow content_shard
  rcases hcases with ⟨previous, hprevious, hrecords⟩ | ⟨-, hrecords⟩ | ⟨hgone, hstreams, -⟩
  · obtain ⟨emitted, hlookup⟩ := hrecords.lookup_self
    exact ⟨previous, emitted, .inl (hshrinks.lookup_some hprevious), Option.some.inj (h.symm.trans hlookup)⟩
  · obtain ⟨emitted, hlookup⟩ := hrecords.lookup_self
    exact ⟨_, emitted, .inr rfl, Option.some.inj (h.symm.trans hlookup)⟩
  · rw [hstreams, hgone] at h
    exact nomatch h

/-! ## Summaries -/

/-- What is told of the bytes of a direction. -/
structure BytesSummary where
  stream_bytes : ℕ := 0
  preview : List UInt8 := []
  content : ContentSampler := {}
  deriving DecidableEq, Repr

/-- What is told of a direction: its bytes, and the first and the last sequence number. -/
structure DirectionSummary where
  bytes : BytesSummary := {}
  sequences : Option (BitVec 32) × Option (BitVec 32) := (none, none)
  deriving DecidableEq, Repr

/-- What is told of a stream. -/
structure StreamSummary where
  stream_bytes : ℕ := 0
  directions : PerDirection DirectionSummary := ⟨{}, {}⟩
  deriving DecidableEq, Repr

/-- The summary of a direction. -/
def DirectionRecord.summary (self : DirectionRecord) : DirectionSummary :=
  ⟨⟨self.stream_bytes, self.preview, self.content⟩, self.first_sequence, self.last_sequence⟩

/-- The summary of a record. -/
def StreamRecord.summary (self : StreamRecord) : StreamSummary :=
  ⟨self.stream_bytes, self.directions.aToB.summary, self.directions.bToA.summary⟩

/-- The summary of a direction of a record. -/
theorem StreamRecord.summary_get (self : StreamRecord) (direction : FlowDirection) :
    self.summary.directions.get direction = (self.directions.get direction).summary := by
  cases direction <;> rfl

/-- The length of a unit is added. -/
def addBytes (stream_bytes : ℕ) (bytes : List UInt8) : ℕ :=
  if bytes = [] then stream_bytes else saturatingAdd stream_bytes bytes.length

/-- The bytes of a unit are summed up. -/
def BytesSummary.absorb (preview_limit : ℕ) (self : BytesSummary) (bytes : List UInt8) : BytesSummary where
  stream_bytes := addBytes self.stream_bytes bytes
  preview := StreamRecord.extendPreview self.preview bytes preview_limit
  content := self.content.observe bytes

/-- The sequence numbers of a unit: its end becomes the last one, its start the first one if there was none. -/
def raiseSequences (self : Option (BitVec 32) × Option (BitVec 32)) (sequence : BitVec 32 × BitVec 32) :
    Option (BitVec 32) × Option (BitVec 32) :=
  (self.1.or (some sequence.1), some sequence.2)

/-- The sequence numbers of a unit, if it has bytes. -/
def PayloadUnit.sequences (self : PayloadUnit) : Option (BitVec 32 × BitVec 32) :=
  if self.bytes = [] then none else self.sequence

/-- A unit is summed up in its direction. -/
def StreamSummary.observeUnit (preview_limit : ℕ) (self : StreamSummary) (unit : PayloadUnit) : StreamSummary :=
  let summary := self.directions.get unit.direction
  { stream_bytes := addBytes self.stream_bytes unit.bytes
    directions := self.directions.set unit.direction
      { bytes := summary.bytes.absorb preview_limit unit.bytes
        sequences := unit.sequences.elim summary.sequences (raiseSequences summary.sequences) } }

/-- No bytes are added. -/
theorem addBytes_nil (stream_bytes : ℕ) : addBytes stream_bytes [] = stream_bytes := if_pos rfl

/-- Counting bytes absorbs. -/
theorem absorbs_addBytes : Absorbs addBytes where
  nil := addBytes_nil
  append := fun n a b => by
    unfold addBytes saturatingAdd u64Max
    rw [List.length_append]
    by_cases ha : a = []
    · rw [if_pos ha, ha, List.nil_append, List.length_nil, Nat.zero_add]
    · by_cases hb : b = []
      · rw [if_neg ha, if_pos hb, hb, List.append_nil, if_neg ha, List.length_nil, Nat.add_zero]
      · rw [if_neg ha, if_neg hb, if_neg (List.append_ne_nil_of_left_ne_nil ha b)]
        omega

/-- How many bytes there were. -/
theorem addBytes_zero (bytes : List UInt8) : addBytes 0 bytes = min bytes.length u64Max := by
  unfold addBytes saturatingAdd
  split_ifs with hnil
  · rw [hnil]
    rfl
  · rw [Nat.zero_add]

/-- The preview is what fits. -/
theorem extendPreview_eq (limit : ℕ) (preview bytes : List UInt8) :
    StreamRecord.extendPreview preview bytes limit =
      takeUpTo (fun preview byte => preview ++ [byte]) List.length limit preview bytes := by
  unfold StreamRecord.extendPreview takeUpTo
  rw [List.foldl_append_eq_append, ← List.flatMap_def, List.flatMap_singleton']

/-- One byte of a sample is counted. -/
theorem sampled_sampleByte (self : ContentSampler) (byte : UInt8) : (self.sampleByte byte).sampled = self.sampled + 1 := by
  unfold ContentSampler.sampleByte
  dsimp only
  split_ifs <;> rfl

/-- The sample is what fits. -/
theorem observe_eq (self : ContentSampler) (bytes : List UInt8) :
    self.observe bytes =
      takeUpTo ContentSampler.sampleByte ContentSampler.sampled ContentSampler.sampleLimit self bytes := by
  unfold ContentSampler.observe takeUpTo
  split_ifs with hfull
  · rw [Nat.sub_eq_zero_of_le hfull, List.take_zero]
    rfl
  · rfl

/-- What is told of the bytes of a direction does not depend on the units. -/
theorem absorbs_absorb (preview_limit : ℕ) : Absorbs (BytesSummary.absorb preview_limit) := by
  have hpreview : Absorbs (takeUpTo (fun preview (byte : UInt8) => preview ++ [byte]) List.length preview_limit) :=
    absorbs_takeUpTo (fun preview byte => List.length_append) preview_limit
  have hcontent := absorbs_takeUpTo sampled_sampleByte ContentSampler.sampleLimit
  refine ⟨fun self => ?_, fun self a b => ?_⟩
  · unfold BytesSummary.absorb
    rw [absorbs_addBytes.nil, extendPreview_eq, hpreview.nil, observe_eq, hcontent.nil]
  · unfold BytesSummary.absorb
    simp only [extendPreview_eq, observe_eq]
    rw [absorbs_addBytes.append, hpreview.append, hcontent.append]

/-! ## What a packet adds to the summary -/

/-- A unit is summed up in its direction. -/
theorem StreamRecord.summary_observePayloadUnit (self : StreamRecord) (preview_limit : ℕ) (unit : PayloadUnit) :
    (self.observePayloadUnit unit.direction unit.bytes unit.sequence preview_limit).summary =
      self.summary.observeUnit preview_limit unit := by
  obtain ⟨direction, bytes, sequence⟩ := unit
  unfold StreamRecord.observePayloadUnit StreamSummary.observeUnit PayloadUnit.sequences
  dsimp only
  by_cases hnil : bytes = []
  · subst hnil
    rw [List.isEmpty_nil, if_pos rfl, if_pos rfl, addBytes_nil, (absorbs_absorb preview_limit).nil]
    cases direction <;> rfl
  · have hsome : ¬ bytes.isEmpty = true := by rwa [List.isEmpty_iff]
    rw [if_neg hsome, if_neg hnil]
    unfold BytesSummary.absorb addBytes
    rw [if_neg hnil, if_neg hnil]
    cases sequence with
    | none =>
      rw [Option.map_none, Option.or_none]
      cases direction <;> rfl
    | some sequence => cases direction <;> rfl

/-- Chunks are summed up one after the other. -/
theorem StreamRecord.summary_chunks (self : StreamRecord) (preview_limit : ℕ) (chunks : List StreamChunk) :
    (chunks.foldl (observeStreamChunk preview_limit) self).summary =
      (chunks.map .ofChunk).foldl (StreamSummary.observeUnit preview_limit) self.summary := by
  induction chunks generalizing self with
  | nil => rfl
  | cons chunk chunks ih =>
    rw [List.foldl_cons, ih, List.map_cons, List.foldl_cons, ← self.summary_observePayloadUnit]
    rfl

/-- The status does not belong to the summary. -/
theorem StreamRecord.summary_observeTcpStatus (self : StreamRecord) (direction : FlowDirection)
    (status : TcpSequenceStatus) : (self.observeTcpStatus direction status).summary = self.summary := by
  unfold StreamRecord.observeTcpStatus
  cases status with
  | fin => cases direction <;> rfl
  | _ => rfl

/-- A packet adds its units. -/
theorem StreamRecord.summary_call (self : StreamRecord) (preview_limit : ℕ) (x : RecordCall) :
    (self.call preview_limit x).summary = x.units.foldl (StreamSummary.observeUnit preview_limit) self.summary := by
  have hobserve : (self.observe preview_limit x.packet x.flow x.content_shard).summary =
      x.units.foldl (StreamSummary.observeUnit preview_limit) self.summary := by
    unfold StreamRecord.observe RecordCall.units
    dsimp only
    -- the packet is counted first, and that does not belong to the summary
    have hpacket : (StreamRecord.observePacket { self with content_shard := x.content_shard.or self.content_shard }
        x.packet x.flow.direction).summary = self.summary := by
      cases x.flow.direction <;> rfl
    generalize StreamRecord.observePacket { self with content_shard := x.content_shard.or self.content_shard }
      x.packet x.flow.direction = counted at hpacket ⊢
    cases x.flow.tcp with
    | some tcp =>
      dsimp only
      rw [summary_chunks, summary_observeTcpStatus, hpacket]
    | none =>
      dsimp only
      cases x.packet.transport_payload with
      | none => exact hpacket
      | some transport =>
        rw [List.foldl_cons, List.foldl_nil, ← hpacket]
        exact counted.summary_observePayloadUnit preview_limit ⟨x.flow.direction, transport.bytes, none⟩
  unfold StreamRecord.call
  dsimp only
  split_ifs
  · exact hobserve
  · exact hobserve

/-- Packets add all their units, in order. -/
theorem StreamRecord.summary_callAll (self : StreamRecord) (preview_limit : ℕ) (xs : List RecordCall) :
    (self.callAll preview_limit xs).summary =
      (xs.flatMap RecordCall.units).foldl (StreamSummary.observeUnit preview_limit) self.summary := by
  unfold StreamRecord.callAll
  induction xs generalizing self with
  | nil => rfl
  | cons x xs ih => rw [List.foldl_cons, ih, self.summary_call, List.flatMap_cons, List.foldl_append]

/-! ## The parts of a summary -/

/-- The units of a direction. -/
def unitsOf (direction : FlowDirection) (units : List PayloadUnit) : List PayloadUnit :=
  units.filter fun unit => unit.direction = direction

/-- The bytes of a direction. -/
def directionBytes (direction : FlowDirection) (units : List PayloadUnit) : List UInt8 :=
  (unitsOf direction units).flatMap PayloadUnit.bytes

/-- The sequence numbers of the units of a direction that have bytes. -/
def directionSequences (direction : FlowDirection) (units : List PayloadUnit) : List (BitVec 32 × BitVec 32) :=
  (unitsOf direction units).filterMap PayloadUnit.sequences

/-- What is told of the bytes of a direction is changed by its own units only. -/
theorem projects_bytes (preview_limit : ℕ) (direction : FlowDirection) :
    Projects (StreamSummary.observeUnit preview_limit) (fun _ => True) (fun _ => True)
      (fun summary => (summary.directions.get direction).bytes)
      (fun unit => if unit.direction = direction then some unit.bytes else none) (BytesSummary.absorb preview_limit) where
  before := fun _ _ _ _ => trivial
  takes := fun summary unit _ _ => by
    unfold StreamSummary.observeUnit
    dsimp only
    by_cases hdirection : unit.direction = direction
    · rw [if_pos hdirection, hdirection, PerDirection.get_set]
      rfl
    · rw [if_neg hdirection, PerDirection.get_set_ne _ _ (Ne.symm hdirection)]
      rfl

/-- So are its sequence numbers. -/
theorem projects_sequences (preview_limit : ℕ) (direction : FlowDirection) :
    Projects (StreamSummary.observeUnit preview_limit) (fun _ => True) (fun _ => True)
      (fun summary => (summary.directions.get direction).sequences)
      (fun unit => if unit.direction = direction then unit.sequences else none) raiseSequences where
  before := fun _ _ _ _ => trivial
  takes := fun summary unit _ _ => by
    unfold StreamSummary.observeUnit
    dsimp only
    by_cases hdirection : unit.direction = direction
    · rw [if_pos hdirection, hdirection, PerDirection.get_set]
    · rw [if_neg hdirection, PerDirection.get_set_ne _ _ (Ne.symm hdirection)]
      rfl

/-- The number of bytes in both directions is changed by every unit. -/
theorem projects_total (preview_limit : ℕ) :
    Projects (StreamSummary.observeUnit preview_limit) (fun _ => True) (fun _ => True) StreamSummary.stream_bytes
      (fun unit => some unit.bytes) addBytes where
  before := fun _ _ _ _ => trivial
  takes := fun _ _ _ _ => rfl

/-- The first and the last of some sequence numbers. -/
theorem foldl_raiseSequences (sequences : List (BitVec 32 × BitVec 32))
    (before : Option (BitVec 32) × Option (BitVec 32)) :
    sequences.foldl raiseSequences before =
      (before.1.or (sequences.head?.map Prod.fst), (sequences.getLast?.map Prod.snd).or before.2) := by
  induction sequences generalizing before with
  | nil =>
    rw [List.foldl_nil, List.head?_nil, Option.map_none, Option.or_none]
    rfl
  | cons sequence sequences ih =>
    rw [List.foldl_cons, ih, List.head?_cons, List.getLast?_cons]
    refine Prod.ext ?_ ?_
    · unfold raiseSequences
      rw [Option.or_assoc]
      rfl
    · cases sequences.getLast? with
      | none => rfl
      | some last => rfl

/-! ## The kind of a content -/

/-- A space or the end of a line. -/
def isSpace (byte : UInt8) : Bool := byte = 0x0A ∨ byte = 0x0D ∨ byte = 0x09 ∨ byte = 0x20

/-- A control character, but for the zero. -/
def isControl (byte : UInt8) : Bool := byte ≠ 0 ∧ isSpace byte = false ∧ (byte ≤ 0x1F ∨ byte = 0x7F)

/-- Neither zero nor a control character. -/
def isText (byte : UInt8) : Bool := byte ≠ 0 ∧ isControl byte = false

/-- The kind of a text: binary with a zero or more than five in a hundred control characters, a text with at
least ninety in a hundred bytes of text. -/
def kindOf (bytes : List UInt8) : ContentKind :=
  if bytes = [] then .unknown
  else if 0 ∈ bytes ∨ 5 < bytes.countP isControl * 100 / bytes.length then .binary
  else if 90 ≤ bytes.countP isText * 100 / bytes.length then .text
  else .mixed

/-- What a sampler counts of a byte. -/
theorem sampleByte_counts (self : ContentSampler) (byte : UInt8) :
    (self.sampleByte byte).nulls = self.nulls + (if byte == 0 then 1 else 0) ∧
      (self.sampleByte byte).control = self.control + (if isControl byte then 1 else 0) ∧
      (self.sampleByte byte).printable + (self.sampleByte byte).whitespace =
        self.printable + self.whitespace + (if isText byte then 1 else 0) := by
  by_cases hzero : byte = 0
  · subst hzero
    exact ⟨rfl, rfl, rfl⟩
  · have hnot : (byte == 0) = false := beq_eq_false_iff_ne.mpr hzero
    unfold ContentSampler.sampleByte
    rw [if_neg hzero, hnot]
    by_cases hspace : byte = 0x0A ∨ byte = 0x0D ∨ byte = 0x09 ∨ byte = 0x20
    · have hcontrol : isControl byte = false := by simp [isControl, isSpace, hspace]
      have htext : isText byte = true := by simp [isText, hzero, hcontrol]
      rw [if_pos hspace, hcontrol, htext]
      exact ⟨rfl, rfl, rfl⟩
    · rw [if_neg hspace]
      by_cases hlow : byte ≤ 0x1F ∨ byte = 0x7F
      · have hcontrol : isControl byte = true := by simp [isControl, isSpace, hspace, hzero, hlow]
        have htext : isText byte = false := by simp [isText, hcontrol]
        rw [if_pos hlow, hcontrol, htext]
        exact ⟨rfl, rfl, rfl⟩
      · have hcontrol : isControl byte = false := by simp [isControl, hlow]
        have htext : isText byte = true := by simp [isText, hzero, hcontrol]
        rw [if_neg hlow, hcontrol, htext]
        exact ⟨rfl, rfl, Nat.add_right_comm _ _ _⟩

/-- The kind of a sample that is no longer than the limit. -/
theorem kind_foldl {sample : List UInt8} (h : sample.length ≤ ContentSampler.sampleLimit) :
    (sample.foldl ContentSampler.sampleByte {}).kind = kindOf sample := by
  have hsampled := foldl_length sampled_sampleByte sample {}
  have hnulls := foldl_countP ContentSampler.nulls (fun s byte => (sampleByte_counts s byte).1) sample {}
  have hcontrol := foldl_countP ContentSampler.control (fun s byte => (sampleByte_counts s byte).2.1) sample {}
  have htext := foldl_countP (fun s : ContentSampler => s.printable + s.whitespace)
    (fun s byte => (sampleByte_counts s byte).2.2) sample {}
  generalize sample.foldl ContentSampler.sampleByte {} = s at hsampled hnulls hcontrol htext ⊢
  obtain ⟨sampled, printable, whitespace, control, nulls⟩ := s
  dsimp only at hsampled hnulls hcontrol htext
  rw [Nat.zero_add] at hsampled hnulls hcontrol htext
  -- no counter is above the limit, so nothing saturates
  have hle : ∀ p : UInt8 → Bool, sample.countP p ≤ 4096 := fun p => List.countP_le_length.trans h
  have hcontrolLe := hle isControl
  have htextLe := hle isText
  have hzero : nulls ≠ 0 ↔ 0 ∈ sample := by
    rw [hnulls, ← Nat.pos_iff_ne_zero, List.countP_pos_iff]
    constructor
    · rintro ⟨byte, hmem, heq⟩
      rwa [← eq_of_beq heq]
    · exact fun hmem => ⟨0, hmem, rfl⟩
  have hcontrolMul : saturatingMul control 100 = sample.countP isControl * 100 := by
    unfold saturatingMul u64Max
    omega
  have htextMul : saturatingMul (saturatingAdd printable whitespace) 100 = sample.countP isText * 100 := by
    unfold saturatingMul saturatingAdd u64Max
    omega
  unfold ContentSampler.kind kindOf
  dsimp only
  rw [hcontrolMul, htextMul, hsampled]
  simp only [hzero, List.length_eq_zero_iff]

/-- The kind that a sampler finds is that of the bytes up to the limit. -/
theorem kind_observe (bytes : List UInt8) :
    (ContentSampler.observe {} bytes).kind = kindOf (bytes.take ContentSampler.sampleLimit) := by
  rw [observe_eq]
  exact kind_foldl (List.length_take_le _ _)

/-! ## The summary of a record -/

/-- The bytes of both directions are all bytes. -/
theorem length_flatten_bytes (units : List PayloadUnit) :
    (units.map PayloadUnit.bytes).flatten.length =
      (directionBytes .aToB units).length + (directionBytes .bToA units).length := by
  unfold directionBytes unitsOf
  induction units with
  | nil => rfl
  | cons unit units ih =>
    obtain ⟨direction, bytes, sequence⟩ := unit
    rw [List.map_cons, List.flatten_cons, List.length_append, ih]
    cases direction with
    | aToB =>
      simp only [List.filter_cons, decide_true, if_true, reduceCtorEq, decide_false, Bool.false_eq_true, if_false,
        List.flatMap_cons, List.length_append]
      omega
    | bToA =>
      simp only [List.filter_cons, decide_true, if_true, reduceCtorEq, decide_false, Bool.false_eq_true, if_false,
        List.flatMap_cons, List.length_append]
      omega

/-- What a record tells of its stream after any packets, in terms of the bytes of each direction. -/
structure StreamRecord.Tells (preview_limit : ℕ) (units : List PayloadUnit) (of : StreamRecord) : Prop where
  stream_bytes : ∀ d, (of.directions.get d).stream_bytes = min (directionBytes d units).length u64Max
  preview : ∀ d, (of.directions.get d).preview = (directionBytes d units).take preview_limit
  kind : ∀ d, (of.directions.get d).content.kind = kindOf ((directionBytes d units).take ContentSampler.sampleLimit)
  first_sequence : ∀ d, (of.directions.get d).first_sequence = (directionSequences d units).head?.map Prod.fst
  last_sequence : ∀ d, (of.directions.get d).last_sequence = (directionSequences d units).getLast?.map Prod.snd
  total : of.stream_bytes = min ((directionBytes .aToB units).length + (directionBytes .bToA units).length) u64Max

/-- A new record tells of the bytes of the packets that come. -/
theorem StreamRecord.tells_callAll (key : FlowKey) (now_us preview_limit : ℕ) (xs : List RecordCall) :
    ((new key now_us).callAll preview_limit xs).Tells preview_limit (xs.flatMap RecordCall.units) := by
  have hsummary := (new key now_us).summary_callAll preview_limit xs
  generalize (new key now_us).callAll preview_limit xs = record at hsummary ⊢
  generalize xs.flatMap RecordCall.units = units at hsummary ⊢
  have hstart : (new key now_us).summary = {} := rfl
  rw [hstart] at hsummary
  have hbytes : ∀ d, (record.directions.get d).summary.bytes =
      BytesSummary.absorb preview_limit {} (directionBytes d units) := by
    intro d
    have hfold := ((projects_bytes preview_limit d).foldl units (fun _ _ => trivial) {} trivial).2
    rw [← record.summary_get, hsummary, hfold]
    have hown : units.filterMap (fun unit => if unit.direction = d then some unit.bytes else none) =
        (unitsOf d units).map PayloadUnit.bytes := by
      unfold unitsOf
      rw [← List.filterMap_eq_map, List.filterMap_filter]
      simp only [decide_eq_true_eq, Function.comp_apply]
    rw [hown, (absorbs_absorb preview_limit).flatten]
    cases d <;> rfl
  have hsequences : ∀ d, (record.directions.get d).summary.sequences =
      ((directionSequences d units).head?.map Prod.fst, (directionSequences d units).getLast?.map Prod.snd) := by
    intro d
    have hfold := ((projects_sequences preview_limit d).foldl units (fun _ _ => trivial) {} trivial).2
    rw [← record.summary_get, hsummary, hfold]
    have hown : units.filterMap (fun unit => if unit.direction = d then unit.sequences else none) =
        directionSequences d units := by
      unfold directionSequences unitsOf
      rw [List.filterMap_filter]
      simp only [decide_eq_true_eq]
    rw [hown, foldl_raiseSequences]
    cases d <;> simp [PerDirection.get]
  refine ⟨fun d => ?_, fun d => ?_, fun d => ?_, fun d => ?_, fun d => ?_, ?_⟩
  · exact (congrArg BytesSummary.stream_bytes (hbytes d)).trans (addBytes_zero _)
  · refine (congrArg BytesSummary.preview (hbytes d)).trans ?_
    exact List.nil_append _
  · refine (congrArg (fun bytes => bytes.content.kind) (hbytes d)).trans ?_
    exact kind_observe _
  · exact congrArg Prod.fst (hsequences d)
  · exact congrArg Prod.snd (hsequences d)
  · have hfold := ((projects_total preview_limit).foldl units (fun _ _ => trivial) {} trivial).2
    have htotal : record.stream_bytes = addBytes 0 (units.map PayloadUnit.bytes).flatten := by
      rw [← absorbs_addBytes.flatten, ← List.filterMap_eq_map]
      exact (congrArg StreamSummary.stream_bytes hsummary).trans hfold
    rw [htotal, addBytes_zero, length_flatten_bytes]

/-- The packets bring these bytes of the two directions, cut and interleaved in some way. -/
def Cuts (streams : PerDirection (List UInt8)) (xs : List RecordCall) : Prop :=
  ∀ d, directionBytes d (xs.flatMap RecordCall.units) = streams.get d

/-- However the bytes of the two directions are cut and interleaved, the records tell the same of each
direction: how many bytes there were, how they begin, and the kind of the first ones. The bytes of the stream
are those of both directions, and the sequence numbers are the start of the first unit with bytes and the end
of the last. -/
theorem StreamRecord.callAll_cuts (key : FlowKey) (now_us other_us preview_limit : ℕ)
    {streams : PerDirection (List UInt8)} {xs ys : List RecordCall} (hxs : Cuts streams xs) (hys : Cuts streams ys) :
    let record := (new key now_us).callAll preview_limit xs
    let other := (new key other_us).callAll preview_limit ys
    (∀ d,
      let direction := record.directions.get d
      let sequences := directionSequences d (xs.flatMap RecordCall.units)
      ((other.directions.get d).stream_bytes = direction.stream_bytes ∧
        (other.directions.get d).preview = direction.preview ∧
        (other.directions.get d).content.kind = direction.content.kind) ∧
      direction.stream_bytes = min (streams.get d).length u64Max ∧
      direction.preview = (streams.get d).take preview_limit ∧
      direction.content.kind = kindOf ((streams.get d).take ContentSampler.sampleLimit) ∧
      direction.first_sequence = sequences.head?.map Prod.fst ∧
      direction.last_sequence = sequences.getLast?.map Prod.snd) ∧
    other.stream_bytes = record.stream_bytes ∧
    record.stream_bytes = saturatingAdd record.directions.aToB.stream_bytes record.directions.bToA.stream_bytes ∧
    (streams.aToB.length + streams.bToA.length < 2^64 →
      record.stream_bytes = record.directions.aToB.stream_bytes + record.directions.bToA.stream_bytes) := by
  have hx := tells_callAll key now_us preview_limit xs
  have hy := tells_callAll key other_us preview_limit ys
  have ha : ((new key now_us).callAll preview_limit xs).directions.aToB.stream_bytes = min streams.aToB.length u64Max :=
    (hx.stream_bytes .aToB).trans (by rw [hxs .aToB]; rfl)
  have hb : ((new key now_us).callAll preview_limit xs).directions.bToA.stream_bytes = min streams.bToA.length u64Max :=
    (hx.stream_bytes .bToA).trans (by rw [hxs .bToA]; rfl)
  have htotal : ((new key now_us).callAll preview_limit xs).stream_bytes =
      min (streams.aToB.length + streams.bToA.length) u64Max :=
    hx.total.trans (by rw [hxs .aToB, hxs .bToA]; rfl)
  refine ⟨fun d => ⟨⟨?_, ?_, ?_⟩, ?_, ?_, ?_, hx.first_sequence d, hx.last_sequence d⟩, ?_, ?_, fun hbytes => ?_⟩
  · rw [hx.stream_bytes, hy.stream_bytes, hxs d, hys d]
  · rw [hx.preview, hy.preview, hxs d, hys d]
  · rw [hx.kind, hy.kind, hxs d, hys d]
  · rw [hx.stream_bytes, hxs d]
  · rw [hx.preview, hxs d]
  · rw [hx.kind, hxs d]
  · rw [hx.total, hy.total, hxs .aToB, hxs .bToA, hys .aToB, hys .bToA]
  · rw [htotal, ha, hb]
    unfold saturatingAdd u64Max
    omega
  · rw [htotal, ha, hb]
    unfold u64Max
    omega

/-- A segment of the sample flow, as the flow table reports it. -/
def sampleCall (direction : FlowDirection) (sequence_number : BitVec 32) (bytes : List UInt8) : RecordCall where
  packet := samplePacket 1 direction sequence_number noFlags bytes
  flow :=
    { key := sampleKey 1
      direction
      packets := 1
      bytes := 54 + bytes.length
      is_new := false
      tcp := some
        { sequence_number
          next_sequence := sequence_number + BitVec.ofNat 32 bytes.length
          acknowledgment_number := 0
          payload_len := bytes.length
          status := .inOrder
          buffered_segments := 0
          buffered_bytes := 0
          stream_chunks :=
            [⟨direction, sequence_number, sequence_number + BitVec.ofNat 32 bytes.length, bytes, .currentSegment⟩] } }
  content_shard := none
  emitted := false

/-- A request in two segments with the response in between, and the request in one segment after the response. -/
theorem StreamRecord.callAll_cuts_request :
    let record := (new (sampleKey 1) 0).callAll 4
      [sampleCall .aToB 10 [71, 69], sampleCall .bToA 90 [79, 75], sampleCall .aToB 12 [84, 32, 47]]
    let other := (new (sampleKey 1) 0).callAll 4 [sampleCall .bToA 90 [79, 75], sampleCall .aToB 10 [71, 69, 84, 32, 47]]
    (other.directions.aToB.preview = record.directions.aToB.preview ∧
        record.directions.aToB.preview = [71, 69, 84, 32]) ∧
      record.directions.aToB.first_sequence = some 10 ∧ record.directions.aToB.last_sequence = some 15 := by
  have hxs : Cuts ⟨[71, 69, 84, 32, 47], [79, 75]⟩
      [sampleCall .aToB 10 [71, 69], sampleCall .bToA 90 [79, 75], sampleCall .aToB 12 [84, 32, 47]] :=
    fun d => by cases d <;> rfl
  have hys : Cuts ⟨[71, 69, 84, 32, 47], [79, 75]⟩
      [sampleCall .bToA 90 [79, 75], sampleCall .aToB 10 [71, 69, 84, 32, 47]] :=
    fun d => by cases d <;> rfl
  obtain ⟨⟨-, hsame, -⟩, -, hpreview, -, hfirst, hlast⟩ := (callAll_cuts (sampleKey 1) 0 0 4 hxs hys).1 .aToB
  exact ⟨⟨hsame, hpreview⟩, hfirst, hlast⟩

end Rustmate.Inventory
