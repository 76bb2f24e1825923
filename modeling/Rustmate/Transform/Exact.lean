import Rustmate.Transform.Cap
import Rustmate.Transform.Inflate

/-!
# When the limit is said to have cut

A transform says whether its limit has cut off something. What it says is compared with what it would have decoded
without a limit: with every limit that is large enough, the outcome is the same.
-/

namespace Rustmate.Transform

open Message (Text)

/-- The outcome under every limit that is large enough. -/
def Uncapped (transform : ℕ → TransformOutcome) (full : TransformOutcome) : Prop :=
  ∃ n, ∀ cap, n ≤ cap → transform cap = full

/-- A transform under a limit shows what comes first of what it shows without: it is applied, and behind the head
there is as much as the limit allows. -/
structure Shows (head cap : ℕ) (full capped : TransformOutcome) : Prop where
  status : capped.status = .applied
  decoded : capped.bytes.drop head = (full.bytes.drop head).take cap

/-- A transform under a limit is exact beside the one without: it shows what comes first, and it says that something
was cut off exactly when something was. The head is shown in any case. -/
structure Exact (head cap : ℕ) (full capped : TransformOutcome) : Prop extends Shows head cap full capped where
  truncated_by_limit : capped.truncated_by_limit = true ↔ cap < (full.bytes.drop head).length

/-- Where what comes first is shown, only what is said decides. -/
theorem exact_iff {head cap : ℕ} {full capped : TransformOutcome} (h : Shows head cap full capped) :
    Exact head cap full capped ↔
      (capped.truncated_by_limit = true ↔ cap < (full.bytes.drop head).length) :=
  ⟨Exact.truncated_by_limit, fun hsaid => ⟨h, hsaid⟩⟩

/-! ## Chunked bodies -/

section Chunked

variable {input : List UInt8} {cap : ℕ} {header_text : Text} {header_end : ℕ} {decoded : ChunkedDecode}

/-- The outcome for a decoded body. -/
def chunkedOutcome (input : List UInt8) (header_end : ℕ) (decoded : ChunkedDecode) : TransformOutcome where
  applied := .httpChunked
  status := .applied
  bytes := input.take header_end ++ decoded.bytes
  truncated_by_limit := decoded.truncated_by_limit
  notes := chunkedNotes decoded

/-- Something was decoded: a chunk, or the last one. -/
def Shown (decoded : ChunkedDecode) : Prop := decoded.chunks ≠ 0 ∨ decoded.reached_last_chunk = true

/-- A chunked body is shown. -/
theorem httpChunkedTransform_eq (hheader : httpHeader input = .ok (header_text, header_end))
    (hchunked : headerHasChunkedTransferEncoding header_text = true)
    (hdecoded : decodeChunkedBody (input.drop header_end) cap = .ok decoded) (hshown : Shown decoded) :
    httpChunkedTransform input cap = chunkedOutcome input header_end decoded := by
  have hfilled : (decide (decoded.chunks ≠ 0) || decoded.reached_last_chunk) = true := by
    unfold Shown at hshown
    simpa using hshown
  unfold httpChunkedTransform
  rw [hheader]
  simp only [hchunked, Bool.not_true, Bool.false_eq_true, if_false, hdecoded, hfilled, if_true]
  rfl

/-- The transform is applied to nothing else. -/
theorem httpChunkedTransform_applied (h : (httpChunkedTransform input cap).status = .applied) :
    ∃ header_text header_end decoded, httpHeader input = .ok (header_text, header_end) ∧
      headerHasChunkedTransferEncoding header_text = true ∧
      decodeChunkedBody (input.drop header_end) cap = .ok decoded ∧ Shown decoded := by
  unfold httpChunkedTransform at h
  cases hheader : httpHeader input with
  | error note =>
    rw [hheader] at h
    cases h
  | ok header =>
    obtain ⟨header_text, header_end⟩ := header
    simp only [hheader] at h
    cases hchunked : headerHasChunkedTransferEncoding header_text with
    | false =>
      rw [hchunked] at h
      cases h
    | true =>
      simp only [hchunked, Bool.not_true, Bool.false_eq_true, if_false] at h
      cases hdecoded : decodeChunkedBody (input.drop header_end) cap with
      | error err =>
        rw [hdecoded] at h
        cases h
      | ok decoded =>
        simp only [hdecoded] at h
        split_ifs at h with hshown
        · have hshown' : Shown decoded := by
            unfold Shown
            simpa using hshown
          exact ⟨header_text, header_end, decoded, rfl, hchunked, hdecoded, hshown'⟩
        · cases h

/-- The limit is met where it should be: with the first chunk that comes up to it and is closed, either bytes
follow and the body holds more than the limit, or nothing follows and the limit is met exactly. -/
def MetExactly (cap : ℕ) (chunks : List Chunk) : Prop :=
  ∀ length rest, ChunkedDecode.meets cap 0 chunks = some (length, rest) →
    (rest = 0 → length = cap) ∧ (0 < rest → cap < (chunkData chunks).length)

namespace ChunkedDecode

variable {chunks : List Chunk} {length rest : ℕ}

/-- Where the limit is met, the data is as long as it says. -/
theorem meets_le {n : ℕ} (h : meets cap n chunks = some (length, rest)) :
    cap ≤ length ∧ length ≤ n + (chunkData chunks).length := by
  induction chunks generalizing n with
  | nil => cases h
  | cons chunk chunks ih =>
    rw [chunkData_cons, List.length_append]
    unfold meets at h
    cases hrest : chunk.rest with
    | none =>
      simp only [hrest] at h
      have := ih h
      omega
    | some rest' =>
      simp only [hrest] at h
      split_ifs at h with hmet
      · injection h with h
        injection h with hlength
        omega
      · have := ih h
        omega

/-- Where nothing follows, the data ends. -/
theorem meets_end {n : ℕ} (hclosed : Closed chunks) (h : meets cap n chunks = some (length, 0)) :
    length = n + (chunkData chunks).length := by
  induction chunks generalizing n with
  | nil => cases h
  | cons chunk chunks ih =>
    obtain ⟨hlast, hclosed⟩ := hclosed
    rw [chunkData_cons, List.length_append]
    unfold meets at h
    cases hrest : chunk.rest with
    | none =>
      simp only [hrest] at h
      have := ih hclosed h
      omega
    | some rest' =>
      simp only [hrest] at h
      split_ifs at h with hmet
      · injection h with h
        injection h with hlength hzero
        rw [hlast (.inr (by rw [hrest, hzero])), chunkData_nil, List.length_nil]
        omega
      · have := ih hclosed h
        omega

/-- A limit beyond the data is not met. -/
theorem meets_eq_none (h : (chunkData chunks).length < cap) : meets cap 0 chunks = none := by
  cases hmeets : meets cap 0 chunks with
  | none => rfl
  | some met =>
    have := meets_le hmeets
    omega

/-- Whatever was decoded before the end, if something is shown of one, something is shown of another with as many
chunks. -/
theorem finish_shown {stop : ChunksEnd} {one result : ChunkedDecode} (other : ChunkedDecode)
    (h : one.finish stop = .ok result) (hshown : Shown result) (hchunks : one.chunks = other.chunks)
    (hreached : one.reached_last_chunk = other.reached_last_chunk) :
    ∃ result', other.finish stop = .ok result' ∧ Shown result' ∧ result'.bytes = other.bytes ∧
      result'.truncated_by_limit = other.truncated_by_limit := by
  unfold Shown at hshown ⊢
  cases stop with
  | fault message => cases h
  | last trailing_bytes => exact ⟨_, rfl, .inr rfl, rfl, rfl⟩
  | cut partial_body =>
    injection h with h
    rw [← h] at hshown
    refine ⟨_, rfl, ?_, rfl, rfl⟩
    rw [← hchunks, ← hreached]
    exact hshown

/-- What is decoded at the end is what was decoded before. -/
theorem finish_bytes {stop : ChunksEnd} {decoded result : ChunkedDecode}
    (h : decoded.finish stop = .ok result) : result.bytes = decoded.bytes := by
  cases stop with
  | fault message => cases h
  | last trailing_bytes =>
    injection h with h
    rw [← h]
  | cut partial_body =>
    injection h with h
    rw [← h]

end ChunkedDecode

/-- Where the limit is met it is met as the chunks there say. -/
theorem metExactly_iff {chunks : List Chunk} {length rest : ℕ}
    (h : ChunkedDecode.meets cap 0 chunks = some (length, rest)) : MetExactly cap chunks ↔
      (rest = 0 → length = cap) ∧ (0 < rest → cap < (chunkData chunks).length) := by
  constructor
  · exact fun hmet => hmet length rest h
  · intro hmet length' rest' h'
    rw [h] at h'
    injection h' with h'
    injection h' with hlength hrest
    rw [← hlength, ← hrest]
    exact hmet

/-- The bytes behind the head are those that were decoded. -/
theorem drop_chunkedOutcome (hle : header_end ≤ input.length) :
    (chunkedOutcome input header_end decoded).bytes.drop header_end = decoded.bytes := by
  have hlength : (input.take header_end).length = header_end := by
    rw [List.length_take]
    omega
  unfold chunkedOutcome
  dsimp only
  rw [List.drop_append, hlength, Nat.sub_self, List.drop_zero, List.drop_eq_nil_of_le (by omega),
    List.nil_append]

/-- The transform of chunked bodies shows what comes first, and is exact if and only if the limit is met where it
should be. -/
theorem chunked_exact_iff (hcap : 1 ≤ cap) {full : TransformOutcome}
    (hfull : Uncapped (httpChunkedTransform input) full) (happlied : full.status = .applied) :
    Shows (headLength input) cap full (httpChunkedTransform input cap) ∧
      (Exact (headLength input) cap full (httpChunkedTransform input cap) ↔
        MetExactly cap (chunkList (input.drop (headLength input))).1) := by
  obtain ⟨n, hn⟩ := hfull
  generalize hbody : chunkList (input.drop (headLength input)) = body
  obtain ⟨chunks, stop⟩ := body
  have hclosed : ChunkedDecode.Closed chunks := by
    have := chunkList_closed (input.drop (headLength input))
    rwa [hbody] at this
  -- Without a limit all data is decoded.
  have hbig := hn (max n ((chunkData chunks).length + 1)) (le_max_left _ _)
  have hbeyond : (chunkData chunks).length < max n ((chunkData chunks).length + 1) := by omega
  generalize max n ((chunkData chunks).length + 1) = big at hbig hbeyond
  obtain ⟨header_text, header_end, decoded, hheader, hchunked, hdecoded, hshown⟩ :=
    httpChunkedTransform_applied (by rw [hbig]; exact happlied)
  obtain ⟨hlength, -, hinside⟩ := httpHeader_bounds hheader
  rw [httpChunkedTransform_eq hheader hchunked hdecoded hshown] at hbig
  rw [← hlength] at hbody ⊢
  rw [decodeChunkedBody_eq_collect, hbody, ChunkedDecode.collect_of_meets_none _ _ (by simp; omega) rfl hclosed
    (ChunkedDecode.meets_eq_none hbeyond)] at hdecoded
  have hdata : decoded.bytes = chunkData chunks := by
    rw [ChunkedDecode.finish_bytes hdecoded]
    exact List.take_of_length_le hbeyond.le
  have hshows : full.bytes.drop header_end = chunkData chunks := by
    rw [← hbig, drop_chunkedOutcome hinside, hdata]
  -- What is decoded under the limit is shown behind the head.
  have hshows' : ∀ {result : ChunkedDecode}, result.bytes = (chunkData chunks).take cap →
      Shows header_end cap full (chunkedOutcome input header_end result) := by
    intro result hbytes
    refine ⟨rfl, ?_⟩
    rw [drop_chunkedOutcome hinside, hshows, hbytes]
  have hcapped : decodeChunkedBody (input.drop header_end) cap =
      ChunkedDecode.collect cap stop {} chunks := by
    rw [decodeChunkedBody_eq_collect, hbody]
  cases hmeets : ChunkedDecode.meets cap 0 chunks with
  | none =>
    rw [ChunkedDecode.collect_of_meets_none _ _ (by simp; omega) rfl hclosed hmeets] at hcapped
    obtain ⟨result, hresult, hshown', hbytes, hflag⟩ := ChunkedDecode.finish_shown
      { ({} : ChunkedDecode) with
        bytes := ([] ++ chunkData chunks).take cap
        truncated_by_limit := cap < ([] ++ chunkData chunks).length
        chunks := 0 + chunks.length } hdecoded hshown rfl rfl
    rw [httpChunkedTransform_eq hheader hchunked (hcapped.trans hresult) hshown']
    have hfirst := hshows' hbytes
    refine ⟨hfirst, iff_of_true ⟨hfirst, ?_⟩ ?_⟩
    · rw [hshows]
      unfold chunkedOutcome
      dsimp only
      rw [hflag]
      exact decide_eq_true_iff
    · intro length rest hmet
      rw [hmeets] at hmet
      cases hmet
  | some met =>
    obtain ⟨length, rest⟩ := met
    obtain ⟨k, hcollect⟩ := ChunkedDecode.collect_of_meets_some {} stop (by simp; omega) rfl
      hclosed hmeets
    rw [httpChunkedTransform_eq hheader hchunked (hcapped.trans hcollect) (.inl (Nat.succ_ne_zero _))]
    obtain ⟨hle, -⟩ := ChunkedDecode.meets_le hmeets
    have hfirst : Shows header_end cap full (chunkedOutcome input header_end
        { ({} : ChunkedDecode) with
          bytes := ([] ++ chunkData chunks).take cap
          truncated_by_limit := 0 < rest
          chunks := 0 + (k + 1) }) := hshows' rfl
    refine ⟨hfirst, (exact_iff hfirst).trans ?_⟩
    -- The flag says whether bytes follow.
    have hsaid : (decide (0 < rest) = true ↔ cap < (full.bytes.drop header_end).length) ↔
        (0 < rest ↔ cap < (chunkData chunks).length) := by
      rw [decide_eq_true_iff, hshows]
    refine hsaid.trans ?_
    rw [metExactly_iff hmeets]
    rcases Nat.eq_zero_or_pos rest with hzero | hpos
    · -- Nothing follows, and the data ends here.
      have hend := ChunkedDecode.meets_end hclosed (hzero ▸ hmeets)
      omega
    · omega

/-- Every limit beyond the data gives the same. -/
theorem httpChunkedTransform_uncapped (input : List UInt8) {n : ℕ}
    (hn : (chunkData (chunkList (input.drop (headLength input))).1).length < n) :
    Uncapped (httpChunkedTransform input) (httpChunkedTransform input n) := by
  refine ⟨n, fun cap hcap => ?_⟩
  unfold httpChunkedTransform
  cases hheader : httpHeader input with
  | error note => rfl
  | ok header =>
    obtain ⟨header_text, header_end⟩ := header
    obtain ⟨hlength, -, -⟩ := httpHeader_bounds hheader
    rw [← hlength] at hn
    have hclosed := chunkList_closed (input.drop header_end)
    -- Under both limits all data is decoded.
    have hboth : decodeChunkedBody (input.drop header_end) cap = decodeChunkedBody (input.drop header_end) n := by
      rw [decodeChunkedBody_eq_collect, decodeChunkedBody_eq_collect,
        ChunkedDecode.collect_of_meets_none _ _ (by simp; omega) rfl hclosed
          (ChunkedDecode.meets_eq_none (by omega)),
        ChunkedDecode.collect_of_meets_none _ _ (by simp; omega) rfl hclosed
          (ChunkedDecode.meets_eq_none hn)]
      rw [List.take_of_length_le (by simp; omega), List.take_of_length_le (by simp; omega),
        decide_eq_false (by simp; omega), decide_eq_false (by simp; omega)]
    dsimp only
    rw [hboth]

end Chunked

/-! ## WebSocket messages -/

section WebSocket

variable {deflate : Decoder} {left : deflate.State → List UInt8} {ending : deflate.State → Option ReadError}
  {cap big : ℕ}

/-- Bytes that were cut already make no difference behind others. -/
theorem take_append_congr {a b c : List UInt8} (h : b.take cap = c.take cap) :
    (a ++ b).take cap = (a ++ c).take cap := by
  have hcut : ∀ d : List UInt8, d.take (cap - a.length) = (d.take cap).take (cap - a.length) := by
    intro d
    rw [List.take_take, Nat.min_eq_left (Nat.sub_le _ _)]
  rw [List.take_append, List.take_append, hcut b, hcut c, h]

namespace WebSocketDeflateState

variable {self next : WebSocketDeflateState} {message : WebSocketMessageBuffer} {frame : WebSocketFrame}

/-- A message that is not cut under one limit is decoded under every other, up to it. -/
theorem messageBytes_cut (hstreams : deflate.reader.Streams left ending) {bytes : List UInt8}
    (h : messageBytes deflate message big = .ok bytes) (hbig : bytes.length < big) (hcap : 1 ≤ cap) :
    ∃ bytes', messageBytes deflate message cap = .ok bytes' ∧ bytes'.take cap = bytes.take cap := by
  unfold messageBytes at h ⊢
  split_ifs at h ⊢ with hcompressed
  · generalize deflate.new (message.payload ++ deflateTail) = s at h ⊢
    rw [readLimited_streams hstreams (by omega)] at h
    rw [readLimited_streams hstreams hcap]
    by_cases hover : big < (left s).length
    · -- Then as many bytes as the limit allows were read.
      rw [limited_of_lt hover] at h
      injection h with h
      rw [← h, List.length_take] at hbig
      omega
    rw [limited_of_not_lt hover] at h
    have hbytes : bytes = left s := by
      cases hending : ending s with
      | none =>
        rw [hending] at h
        injection h with h
        exact h.symm
      | some err =>
        rw [hending] at h
        dsimp only at h
        split_ifs at h
        · injection h with h
          exact h.symm
        · cases h
    by_cases hcut : cap < (left s).length
    · rw [limited_of_lt hcut]
      exact ⟨_, rfl, by rw [hbytes, List.take_take, Nat.min_self]⟩
    · rw [limited_of_not_lt hcut]
      exact ⟨bytes, h, rfl⟩
  · exact ⟨bytes, h, rfl⟩

/-- The line feed before a message, which the first one does without. -/
def gap (self : WebSocketDeflateState) : List UInt8 := if self.output.isEmpty then [] else [10]

/-- The line feed fits where there is room for a byte. -/
theorem feed_eq (hroom : self.output.length < cap) :
    (if self.output.isEmpty then self.output else appendLimited self.output [10] cap) =
      self.output ++ self.gap := by
  unfold gap
  split_ifs
  · exact (List.append_nil _).symm
  · rw [ChunkedDecode.appendLimited_eq hroom.le, List.take_of_length_le]
    rw [List.length_append, List.length_singleton]
    omega

/-- With the line feed the output is within the limit. -/
theorem length_feed_le (hroom : self.output.length < cap) : (self.output ++ self.gap).length ≤ cap := by
  unfold gap
  rw [List.length_append]
  split_ifs
  · rw [List.length_nil]
    omega
  · rw [List.length_singleton]
    omega

/-- One state does what the other does: it goes on with what the other has, or returns it up to the limit when the
limit is met. -/
def Follows (step : ℕ → Except TransformOutcome WebSocketDeflateState)
    (self next : WebSocketDeflateState) : Prop :=
  self.output <+: next.output ∧ ∀ cap, 1 ≤ cap → self.output.length < cap →
    step cap =
      if cap ≤ next.output.length then
        .error ({ next with output := next.output.take cap }.outcome true)
      else .ok next

/-- A message that does not meet one limit is added under every other, up to it. -/
theorem onMessage_follows (hstreams : deflate.reader.Streams left ending) (hroom : self.output.length < big)
    (h : self.onMessage deflate big message = .ok next) :
    Follows (fun cap => self.onMessage deflate cap message) self next := by
  unfold onMessage at h
  cases hbytes : messageBytes deflate message big with
  | error err =>
    simp only [hbytes] at h
    cases h
  | ok bytes =>
    simp only [hbytes, feed_eq hroom] at h
    rw [ChunkedDecode.appendLimited_eq (length_feed_le hroom)] at h
    split_ifs at h with hmet
    injection h with h
    -- Nothing was cut.
    rw [List.length_take] at hmet
    have hshort : (self.output ++ self.gap ++ bytes).length < big := by omega
    rw [List.take_of_length_le hshort.le] at h
    have houtput : next.output = self.output ++ self.gap ++ bytes := by rw [← h]
    refine ⟨?_, fun cap hcap hroom' => ?_⟩
    · rw [houtput, List.append_assoc]
      exact List.prefix_append _ _
    · have hbig : bytes.length < big := by
        rw [List.length_append] at hshort
        omega
      obtain ⟨bytes', hbytes', hcut⟩ := messageBytes_cut hstreams hbytes hbig hcap
      have houtput' : appendLimited (self.output ++ self.gap) bytes' cap = next.output.take cap := by
        rw [ChunkedDecode.appendLimited_eq (length_feed_le hroom'), take_append_congr hcut, houtput]
      unfold onMessage
      simp only [hbytes', feed_eq hroom', houtput', List.length_take]
      by_cases hmet' : cap ≤ next.output.length
      · rw [if_pos (by omega), if_pos hmet', ← h]
      · rw [if_neg (by omega), if_neg hmet', List.take_of_length_le (by omega), ← h]

/-- A frame that does not meet one limit is taken under every other, up to it. -/
theorem onFrame_follows (hstreams : deflate.reader.Streams left ending) (hroom : self.output.length < big)
    (h : self.onFrame deflate big frame = .ok next) :
    Follows (fun cap => self.onFrame deflate cap frame) self next := by
  -- a frame that adds nothing
  have hsame : (∀ cap, self.onFrame deflate cap frame = .ok next) → self.output = next.output →
      Follows (fun cap => self.onFrame deflate cap frame) self next := by
    intro hall heq
    refine ⟨heq ▸ List.prefix_rfl, fun cap hcap hroom' => ?_⟩
    rw [heq] at hroom'
    rw [if_neg (by omega)]
    exact hall cap
  by_cases hcontrol : 2 < frame.opcode
  · have hall : ∀ cap, self.onFrame deflate cap frame =
        .ok { self with control_frames := self.control_frames + 1 } := fun cap => if_pos hcontrol
    have heq := Except.ok.inj ((hall big).symm.trans h)
    exact hsame (fun cap => heq ▸ hall cap) (by rw [← heq])
  cases hjoin : self.joinFrame frame with
  | error returned =>
    unfold onFrame at h
    rw [if_neg hcontrol, hjoin] at h
    cases h
  | ok message =>
    cases hfin : frame.fin with
    | false =>
      have hall : ∀ cap, self.onFrame deflate cap frame = .ok { self with current_message := some message } := by
        intro cap
        unfold onFrame
        rw [if_neg hcontrol, hjoin]
        simp only [hfin, Bool.false_eq_true, if_false]
      have heq := Except.ok.inj ((hall big).symm.trans h)
      exact hsame (fun cap => heq ▸ hall cap) (by rw [← heq])
    | true =>
      have hall : ∀ cap, self.onFrame deflate cap frame = self.onMessage deflate cap message := by
        intro cap
        unfold onFrame
        rw [if_neg hcontrol, hjoin]
        simp only [hfin, if_true]
      rw [hall big] at h
      simpa only [Follows, hall] using onMessage_follows hstreams hroom h

/-- What a frame returns early is not applied, or as long as the limit. -/
theorem onFrame_returned {returned : TransformOutcome}
    (h : self.onFrame deflate big frame = .error returned) :
    returned.status ≠ .applied ∨ big ≤ returned.bytes.length := by
  have hfailed : ∀ note, returned = .failed note → returned.status ≠ .applied ∨ big ≤ returned.bytes.length := by
    rintro note rfl
    exact .inl nofun
  unfold onFrame at h
  by_cases hcontrol : 2 < frame.opcode
  · rw [if_pos hcontrol] at h
    cases h
  rw [if_neg hcontrol] at h
  cases hjoin : self.joinFrame frame with
  | error other =>
    rw [hjoin] at h
    injection h with h
    rw [h] at hjoin
    unfold joinFrame at hjoin
    split_ifs at hjoin
    · split at hjoin
      · exact hfailed _ (Except.error.inj hjoin).symm
      · cases hjoin
    · exact hfailed _ (Except.error.inj hjoin).symm
  | ok message =>
    simp only [hjoin] at h
    split_ifs at h
    unfold onMessage at h
    dsimp only at h
    generalize (if self.output.isEmpty = true then self.output
      else appendLimited self.output [10] big) = feed at h
    split at h
    · exact hfailed _ (Except.error.inj h).symm
    · split_ifs at h with hmet
      right
      rw [← Except.error.inj h]
      exact hmet

/-- What the transform shows under one limit, beside what it shows under another one that is not met. -/
structure CutTo (cap : ℕ) (full capped : TransformOutcome) : Prop where
  status : capped.status = .applied
  bytes : capped.bytes = full.bytes.take cap
  truncated_by_limit : capped.truncated_by_limit = decide (cap ≤ full.bytes.length)
  same : full.bytes.length < cap → capped = full

/-- At the end both have the same. -/
theorem finish_cut (h : self.finish.status = .applied) :
    self.output <+: self.finish.bytes ∧ (self.output.length < cap → CutTo cap self.finish self.finish) := by
  have hbytes : self.finish.bytes = self.output ∧ self.finish.truncated_by_limit = false := by
    unfold finish at h ⊢
    split_ifs at h ⊢
    · cases h
    · cases h
    · exact ⟨rfl, rfl⟩
  refine ⟨hbytes.1 ▸ List.prefix_rfl, fun hroom => ⟨h, ?_, ?_, fun _ => rfl⟩⟩
  · rw [hbytes.1, List.take_of_length_le hroom.le]
  · rw [hbytes.1, hbytes.2]
    exact (decide_eq_false hroom.not_ge).symm

/-- The loops under two limits, of which one is not met: the output so far comes first in what is shown, and as
long as it has not come up to the other limit, that one only cuts. -/
theorem loop_cut (hstreams : deflate.reader.Streams left ending) (hcap : 1 ≤ cap) {fuel : ℕ}
    (hroom : self.output.length < big) (happlied : (self.loop deflate big fuel).status = .applied)
    (hbig : (self.loop deflate big fuel).bytes.length < big) :
    self.output <+: (self.loop deflate big fuel).bytes ∧
      (self.output.length < cap → CutTo cap (self.loop deflate big fuel) (self.loop deflate cap fuel)) := by
  induction fuel generalizing self with
  | zero => exact finish_cut happlied
  | succ fuel ih =>
    unfold loop at happlied hbig ⊢
    cases hframe : self.parser.nextFrame with
    | error err =>
      rw [hframe] at happlied
      cases happlied
    | ok read =>
      cases read with
      | none =>
        rw [hframe] at happlied
        exact finish_cut happlied
      | some read =>
        obtain ⟨frame, parser⟩ := read
        simp only [hframe] at happlied hbig ⊢
        cases hstep : onFrame deflate big { self with parser } frame with
        | error returned =>
          -- A limit that is not met lets no outcome be returned early.
          simp only [hstep] at happlied hbig
          rcases onFrame_returned hstep with hnot | hlong
          · exact absurd happlied hnot
          · omega
        | ok next =>
          have hboth : Follows (fun cap => onFrame deflate cap { self with parser } frame)
              { self with parser } next := onFrame_follows hstreams hroom hstep
          obtain ⟨hstarts, hfollows⟩ := hboth
          have hroom' : next.output.length < big := by
            have hnot := (hfollows big (by omega) hroom).symm.trans hstep
            by_contra hmet
            rw [if_pos (by omega)] at hnot
            cases hnot
          simp only [hstep] at happlied hbig ⊢
          obtain ⟨hrest, hcut⟩ := ih hroom' happlied hbig
          refine ⟨hstarts.trans hrest, fun hshort => ?_⟩
          have hother := hfollows cap hcap hshort
          dsimp only at hother
          rw [hother]
          by_cases hmet : cap ≤ next.output.length
          · -- The other limit is met with this frame, and what follows is beyond it.
            rw [if_pos hmet]
            obtain ⟨more, hmore⟩ := hrest
            have hlong : cap ≤ (loop deflate big fuel next).bytes.length := by
              rw [← hmore, List.length_append]
              omega
            refine ⟨rfl, ?_, (decide_eq_true hlong).symm, fun hless => by omega⟩
            rw [← hmore, List.take_append_of_le_length hmet]
            rfl
          · rw [if_neg hmet]
            exact hcut (by omega)

end WebSocketDeflateState

/-- The transform of WebSocket messages shows what comes first, and is exact if and only if the output does not end
at the limit. -/
theorem websocket_exact_iff (hstreams : deflate.reader.Streams left ending) (input : List UInt8)
    (hcap : 1 ≤ cap) {full : TransformOutcome}
    (hfull : Uncapped (websocketDeflateTransform deflate input) full) (happlied : full.status = .applied) :
    Shows 0 cap full (websocketDeflateTransform deflate input cap) ∧
      (Exact 0 cap full (websocketDeflateTransform deflate input cap) ↔ full.bytes.length ≠ cap) := by
  obtain ⟨n, hn⟩ := hfull
  have hbig := hn (max n (full.bytes.length + 1)) (le_max_left _ _)
  have hbeyond : full.bytes.length < max n (full.bytes.length + 1) := by omega
  generalize max n (full.bytes.length + 1) = big at hbig hbeyond
  unfold websocketDeflateTransform at hbig
  have hempty : ({ parser := { input } } : WebSocketDeflateState).output.length < big := by
    rw [List.length_nil]
    omega
  obtain ⟨-, hcut⟩ := WebSocketDeflateState.loop_cut hstreams hcap hempty (hbig ▸ happlied)
    (hbig.symm ▸ hbeyond)
  rw [hbig] at hcut
  obtain ⟨hstatus, hbytes, hflag, -⟩ : WebSocketDeflateState.CutTo cap full (websocketDeflateTransform deflate input cap) :=
    hcut (by rw [List.length_nil]; omega)
  have hfirst : Shows 0 cap full (websocketDeflateTransform deflate input cap) := ⟨hstatus, hbytes⟩
  refine ⟨hfirst, (exact_iff hfirst).trans ?_⟩
  rw [hflag, decide_eq_true_iff, List.drop_zero]
  omega

/-- Every limit beyond the output gives the same. -/
theorem websocketDeflateTransform_uncapped (hstreams : deflate.reader.Streams left ending)
    (input : List UInt8) {n : ℕ}
    (happlied : (websocketDeflateTransform deflate input n).status = .applied)
    (hn : (websocketDeflateTransform deflate input n).bytes.length < n) :
    Uncapped (websocketDeflateTransform deflate input) (websocketDeflateTransform deflate input n) := by
  refine ⟨n, fun cap hle => ?_⟩
  have hempty : ({ parser := { input } } : WebSocketDeflateState).output.length < n := Nat.zero_lt_of_lt hn
  obtain ⟨-, hcut⟩ := WebSocketDeflateState.loop_cut hstreams (show 1 ≤ cap by omega) hempty happlied hn
  exact (hcut (Nat.zero_lt_of_lt (hn.trans_le hle))).same (hn.trans_le hle)

end WebSocket

/-- The two transforms show what comes first, and they say exactly when their limit has cut something off: of a
chunked body exactly when the limit is met where it should be, and of WebSocket messages exactly when their output
does not end at the limit. -/
theorem truncated_by_limit_exact_iff (deflate : Decoder) (left : deflate.State → List UInt8)
    (ending : deflate.State → Option ReadError) (hstreams : deflate.reader.Streams left ending)
    (input : List UInt8) (cap : ℕ) (hcap : 1 ≤ cap) :
    (∀ full, Uncapped (httpChunkedTransform input) full → full.status = .applied →
      Shows (headLength input) cap full (httpChunkedTransform input cap) ∧
        (Exact (headLength input) cap full (httpChunkedTransform input cap) ↔
          MetExactly cap (chunkList (input.drop (headLength input))).1)) ∧
    (∀ full, Uncapped (websocketDeflateTransform deflate input) full → full.status = .applied →
      Shows 0 cap full (websocketDeflateTransform deflate input cap) ∧
        (Exact 0 cap full (websocketDeflateTransform deflate input cap) ↔ full.bytes.length ≠ cap)) := by
  constructor
  · intro full hfull happlied
    exact chunked_exact_iff hcap hfull happlied
  · intro full hfull happlied
    exact websocket_exact_iff hstreams input hcap hfull happlied

/-- A chunked message with its line ends bare. -/
def chunkedMessage (body : String) : List UInt8 :=
  Message.utf8 ("HTTP/1.1 200 OK\nTransfer-Encoding: chunked\n\n" ++ body).toList

/-- A text message in one frame, which inflates to `Hello`. -/
def deflatedMessage : List UInt8 := [0xC1, 0x07, 0xF2, 0x48, 0xCD, 0xC9, 0xC9, 0x07, 0x00]

/-- The message is decoded under every limit beyond its five bytes. -/
theorem deflatedMessage_uncapped :
    Uncapped (websocketDeflateTransform Inflate.inflater deflatedMessage)
      (websocketDeflateTransform Inflate.inflater deflatedMessage 6) :=
  websocketDeflateTransform_uncapped Reader.ofList_streams _ (by decide +kernel) (by decide +kernel)

/-- At a limit of three, of five bytes in two chunks, and of five bytes in a deflated message: both are decoded,
and what is said of them is exact. -/
theorem truncated_by_limit_exact_iff_sample :
    (∃ full, Uncapped (httpChunkedTransform (chunkedMessage "3\nabc\n2\nde\n0\n\n")) full ∧
      full.status = .applied ∧
      Exact (headLength (chunkedMessage "3\nabc\n2\nde\n0\n\n")) 3 full
        (httpChunkedTransform (chunkedMessage "3\nabc\n2\nde\n0\n\n") 3)) ∧
    (∃ full, Uncapped (websocketDeflateTransform Inflate.inflater deflatedMessage) full ∧
      full.status = .applied ∧ full.bytes = Message.utf8 "Hello".toList ∧
      Exact 0 3 full (websocketDeflateTransform Inflate.inflater deflatedMessage 3)) := by
  constructor
  · have hfull := httpChunkedTransform_uncapped (chunkedMessage "3\nabc\n2\nde\n0\n\n")
      (show _ < 6 by decide +kernel)
    refine ⟨_, hfull, by decide +kernel, ?_⟩
    refine (((truncated_by_limit_exact_iff Inflate.inflater Prod.fst Prod.snd Reader.ofList_streams _ 3
      (by decide)).1 _ hfull (by decide +kernel)).2).mpr ?_
    -- The limit is met with the first chunk, and more data follows.
    have hmet : ChunkedDecode.meets 3 0 (chunkList ((chunkedMessage "3\nabc\n2\nde\n0\n\n").drop
      (headLength (chunkedMessage "3\nabc\n2\nde\n0\n\n")))).1 = some (3, 8) := by decide +kernel
    have hmore : 3 < (chunkData (chunkList ((chunkedMessage "3\nabc\n2\nde\n0\n\n").drop
      (headLength (chunkedMessage "3\nabc\n2\nde\n0\n\n")))).1).length := by decide +kernel
    intro length rest hmeets
    rw [hmet] at hmeets
    injection hmeets with hmeets
    injection hmeets with hlength hrest
    exact ⟨fun _ => hlength.symm, fun _ => hmore⟩
  · have happlied : (websocketDeflateTransform Inflate.inflater deflatedMessage 6).status = .applied := by
      decide +kernel
    refine ⟨_, deflatedMessage_uncapped, happlied, by decide +kernel, ?_⟩
    refine (((truncated_by_limit_exact_iff Inflate.inflater Prod.fst Prod.snd Reader.ofList_streams
      deflatedMessage 3 (by decide)).2 _ deflatedMessage_uncapped happlied).2).mpr ?_
    decide +kernel

/-- One byte of data under a limit of one is said to be cut, since the last chunk follows; five bytes under a limit
of three are not, since nothing follows; and a deflated message of five bytes under a limit of five is said to be
cut. -/
theorem truncated_by_limit_wrong :
    (∃ full, Uncapped (httpChunkedTransform (chunkedMessage "1\na\n0\n\n")) full ∧ full.status = .applied ∧
      ¬ Exact (headLength (chunkedMessage "1\na\n0\n\n")) 1 full
        (httpChunkedTransform (chunkedMessage "1\na\n0\n\n") 1)) ∧
    (∃ full, Uncapped (httpChunkedTransform (chunkedMessage "5\nhello\n")) full ∧ full.status = .applied ∧
      ¬ Exact (headLength (chunkedMessage "5\nhello\n")) 3 full
        (httpChunkedTransform (chunkedMessage "5\nhello\n") 3)) ∧
    (∃ full, Uncapped (websocketDeflateTransform Inflate.inflater deflatedMessage) full ∧
      full.status = .applied ∧
      ¬ Exact 0 5 full (websocketDeflateTransform Inflate.inflater deflatedMessage 5)) := by
  refine ⟨?_, ?_, ?_⟩
  · refine ⟨_, httpChunkedTransform_uncapped _ (show _ < 2 by decide +kernel), by decide +kernel, fun h => ?_⟩
    exact absurd h.truncated_by_limit (by decide +kernel)
  · refine ⟨_, httpChunkedTransform_uncapped _ (show _ < 6 by decide +kernel), by decide +kernel, fun h => ?_⟩
    exact absurd h.truncated_by_limit (by decide +kernel)
  · refine ⟨_, deflatedMessage_uncapped, by decide +kernel, fun h => ?_⟩
    exact absurd h.truncated_by_limit (by decide +kernel)

end Rustmate.Transform
