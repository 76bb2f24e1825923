import Rustmate.Message.HttpFraming

/-!
# The HTTP/1 parser frames

As long as no limit of the parser is reached, pushing the pieces of a stream reports the frames of the HTTP/1
framing, numbered in order. The buffer and the pending message of the parser are the states of the framing.
-/

namespace Rustmate.Message

/-- The message that the parser reports for a frame that begins at `pos`. -/
def frameMessage (context : Http1ParseContext) (ordinal pos : ℕ) : HttpFrame → StreamMessage
  | .complete head header body =>
    { stream_id := context.stream_id
      message_id := stableMessageId context.stream_id context.direction ordinal
      protocol := .http1
      kind := head.kind
      status := .complete
      direction := context.direction
      ordinal
      summary := head.summary
      logical_start := pos
      logical_end := pos + (header + body)
      header_start := some pos
      header_end := some (pos + header)
      body_start := some (pos + header)
      body_end := some (pos + (header + body))
      wire_bytes := header + body
      header_bytes := header
      body_bytes := body
      http := some head.info }
  | .error reason size =>
    { stream_id := context.stream_id
      message_id := stableMessageId context.stream_id context.direction ordinal
      protocol := .http1
      kind := .unknown
      status := .parseError
      direction := context.direction
      ordinal
      summary := "HTTP/1 parse error".toList
      logical_start := pos
      logical_end := pos + size
      header_start := some pos
      header_end := some (pos + size)
      body_start := none
      body_end := none
      wire_bytes := size
      header_bytes := size
      body_bytes := 0
      error := some reason }

/-- The messages of some frames, numbered from `ordinal` on. -/
def frameMessages (context : Http1ParseContext) (ordinal : ℕ) :
    List (ℕ × HttpFrame) → List StreamMessage
  | [] => []
  | (pos, frame) :: frames =>
    frameMessage context ordinal pos frame :: frameMessages context (ordinal + 1) frames

/-- The messages of frames and of more frames. -/
theorem frameMessages_append (context : Http1ParseContext) (ordinal : ℕ)
    (xs ys : List (ℕ × HttpFrame)) :
    frameMessages context ordinal (xs ++ ys) =
      frameMessages context ordinal xs ++ frameMessages context (ordinal + xs.length) ys := by
  induction xs generalizing ordinal with
  | nil => rfl
  | cons x xs ih =>
    obtain ⟨pos, frame⟩ := x
    simp only [List.cons_append, frameMessages, ih, List.length_cons]
    rw [show ordinal + 1 + xs.length = ordinal + (xs.length + 1) by omega]

/-- A message tells its frame. -/
theorem frameMessage_inj {context : Http1ParseContext} {ordinal pos pos' : ℕ} {x y : HttpFrame}
    (h : frameMessage context ordinal pos x = frameMessage context ordinal pos' y) :
    pos = pos' ∧ x = y := by
  have hpos : pos = pos' := by
    have := congrArg StreamMessage.logical_start h
    cases x <;> cases y <;> exact this
  refine ⟨hpos, ?_⟩
  cases x with
  | complete head header body =>
    cases y with
    | complete head' header' body' =>
      unfold frameMessage at h
      simp only [StreamMessage.mk.injEq, Option.some.injEq] at h
      obtain ⟨kind, summary, info⟩ := head
      obtain ⟨kind', summary', info'⟩ := head'
      simp_all
    | error reason size => exact absurd (congrArg StreamMessage.status h) (by simp [frameMessage])
  | error reason size =>
    cases y with
    | complete head header body => exact absurd (congrArg StreamMessage.status h) (by simp [frameMessage])
    | error reason' size' =>
      unfold frameMessage at h
      simp only [StreamMessage.mk.injEq, Option.some.injEq] at h
      simp_all

/-- The messages tell the frames. -/
theorem frameMessages_inj {context : Http1ParseContext} {ordinal : ℕ} {xs ys : List (ℕ × HttpFrame)}
    (h : frameMessages context ordinal xs = frameMessages context ordinal ys) : xs = ys := by
  induction xs generalizing ordinal ys with
  | nil =>
    cases ys with
    | nil => rfl
    | cons y ys => simp [frameMessages] at h
  | cons x xs ih =>
    cases ys with
    | nil => simp [frameMessages] at h
    | cons y ys =>
      simp only [frameMessages, List.cons.injEq] at h
      obtain ⟨hpos, hframe⟩ := frameMessage_inj h.1
      rw [ih h.2, Prod.ext hpos hframe]

/-! ## States -/

/-- The state of the parser that has been given `total` bytes and has reported `ordinal` messages is that of
the framing. -/
def Http1DirectionState.Frames (total ordinal : ℕ) (state : Http1DirectionState) :
    FrameState UInt8 HttpFrame → Prop
  | .start pos buffer =>
    state.next_logical = total ∧ state.next_ordinal = ordinal ∧ state.pending = none ∧
      state.buffer = buffer ∧ (buffer ≠ [] → state.buffer_start = pos) ∧
      pos + buffer.length = total ∧ ordinal ≤ pos
  | .body pos frame next remaining =>
    state.next_logical = total ∧ state.next_ordinal = ordinal + 1 ∧ state.buffer = [] ∧
      0 < remaining ∧ next = total + remaining ∧ ordinal ≤ pos ∧
      ∃ head header body, frame = .complete head header body ∧ next = pos + (header + body) ∧
        0 < header ∧ state.pending = some ⟨ordinal, head.kind, head.summary, pos, pos + header,
          pos + header, body, remaining, head.info⟩

namespace Http1DirectionState

variable {total ordinal pos : ℕ} {state : Http1DirectionState} {buffer : List UInt8}

/-- Bytes are taken from the front of the buffer. -/
theorem Frames.drainFront (h : state.Frames total ordinal (.start pos buffer)) (hsmall : total < 2^64)
    {count : ℕ} (hcount : count ≤ buffer.length) :
    (state.drainFront count).Frames total ordinal (.start (pos + count) (buffer.drop count)) := by
  obtain ⟨hnext, hordinal, hpending, hbuffer, hstart, hpos, hle⟩ := h
  unfold Http1DirectionState.drainFront
  rw [hbuffer]
  split_ifs with hall
  · refine ⟨hnext, hordinal, hpending, ?_, fun hne => absurd ?_ hne, ?_, by omega⟩
    · rw [List.drop_eq_nil_of_le hall]
      rfl
    · exact List.drop_eq_nil_of_le hall
    · rw [List.length_drop]
      omega
  · refine ⟨hnext, hordinal, hpending, rfl, fun _ => ?_, ?_, by omega⟩
    · have hne : buffer ≠ [] := by
        rintro rfl
        simp at hall
      dsimp only
      rw [hstart hne]
      exact saturatingAdd_eq (by omega)
    · rw [List.length_drop]
      omega

/-- The whole buffer is dropped. -/
theorem Frames.clearBuffer (h : state.Frames total ordinal (.start pos buffer)) :
    state.clearBuffer.Frames total ordinal (.start total []) := by
  obtain ⟨hnext, hordinal, hpending, hbuffer, hstart, hpos, hle⟩ := h
  exact ⟨hnext, hordinal, hpending, rfl, fun hne => absurd rfl hne, rfl, by omega⟩

/-- Another message has been reported. -/
theorem Frames.countOrdinal (h : state.Frames total ordinal (.start pos buffer))
    (hsmall : total < 2^64) (hne : buffer ≠ []) : state.countOrdinal.next_ordinal = ordinal + 1 := by
  obtain ⟨-, hordinal, -, -, -, hpos, hle⟩ := h
  have := List.length_pos_iff.mpr hne
  unfold Http1DirectionState.countOrdinal
  dsimp only
  rw [hordinal]
  unfold saturatingAdd u64Max
  omega

/-! ## Looking for a start -/

/-- Bytes that do not look like a message are skipped. -/
theorem drain_skip_to (pos : ℕ) {buffer : List UInt8} {count : ℕ} (hcount : count ≤ buffer.length)
    (hskip : ∀ j < count, looksLikeHttpPrefix (buffer.drop j) = false) :
    httpFraming.drain pos buffer = httpFraming.drain (pos + count) (buffer.drop count) := by
  induction count generalizing pos buffer with
  | zero => rfl
  | succ count ih =>
    obtain ⟨x, tail, rfl⟩ : ∃ x tail, buffer = x :: tail := by
      refine List.exists_cons_of_ne_nil ?_
      rintro rfl
      simp at hcount
    have hfirst := hskip 0 (by omega)
    rw [List.drop_zero] at hfirst
    rw [Framing.drain_skip pos (List.cons_ne_nil x tail) (httpVerdict_eq_skip.mpr hfirst),
      List.tail_cons, ih (pos + 1) (by simpa using hcount) fun j hj => ?_, List.drop_succ_cons]
    · rw [show pos + 1 + count = pos + (count + 1) by omega]
    · have := hskip (j + 1) (by omega)
      rwa [List.drop_succ_cons] at this

/-- The first place from `start` on that looks like a message. -/
theorem findHttpStartFrom_eq_some {bytes : List UInt8} {start k : ℕ}
    (h : findHttpStartFrom bytes start = some k) : start ≤ k ∧ k < bytes.length ∧
      looksLikeHttpPrefix (bytes.drop k) = true ∧
      ∀ j, start ≤ j → j < k → looksLikeHttpPrefix (bytes.drop j) = false := by
  unfold findHttpStartFrom at h
  obtain ⟨hlooks, xs, ys, heq, hbefore⟩ := List.find?_eq_some_iff_append.mp h
  have hmem : k ∈ List.range' start (bytes.length - start) := by rw [heq]; simp
  rw [List.mem_range'_1] at hmem
  refine ⟨hmem.1, by omega, hlooks, fun j hj hlt => ?_⟩
  have hjmem : j ∈ List.range' start (bytes.length - start) := by
    rw [List.mem_range'_1]
    omega
  rw [heq, List.mem_append, List.mem_cons] at hjmem
  rcases hjmem with hj' | rfl | hj'
  · simpa using hbefore j hj'
  · omega
  · exfalso
    have hsorted := List.pairwise_lt_range' (s := start) (n := bytes.length - start)
    rw [heq, List.pairwise_append] at hsorted
    have := (List.pairwise_cons.mp hsorted.2.1).1 j hj'
    omega

/-- Nothing from `start` on looks like a message. -/
theorem findHttpStartFrom_eq_none {bytes : List UInt8} {start : ℕ}
    (h : findHttpStartFrom bytes start = none) :
    ∀ j, start ≤ j → j < bytes.length → looksLikeHttpPrefix (bytes.drop j) = false := by
  unfold findHttpStartFrom at h
  rw [List.find?_eq_none] at h
  intro j hj hlt
  simpa using h j (List.mem_range'_1.mpr ⟨hj, by omega⟩)

/-- `resync_or_clear` goes to where the framing skips to. -/
theorem Frames.resyncOrClear (h : state.Frames total ordinal (.start pos buffer))
    (hsmall : total < 2^64) (hne : buffer ≠ []) (hskip : looksLikeHttpPrefix buffer = false) :
    ∃ count, 0 < count ∧ count ≤ buffer.length ∧
      httpFraming.drain pos buffer = httpFraming.drain (pos + count) (buffer.drop count) ∧
      state.resyncOrClear.Frames total ordinal (.start (pos + count) (buffer.drop count)) := by
  have hbuffer : state.buffer = buffer := h.2.2.2.1
  have hpos := h.2.2.2.2.2.1
  unfold Http1DirectionState.resyncOrClear
  rw [hbuffer]
  cases hfind : findHttpStartFrom buffer 1 with
  | some k =>
    obtain ⟨hk, hlt, -, hbefore⟩ := findHttpStartFrom_eq_some hfind
    refine ⟨k, by omega, by omega, drain_skip_to pos (by omega) fun j hj => ?_,
      h.drainFront hsmall (by omega)⟩
    rcases Nat.eq_zero_or_pos j with rfl | hj'
    · rwa [List.drop_zero]
    · exact hbefore j hj' hj
  | none =>
    have hnone := findHttpStartFrom_eq_none hfind
    refine ⟨buffer.length, List.length_pos_iff.mpr hne, le_refl _,
      drain_skip_to pos (le_refl _) fun j hj => ?_, ?_⟩
    · rcases Nat.eq_zero_or_pos j with rfl | hj'
      · rwa [List.drop_zero]
      · exact hnone j hj' hj
    · rw [List.drop_length, hpos]
      exact h.clearBuffer

/-! ## The loop -/

variable {context : Http1ParseContext}

/-- The front of the buffer becomes a message. -/
theorem Frames.advance (h : state.Frames total ordinal (.start pos buffer)) (hsmall : total < 2^64)
    (hne : buffer ≠ []) {count : ℕ} (hpos : 0 < count) (hcount : count ≤ buffer.length) :
    (state.countOrdinal.drainFront count).Frames total (ordinal + 1)
      (.start (pos + count) (buffer.drop count)) := by
  have hordinal := h.countOrdinal hsmall hne
  obtain ⟨hnext, -, hpending, hbuffer, hstart, hlength, hle⟩ := h
  unfold Http1DirectionState.drainFront
  rw [show state.countOrdinal.buffer = buffer from hbuffer]
  split_ifs with hall
  · refine ⟨hnext, hordinal, hpending, ?_, fun hne => absurd ?_ hne, ?_, by omega⟩
    · rw [List.drop_eq_nil_of_le hall]
      rfl
    · exact List.drop_eq_nil_of_le hall
    · rw [List.length_drop]
      omega
  · refine ⟨hnext, hordinal, hpending, rfl, fun _ => ?_, ?_, by omega⟩
    · dsimp only
      rw [show state.countOrdinal.buffer_start = pos from hstart hne]
      exact saturatingAdd_eq (by omega)
    · rw [List.length_drop]
      omega

/-- An error is reported with the whole buffer as its range. -/
theorem Frames.parseError (h : state.Frames total ordinal (.start pos buffer)) (hsmall : total < 2^64)
    (hne : buffer ≠ []) (reason : Text) :
    state.parseError context.stream_id context.direction reason =
      (state.countOrdinal, frameMessage context ordinal pos (.error reason buffer.length)) := by
  obtain ⟨hnext, hordinal, hpending, hbuffer, hstart, hlength, hle⟩ := h
  unfold Http1DirectionState.parseError frameMessage
  dsimp only
  rw [hbuffer, hstart hne, hordinal, saturatingAdd_eq (show pos + buffer.length < 2^64 by omega),
    Nat.add_sub_cancel_left]

/-- A message is reported with its head and its body. -/
theorem Frames.emitFront (h : state.Frames total ordinal (.start pos buffer)) (hsmall : total < 2^64)
    (hne : buffer ≠ []) (head : Http1Head) {header body : ℕ} (hfits : header + body ≤ buffer.length) :
    state.emitFront context head (saturatingAdd state.buffer_start header) body (header + body) =
      (state.countOrdinal.drainFront (header + body),
        frameMessage context ordinal pos (.complete head header body)) := by
  obtain ⟨hnext, hordinal, hpending, hbuffer, hstart, hlength, hle⟩ := h
  unfold Http1DirectionState.emitFront fixMessageContext buildMessage frameMessage
  dsimp only [Option.bind_some, Option.map_some, Option.getD_some]
  rw [hstart hne, hordinal, saturatingAdd_eq (show pos + header < 2^64 by omega),
    saturatingAdd_eq (show pos + header + body < 2^64 by omega),
    saturatingAdd_eq (show pos + (header + body) < 2^64 by omega), Nat.add_assoc,
    Nat.add_sub_cancel_left, ← Nat.add_assoc, Nat.add_sub_cancel_left]

/-- One turn of the loop, by the verdict on the buffer. -/
theorem Frames.parseStep (h : state.Frames total ordinal (.start pos buffer)) (hsmall : total < 2^64)
    (hne : buffer ≠ []) (hheader : buffer.length ≤ context.max_header_bytes)
    (hbufferMax : buffer.length ≤ context.max_buffer_bytes) :
    match httpVerdict buffer with
    | .wait => state.parseStep context = (state, [], false)
    | .skip => state.parseStep context = (state.resyncOrClear, [], true)
    | .frame frame head body =>
      if head + body ≤ buffer.length then
        state.parseStep context = (state.countOrdinal.drainFront (head + body),
          [frameMessage context ordinal pos frame], true)
      else ∃ state', state.parseStep context = (state', [], false) ∧
        state'.Frames total ordinal (.body pos frame (pos + (head + body))
          (head + body - buffer.length)) := by
  have hbuffer : state.buffer = buffer := h.2.2.2.1
  have hempty : buffer.isEmpty = false := by simpa using hne
  unfold Http1DirectionState.parseStep httpVerdict
  rw [hbuffer, hempty]
  simp only [Bool.false_eq_true, if_false]
  by_cases hlooks : looksLikeHttpPrefix buffer = true
  swap
  · simp [hlooks]
  simp only [hlooks, Bool.not_true, Bool.false_eq_true, if_false]
  rw [if_neg (by omega)]
  cases hend : findHeaderEnd buffer with
  | none =>
    simp only
    rw [if_neg (by omega)]
  | some found =>
    obtain ⟨len, headTotal⟩ := found
    have hbounds := findHeaderEnd_bounds hend
    simp only
    cases hparse : parseHttp1Head (buffer.take len) with
    | error reason =>
      simp only
      rw [if_pos (show headTotal + 0 ≤ buffer.length by omega)]
      simp only [h.parseError hsmall hne, Nat.add_zero]
    | ok head =>
      simp only
      cases hframing : bodyFraming head with
      | none =>
        have hemit : state.emitFront context head (saturatingAdd state.buffer_start headTotal) 0
            (headTotal + 0) = _ := h.emitFront hsmall hne head (by omega)
        rw [Nat.add_zero] at hemit
        simp only
        rw [if_pos (show headTotal + 0 ≤ buffer.length by omega)]
        simp only [hemit, Nat.add_zero]
      | contentLength n =>
        simp only
        by_cases hfits : headTotal + n ≤ buffer.length
        · rw [if_pos hfits, if_neg (by omega)]
          simp only [h.emitFront hsmall hne _ hfits]
        · rw [if_neg hfits, if_pos (by omega)]
          have hcount := h.countOrdinal hsmall hne
          obtain ⟨hnext, hordinal, -, -, hstart, hlength, hle⟩ := h
          refine ⟨_, rfl, hnext, hcount, rfl, by omega, by omega, hle, _, headTotal, n, rfl, rfl,
            by omega, ?_⟩
          dsimp only
          rw [hstart hne, hordinal, saturatingAdd_eq (show pos + headTotal < 2^64 by omega),
            show n - (buffer.length - headTotal) = headTotal + n - buffer.length by omega]
      | chunked =>
        simp only
        cases hchunked : findChunkedBodyEnd (buffer.drop headTotal) with
        | incomplete => rfl
        | invalid reason =>
          simp only
          rw [if_pos (show headTotal + 0 ≤ buffer.length by omega)]
          simp only [h.parseError hsmall hne, Nat.add_zero]
        | complete info =>
          have hwire := findChunkedBodyEnd_le hchunked
          rw [List.length_drop] at hwire
          have hfits : headTotal + info.wire_bytes ≤ buffer.length := by omega
          simp only
          rw [if_pos (show headTotal + info.wire_bytes + 0 ≤ buffer.length by omega)]
          simp only [h.emitFront hsmall hne _ hfits, Nat.add_zero]

/-- The loop of `parse_buffer` frames the buffer. -/
theorem Frames.parseLoop (h : state.Frames total ordinal (.start pos buffer)) (hsmall : total < 2^64)
    (hheader : total ≤ context.max_header_bytes) (hbufferMax : total ≤ context.max_buffer_bytes)
    {fuel : ℕ} (hfuel : buffer.length < fuel) :
    (Http1DirectionState.parseLoop context fuel state).2 =
        frameMessages context ordinal (httpFraming.drain pos buffer).1 ∧
      (Http1DirectionState.parseLoop context fuel state).1.Frames total
        (ordinal + (httpFraming.drain pos buffer).1.length) (httpFraming.drain pos buffer).2 := by
  induction fuel generalizing state ordinal pos buffer with
  | zero => omega
  | succ fuel ih =>
    have hbuffer : state.buffer = buffer := h.2.2.2.1
    have hlength := h.2.2.2.2.2.1
    unfold Http1DirectionState.parseLoop
    by_cases hne : buffer = []
    · subst hne
      have hstep : state.parseStep context = (state, [], false) := by
        unfold Http1DirectionState.parseStep
        rw [hbuffer]
        rfl
      rw [hstep, Framing.drain_nil]
      exact ⟨rfl, h⟩
    have hstep := h.parseStep hsmall hne (show buffer.length ≤ context.max_header_bytes by omega)
      (show buffer.length ≤ context.max_buffer_bytes by omega)
    cases hverdict : httpVerdict buffer with
    | wait =>
      simp only [hverdict] at hstep
      rw [hstep, Framing.drain_wait pos hverdict]
      exact ⟨rfl, h⟩
    | skip =>
      simp only [hverdict] at hstep
      obtain ⟨count, hpos, hcount, hdrain, hframes⟩ :=
        h.resyncOrClear hsmall hne (httpVerdict_eq_skip.mp hverdict)
      rw [hstep, hdrain]
      dsimp only
      rw [List.nil_append]
      exact ih hframes (by rw [List.length_drop]; omega)
    | frame frame head body =>
      simp only [hverdict] at hstep
      have hhead := httpFraming.head_pos hverdict
      by_cases hfits : head + body ≤ buffer.length
      · rw [if_pos hfits] at hstep
        rw [hstep, Framing.drain_frame pos hverdict hfits]
        have hframes := h.advance hsmall hne (show 0 < head + body by omega) hfits
        obtain ⟨hmessages, hstate⟩ := ih hframes (by rw [List.length_drop]; omega)
        dsimp only
        refine ⟨?_, ?_⟩
        · rw [hmessages, List.singleton_append]
          rfl
        · rw [List.length_cons, show ∀ n, ordinal + (n + 1) = ordinal + 1 + n by omega]
          exact hstate
      · rw [if_neg hfits] at hstep
        obtain ⟨state', hstep, hframes⟩ := hstep
        rw [hstep, Framing.drain_body pos hverdict (by omega)]
        exact ⟨rfl, hframes⟩

/-! ## Pushing -/

/-- A pending message is reported as its frame when its body is there. -/
theorem complete_eq_frameMessage (context : Http1ParseContext) {ordinal pos header body remaining : ℕ}
    (head : Http1Head) (hsmall : pos + header + body < 2^64) :
    PendingContentLengthMessage.complete ⟨ordinal, head.kind, head.summary, pos, pos + header,
        pos + header, body, remaining, head.info⟩ context.stream_id context.direction =
      frameMessage context ordinal pos (.complete head header body) := by
  unfold PendingContentLengthMessage.complete frameMessage
  dsimp only
  rw [saturatingAdd_eq hsmall, Nat.add_assoc, Nat.add_sub_cancel_left, Nat.add_sub_cancel_left]

/-- `append_input` frames the buffer and the input. -/
theorem appendInput_frames (state : Http1DirectionState) (context : Http1ParseContext)
    {input : List UInt8} {input_start : ℕ}
    (hnext : state.next_logical = total) (hordinal : state.next_ordinal = ordinal)
    (hpending : state.pending = none) (hbuffer : state.buffer = buffer)
    (hstart : buffer ≠ [] → state.buffer_start = pos) (hinput : input ≠ [])
    (hpos : pos + buffer.length = input_start) (htotal : input_start + input.length = total)
    (hle : ordinal ≤ pos) (hsmall : total < 2^64) (hheader : total ≤ context.max_header_bytes)
    (hbufferMax : total ≤ context.max_buffer_bytes) :
    (state.appendInput context input input_start).2 =
        frameMessages context ordinal (httpFraming.drain pos (buffer ++ input)).1 ∧
      (state.appendInput context input input_start).1.Frames total
        (ordinal + (httpFraming.drain pos (buffer ++ input)).1.length)
        (httpFraming.drain pos (buffer ++ input)).2 := by
  have hempty : input.isEmpty = false := by simpa using hinput
  unfold Http1DirectionState.appendInput Http1DirectionState.httpInput parseBuffer
  rw [hbuffer, hempty]
  simp only [Bool.false_eq_true, if_false]
  by_cases hne : buffer = []
  · subst hne
    rw [List.length_nil, Nat.add_zero] at hpos
    subst hpos
    simp only [List.isEmpty_nil, Bool.not_true, Bool.false_eq_true, if_false, List.nil_append]
    unfold findHttpStart
    cases hfind : findHttpStartFrom input 0 with
    | none =>
      have hnone := findHttpStartFrom_eq_none hfind
      have hdrain := drain_skip_to pos (le_refl input.length) fun j hj =>
        hnone j (Nat.zero_le j) hj
      rw [List.drop_length, Framing.drain_nil] at hdrain
      simp only [Option.map_none]
      rw [hdrain]
      refine ⟨rfl, hnext, hordinal, hpending, hbuffer, fun h => absurd rfl h, htotal, ?_⟩
      rw [List.length_nil]
      omega
    | some k =>
      obtain ⟨-, hlt, -, hbefore⟩ := findHttpStartFrom_eq_some hfind
      have hdrain := drain_skip_to pos (Nat.le_of_lt hlt) fun j hj => hbefore j (Nat.zero_le j) hj
      simp only [Option.map_some, if_true]
      rw [hdrain]
      have hframes : Http1DirectionState.Frames total ordinal
          { state with buffer := [] ++ input.drop k, buffer_start := saturatingAdd pos k }
          (.start (pos + k) (input.drop k)) := by
        refine ⟨hnext, hordinal, hpending, rfl, fun _ => saturatingAdd_eq (by omega), ?_, by omega⟩
        rw [List.length_drop]
        omega
      exact hframes.parseLoop hsmall hheader hbufferMax (Nat.lt_succ_self _)
  · have hfilled : buffer.isEmpty = false := by simpa using hne
    simp only [hfilled, Bool.not_false, if_true, Bool.false_eq_true, if_false]
    rw [hbuffer]
    have hframes : Http1DirectionState.Frames total ordinal { state with buffer := buffer ++ input }
        (.start pos (buffer ++ input)) := by
      refine ⟨hnext, hordinal, hpending, rfl, fun _ => hstart hne, ?_, hle⟩
      rw [List.length_append]
      omega
    exact hframes.parseLoop hsmall hheader hbufferMax (Nat.lt_succ_self _)

/-- `push` feeds the framing. -/
theorem Frames.push {fs : FrameState UInt8 HttpFrame} (h : state.Frames total ordinal fs)
    {bytes : List UInt8} (hne : bytes ≠ []) (hsmall : total + bytes.length < 2^64)
    (hheader : total + bytes.length ≤ context.max_header_bytes)
    (hbufferMax : total + bytes.length ≤ context.max_buffer_bytes) :
    (state.push context bytes).2 =
        frameMessages context ordinal (httpFraming.feed fs bytes).1 ∧
      (state.push context bytes).1.Frames (total + bytes.length)
        (ordinal + (httpFraming.feed fs bytes).1.length) (httpFraming.feed fs bytes).2 := by
  have hempty : bytes.isEmpty = false := by simpa using hne
  unfold Http1DirectionState.push
  rw [hempty]
  simp only [Bool.false_eq_true, if_false]
  cases fs with
  | start pos buffer =>
    obtain ⟨hnext, hordinal, hpending, hbuffer, hstart, hlength, hle⟩ := h
    simp only [hpending, Framing.feed]
    refine appendInput_frames _ context ?_ hordinal rfl hbuffer hstart hne (by omega) (by omega) hle
      hsmall hheader hbufferMax
    dsimp only
    rw [hnext]
    exact saturatingAdd_eq hsmall
  | body pos frame next remaining =>
    obtain ⟨hnext, hordinal, hbuffer, hpos, hend, hle, head, header, body, rfl, hsize, hheaderPos,
      hpending⟩ := h
    simp only [hpending, Framing.feed]
    by_cases hdone : remaining ≤ bytes.length
    · rw [Nat.min_eq_left hdone, if_pos hdone, if_pos (Nat.sub_self remaining)]
      rw [complete_eq_frameMessage context head (show pos + header + body < 2^64 by omega)]
      by_cases hrest : bytes.drop remaining = []
      · have hlength := congrArg List.length hrest
        rw [List.length_drop, List.length_nil] at hlength
        rw [hrest, Framing.drain_nil]
        simp only [List.isEmpty_nil, if_true]
        refine ⟨rfl, ?_, hordinal, rfl, hbuffer, fun h => absurd rfl h, ?_, ?_⟩
        · dsimp only
          rw [hnext]
          exact saturatingAdd_eq hsmall
        · rw [List.length_nil]
          omega
        · simp only [List.length_cons, List.length_nil]
          omega
      · have hfilled : (bytes.drop remaining).isEmpty = false := by simpa using hrest
        rw [hfilled]
        simp only [Bool.false_eq_true, if_false]
        rw [hnext, saturatingAdd_eq hsmall, saturatingAdd_eq (show total + remaining < 2^64 by omega),
          ← hend]
        have hrestLength : (bytes.drop remaining).length = bytes.length - remaining :=
          List.length_drop
        obtain ⟨hmessages, hframes⟩ : _ ∧ Http1DirectionState.Frames (total + bytes.length)
            (ordinal + 1 + (httpFraming.drain next ([] ++ bytes.drop remaining)).1.length) _ _ :=
          appendInput_frames { state with next_logical := total + bytes.length, pending := none }
            context rfl hordinal rfl hbuffer (fun h => absurd rfl h) hrest
            (Nat.add_zero next) (by omega) (by omega) hsmall hheader hbufferMax
        rw [List.nil_append] at hmessages hframes
        refine ⟨?_, ?_⟩
        · rw [hmessages]
          rfl
        · rw [List.length_cons, show ∀ n, ordinal + (n + 1) = ordinal + 1 + n by omega]
          exact hframes
    · rw [Nat.min_eq_right (by omega), if_neg hdone, if_neg (by omega)]
      refine ⟨rfl, ?_, hordinal, hbuffer, by omega, by omega, hle, head, header, body, rfl, hsize,
        hheaderPos, rfl⟩
      dsimp only
      rw [hnext]
      exact saturatingAdd_eq hsmall

/-- Pushing the pieces of a stream reports its frames. -/
theorem Frames.pushAll {fs : FrameState UInt8 HttpFrame} (h : state.Frames total ordinal fs)
    {pieces : List (List UInt8)} (hne : ∀ p ∈ pieces, p ≠ [])
    (hsmall : total + pieces.flatten.length < 2^64)
    (hheader : total + pieces.flatten.length ≤ context.max_header_bytes)
    (hbufferMax : total + pieces.flatten.length ≤ context.max_buffer_bytes) :
    (state.pushAll context pieces).2 =
      frameMessages context ordinal (httpFraming.framesFrom fs pieces) := by
  induction pieces generalizing state total ordinal fs with
  | nil => rfl
  | cons bytes pieces ih =>
    rw [List.flatten_cons, List.length_append] at hsmall hheader hbufferMax
    obtain ⟨hmessages, hframes⟩ : (state.push context bytes).2 = _ ∧
        (state.push context bytes).1.Frames (total + bytes.length) _ _ :=
      h.push (hne bytes List.mem_cons_self) (by omega) (by omega) (by omega)
    unfold Http1DirectionState.pushAll Framing.framesFrom
    dsimp only
    rw [hmessages, ih hframes (fun p hp => hne p (List.mem_cons_of_mem bytes hp)) (by omega)
      (by omega) (by omega), frameMessages_append]

/-- A new parser is at the beginning. -/
theorem frames_new : ({} : Http1DirectionState).Frames 0 0 (.start 0 []) :=
  ⟨rfl, rfl, rfl, rfl, fun h => absurd rfl h, rfl, le_refl 0⟩

end Http1DirectionState

end Rustmate.Message
