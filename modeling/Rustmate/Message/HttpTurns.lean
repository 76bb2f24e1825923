import Rustmate.Message.HttpRefine

/-!
# The turns of the HTTP/1 parser

What one turn of the loop of `parse_buffer` can do, whatever the limits are, and where in the stream the next
message can begin at the earliest. A message that a frame of the parser reports is a cut of the stream.
-/

namespace Rustmate.Message

/-! ## Where a message can begin -/

/-- Where in the bytes a message can begin at the earliest. -/
def startOf (bytes : List UInt8) : ℕ := (findHttpStart bytes).getD bytes.length

variable {b c bytes : List UInt8}

/-- Bytes that look like a message are not empty. -/
theorem ne_nil_of_looksLikeHttpPrefix (h : looksLikeHttpPrefix bytes = true) : bytes ≠ [] := by
  rintro rfl
  exact absurd h (by decide)

/-- Nothing begins after the end. -/
theorem startOf_le_length (bytes : List UInt8) : startOf bytes ≤ bytes.length := by
  unfold startOf
  cases hfind : findHttpStart bytes with
  | none => exact le_refl _
  | some k =>
    have hk := Http1DirectionState.findHttpStartFrom_eq_some hfind
    simp only [Option.getD_some]
    omega

/-- The start is not after what looks like one. -/
theorem startOf_le {k : ℕ} (h : looksLikeHttpPrefix (bytes.drop k) = true) : startOf bytes ≤ k := by
  have hinside : k < bytes.length := by
    have hpos := List.length_pos_iff.mpr (ne_nil_of_looksLikeHttpPrefix h)
    rw [List.length_drop] at hpos
    omega
  unfold startOf
  cases hfind : findHttpStart bytes with
  | none =>
    have hnone := Http1DirectionState.findHttpStartFrom_eq_none hfind k (Nat.zero_le k) hinside
    rw [h] at hnone
    cases hnone
  | some first =>
    obtain ⟨-, -, -, hbefore⟩ := Http1DirectionState.findHttpStartFrom_eq_some hfind
    by_contra hlt
    have hnot := hbefore k (Nat.zero_le k) (by simpa using hlt)
    rw [h] at hnot
    cases hnot

/-- The start is the end, or it looks like one. -/
theorem startOf_cases (bytes : List UInt8) :
    startOf bytes = bytes.length ∨ looksLikeHttpPrefix (bytes.drop (startOf bytes)) = true := by
  unfold startOf
  cases hfind : findHttpStart bytes with
  | none => exact .inl rfl
  | some k => exact .inr (Http1DirectionState.findHttpStartFrom_eq_some hfind).2.2.1

/-- Bytes that look like a message begin at their front. -/
theorem startOf_eq_zero (h : looksLikeHttpPrefix bytes = true) : startOf bytes = 0 := by
  have hle : startOf bytes ≤ 0 := startOf_le (by rwa [List.drop_zero])
  omega

/-- Without some bytes at the front, nothing begins earlier. -/
theorem startOf_le_drop {count : ℕ} (h : count ≤ bytes.length) :
    startOf bytes ≤ count + startOf (bytes.drop count) := by
  rcases startOf_cases (bytes.drop count) with hend | hlooks
  · have hle := startOf_le_length bytes
    rw [List.length_drop] at hend
    omega
  · rw [List.drop_drop] at hlooks
    exact startOf_le hlooks

/-- With more bytes at the end, nothing begins earlier. -/
theorem startOf_le_append (b c : List UInt8) : startOf b ≤ startOf (b ++ c) := by
  have hlength := startOf_le_length b
  rcases startOf_cases (b ++ c) with hend | hlooks
  · rw [List.length_append] at hend
    omega
  · rcases Nat.lt_or_ge (startOf (b ++ c)) b.length with hlt | hge
    · apply startOf_le
      rw [List.drop_append_of_le_length (by omega)] at hlooks
      refine looksLikeHttpPrefix_of_append ?_ hlooks
      rw [← List.length_pos_iff, List.length_drop]
      omega
    · omega

/-! ## Faithful cuts -/

/-- The bytes of a stream from one logical offset to another. -/
def cut (S : List UInt8) (start finish : ℕ) : List UInt8 := (S.drop start).take (finish - start)

/-- These are the bytes of a body of the length that the head says. -/
def BodyOf (head : Http1Head) (body : List UInt8) : Prop :=
  match bodyFraming head with
  | .contentLength length => body.length = length
  | .chunked => ∃ info, findChunkedBodyEnd body = .complete info ∧ body.length = info.wire_bytes
  | .none => body = []

/-- These bytes are a head and the blank line that ends it, and this is what the head says. -/
def HeadOf (bytes : List UInt8) (head : Http1Head) : Prop :=
  ∃ text terminator, (terminator = [13, 10, 13, 10] ∨ terminator = [10, 10]) ∧
    bytes = text ++ terminator ∧ parseHttp1Head text = .ok head

/-- A message with this head, which ends at `finish`, is a cut of the stream. -/
structure CutAt (S : List UInt8) (message : StreamMessage) (finish : ℕ) (head : Http1Head) : Prop where
  header_start : message.header_start = some message.logical_start
  header_end : message.header_end = some finish
  body_start : message.body_start = some finish
  body_end : message.body_end = some message.logical_end
  within : message.logical_start < finish ∧ finish ≤ message.logical_end ∧
    message.logical_end ≤ S.length
  head_of : HeadOf (cut S message.logical_start finish) head
  kind : message.kind = head.kind
  summary : message.summary = head.summary
  http : ∃ body, message.http = some { head.info with body := body }
  body_of : BodyOf head (cut S finish message.logical_end)
  body_bytes : message.body_bytes = message.logical_end - finish

/-- A message is a faithful cut of the stream. -/
def FaithfulCut (S : List UInt8) (message : StreamMessage) : Prop :=
  ∃ finish head, CutAt S message finish head

/-- A cut stays where it is when the stream goes on. -/
theorem cut_append {S : List UInt8} {start finish : ℕ} (hstart : start ≤ finish)
    (hfinish : finish ≤ S.length) (T : List UInt8) : cut (S ++ T) start finish = cut S start finish := by
  unfold cut
  rw [List.drop_append_of_le_length (by omega),
    List.take_append_of_le_length (by rw [List.length_drop]; omega)]

/-- A message stays a faithful cut when the stream goes on. -/
theorem FaithfulCut.append {S : List UInt8} {message : StreamMessage} (h : FaithfulCut S message)
    (T : List UInt8) : FaithfulCut (S ++ T) message := by
  obtain ⟨finish, head, hcut⟩ := h
  obtain ⟨hstart, hfinish, hend⟩ := hcut.within
  refine ⟨finish, head, { hcut with within := ⟨hstart, hfinish, ?_⟩, head_of := ?_, body_of := ?_ }⟩
  · rw [List.length_append]
    omega
  · rw [cut_append (by omega) (by omega)]
    exact hcut.head_of
  · rw [cut_append hfinish hend]
    exact hcut.body_of

/-! ## Frames and cuts -/

/-- What is there of a frame in the bytes from where it begins: the head, and a body of known length or all of
the body. -/
def HttpFrame.Begins (bytes : List UInt8) : HttpFrame → Prop
  | .complete head header body => ∃ parsed info, 0 < header ∧ header ≤ bytes.length ∧
      HeadOf (bytes.take header) parsed ∧
      head = { parsed with info := { parsed.info with body := info } } ∧
      (bodyFraming parsed = .contentLength body ∨
        header + body ≤ bytes.length ∧ BodyOf parsed ((bytes.drop header).take body))
  | .error _ _ => True

/-- A frame that begins in the bytes begins in more of them. -/
theorem HttpFrame.Begins.append {frame : HttpFrame} (h : frame.Begins b) (c : List UInt8) :
    frame.Begins (b ++ c) := by
  cases frame with
  | error reason size => trivial
  | complete head header body =>
    obtain ⟨parsed, info, hpos, hheader, hhead, heq, hbody⟩ := h
    refine ⟨parsed, info, hpos, ?_, ?_, heq, ?_⟩
    · rw [List.length_append]
      omega
    · rwa [List.take_append_of_le_length hheader]
    · rcases hbody with hlength | ⟨hfits, hbody⟩
      · exact .inl hlength
      · refine .inr ⟨by rw [List.length_append]; omega, ?_⟩
        rwa [List.drop_append_of_le_length hheader,
          List.take_append_of_le_length (by rw [List.length_drop]; omega)]

/-- The end of a head that is found is a blank line. -/
theorem findHeaderEnd_take {len total : ℕ} (h : findHeaderEnd bytes = some (len, total)) :
    ∃ terminator, (terminator = [13, 10, 13, 10] ∨ terminator = [10, 10]) ∧
      bytes.take total = bytes.take len ++ terminator := by
  have hsplit : ∀ pattern : List UInt8, Occurs pattern bytes len (len + pattern.length) →
      bytes.take (len + pattern.length) = bytes.take len ++ pattern := by
    rintro pattern ⟨-, -, heq⟩
    rw [List.take_add, heq]
  unfold findHeaderEnd findEnd at h
  cases hfirst : findBytes [13, 10, 13, 10] bytes with
  | some pos =>
    simp only [hfirst, Option.some.injEq, Prod.mk.injEq] at h
    obtain ⟨rfl, rfl⟩ := h
    exact ⟨_, .inl rfl, hsplit _ (findBytes_eq_some.mp hfirst).1⟩
  | none =>
    simp only [hfirst, Option.map_eq_some_iff, Prod.mk.injEq] at h
    obtain ⟨pos, hsecond, rfl, rfl⟩ := h
    exact ⟨_, .inr rfl, hsplit _ (findBytes_eq_some.mp hsecond).1⟩

/-- What the parser reports as a frame begins in the bytes. -/
theorem begins_of_httpVerdict {frame : HttpFrame} {head body : ℕ}
    (h : httpVerdict bytes = .frame frame head body) : frame.Begins bytes := by
  cases frame with
  | error reason size => trivial
  | complete message header size =>
    unfold httpVerdict at h
    split_ifs at h with hlooks
    cases hend : findHeaderEnd bytes with
    | none => simp [hend] at h
    | some found =>
      obtain ⟨len, total⟩ := found
      obtain ⟨hlt, hle⟩ := findHeaderEnd_bounds hend
      obtain ⟨terminator, hterminator, htake⟩ := findHeaderEnd_take hend
      simp only [hend] at h
      cases hparse : parseHttp1Head (bytes.take len) with
      | error reason => simp [hparse] at h
      | ok parsed =>
        have hhead : HeadOf (bytes.take total) parsed := ⟨_, terminator, hterminator, htake, hparse⟩
        simp only [hparse] at h
        -- The three framings; a chunked body is there as a whole.
        cases hframing : bodyFraming parsed with
        | none =>
          simp only [hframing, Verdict.frame.injEq, HttpFrame.complete.injEq] at h
          obtain ⟨⟨rfl, rfl, rfl⟩, -, -⟩ := h
          refine ⟨parsed, parsed.info.body, by omega, hle, hhead, rfl, .inr ⟨by omega, ?_⟩⟩
          unfold BodyOf
          rw [hframing]
          exact List.take_zero
        | contentLength length =>
          simp only [hframing, Verdict.frame.injEq, HttpFrame.complete.injEq] at h
          obtain ⟨⟨rfl, rfl, rfl⟩, -, -⟩ := h
          exact ⟨parsed, _, by omega, hle, hhead, rfl, .inl hframing⟩
        | chunked =>
          simp only [hframing] at h
          cases hchunked : findChunkedBodyEnd (bytes.drop total) with
          | incomplete => simp [hchunked] at h
          | invalid reason => simp [hchunked] at h
          | complete info =>
            have hwire := findChunkedBodyEnd_le hchunked
            simp only [hchunked, Verdict.frame.injEq, HttpFrame.complete.injEq] at h
            obtain ⟨⟨rfl, rfl, rfl⟩, -, -⟩ := h
            have hlength : (bytes.drop total).length = bytes.length - total := List.length_drop
            refine ⟨parsed, _, by omega, hle, hhead, rfl, .inr ⟨by omega, ?_⟩⟩
            -- The end of the chunks is found without what follows it.
            have hexact : findChunkedBodyEnd ((bytes.drop total).take info.wire_bytes) =
                .complete info := by
              apply findChunkedBodyEnd_of_append (c := (bytes.drop total).drop info.wire_bytes)
              · rwa [List.take_append_drop]
              · rw [List.length_take]
                omega
            unfold BodyOf
            rw [hframing]
            refine ⟨info, hexact, ?_⟩
            rw [List.length_take]
            omega

/-- A complete frame that begins in the stream and ends within it is reported as a faithful cut. -/
theorem faithfulCut_of_begins {S : List UInt8} {context : Http1ParseContext} {ordinal pos : ℕ}
    {head : Http1Head} {header body : ℕ} (h : (HttpFrame.complete head header body).Begins (S.drop pos))
    (hfits : pos + (header + body) ≤ S.length) :
    FaithfulCut S (frameMessage context ordinal pos (.complete head header body)) := by
  obtain ⟨parsed, info, hpos, hheader, hhead, rfl, hbody⟩ := h
  have hcutHead : cut S pos (pos + header) = (S.drop pos).take header := by
    unfold cut
    rw [Nat.add_sub_cancel_left]
  have hcutBody : cut S (pos + header) (pos + (header + body)) =
      ((S.drop pos).drop header).take body := by
    unfold cut
    rw [List.drop_drop, show pos + (header + body) - (pos + header) = body by omega]
  refine ⟨pos + header, parsed, ?_⟩
  unfold frameMessage
  constructor <;> dsimp only
  · exact ⟨by omega, by omega, hfits⟩
  · rwa [hcutHead]
  · exact ⟨info, rfl⟩
  · rw [hcutBody]
    rcases hbody with hlength | ⟨-, hbody⟩
    · unfold BodyOf
      rw [hlength]
      dsimp only
      rw [List.length_take, List.length_drop, List.length_drop]
      omega
    · exact hbody
  · omega

/-! ## Turns -/

/-- How long the head is with which the loop finds fault, or with whose first chunks. -/
def faultyHead (buffer : List UInt8) : Option ℕ :=
  match findHeaderEnd buffer with
  | none => none
  | some (header_len, header_total_len) =>
    match parseHttp1Head (buffer.take header_len) with
    | .error _ => some header_total_len
    | .ok head =>
      match bodyFraming head with
      | .chunked =>
        match findChunkedBodyEnd (buffer.drop header_total_len) with
        | .invalid _ => some header_total_len
        | _ => none
      | _ => none

/-- A turn is clean when nothing after a head with which it finds fault looks like the start of a message. A
buffer over the limit is dropped as a whole. -/
def cleanTurn (context : Http1ParseContext) (buffer : List UInt8) : Bool :=
  !looksLikeHttpPrefix buffer || decide (context.max_buffer_bytes < buffer.length) ||
    match faultyHead buffer with
    | none => true
    | some header_total_len => (findHttpStart (buffer.drop header_total_len)).isNone

/-- What one turn of the loop makes of the bytes from `pos` on, of which `ordinal` messages have been
reported: the messages, what is left, and whether the loop goes on. -/
inductive Turn (context : Http1ParseContext) (total ordinal pos : ℕ) (buffer : List UInt8) :
    List StreamMessage → FrameState UInt8 HttpFrame → Bool → Prop
  | wait : Turn context total ordinal pos buffer [] (.start pos buffer) false
  | skip {count : ℕ} (hpos : 0 < count) (hcount : count ≤ buffer.length) :
      Turn context total ordinal pos buffer [] (.start (pos + count) (buffer.drop count)) true
  | limit (reason : Text) (hlooks : looksLikeHttpPrefix buffer = true) :
      Turn context total ordinal pos buffer
        [frameMessage context ordinal pos (.error reason buffer.length)] (.start total []) false
  | frame {frame : HttpFrame} {head body : ℕ} (hverdict : httpVerdict buffer = .frame frame head body)
      (hlimit : buffer.length ≤ context.max_buffer_bytes) (hfits : head + body ≤ buffer.length) :
      Turn context total ordinal pos buffer [frameMessage context ordinal pos frame]
        (.start (pos + (head + body)) (buffer.drop (head + body))) true
  | body {frame : HttpFrame} {head body : ℕ} (hverdict : httpVerdict buffer = .frame frame head body)
      (hlong : buffer.length < head + body) :
      Turn context total ordinal pos buffer []
        (.body pos frame (pos + (head + body)) (head + body - buffer.length)) false

/-- The head with which an error finds fault. -/
theorem faultyHead_of_httpVerdict {reason : Text} {size head body : ℕ}
    (h : httpVerdict bytes = .frame (.error reason size) head body) : faultyHead bytes = some head := by
  unfold httpVerdict at h
  unfold faultyHead
  split_ifs at h with hlooks
  cases hend : findHeaderEnd bytes with
  | none => simp [hend] at h
  | some found =>
    obtain ⟨len, total⟩ := found
    simp only [hend] at h ⊢
    cases hparse : parseHttp1Head (bytes.take len) with
    | error reason =>
      simp only [hparse, Verdict.frame.injEq] at h
      rw [h.2.1]
    | ok parsed =>
      simp only [hparse] at h ⊢
      cases hframing : bodyFraming parsed with
      | none => simp [hframing] at h
      | contentLength length => simp [hframing] at h
      | chunked =>
        simp only [hframing] at h ⊢
        cases hchunked : findChunkedBodyEnd (bytes.drop total) with
        | incomplete => simp [hchunked] at h
        | complete info => simp [hchunked] at h
        | invalid reason =>
          simp only [hchunked, Verdict.frame.injEq] at h
          simp only
          rw [h.2.1]

/-- After an error of a clean turn, nothing begins in the rest of the buffer. -/
theorem startOf_of_cleanTurn {context : Http1ParseContext} {reason : Text} {size head body : ℕ}
    (hclean : cleanTurn context bytes = true) (hlimit : bytes.length ≤ context.max_buffer_bytes)
    (h : httpVerdict bytes = .frame (.error reason size) head body) :
    startOf (bytes.drop head) = (bytes.drop head).length := by
  have hlooks := (httpVerdict_frame h).1
  unfold cleanTurn at hclean
  rw [faultyHead_of_httpVerdict h, hlooks, decide_eq_false (by omega)] at hclean
  have hnone : findHttpStart (bytes.drop head) = none := by simpa using hclean
  unfold startOf
  rw [hnone]
  rfl

namespace Http1DirectionState

variable {context : Http1ParseContext} {total ordinal pos : ℕ} {state : Http1DirectionState}
  {buffer : List UInt8}

/-- An error is reported and the whole buffer is dropped. -/
theorem Frames.limit (h : state.Frames total ordinal (.start pos buffer))
    (context : Http1ParseContext) (hsmall : total < 2^64) (hne : buffer ≠ []) (reason : Text) :
    state.parseError context.stream_id context.direction reason =
        (state.countOrdinal, frameMessage context ordinal pos (.error reason buffer.length)) ∧
      state.countOrdinal.clearBuffer.Frames total (ordinal + 1) (.start total []) := by
  have hdrain := h.advance hsmall hne (List.length_pos_iff.mpr hne) (le_refl buffer.length)
  have hlength : pos + buffer.length = total := h.2.2.2.2.2.1
  have hclear : state.countOrdinal.drainFront buffer.length = state.countOrdinal.clearBuffer := by
    have hbuffer : state.countOrdinal.buffer = buffer := h.2.2.2.1
    unfold Http1DirectionState.drainFront
    rw [hbuffer, if_pos (le_refl _)]
  rw [hclear, List.drop_length, hlength] at hdrain
  exact ⟨h.parseError hsmall hne reason, hdrain⟩

/-- The limit of the head does not matter once there is the end of one. -/
theorem parseStep_max_header (state : Http1DirectionState) {found : ℕ × ℕ}
    (h : findHeaderEnd state.buffer = some found) (max_header_bytes : ℕ) :
    state.parseStep { context with max_header_bytes } = state.parseStep context := by
  unfold Http1DirectionState.parseStep
  rw [h]
  rfl

/-- What one turn of the loop can do. -/
theorem Frames.turn (h : state.Frames total ordinal (.start pos buffer)) (context : Http1ParseContext)
    (hsmall : total < 2^64) :
    ∃ messages fs more, Turn context total ordinal pos buffer messages fs more ∧
      ∃ state' : Http1DirectionState, state.parseStep context = (state', messages, more) ∧
        state'.Frames total (ordinal + messages.length) fs := by
  have hbuffer : state.buffer = buffer := h.2.2.2.1
  by_cases hne : buffer = []
  · refine ⟨[], _, false, .wait, state, ?_, h⟩
    unfold Http1DirectionState.parseStep
    rw [hbuffer, hne]
    rfl
  have hempty : buffer.isEmpty = false := by simpa using hne
  by_cases hlooks : looksLikeHttpPrefix buffer = true
  swap
  · obtain ⟨count, hpos, hcount, -, hframes⟩ := h.resyncOrClear hsmall hne (by simpa using hlooks)
    refine ⟨[], _, true, .skip hpos hcount, state.resyncOrClear, ?_, hframes⟩
    unfold Http1DirectionState.parseStep
    rw [hbuffer, hempty]
    simp [hlooks]
  by_cases hlimit : buffer.length ≤ context.max_buffer_bytes
  swap
  · have hlong := h.limit context hsmall hne
    obtain ⟨herror, hframes⟩ := hlong "http message exceeded parser buffer limit".toList
    refine ⟨[_], _, false, .limit "http message exceeded parser buffer limit".toList hlooks, _, ?_, hframes⟩
    unfold Http1DirectionState.parseStep
    rw [hbuffer, hempty, hlooks, herror]
    simp only [Bool.false_eq_true, if_false, Bool.not_true]
    rw [if_pos (by omega)]
  cases hend : findHeaderEnd buffer with
  | none =>
    by_cases hheader : buffer.length ≤ context.max_header_bytes
    · refine ⟨[], _, false, .wait, state, ?_, h⟩
      unfold Http1DirectionState.parseStep
      rw [hbuffer, hempty, hlooks, hend]
      simp only [Bool.false_eq_true, if_false, Bool.not_true]
      rw [if_neg (by omega), if_neg (by omega)]
    · have hlong := h.limit context hsmall hne
      obtain ⟨herror, hframes⟩ := hlong "http header exceeded parser limit".toList
      refine ⟨[_], _, false, .limit "http header exceeded parser limit".toList hlooks, _, ?_, hframes⟩
      unfold Http1DirectionState.parseStep
      rw [hbuffer, hempty, hlooks, hend, herror]
      simp only [Bool.false_eq_true, if_false, Bool.not_true]
      rw [if_neg (by omega), if_pos (by omega)]
  | some found =>
    -- With the end of a head, the turn is that of a parser without a limit for heads.
    let unlimited : Http1ParseContext := { context with max_header_bytes := buffer.length }
    have hstep := h.parseStep hsmall hne
      (show buffer.length ≤ unlimited.max_header_bytes from le_refl _)
      (show buffer.length ≤ unlimited.max_buffer_bytes from hlimit)
    rw [parseStep_max_header state (by rw [hbuffer]; exact hend)] at hstep
    cases hverdict : httpVerdict buffer with
    | wait =>
      simp only [hverdict] at hstep
      exact ⟨[], _, false, .wait, state, hstep, h⟩
    | skip =>
      rw [httpVerdict_eq_skip.mp hverdict] at hlooks
      cases hlooks
    | frame frame head body =>
      have hhead := httpFraming.head_pos hverdict
      simp only [hverdict] at hstep
      by_cases hfits : head + body ≤ buffer.length
      · rw [if_pos hfits] at hstep
        refine ⟨[_], _, true, .frame hverdict hlimit hfits, _, hstep, ?_⟩
        exact h.advance hsmall hne (by omega) hfits
      · rw [if_neg hfits] at hstep
        obtain ⟨state', hstep, hframes⟩ := hstep
        exact ⟨[], _, false, .body hverdict (by omega), state', hstep, hframes⟩

end Http1DirectionState

end Rustmate.Message
