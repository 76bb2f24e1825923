import Rustmate.Message.HttpCuts
import Rustmate.Message.Wire

/-!
# HTTP messages one after the other

Messages whose bodies have known lengths are reported one by one, however their bytes are cut.
-/

namespace Rustmate.Message

/-! ## The blank line -/

variable {lines : List (List UInt8)} {line : List UInt8}

/-- Lines begin with the first of them. -/
theorem intercalate_append (line : List UInt8) (lines : List (List UInt8)) (T : List UInt8) :
    ∃ T', [13, 10].intercalate (line :: lines) ++ 13 :: T = line ++ 13 :: T' := by
  cases lines with
  | nil => exact ⟨T, by rw [List.intercalate_singleton]⟩
  | cons line' lines =>
    exact ⟨10 :: ([13, 10].intercalate (line' :: lines) ++ 13 :: T), by
      rw [List.intercalate_cons_cons]
      simp⟩

/-- A line that is not empty begins with two bytes that are not line feeds, the carriage return counted. -/
theorem line_front (hne : line ≠ []) (hlf : 10 ∉ line) (T : List UInt8) :
    (line ++ 13 :: T)[0]? ≠ some 10 ∧ (line ++ 13 :: T)[1]? ≠ some 10 := by
  cases line with
  | nil => exact absurd rfl hne
  | cons x line =>
    have hx : x ≠ 10 := fun h => hlf (by simp [h])
    refine ⟨by simpa using hx, ?_⟩
    cases line with
    | nil => simp
    | cons y line =>
      have hy : y ≠ 10 := fun h => hlf (by simp [h])
      simpa using hy

/-- Where lines are not empty, the two bytes after a line feed are not line feeds. -/
theorem intercalate_lf (hne : ∀ line ∈ lines, line ≠ []) (hlf : ∀ line ∈ lines, 10 ∉ line) (T : List UInt8)
    {j : ℕ} (hj : j < ([13, 10].intercalate lines).length)
    (h : ([13, 10].intercalate lines ++ 13 :: T)[j]? = some 10) :
    ([13, 10].intercalate lines ++ 13 :: T)[j + 1]? ≠ some 10 ∧
      ([13, 10].intercalate lines ++ 13 :: T)[j + 2]? ≠ some 10 := by
  induction lines generalizing j with
  | nil => simp at hj
  | cons first lines ih =>
    have hline : ∀ i : ℕ, first[i]? ≠ some 10 := fun i hi =>
      hlf first List.mem_cons_self (List.mem_of_getElem? hi)
    cases lines with
    | nil =>
      rw [List.intercalate_singleton] at hj h
      rw [List.getElem?_append_left hj] at h
      exact absurd h (hline j)
    | cons second lines =>
      generalize htail : [13, 10].intercalate (second :: lines) = tail at ih
      have hwhole : [13, 10].intercalate (first :: second :: lines) ++ 13 :: T =
          first ++ 13 :: 10 :: (tail ++ 13 :: T) := by
        rw [List.intercalate_cons_cons, htail]
        simp
      have hlength : ([13, 10].intercalate (first :: second :: lines)).length =
          first.length + 2 + tail.length := by
        rw [List.intercalate_cons_cons, htail]
        simp only [List.length_append, List.length_cons, List.length_nil]
      rw [hwhole] at h ⊢
      -- A place after the line and its end, in what follows.
      have hshift : ∀ i, (first ++ 13 :: 10 :: (tail ++ 13 :: T))[first.length + 2 + i]? =
          (tail ++ 13 :: T)[i]? := by
        intro i
        rw [List.getElem?_append_right (by omega), show first.length + 2 + i - first.length = i + 2 by omega]
        rfl
      rcases Nat.lt_trichotomy j first.length with hlt | rfl | hgt
      · rw [List.getElem?_append_left hlt] at h
        exact absurd h (hline j)
      · rw [List.getElem?_append_right (le_refl _), Nat.sub_self] at h
        simp at h
      rcases Nat.eq_or_lt_of_le (show first.length + 1 ≤ j from hgt) with rfl | hgt
      · obtain ⟨T', hT'⟩ := intercalate_append second lines T
        rw [htail] at hT'
        have hfront := line_front (hne second (by simp)) (hlf second (by simp)) T'
        rw [← hT'] at hfront
        rw [show first.length + 1 + 1 = first.length + 2 + 0 by omega,
          show first.length + 1 + 2 = first.length + 2 + 1 by omega, hshift, hshift]
        exact hfront
      · obtain ⟨i, rfl⟩ : ∃ i, j = first.length + 2 + i := ⟨j - (first.length + 2), by omega⟩
        rw [hshift] at h
        rw [show first.length + 2 + i + 1 = first.length + 2 + (i + 1) by omega,
          show first.length + 2 + i + 2 = first.length + 2 + (i + 2) by omega, hshift, hshift]
        exact ih (fun l hl => hne l (List.mem_cons_of_mem _ hl))
          (fun l hl => hlf l (List.mem_cons_of_mem _ hl)) (by omega) h

variable {H T : List UInt8}

/-- The bytes after a line feed of `H`, which is followed by a blank line, are not line feeds. -/
def SingleLines (H T : List UInt8) : Prop :=
  ∀ j < H.length, (H ++ 13 :: 10 :: 13 :: 10 :: T)[j]? = some 10 →
    (H ++ 13 :: 10 :: 13 :: 10 :: T)[j + 1]? ≠ some 10 ∧
      (H ++ 13 :: 10 :: 13 :: 10 :: T)[j + 2]? ≠ some 10

/-- Two line feeds, and two line ends, are first at the end of the head. -/
theorem SingleLines.first (h : SingleLines H T) {j : ℕ} (hj : j < H.length + 2) :
    ¬ Occurs [10, 10] (H ++ 13 :: 10 :: 13 :: 10 :: T) j (j + 2) ∧
      (j < H.length → ¬ Occurs [13, 10, 13, 10] (H ++ 13 :: 10 :: 13 :: 10 :: T) j (j + 4)) := by
  have hblank : ∀ i, (H ++ 13 :: 10 :: 13 :: 10 :: T)[H.length + i]? =
      (13 :: 10 :: 13 :: 10 :: T)[i]? := by
    intro i
    rw [List.getElem?_append_right (by omega), Nat.add_sub_cancel_left]
  constructor
  · intro hoccurs
    have h₀ := hoccurs.getElem? (show 0 < 2 by omega)
    have h₁ := hoccurs.getElem? (show 1 < 2 by omega)
    rw [Nat.add_zero] at h₀
    by_cases hlt : j < H.length
    · exact (h j hlt h₀).1 h₁
    · obtain ⟨i, rfl⟩ : ∃ i, j = H.length + i := ⟨j - H.length, by omega⟩
      rw [hblank] at h₀
      rw [Nat.add_assoc, hblank] at h₁
      have hi : i = 0 ∨ i = 1 := by omega
      rcases hi with rfl | rfl
      · simp at h₀
      · simp at h₁
  · intro hlt hoccurs
    have h₁ := hoccurs.getElem? (show 1 < 4 by omega)
    have h₃ := hoccurs.getElem? (show 3 < 4 by omega)
    by_cases hlast : j + 1 < H.length
    · exact (h (j + 1) hlast h₁).2 h₃
    · rw [show j + 1 = H.length + 0 by omega, hblank] at h₁
      simp at h₁

/-- The end of a head is found. -/
theorem SingleLines.findHeaderEnd (h : SingleLines H T) :
    Message.findHeaderEnd (H ++ 13 :: 10 :: 13 :: 10 :: T) = some (H.length, H.length + 4) := by
  have hfound : findBytes [13, 10, 13, 10] (H ++ 13 :: 10 :: 13 :: 10 :: T) = some H.length := by
    refine findBytes_eq_some.mpr ⟨⟨rfl, by simp, ?_⟩, fun j hj => (h.first (by omega)).2 hj⟩
    rw [List.drop_left]
    rfl
  unfold Message.findHeaderEnd findEnd
  rw [hfound]
  rfl

/-- It is not found before the blank line is there. -/
theorem SingleLines.findHeaderEnd_take (h : SingleLines H T) {n : ℕ} (hn : n < H.length + 4) :
    Message.findHeaderEnd ((H ++ 13 :: 10 :: 13 :: 10 :: T).take n) = none := by
  generalize hS : H ++ 13 :: 10 :: 13 :: 10 :: T = S at h
  have hpart : ∀ needle : List UInt8, ∀ j, Occurs needle (S.take n) j (j + needle.length) →
      j + needle.length ≤ n ∧ Occurs needle S j (j + needle.length) := by
    intro needle j hoccurs
    have hle := hoccurs.2.1
    rw [List.length_take] at hle
    refine ⟨by omega, ?_⟩
    rw [← List.take_append_drop n S]
    exact (occurs_append hoccurs.2.1).mpr hoccurs
  have hcrlf : findBytes [13, 10, 13, 10] (S.take n) = none := by
    refine findBytes_eq_none.mpr fun j hoccurs => ?_
    obtain ⟨hle, hoccurs⟩ := hpart _ j hoccurs
    rw [← hS] at hoccurs
    simp only [List.length_cons, List.length_nil] at hle hoccurs
    exact (h.first (by omega)).2 (by omega) hoccurs
  have hlf : findBytes [10, 10] (S.take n) = none := by
    refine findBytes_eq_none.mpr fun j hoccurs => ?_
    obtain ⟨hle, hoccurs⟩ := hpart _ j hoccurs
    rw [← hS] at hoccurs
    simp only [List.length_cons, List.length_nil] at hle hoccurs
    exact (h.first (by omega)).1 hoccurs
  unfold Message.findHeaderEnd findEnd
  rw [hcrlf, hlf]
  rfl

/-! ## A message -/

/-- The bytes of lines. -/
theorem utf8_intercalate (lines : List Text) :
    utf8 (crlf.intercalate lines) = [13, 10].intercalate (lines.map utf8) := by
  induction lines with
  | nil => rfl
  | cons line lines ih =>
    cases lines with
    | nil => simp
    | cons line' lines =>
      rw [List.intercalate_cons_cons, utf8_append, utf8_append, ih]
      simp only [List.map_cons]
      rw [List.intercalate_cons_cons]
      rfl

/-- The first line of a message is not empty, and the parser takes its bytes for the beginning of one. -/
theorem StartLine.WellFormed.signature {start : StartLine} (h : start.WellFormed) :
    start.text ≠ [] ∧ ∃ signature ∈ httpSignatures, signature <+: utf8 start.text := by
  have hpre : ∀ a b : Text, utf8 a <+: utf8 (a ++ b) := by
    intro a b
    rw [utf8_append]
    exact List.prefix_append _ _
  cases start with
  | request method target version =>
    obtain ⟨hsignature, -⟩ := isHttpMethod_cases h.1
    exact ⟨by simp [StartLine.text], utf8 method, hsignature, hpre method _⟩
  | response version status reason =>
    obtain ⟨rest, rfl⟩ := h.1
    refine ⟨by simp [StartLine.text], utf8 "HTTP/".toList, by decide, ?_⟩
    dsimp only [StartLine.text]
    rw [List.append_assoc]
    exact hpre _ _

namespace WireMessage

variable {message : WireMessage} {rest : List UInt8}

/-- The bytes of a message, and what follows: the head, the blank line and the rest. -/
theorem bytes_append (message : WireMessage) (rest : List UInt8) :
    message.bytes ++ rest = utf8 message.head ++ 13 :: 10 :: 13 :: 10 :: (message.body ++ rest) := by
  unfold bytes headBytes
  rw [utf8_append, utf8_append, show utf8 crlf = [13, 10] from rfl]
  simp

/-- The length of the head with the blank line. -/
theorem length_headBytes (message : WireMessage) :
    message.headBytes.length = (utf8 message.head).length + 4 := by
  unfold headBytes
  rw [utf8_append, utf8_append, show utf8 crlf = [13, 10] from rfl]
  simp

/-- The lines of a head are single. -/
theorem WellFormed.singleLines (h : message.WellFormed) (T : List UInt8) :
    SingleLines (utf8 message.head) T := by
  have hlines : ∀ line ∈ message.lines.map utf8, line ≠ [] ∧ 10 ∉ line := by
    intro line hline
    obtain ⟨text, htext, rfl⟩ := List.mem_map.mp hline
    refine ⟨fun hnil => ?_, fun hlf => h.lines_lf text htext (lf_mem_utf8.mp hlf)⟩
    have hempty : text = [] := by
      rw [← fromUtf8Lossy_utf8 text, hnil]
      rfl
    unfold lines at htext
    rcases List.mem_cons.mp htext with rfl | htext
    · exact h.start.signature.1 hempty
    · obtain ⟨header, -, rfl⟩ := List.mem_map.mp htext
      exact absurd hempty (by simp [HeaderLine.text])
  intro j hj hat
  unfold head at hj hat ⊢
  rw [utf8_intercalate] at hj hat ⊢
  exact intercalate_lf (fun line hline => (hlines line hline).1) (fun line hline => (hlines line hline).2) _ hj
    hat

/-- The bytes of a message look like the beginning of one. -/
theorem WellFormed.looksLikeHttpPrefix (h : message.WellFormed) (rest : List UInt8) :
    Message.looksLikeHttpPrefix (message.bytes ++ rest) = true := by
  obtain ⟨-, signature, hsignature, hpre⟩ := h.start.signature
  have hhead : utf8 message.start.text <+: message.bytes ++ rest := by
    rw [bytes_append]
    unfold head lines
    rw [utf8_intercalate, List.map_cons]
    obtain ⟨T', hT'⟩ := intercalate_append (utf8 message.start.text)
      ((message.headers.map HeaderLine.text).map utf8) (10 :: 13 :: 10 :: (message.body ++ rest))
    rw [hT']
    exact List.prefix_append _ _
  unfold Message.looksLikeHttpPrefix
  rw [Bool.and_eq_true, List.any_eq_true]
  refine ⟨?_, signature, hsignature, ?_⟩
  · rw [bytes_append]
    simp
  · rw [Bool.or_eq_true]
    exact .inr (List.isPrefixOf_iff_prefix.mpr (hpre.trans hhead))

/-- The body is not chunked, and its length is that of the headers. -/
theorem WellFormed.bodyFraming (h : message.WellFormed) :
    Message.bodyFraming message.readHead =
      if message.named "content-length".toList = [] then .none
      else .contentLength message.body.length := by
  have hchunked : (message.valueOf "transfer-encoding".toList).any (fun value =>
      contains (toAsciiLowercase value) "chunked".toList) = false := by
    unfold valueOf
    cases hnamed : message.named "transfer-encoding".toList with
    | nil => rfl
    | cons header more => exact h.not_chunked header (by rw [hnamed]; exact List.mem_cons_self)
  have hinfo : message.readHead.info.transfer_encoding = message.valueOf "transfer-encoding".toList ∧
      message.readHead.info.content_length =
        if message.named "content-length".toList = [] then none else some message.body.length := by
    unfold readHead
    cases message.start <;> exact ⟨rfl, rfl⟩
  unfold Message.bodyFraming
  rw [hinfo.1, hinfo.2, hchunked, if_neg (by simp)]
  split_ifs <;> rfl

/-- What the parser sets as the body is what is reported of it. -/
theorem WellFormed.read_eq (h : message.WellFormed) :
    (match Message.bodyFraming message.readHead with
      | .contentLength length =>
        { message.readHead with info :=
          { message.readHead.info with body := httpContentLengthBody message.readHead.info length } }
      | _ => message.readHead) = message.read := by
  rw [h.bodyFraming]
  have hnone : message.readHead.info.body = none := by
    unfold readHead
    cases message.start <;> rfl
  have hencoding : message.readHead.info.content_encoding = message.valueOf "content-encoding".toList := by
    unfold readHead
    cases message.start <;> rfl
  by_cases hnamed : message.named "content-length".toList = []
  · have hbody : message.body = [] := by
      rcases h.length with ⟨header, hheader, -⟩ | ⟨-, hbody⟩
      · rw [hnamed] at hheader
        exact absurd hheader (by simp)
      · exact hbody
    unfold read readBody
    rw [if_pos hnamed, if_pos hbody, ← hnone]
  · rw [if_neg hnamed]
    unfold read readBody httpContentLengthBody httpBodyTransforms httpHasGzip
    rw [hencoding]
    simp only [List.length_eq_zero_iff, Bool.false_eq_true, if_false, List.nil_append]

/-- What the parser decides on the first bytes from a message on: it waits for the head, and then takes the
message. -/
theorem WellFormed.httpVerdict_take (h : message.WellFormed) (hsmall : message.body.length ≤ u64Max)
    {n : ℕ} (hpos : 0 < n) (hn : n ≤ (message.bytes ++ rest).length) :
    httpVerdict ((message.bytes ++ rest).take n) =
      if n < message.headBytes.length then .wait
      else
        .frame (.complete message.read message.headBytes.length message.body.length)
          message.headBytes.length message.body.length := by
  have hlooks : Message.looksLikeHttpPrefix ((message.bytes ++ rest).take n) = true := by
    have hwhole := h.looksLikeHttpPrefix rest
    rw [← List.take_append_drop n (message.bytes ++ rest)] at hwhole
    refine looksLikeHttpPrefix_of_append ?_ hwhole
    rw [← List.length_pos_iff, List.length_take]
    omega
  unfold httpVerdict
  rw [hlooks, length_headBytes]
  simp only [Bool.not_true, Bool.false_eq_true, if_false]
  rw [bytes_append]
  split_ifs with hlt
  · rw [(h.singleLines _).findHeaderEnd_take hlt]
  · obtain ⟨k, rfl⟩ : ∃ k, n = (utf8 message.head).length + (k + 4) := ⟨n - ((utf8 message.head).length + 4), by omega⟩
    rw [List.take_length_add_append]
    simp only [List.take_succ_cons]
    rw [(h.singleLines _).findHeaderEnd]
    simp only
    rw [List.take_left, h.parseHttp1Head hsmall]
    have hread := h.read_eq
    have hframing := h.bodyFraming
    simp only
    by_cases hnamed : message.named "content-length".toList = []
    · rw [if_pos hnamed] at hframing
      have hbody : message.body = [] := by
        rcases h.length with ⟨header, hheader, -⟩ | ⟨-, hbody⟩
        · rw [hnamed] at hheader
          exact absurd hheader (by simp)
        · exact hbody
      rw [hframing] at hread ⊢
      simp only at hread ⊢
      rw [hread, hbody]
      rfl
    · rw [if_neg hnamed] at hframing
      rw [hframing] at hread ⊢
      simp only at hread ⊢
      rw [hread]

/-! ## A list of messages -/

/-- The bytes of messages, one after the other. -/
def stream (messages : List WireMessage) : List UInt8 := messages.flatMap bytes

/-- The messages that are to be reported: each with its ordinal and with the place of its bytes. -/
def reported (context : Http1ParseContext) : ℕ → ℕ → List WireMessage → List StreamMessage
  | _, _, [] => []
  | ordinal, pos, message :: messages =>
    frameMessage context ordinal pos
        (.complete message.read message.headBytes.length message.body.length) ::
      reported context (ordinal + 1) (pos + message.bytes.length) messages

variable {messages : List WireMessage}

/-- A message at the front is what the whole stream begins with, and no beginning of the stream leads
elsewhere. -/
theorem WellFormed.agrees (h : message.WellFormed) (hsmall : message.body.length ≤ u64Max)
    (rest : List UInt8) :
    httpFraming.Agrees (message.bytes ++ rest) ∧ httpFraming.outcome (message.bytes ++ rest) =
      .frame (.complete message.read message.headBytes.length message.body.length)
        message.bytes.length := by
  have hlength : message.bytes.length = message.headBytes.length + message.body.length := by
    unfold bytes
    rw [List.length_append]
  have hhead := length_headBytes message
  have hat : ∀ n, 0 < n → n ≤ (message.bytes ++ rest).length →
      httpFraming.outcomeAt (message.bytes ++ rest) n =
        if n < message.headBytes.length then none
        else some (.frame (.complete message.read message.headBytes.length message.body.length)
          message.bytes.length) := by
    intro n hpos hn
    unfold Framing.outcomeAt
    rw [show httpFraming.verdict = httpVerdict from rfl, h.httpVerdict_take hsmall hpos hn]
    split_ifs with hlt
    · rfl
    · simp only
      rw [if_pos (by rw [List.length_append]; omega), ← hlength]
  have hall : httpFraming.outcome (message.bytes ++ rest) =
      .frame (.complete message.read message.headBytes.length message.body.length)
        message.bytes.length := by
    have hwhole : (message.bytes ++ rest).length = message.bytes.length + rest.length :=
      List.length_append
    unfold Framing.outcome
    rw [hat _ (by omega) (le_refl _), if_neg (by omega)]
    rfl
  refine ⟨fun n hpos hn o ho => ?_, hall⟩
  rw [hat n hpos hn] at ho
  rw [hall]
  split_ifs at ho
  simpa using ho.symm

/-- A list of messages is steady, and its frames are the messages. -/
theorem stream_frames (context : Http1ParseContext) (hwf : ∀ message ∈ messages, message.WellFormed)
    (hsmall : (stream messages).length ≤ u64Max) :
    httpFraming.Steady (stream messages) ∧ ∀ ordinal pos,
      frameMessages context ordinal (httpFraming.drain pos (stream messages)).1 =
        reported context ordinal pos messages := by
  induction messages with
  | nil =>
    refine ⟨.nil, fun ordinal pos => ?_⟩
    unfold stream
    rw [List.flatMap_nil, Framing.drain_nil]
    rfl
  | cons message messages ih =>
    have hcons : stream (message :: messages) = message.bytes ++ stream messages := List.flatMap_cons
    rw [hcons, List.length_append] at hsmall
    obtain ⟨hsteady, hframes⟩ := ih (fun m hm => hwf m (List.mem_cons_of_mem _ hm)) (by omega)
    have hlength : message.bytes.length = message.headBytes.length + message.body.length := by
      unfold bytes
      rw [List.length_append]
    obtain ⟨hagrees, hall⟩ := (hwf message List.mem_cons_self).agrees (by omega) (stream messages)
    have hne : message.bytes ++ stream messages ≠ [] := by
      rw [bytes_append]
      simp
    rw [hcons]
    refine ⟨.frame hne hagrees hall ?_, fun ordinal pos => ?_⟩
    · rw [List.drop_left]
      exact hsteady
    · have hdrain := Framing.drain_of_outcome httpFraming pos hne
      rw [hall] at hdrain
      simp only at hdrain
      rw [hdrain.2.2, List.drop_left]
      unfold frameMessages reported
      rw [hframes]

end WireMessage

open WireMessage

/-- However the bytes of a list of messages within the limits are cut, each message is reported as it was
written, at its place. The limit of the buffer is a `usize`. -/
theorem pushAll_stream (context : Http1ParseContext) (husize : context.max_buffer_bytes ≤ u64Max)
    (messages : List WireMessage) (hwf : ∀ message ∈ messages, message.WellFormed)
    (hheader : (stream messages).length ≤ context.max_header_bytes)
    (hbuffer : (stream messages).length ≤ context.max_buffer_bytes)
    (pieces : List (List UInt8)) (hne : ∀ p ∈ pieces, p ≠ [])
    (hpieces : pieces.flatten = stream messages) :
    (Http1DirectionState.pushAll {} context pieces).2 = reported context 0 0 messages := by
  have hsmall : (stream messages).length ≤ u64Max := le_trans hbuffer husize
  obtain ⟨hsteady, hframes⟩ := stream_frames context hwf hsmall
  rw [← hframes, ← Framing.frames_of_steady hsteady hne hpieces]
  have hbound : (stream messages).length < 2^64 := by
    unfold u64Max at hsmall
    omega
  refine Http1DirectionState.frames_new.pushAll hne ?_ ?_ ?_ <;> rw [hpieces, Nat.zero_add]
  · exact hbound
  · exact hheader
  · exact hbuffer

/-- A request without a body. -/
def sampleRequest : WireMessage :=
  ⟨.request "GET".toList "/a".toList "HTTP/1.1".toList, [⟨"Host".toList, [' '], "b".toList⟩], []⟩

/-- A response whose body looks like the end of a head and the beginning of a request. -/
def sampleResponse : WireMessage :=
  ⟨.response "HTTP/1.1".toList "200".toList (some "OK".toList),
    [⟨"Content-Length".toList, [' '], "8".toList⟩], utf8 "\r\n\r\nGET ".toList⟩

/-- The two samples are well formed. -/
theorem sample_wellFormed : ∀ message ∈ [sampleRequest, sampleResponse], message.WellFormed := by
  intro message hmem
  simp only [List.mem_cons, List.not_mem_nil, or_false] at hmem
  rcases hmem with rfl | rfl
  · refine ⟨⟨by decide, by decide, by simp [isAsciiWhitespace], by decide, by simp [isWhitespace]⟩,
      fun header hheader => ?_, by decide,
      by decide, .inr (by decide)⟩
    obtain rfl := List.mem_singleton.mp hheader
    exact ⟨by decide, by decide, by simp [NoBlanks, isWhitespace], by simp, by decide,
      by simp [NoBlanks, isWhitespace]⟩
  · refine ⟨⟨by decide, by simp [isWhitespace], ⟨200, by decide, by simp [IsDecimal, Nat.ofDigitChars]⟩, by simp⟩,
      fun header hheader => ?_,
      by decide, by decide, .inl ⟨_, rfl, by decide, by simp, rfl⟩⟩
    obtain rfl := List.mem_singleton.mp hheader
    exact ⟨by decide, by decide, by simp [NoBlanks, isWhitespace], by simp, by decide,
      by simp [NoBlanks, isWhitespace]⟩

/-- The samples, cut in the middle. -/
theorem pushAll_stream_sample :
    (Http1DirectionState.pushAll {} sampleContext
      [(stream [sampleRequest, sampleResponse]).take 40,
        (stream [sampleRequest, sampleResponse]).drop 40]).2 =
      reported sampleContext 0 0 [sampleRequest, sampleResponse] :=
  pushAll_stream sampleContext (by decide) _ sample_wellFormed (by decide) (by decide) _ (by decide)
    (by simp)

/-- A request that gives the length of its body and says that it is chunked. -/
def bothRequest : WireMessage :=
  ⟨.request "POST".toList "/".toList "HTTP/1.1".toList,
    [⟨"Content-Length".toList, [' '], "1".toList⟩,
      ⟨"Transfer-Encoding".toList, [' '], "chunked".toList⟩], [97]⟩

/-- A response with a blank at the end of its reason. -/
def blankResponse : WireMessage :=
  ⟨.response "HTTP/1.1".toList "200".toList (some "OK ".toList), [], []⟩

/-- A length beside chunks is not what frames the body: no message is reported. A blank at the end of a reason
is not reported. -/
theorem pushAll_chunked_length :
    bothRequest.start.WellFormed ∧ (∀ header ∈ bothRequest.headers, header.WellFormed) ∧
      (∃ header, bothRequest.named "content-length".toList = [header] ∧
        IsDecimal header.value bothRequest.body.length) ∧
      (Http1DirectionState.pushAll {} sampleContext [bothRequest.bytes]).2 = [] ∧
      (Http1DirectionState.pushAll {} sampleContext [blankResponse.bytes]).2.map
        (fun message => message.http.bind fun http => http.reason) = [some "OK".toList] := by
  refine ⟨⟨by decide, by decide, by simp [isAsciiWhitespace], by decide, by simp [isWhitespace]⟩,
      fun header hheader => ?_,
    ⟨_, rfl, by decide, by simp, rfl⟩, by decide +kernel, by decide +kernel⟩
  unfold bothRequest at hheader
  simp only [List.mem_cons, List.not_mem_nil, or_false] at hheader
  rcases hheader with rfl | rfl <;>
    exact ⟨by decide, by decide, by simp [NoBlanks, isWhitespace], by simp, by decide,
      by simp [NoBlanks, isWhitespace]⟩

end Rustmate.Message
