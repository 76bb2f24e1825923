import Rustmate.Message.HttpBody

/-!
# The two decoders of chunked bodies

`decode_chunked_body` of `src/stream_transform.rs`, which shows the data of a chunked body, and how it agrees
with `find_chunked_body_end` of the HTTP/1 parser, which tells where such a body ends.
-/

namespace Rustmate.Transform

open Message (Text fromUtf8 fromStrRadix isAsciiWhitespaceByte findLineEnd chunkSize chunkedTrailer
  chunkedLoop findChunkedBodyEnd ChunkedBodyEnd ChunkedBodyInfo)

/-! ## The decoder -/

/-- `append_limited`. -/
def appendLimited (out bytes : List UInt8) (max_output_bytes : ℕ) : List UInt8 :=
  out ++ bytes.take (min bytes.length (max_output_bytes - out.length))

structure ChunkedDecode where
  bytes : List UInt8 := []
  chunks : ℕ := 0
  truncated_by_limit : Bool := false
  partial_body : Bool := false
  reached_last_chunk : Bool := false
  trailing_bytes : ℕ := 0
  deriving DecidableEq, Repr

/-- `find_line_end`: the end of the line, and the start of the next one. -/
def findLineEndFrom (input : List UInt8) (offset : ℕ) : Option (ℕ × ℕ) :=
  ((input.drop offset).findIdx? fun byte => byte = 10).map fun relative =>
    let newline := offset + relative
    let line_end :=
      if offset < newline ∧ input[newline - 1]? = some 13 then newline - 1 else newline
    (line_end, newline + 1)

/-- `trim_ascii`. -/
def trimAscii (bytes : List UInt8) : List UInt8 :=
  (bytes.dropWhile isAsciiWhitespaceByte).rdropWhile isAsciiWhitespaceByte

/-- `parse_chunk_size`. -/
def parseChunkSize (line : List UInt8) : Except Text ℕ :=
  let size := trimAscii (line.takeWhile fun byte => byte ≠ 59)
  match fromUtf8 size with
  | none => .error "chunk size is not UTF-8".toList
  | some size =>
    match fromStrRadix 16 u64Max size with
    | none => .error ("invalid chunk size: ".toList ++ size)
    | some size => .ok size

/-- The loop of `decode_chunked_body`, from a chunk line on. Each turn consumes a byte, so the length of the
input is fuel enough. -/
def decodeChunkedLoop (input : List UInt8) (max_output_bytes : ℕ) :
    ℕ → ℕ → ChunkedDecode → Except Text ChunkedDecode
  | 0, _, decoded => .ok decoded
  | fuel + 1, offset, decoded =>
    match findLineEndFrom input offset with
    | none => .ok { decoded with partial_body := offset < input.length }
    | some (line_end, next_offset) =>
      let line := trimAscii ((input.drop offset).take (line_end - offset))
      if line.isEmpty then .error "empty chunk size line".toList
      else
        match parseChunkSize line with
        | .error message => .error message
        | .ok size =>
          let offset := next_offset
          if size = 0 then
            .ok { decoded with reached_last_chunk := true, trailing_bytes := input.length - offset }
          else
            let available := input.length - offset
            let take := min size available
            let bytes := appendLimited decoded.bytes ((input.drop offset).take take) max_output_bytes
            let decoded := { decoded with
              bytes
              truncated_by_limit :=
                decoded.truncated_by_limit || bytes.length - decoded.bytes.length < take
              chunks := decoded.chunks + 1 }
            let offset := offset + take
            let next (offset : ℕ) : Except Text ChunkedDecode :=
              if max_output_bytes ≤ decoded.bytes.length then
                .ok { decoded with truncated_by_limit := offset < input.length }
              else decodeChunkedLoop input max_output_bytes fuel offset decoded
            if take < size then .ok { decoded with partial_body := true }
            else if [13, 10].isPrefixOf (input.drop offset) then next (offset + 2)
            else if [10].isPrefixOf (input.drop offset) then next (offset + 1)
            else if offset = input.length then .ok { decoded with partial_body := true }
            else .error "chunk payload is not followed by CRLF".toList

/-- `decode_chunked_body`. -/
def decodeChunkedBody (input : List UInt8) (max_output_bytes : ℕ) : Except Text ChunkedDecode :=
  decodeChunkedLoop input max_output_bytes (input.length + 1) 0 {}

/-! ## The fuel -/

/-- The end of a line is after its start and within the input. -/
theorem findLineEndFrom_bounds {input : List UInt8} {offset line_end next_offset : ℕ}
    (h : findLineEndFrom input offset = some (line_end, next_offset)) :
    offset < next_offset ∧ next_offset ≤ input.length := by
  unfold findLineEndFrom at h
  obtain ⟨relative, hfind, heq⟩ := Option.map_eq_some_iff.mp h
  obtain ⟨hlt, -⟩ := List.findIdx?_eq_some_iff_getElem.mp hfind
  rw [List.length_drop] at hlt
  cases heq
  omega

/-- Bytes that are found at a position are within the body. -/
theorem le_length_of_isPrefixOf {pattern body : List UInt8} {position : ℕ} (hne : pattern ≠ [])
    (h : pattern.isPrefixOf (body.drop position) = true) : position + pattern.length ≤ body.length := by
  have hle := (List.isPrefixOf_iff_prefix.mp h).length_le
  have hpos := List.length_pos_iff.mpr hne
  rw [List.length_drop] at hle
  omega

/-! ## Agreement -/

/-- A body that the parser finds complete is decoded to its last chunk, with as many chunks and bytes; and the
parser does not find fault with a body that is decoded to its last chunk. -/
structure Agree (found : ChunkedBodyEnd) (decoded : Except Text ChunkedDecode) : Prop where
  complete : ∀ info, found = .complete info → ∃ result, decoded = .ok result ∧
    result.reached_last_chunk = true ∧ result.chunks = info.chunks ∧
    result.bytes.length = info.decoded_bytes
  valid : ∀ result, decoded = .ok result → result.reached_last_chunk = true →
    ∀ reason, found ≠ .invalid reason

/-- Both readers get the same size from the chunk line at a position, or both get none, and they do so at
every chunk line after it; when there is data after the line, both find the same end of the line. -/
def readAlikeFrom (body : List UInt8) : ℕ → ℕ → Bool
  | 0, _ => true
  | fuel + 1, position =>
    match findLineEnd (body.drop position), findLineEndFrom body position with
    | some (line_len, line_total_len), some (line_end, next_offset) =>
      let size := (chunkSize ((body.drop position).take line_len)).toOption
      size = (parseChunkSize (trimAscii ((body.drop position).take (line_end - position)))).toOption &&
        match size with
        | none => true
        | some size =>
          size = 0 || position + line_total_len = next_offset &&
            let finish := next_offset + size
            if [13, 10].isPrefixOf (body.drop finish) then readAlikeFrom body fuel (finish + 2)
            else if [10].isPrefixOf (body.drop finish) then readAlikeFrom body fuel (finish + 1)
            else true
    | none, _ => true
    | some _, none => false

/-- Both readers read every chunk line of the body alike. -/
def readAlike (body : List UInt8) : Bool := readAlikeFrom body (body.length + 1) 0

/-- A body that is not complete says nothing about the decoder. -/
theorem agree_incomplete (decoded : Except Text ChunkedDecode) : Agree .incomplete decoded where
  complete := by
    intro info h
    cases h
  valid := by
    intro result _ _ reason h
    cases h

/-- Both find fault. -/
theorem agree_faults (reason message : Text) : Agree (.invalid reason) (.error message) where
  complete := by
    intro info h
    cases h
  valid := by
    intro result h
    cases h

/-! ## One chunk line -/

/-- An empty line gives no size. -/
theorem parseChunkSize_nil : (parseChunkSize []).toOption = none := rfl

/-- Without a size in its chunk line, the decoder finds fault. -/
theorem decodeChunkedLoop_fault {input : List UInt8} {offset line_end next_offset : ℕ} (cap fuel : ℕ)
    (decoded : ChunkedDecode) (hline : findLineEndFrom input offset = some (line_end, next_offset))
    (hsize : (parseChunkSize (trimAscii ((input.drop offset).take (line_end - offset)))).toOption = none) :
    ∃ message, decodeChunkedLoop input cap (fuel + 1) offset decoded = .error message := by
  unfold decodeChunkedLoop
  rw [hline]
  dsimp only
  split_ifs
  · exact ⟨_, rfl⟩
  · cases hparse : parseChunkSize (trimAscii ((input.drop offset).take (line_end - offset))) with
    | error message => exact ⟨message, rfl⟩
    | ok size =>
      rw [hparse] at hsize
      cases hsize

/-- A chunk line with a size is not empty. -/
theorem isEmpty_of_parseChunkSize {line : List UInt8} {size : ℕ} (h : parseChunkSize line = .ok size) :
    line.isEmpty = false := by
  cases line with
  | nil =>
    have hnone := parseChunkSize_nil
    rw [h] at hnone
    cases hnone
  | cons byte line => rfl

/-- The size zero ends the decoding. -/
theorem decodeChunkedLoop_last {input : List UInt8} {offset line_end next_offset : ℕ} (cap fuel : ℕ)
    (decoded : ChunkedDecode) (hline : findLineEndFrom input offset = some (line_end, next_offset))
    (hsize : parseChunkSize (trimAscii ((input.drop offset).take (line_end - offset))) = .ok 0) :
    decodeChunkedLoop input cap (fuel + 1) offset decoded = .ok { decoded with
      reached_last_chunk := true
      trailing_bytes := input.length - next_offset } := by
  unfold decodeChunkedLoop
  rw [hline]
  simp only [isEmpty_of_parseChunkSize hsize, hsize, if_true]
  rfl

/-- Data that is there, with a byte after it, is decoded when there is room for it. -/
theorem decodeChunkedLoop_data {input : List UInt8} {offset line_end next_offset size : ℕ} {cap : ℕ}
    (fuel : ℕ) {decoded : ChunkedDecode}
    (hline : findLineEndFrom input offset = some (line_end, next_offset))
    (hsize : parseChunkSize (trimAscii ((input.drop offset).take (line_end - offset))) = .ok size)
    (hne : size ≠ 0) (hdata : next_offset + size < input.length)
    (hroom : decoded.bytes.length + size < cap) :
    ∃ decoded' : ChunkedDecode, decoded'.bytes.length = decoded.bytes.length + size ∧
      decoded'.chunks = decoded.chunks + 1 ∧
      decodeChunkedLoop input cap (fuel + 1) offset decoded =
        let finish := next_offset + size
        if [13, 10].isPrefixOf (input.drop finish) then
          decodeChunkedLoop input cap fuel (finish + 2) decoded'
        else if [10].isPrefixOf (input.drop finish) then
          decodeChunkedLoop input cap fuel (finish + 1) decoded'
        else .error "chunk payload is not followed by CRLF".toList := by
  have htake : min size (input.length - next_offset) = size := by omega
  have hlength : (appendLimited decoded.bytes ((input.drop next_offset).take size) cap).length =
      decoded.bytes.length + size := by
    unfold appendLimited
    rw [List.length_append, List.length_take, List.length_take, List.length_drop]
    omega
  refine ⟨{ decoded with
    bytes := appendLimited decoded.bytes ((input.drop next_offset).take size) cap
    truncated_by_limit := decoded.truncated_by_limit ||
      (appendLimited decoded.bytes ((input.drop next_offset).take size) cap).length -
        decoded.bytes.length < size
    chunks := decoded.chunks + 1 }, hlength, rfl, ?_⟩
  have hfull : ¬ cap ≤ (appendLimited decoded.bytes ((input.drop next_offset).take size) cap).length := by
    rw [hlength]
    omega
  have hend : next_offset + size ≠ input.length := by omega
  rw [decodeChunkedLoop, hline]
  simp only [isEmpty_of_parseChunkSize hsize, hsize, hne, htake, hfull, hend, if_false, lt_irrefl,
    Bool.false_eq_true]

/-! ## The two loops -/

/-- What the parser says of the trailers of a body: never that it is not valid, and the counts as they are. -/
theorem chunkedTrailer_cases (body : List UInt8) (position decoded_bytes chunks : ℕ) :
    chunkedTrailer body position decoded_bytes chunks = .incomplete ∨
      ∃ wire_bytes trailer_bytes, chunkedTrailer body position decoded_bytes chunks =
        .complete ⟨wire_bytes, decoded_bytes, chunks, trailer_bytes⟩ := by
  unfold chunkedTrailer
  dsimp only
  split_ifs
  · exact .inr ⟨_, _, rfl⟩
  · exact .inr ⟨_, _, rfl⟩
  · split
    · exact .inl rfl
    · exact .inr ⟨_, _, rfl⟩

/-- After the last chunk line both have come to the end. -/
theorem agree_last {body : List UInt8} {decoded : ChunkedDecode} (position trailing_bytes : ℕ) :
    Agree (chunkedTrailer body position decoded.bytes.length decoded.chunks)
      (.ok { decoded with reached_last_chunk := true, trailing_bytes := trailing_bytes }) := by
  rcases chunkedTrailer_cases body position decoded.bytes.length decoded.chunks with h | ⟨wire, trailer, h⟩
  · rw [h]
    exact agree_incomplete _
  · rw [h]
    refine ⟨fun info hinfo => ?_, fun _ _ _ _ hreason => by cases hreason⟩
    cases hinfo
    exact ⟨_, rfl, rfl, rfl, rfl⟩

/-- As long as both readers read the chunk lines alike, the parser and the decoder go on in step: both have
counted as many chunks, and as many bytes as the decoder has. -/
theorem agree_from {body : List UInt8} {cap : ℕ} (hlength : body.length < 2^63) (hcap : body.length ≤ cap)
    {fuel position : ℕ} {decoded : ChunkedDecode} (hbytes : decoded.bytes.length ≤ position)
    (hchunks : decoded.chunks ≤ position) (hposition : position ≤ body.length)
    (halike : readAlikeFrom body fuel position = true) :
    Agree (chunkedLoop body fuel position decoded.bytes.length decoded.chunks)
      (decodeChunkedLoop body cap fuel position decoded) := by
  induction fuel generalizing position decoded with
  | zero => exact agree_incomplete _
  | succ fuel ih =>
    cases hfound : findLineEnd (body.drop position) with
    | none =>
      rw [chunkedLoop, hfound]
      exact agree_incomplete _
    | some found =>
      obtain ⟨line_len, line_total_len⟩ := found
      cases hline : findLineEndFrom body position with
      | none =>
        rw [readAlikeFrom, hfound, hline] at halike
        cases halike
      | some line =>
        obtain ⟨line_end, next_offset⟩ := line
        obtain ⟨hafter, hinside⟩ := findLineEndFrom_bounds hline
        rw [readAlikeFrom, hfound, hline] at halike
        simp only [Bool.and_eq_true, decide_eq_true_eq] at halike
        obtain ⟨hsame, hnext⟩ := halike
        cases hsize : chunkSize ((body.drop position).take line_len) with
        | error reason =>
          rw [hsize] at hsame
          obtain ⟨message, hfault⟩ := decodeChunkedLoop_fault cap fuel decoded hline hsame.symm
          rw [chunkedLoop, hfound, hfault]
          simp only [hsize]
          exact agree_faults reason message
        | ok size =>
          rw [hsize] at hsame hnext
          have hparse : parseChunkSize (trimAscii ((body.drop position).take (line_end - position))) =
              .ok size := by
            cases h : parseChunkSize (trimAscii ((body.drop position).take (line_end - position))) with
            | error message =>
              rw [h] at hsame
              cases hsame
            | ok size' =>
              rw [h] at hsame
              cases hsame
              rfl
          rw [chunkedLoop, hfound]
          simp only [hsize]
          by_cases hzero : size = 0
          · subst hzero
            rw [decodeChunkedLoop_last cap fuel decoded hline hparse, if_pos rfl]
            exact agree_last _ _
          obtain ⟨hstart, hrest⟩ : position + line_total_len = next_offset ∧
              (if [13, 10].isPrefixOf (body.drop (next_offset + size)) then
                readAlikeFrom body fuel (next_offset + size + 2)
              else if [10].isPrefixOf (body.drop (next_offset + size)) then
                readAlikeFrom body fuel (next_offset + size + 1)
              else true) = true := by
            simpa [hzero, Except.toOption] using hnext
          rw [if_neg hzero, hstart]
          by_cases hshort : body.length < saturatingAdd next_offset size
          · rw [if_pos hshort]
            exact agree_incomplete _
          have hfits : next_offset + size ≤ body.length := by
            unfold saturatingAdd u64Max at hshort
            omega
          rw [if_neg hshort, saturatingAdd_eq (a := next_offset + size) (by omega)]
          by_cases hend : body.length < next_offset + size + 1
          · rw [if_pos hend]
            exact agree_incomplete _
          -- the data and a byte after it are there
          obtain ⟨decoded', hbytes', hchunks', hloop⟩ := decodeChunkedLoop_data fuel hline hparse hzero
            (show next_offset + size < body.length by omega)
            (show decoded.bytes.length + size < cap by omega)
          rw [if_neg hend, saturatingAdd_eq (by omega), saturatingAdd_eq (by omega), ← hbytes', ← hchunks',
            hloop]
          by_cases hcrlf : [13, 10].isPrefixOf (body.drop (next_offset + size)) = true
          · have hlong := le_length_of_isPrefixOf (List.cons_ne_nil _ _) hcrlf
            rw [List.length_cons, List.length_singleton] at hlong
            simp only [hcrlf, if_true] at hrest ⊢
            exact ih (by omega) (by omega) (by omega) hrest
          by_cases hlf : [10].isPrefixOf (body.drop (next_offset + size)) = true
          · simp only [hcrlf, hlf, if_true] at hrest ⊢
            exact ih (by omega) (by omega) (by omega) hrest
          · simp only [hcrlf, hlf]
            exact agree_faults _ _

/-- The parser and the decoder agree on every body whose chunk lines both read alike, when the decoder may
write as many bytes as the body has. -/
theorem decoders_agree {body : List UInt8} {cap : ℕ} (hlength : body.length < 2^63)
    (hcap : max body.length 1 ≤ cap) (halike : readAlike body = true) :
    Agree (findChunkedBodyEnd body) (decodeChunkedBody body cap) := by
  have hstart : Agree (chunkedLoop body (body.length + 1) 0 ({} : ChunkedDecode).bytes.length
      ({} : ChunkedDecode).chunks) (decodeChunkedLoop body cap (body.length + 1) 0 {}) :=
    agree_from hlength (by omega) (Nat.zero_le _) (Nat.zero_le _) (Nat.zero_le _) halike
  exact hstart

/-- `5`, `hello` and the last chunk, with line ends of CRLF. -/
theorem decoders_agree_hello :
    let body : List UInt8 := [53, 13, 10, 104, 101, 108, 108, 111, 13, 10, 48, 13, 10, 13, 10]
    Agree (findChunkedBodyEnd body) (decodeChunkedBody body 15) :=
  decoders_agree (by decide) (by decide) (by decide +kernel)

/-- `5` and a bare LF, `hello` and the last chunk. -/
def bareLineFeed : List UInt8 := [53, 10, 104, 101, 108, 108, 111, 13, 10, 48, 13, 10, 13, 10]

/-- `0 1`, `a` and the last chunk. -/
def blankInSize : List UInt8 := [48, 32, 49, 13, 10, 97, 13, 10, 48, 13, 10, 13, 10]

/-- After a bare LF, the parser reads the size and the data as one line and finds fault, and the decoder comes
to the last chunk. With a blank in a size, the parser takes the blank out and finds the body complete, and
the decoder finds fault. -/
theorem decoders_disagree :
    (findChunkedBodyEnd bareLineFeed = .invalid "invalid chunk size".toList ∧
      (decodeChunkedBody bareLineFeed 14).toOption =
        some ⟨[104, 101, 108, 108, 111], 1, false, false, true, 2⟩ ∧
      ¬ Agree (findChunkedBodyEnd bareLineFeed) (decodeChunkedBody bareLineFeed 14)) ∧
    (findChunkedBodyEnd blankInSize = .complete ⟨13, 1, 1, 2⟩ ∧
      (decodeChunkedBody blankInSize 13).toOption = none ∧
      ¬ Agree (findChunkedBodyEnd blankInSize) (decodeChunkedBody blankInSize 13)) := by
  refine ⟨?_, ?_⟩
  · have hfound : findChunkedBodyEnd bareLineFeed = .invalid "invalid chunk size".toList := by decide +kernel
    have hdecoded : (decodeChunkedBody bareLineFeed 14).toOption =
        some ⟨[104, 101, 108, 108, 111], 1, false, false, true, 2⟩ := by decide +kernel
    refine ⟨hfound, hdecoded, fun hagree => ?_⟩
    cases hresult : decodeChunkedBody bareLineFeed 14 with
    | error message =>
      rw [hresult] at hdecoded
      cases hdecoded
    | ok result =>
      rw [hresult] at hdecoded
      cases hdecoded
      exact hagree.valid _ hresult rfl _ hfound
  · have hfound : findChunkedBodyEnd blankInSize = .complete ⟨13, 1, 1, 2⟩ := by decide +kernel
    have hdecoded : (decodeChunkedBody blankInSize 13).toOption = none := by decide +kernel
    refine ⟨hfound, hdecoded, fun hagree => ?_⟩
    obtain ⟨result, hresult, -⟩ := hagree.complete _ hfound
    rw [hresult] at hdecoded
    cases hdecoded

end Rustmate.Transform
