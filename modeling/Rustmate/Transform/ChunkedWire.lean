import Rustmate.Message.Lines
import Rustmate.Transform.ChunkList
import Rustmate.Transform.Http

/-!
# Chunked bodies, written and decoded

What both decoders make of a body that was written as chunks: a size in hexadecimal, the data, and line ends of
CRLF, closed by a chunk of size zero. The data may be any bytes, also ones that look like the lines of other
chunks.
-/

namespace Rustmate.Transform

open Message (Text utf8 fromUtf8 findBytes findEnd findLineEnd findHeaderEnd chunkSize chunkedTrailer chunkedLoop
  findChunkedBodyEnd ChunkedBodyEnd isAsciiWhitespaceByte fromStrRadix fromStrRadix_toDigits fromUtf8_utf8
  mem_toDigits)

/-! ## The size of a chunk -/

/-- A size in hexadecimal, in lower case. -/
def hexSize (n : ℕ) : List UInt8 := utf8 (Nat.toDigits 16 n)

/-- The bytes of the hexadecimal digits. -/
def hexDigitBytes : List UInt8 := utf8 "0123456789abcdef".toList

/-- A size is written in hexadecimal digits. -/
theorem mem_hexSize {n : ℕ} {byte : UInt8} (h : byte ∈ hexSize n) : byte ∈ hexDigitBytes := by
  unfold hexSize utf8 at h
  obtain ⟨c, hc, hbyte⟩ := List.mem_flatMap.mp h
  obtain ⟨d, hd, rfl⟩ := mem_toDigits (by decide) hc
  have hall : ∀ d < 16, ∀ byte ∈ String.utf8EncodeChar d.digitChar, byte ∈ hexDigitBytes := by
    decide +kernel
  exact hall d hd byte hbyte

/-- No digit is a line end, a blank, or the start of an extension. -/
theorem hexSize_plain {n : ℕ} {byte : UInt8} (h : byte ∈ hexSize n) :
    byte ≠ 10 ∧ byte ≠ 13 ∧ byte ≠ 59 ∧ isAsciiWhitespaceByte byte = false := by
  have hall : ∀ byte ∈ hexDigitBytes,
      byte ≠ 10 ∧ byte ≠ 13 ∧ byte ≠ 59 ∧ isAsciiWhitespaceByte byte = false := by decide +kernel
  exact hall byte (mem_hexSize h)

/-- There is at least one digit. -/
theorem hexSize_ne_nil (n : ℕ) : hexSize n ≠ [] := by
  unfold hexSize utf8
  rw [Ne, List.flatMap_eq_nil_iff]
  intro hnil
  obtain ⟨c, hc⟩ := List.exists_mem_of_ne_nil _ (Nat.toDigits_ne_nil (n := n) (b := 16))
  exact absurd (hnil c hc) String.utf8EncodeChar_ne_nil

/-- A size has no extension. -/
theorem takeWhile_hexSize (n : ℕ) : (hexSize n).takeWhile (fun byte => byte ≠ 59) = hexSize n := by
  rw [List.takeWhile_eq_self_iff]
  intro byte hbyte
  simpa using (hexSize_plain hbyte).2.2.1

/-- No blank is around a size. -/
theorem trimAscii_hexSize (n : ℕ) : trimAscii (hexSize n) = hexSize n := by
  have hnone : ∀ byte ∈ hexSize n, isAsciiWhitespaceByte byte = false := fun byte hbyte =>
    (hexSize_plain hbyte).2.2.2
  have hfront : (hexSize n).dropWhile isAsciiWhitespaceByte = hexSize n := by
    rw [List.dropWhile_eq_self_iff]
    intro hlength
    simp [hnone _ (List.getElem_mem hlength)]
  unfold trimAscii
  rw [hfront, List.rdropWhile_eq_self_iff]
  intro hne
  simp [hnone _ (List.getLast_mem hne)]

/-- The parser reads a size. -/
theorem chunkSize_hexSize {n : ℕ} (h : n ≤ u64Max) : chunkSize (hexSize n) = .ok n := by
  have hfilter : (hexSize n).filter (fun byte => !isAsciiWhitespaceByte byte) = hexSize n := by
    rw [List.filter_eq_self]
    intro byte hbyte
    rw [(hexSize_plain hbyte).2.2.2]
    rfl
  unfold chunkSize
  rw [takeWhile_hexSize, hfilter]
  unfold hexSize
  simp only [fromUtf8_utf8, fromStrRadix_toDigits (show 1 < 16 by decide) (le_refl 16) h]

/-- The decoder reads a size. -/
theorem parseChunkSize_hexSize {n : ℕ} (h : n ≤ u64Max) : parseChunkSize (hexSize n) = .ok n := by
  unfold parseChunkSize
  rw [takeWhile_hexSize, trimAscii_hexSize]
  unfold hexSize
  simp only [fromUtf8_utf8, fromStrRadix_toDigits (show 1 < 16 by decide) (le_refl 16) h]

/-! ## Lines -/

variable {rest input : List UInt8} {offset : ℕ}

/-- The parser finds the end of a line. -/
theorem findLineEnd_line (line rest : List UInt8) (hline : 13 ∉ line) :
    findLineEnd (line ++ 13 :: 10 :: rest) = some (line.length, line.length + 2) := by
  have hfound : findBytes [13, 10] (line ++ 13 :: 10 :: rest) = some line.length := by
    rw [Message.findBytes_eq_some]
    constructor
    · rw [← Message.isPrefixOf_drop_iff, List.drop_left]
      constructor
      · rfl
      · simp only [List.length_append, List.length_cons, List.length_nil]
        omega
    · intro j hj hoccurs
      -- An earlier line end would begin with a byte of the line.
      have hstarts := ((Message.isPrefixOf_drop_iff _ _ _).mpr hoccurs).1
      rw [List.drop_append_of_le_length hj.le, List.drop_eq_getElem_cons hj, List.cons_append,
        List.isPrefixOf_cons_cons, Bool.and_eq_true, beq_iff_eq] at hstarts
      exact hline (hstarts.1 ▸ List.getElem_mem hj)
  unfold findLineEnd findEnd
  rw [hfound]
  rfl

/-- The decoder finds the end of a line. -/
theorem findLineEndFrom_line (line rest : List UInt8) (hline : 10 ∉ line)
    (hdrop : input.drop offset = line ++ 13 :: 10 :: rest) :
    findLineEndFrom input offset = some (offset + line.length, offset + line.length + 2) := by
  have hfound : (line ++ 13 :: 10 :: rest).findIdx? (fun byte => byte = 10) = some (line.length + 1) := by
    have hnone : line.findIdx? (fun byte => byte = 10) = none := by
      rw [List.findIdx?_eq_none_iff]
      intro byte hbyte
      exact decide_eq_false fun heq => hline (heq ▸ hbyte)
    rw [List.findIdx?_append, hnone]
    simp [List.findIdx?_cons, Nat.add_comm]
  have hbefore : input[offset + (line.length + 1) - 1]? = some 13 := by
    have hget : (input.drop offset)[line.length]? = some 13 := by
      rw [hdrop]
      simp
    rw [List.getElem?_drop] at hget
    exact hget
  unfold findLineEndFrom
  rw [hdrop, hfound]
  simp only [Option.map_some, hbefore]
  rw [if_pos ⟨by omega, trivial⟩]
  congr 1

/-! ## One chunk -/

/-- A chunk as it is written. -/
def encodeChunk (data : List UInt8) : List UInt8 :=
  hexSize data.length ++ 13 :: 10 :: (data ++ [13, 10])

/-- Chunks as they are written, closed by the last one. -/
def encodeChunks (chunks : List (List UInt8)) : List UInt8 :=
  chunks.flatMap encodeChunk ++ utf8 "0\r\n\r\n".toList

variable {data : List UInt8}

theorem length_encodeChunk (data : List UInt8) :
    (encodeChunk data).length = (hexSize data.length).length + 2 + data.length + 2 := by
  unfold encodeChunk
  simp only [List.length_append, List.length_cons, List.length_nil]
  omega

/-- A chunk in the input: what is left behind its line, behind its data and behind its line end, and how long
the input is. -/
theorem drop_encodeChunk (hdrop : input.drop offset = encodeChunk data ++ rest) :
    let start := offset + (hexSize data.length).length + 2
    input.drop start = data ++ 13 :: 10 :: rest ∧ input.drop (start + data.length) = 13 :: 10 :: rest ∧
      input.drop (offset + (encodeChunk data).length) = rest ∧
      input.length = start + data.length + 2 + rest.length := by
  intro start
  have hlength := congrArg List.length hdrop
  rw [List.length_drop, List.length_append, length_encodeChunk] at hlength
  have hstart : input.drop start = data ++ 13 :: 10 :: rest := by
    have : input.drop start = (input.drop offset).drop ((hexSize data.length).length + 2) := by
      rw [List.drop_drop]
      rfl
    rw [this, hdrop]
    unfold encodeChunk
    rw [List.append_assoc, List.drop_append]
    simp
  have hdata : input.drop (start + data.length) = 13 :: 10 :: rest := by
    rw [← List.drop_drop, hstart, List.drop_left]
  refine ⟨hstart, hdata, ?_, by omega⟩
  rw [← List.drop_drop, hdrop, List.drop_left]

/-- The decoder lists a chunk that was written. -/
theorem chunkListFrom_chunk (hne : data ≠ []) (hsmall : data.length ≤ u64Max)
    (hdrop : input.drop offset = encodeChunk data ++ rest) (fuel : ℕ) :
    chunkListFrom input (fuel + 1) offset =
      (⟨data, some rest.length⟩ :: (chunkListFrom input fuel (offset + (encodeChunk data).length)).1,
        (chunkListFrom input fuel (offset + (encodeChunk data).length)).2) := by
  obtain ⟨hstart, hend, -, hlength⟩ := drop_encodeChunk hdrop
  have hline : findLineEndFrom input offset = some (offset + (hexSize data.length).length,
      offset + (hexSize data.length).length + 2) :=
    findLineEndFrom_line _ (data ++ [13, 10] ++ rest) (fun h => (hexSize_plain h).1 rfl) (by
      rw [hdrop]
      simp [encodeChunk])
  have hsize : (input.drop offset).take (offset + (hexSize data.length).length - offset) =
      hexSize data.length := by
    rw [hdrop, Nat.add_sub_cancel_left]
    unfold encodeChunk
    rw [List.append_assoc, List.take_left]
  have hpos : 0 < data.length := List.length_pos_iff.mpr hne
  have htake : min data.length (input.length - (offset + (hexSize data.length).length + 2)) =
      data.length := by omega
  have hfilled : (hexSize data.length).isEmpty = false := by
    simpa using hexSize_ne_nil data.length
  have hcrlf : [13, 10].isPrefixOf (13 :: 10 :: rest) = true := rfl
  rw [chunkListFrom, hline]
  simp only [hsize, trimAscii_hexSize, hfilled, Bool.false_eq_true, if_false, parseChunkSize_hexSize hsmall,
    htake, hstart, hend, hpos.ne', lt_irrefl, List.take_left, hcrlf, if_true]
  have hnext : offset + (hexSize data.length).length + 2 + data.length + 2 =
      offset + (encodeChunk data).length := by
    rw [length_encodeChunk]
    omega
  have hleft : input.length - (offset + (encodeChunk data).length) = rest.length := by
    rw [length_encodeChunk]
    omega
  rw [hnext, hleft]

/-- The parser goes over a chunk that was written. -/
theorem chunkedLoop_chunk (hne : data ≠ []) (hdrop : input.drop offset = encodeChunk data ++ rest)
    (hslice : input.length < 2^63) {decoded_bytes chunks : ℕ} (hbytes : decoded_bytes ≤ offset)
    (hchunks : chunks ≤ offset) (fuel : ℕ) :
    chunkedLoop input (fuel + 1) offset decoded_bytes chunks =
      chunkedLoop input fuel (offset + (encodeChunk data).length) (decoded_bytes + data.length)
        (chunks + 1) := by
  obtain ⟨hstart, hend, -, hlength⟩ := drop_encodeChunk hdrop
  have hline : findLineEnd (input.drop offset) =
      some ((hexSize data.length).length, (hexSize data.length).length + 2) := by
    rw [hdrop]
    unfold encodeChunk
    rw [List.append_assoc]
    exact findLineEnd_line _ _ fun h => (hexSize_plain h).2.1 rfl
  have hsize : (input.drop offset).take (hexSize data.length).length = hexSize data.length := by
    rw [hdrop]
    unfold encodeChunk
    rw [List.append_assoc, List.take_left]
  have hpos : 0 < data.length := List.length_pos_iff.mpr hne
  have hread : chunkSize (hexSize data.length) = .ok data.length := chunkSize_hexSize (by unfold u64Max; omega)
  have hcrlf : [13, 10].isPrefixOf (13 :: 10 :: rest) = true := rfl
  rw [chunkedLoop, hline]
  simp only [hsize, hread]
  rw [if_neg hpos.ne', ← Nat.add_assoc, saturatingAdd_eq (by omega), if_neg (by omega),
    saturatingAdd_eq (by omega), if_neg (by omega), hend, hcrlf, if_pos rfl, saturatingAdd_eq (by omega),
    saturatingAdd_eq (by omega)]
  have hnext : offset + (hexSize data.length).length + 2 + data.length + 2 =
      offset + (encodeChunk data).length := by
    rw [length_encodeChunk]
    omega
  rw [hnext]

/-! ## All chunks -/

/-- The size zero. -/
theorem hexSize_zero : hexSize 0 = [48] := by decide

/-- The decoder lists no chunk where the last one was written. -/
theorem chunkListFrom_last (hdrop : input.drop offset = 48 :: 13 :: 10 :: rest) (fuel : ℕ) :
    chunkListFrom input (fuel + 1) offset = ([], .last rest.length) := by
  have hline : findLineEndFrom input offset = some (offset + 1, offset + 1 + 2) :=
    findLineEndFrom_line [48] rest (by decide) hdrop
  have hsize : trimAscii ((input.drop offset).take (offset + 1 - offset)) = hexSize 0 := by
    rw [hdrop, Nat.add_sub_cancel_left, ← trimAscii_hexSize, hexSize_zero]
    rfl
  have hread : parseChunkSize (hexSize 0) = .ok 0 := parseChunkSize_hexSize (Nat.zero_le _)
  have hfilled : (hexSize 0).isEmpty = false := by
    rw [hexSize_zero]
    rfl
  have hlength := congrArg List.length hdrop
  rw [List.length_drop] at hlength
  simp only [List.length_cons] at hlength
  have hleft : input.length - (offset + 1 + 2) = rest.length := by omega
  rw [chunkListFrom, hline]
  simp only [hsize, hfilled, hread, hleft, Bool.false_eq_true, if_false, if_true]

/-- The parser is done where the last chunk was written. -/
theorem chunkedLoop_last (hdrop : input.drop offset = 48 :: 13 :: 10 :: 13 :: 10 :: rest)
    (decoded_bytes chunks fuel : ℕ) :
    chunkedLoop input (fuel + 1) offset decoded_bytes chunks =
      .complete ⟨offset + 5, decoded_bytes, chunks, 2⟩ := by
  have hline : findLineEnd (input.drop offset) = some (1, 1 + 2) := by
    rw [hdrop]
    exact findLineEnd_line [48] _ (by decide)
  have hsize : (input.drop offset).take 1 = hexSize 0 := by
    rw [hdrop, hexSize_zero]
    rfl
  have hread : chunkSize (hexSize 0) = .ok 0 := chunkSize_hexSize (Nat.zero_le _)
  have hend : input.drop (offset + 3) = 13 :: 10 :: rest := by
    rw [← List.drop_drop, hdrop]
    rfl
  have hcrlf : [13, 10].isPrefixOf (13 :: 10 :: rest) = true := rfl
  rw [chunkedLoop, hline]
  simp only [hsize, hread, if_true]
  unfold chunkedTrailer
  rw [hend]
  dsimp only
  rw [if_pos hcrlf]

variable {chunks : List (List UInt8)}

/-- The decoder lists the chunks that were written, and comes to the last one. -/
theorem chunkListFrom_chunks (hne : ∀ data ∈ chunks, data ≠ [])
    (hdrop : input.drop offset = chunks.flatMap encodeChunk ++ 48 :: 13 :: 10 :: rest)
    (hslice : input.length < 2^63) {fuel : ℕ} (hfuel : chunks.length < fuel) :
    chunkData (chunkListFrom input fuel offset).1 = chunks.flatten ∧
      (chunkListFrom input fuel offset).1.length = chunks.length ∧
      (chunkListFrom input fuel offset).2 = .last rest.length := by
  induction chunks generalizing fuel offset with
  | nil =>
    obtain ⟨fuel, rfl⟩ := Nat.exists_eq_succ_of_ne_zero (Nat.pos_iff_ne_zero.mp hfuel)
    rw [chunkListFrom_last hdrop]
    exact ⟨rfl, rfl, rfl⟩
  | cons data chunks ih =>
    obtain ⟨fuel, rfl⟩ := Nat.exists_eq_succ_of_ne_zero (Nat.ne_zero_of_lt hfuel)
    rw [List.flatMap_cons, List.append_assoc] at hdrop
    obtain ⟨-, -, hnext, hlength⟩ := drop_encodeChunk hdrop
    have hrest : chunks.length < fuel := by
      rw [List.length_cons] at hfuel
      omega
    obtain ⟨hdata, hcount, hlast⟩ := ih (fun data h => hne data (List.mem_cons_of_mem _ h)) hnext hrest
    rw [chunkListFrom_chunk (hne data List.mem_cons_self) (by unfold u64Max; omega) hdrop]
    refine ⟨?_, ?_, hlast⟩
    · rw [chunkData_cons, hdata, List.flatten_cons]
    · rw [List.length_cons, hcount, List.length_cons]

/-- The parser goes over the chunks that were written, and counts them and their bytes. -/
theorem chunkedLoop_chunks (hne : ∀ data ∈ chunks, data ≠ [])
    (hdrop : input.drop offset = chunks.flatMap encodeChunk ++ 48 :: 13 :: 10 :: 13 :: 10 :: rest)
    (hslice : input.length < 2^63) {decoded_bytes count fuel : ℕ} (hbytes : decoded_bytes ≤ offset)
    (hcount : count ≤ offset) (hfuel : chunks.length < fuel) :
    chunkedLoop input fuel offset decoded_bytes count =
      .complete ⟨offset + (chunks.flatMap encodeChunk).length + 5, decoded_bytes + chunks.flatten.length,
        count + chunks.length, 2⟩ := by
  induction chunks generalizing fuel offset decoded_bytes count with
  | nil =>
    obtain ⟨fuel, rfl⟩ := Nat.exists_eq_succ_of_ne_zero (Nat.pos_iff_ne_zero.mp hfuel)
    exact chunkedLoop_last hdrop _ _ _
  | cons data chunks ih =>
    obtain ⟨fuel, rfl⟩ := Nat.exists_eq_succ_of_ne_zero (Nat.ne_zero_of_lt hfuel)
    rw [List.flatMap_cons, List.append_assoc] at hdrop
    obtain ⟨-, -, hnext, -⟩ := drop_encodeChunk hdrop
    have hlength := length_encodeChunk data
    have hrest : chunks.length < fuel := by
      rw [List.length_cons] at hfuel
      omega
    rw [chunkedLoop_chunk (hne data List.mem_cons_self) hdrop hslice hbytes hcount,
      ih (fun data h => hne data (List.mem_cons_of_mem _ h)) hnext (by omega) (by omega) hrest]
    simp only [List.flatMap_cons, List.flatten_cons, List.length_append, List.length_cons, Nat.add_assoc,
      Nat.add_comm 1]

/-! ## Round trip -/

/-- The last chunk and the end of the body. -/
theorem utf8_last : utf8 "0\r\n\r\n".toList = [48, 13, 10, 13, 10] := by decide +kernel

/-- There are no more chunks than bytes. -/
theorem length_le_encodeChunks (chunks : List (List UInt8)) :
    chunks.length < (encodeChunks chunks).length := by
  unfold encodeChunks
  rw [utf8_last, List.length_append]
  have hle : chunks.length ≤ (chunks.flatMap encodeChunk).length := by
    induction chunks with
    | nil => exact Nat.zero_le _
    | cons data chunks ih =>
      have hlength := length_encodeChunk data
      rw [List.flatMap_cons, List.length_append, List.length_cons]
      omega
  simp only [List.length_cons, List.length_nil]
  omega

/-- Chunks that were written are decoded to their data. -/
theorem decodeChunkedBody_encodeChunks (hne : ∀ data ∈ chunks, data ≠ [])
    (hslice : (encodeChunks chunks).length < 2^63) {cap : ℕ} (hcap : max 1 chunks.flatten.length ≤ cap) :
    ∃ decoded, decodeChunkedBody (encodeChunks chunks) cap = .ok decoded ∧
      decoded.bytes = chunks.flatten ∧ (decoded.chunks ≠ 0 ∨ decoded.reached_last_chunk = true) := by
  have hlength := length_le_encodeChunks chunks
  have hdrop : (encodeChunks chunks).drop 0 = chunks.flatMap encodeChunk ++ 48 :: 13 :: 10 :: [13, 10] := by
    rw [List.drop_zero, encodeChunks, utf8_last]
  obtain ⟨hdata, -, hlast⟩ := chunkListFrom_chunks hne hdrop hslice (Nat.lt_succ_of_lt hlength)
  have hclosed := chunkList_closed (encodeChunks chunks)
  have htake : ([] ++ chunkData (chunkList (encodeChunks chunks)).1).take cap = chunks.flatten := by
    unfold chunkList
    rw [List.nil_append, hdata, List.take_of_length_le (by omega)]
  have hstop : (chunkList (encodeChunks chunks)).2 = .last 2 := hlast
  rw [decodeChunkedBody_eq_collect, hstop]
  cases hmeets : ChunkedDecode.meets cap 0 (chunkList (encodeChunks chunks)).1 with
  | none =>
    rw [ChunkedDecode.collect_of_meets_none _ _ (by simp; omega) rfl hclosed hmeets]
    exact ⟨_, rfl, htake, .inr rfl⟩
  | some met =>
    obtain ⟨n, hcollect⟩ := ChunkedDecode.collect_of_meets_some {} (.last 2)
      (by simp; omega) rfl hclosed hmeets
    rw [hcollect]
    exact ⟨_, rfl, htake, .inl (Nat.succ_ne_zero _)⟩

/-- A head and the blank line after it. -/
def headBytes (header : Text) : List UInt8 := utf8 header ++ [13, 10, 13, 10]

/-- The head of a message is found before whatever body. -/
theorem httpHeader_headBytes {header : Text}
    (hblank : findBytes [13, 10, 13, 10] (headBytes header) = some (utf8 header).length)
    (hhttp : looksLikeHttpHeader header = true) (body : List UInt8) :
    httpHeader (headBytes header ++ body) = .ok (header, (headBytes header).length) := by
  have hfound : findHttpHeaderEnd (headBytes header ++ body) =
      some ((utf8 header).length, (utf8 header).length + 4) := by
    unfold findHttpHeaderEnd findHeaderEnd findEnd
    rw [Message.findBytes_append hblank]
    rfl
  have htake : (headBytes header ++ body).take (utf8 header).length = utf8 header := by
    unfold headBytes
    rw [List.append_assoc, List.take_left]
  have hlength : (headBytes header).length = (utf8 header).length + 4 := List.length_append
  unfold httpHeader
  simp only [hfound, htake, fromUtf8_utf8, hhttp, hlength, Bool.not_true, Bool.false_eq_true, if_false]

/-- A chunked message that was written is shown as its head and its data, under every limit that the data does
not pass; and the parser finds the end of its body, whatever follows. -/
theorem chunked_round_trip (header : Text) (chunks : List (List UInt8)) (more : List UInt8) (cap : ℕ)
    (hblank : findBytes [13, 10, 13, 10] (headBytes header) = some (utf8 header).length)
    (hhttp : looksLikeHttpHeader header = true)
    (hchunked : headerHasChunkedTransferEncoding header = true) (hne : ∀ data ∈ chunks, data ≠ [])
    (hcap : max 1 chunks.flatten.length ≤ cap)
    (hslice : (headBytes header ++ encodeChunks chunks).length < 2^63)
    (hbody : (encodeChunks chunks ++ more).length < 2^63) :
    ((httpChunkedTransform (headBytes header ++ encodeChunks chunks) cap).status = .applied ∧
      (httpChunkedTransform (headBytes header ++ encodeChunks chunks) cap).bytes =
        headBytes header ++ chunks.flatten) ∧
    findChunkedBodyEnd (encodeChunks chunks ++ more) =
      .complete ⟨(encodeChunks chunks).length, chunks.flatten.length, chunks.length, 2⟩ := by
  constructor
  · obtain ⟨decoded, hdecoded, hbytes, hsome⟩ := decodeChunkedBody_encodeChunks hne
      (by rw [List.length_append] at hslice; omega) hcap
    have hfilled : (decide (decoded.chunks ≠ 0) || decoded.reached_last_chunk) = true := by
      simpa using hsome
    unfold httpChunkedTransform
    rw [httpHeader_headBytes hblank hhttp]
    simp only [hchunked, Bool.not_true, Bool.false_eq_true, if_false, List.drop_left, hdecoded, hfilled,
      if_true, List.take_left, hbytes, and_self]
  · have hlength := length_le_encodeChunks chunks
    have hdrop : (encodeChunks chunks ++ more).drop 0 =
        chunks.flatMap encodeChunk ++ 48 :: 13 :: 10 :: 13 :: 10 :: more := by
      rw [List.drop_zero, encodeChunks, utf8_last, List.append_assoc]
      rfl
    have hend : (encodeChunks chunks).length = (chunks.flatMap encodeChunk).length + 5 := by
      rw [encodeChunks, utf8_last, List.length_append]
      rfl
    unfold findChunkedBodyEnd
    rw [chunkedLoop_chunks hne hdrop hbody (le_refl 0) (le_refl 0)
      (by rw [List.length_append]; omega), hend]
    simp only [Nat.zero_add]

/-- The head of a chunked response. -/
def sampleHeader : Text := "HTTP/1.1 200 OK\r\nTransfer-Encoding: gzip, Chunked".toList

/-- Chunks whose data looks like a chunk and like line ends. -/
def sampleChunks : List (List UInt8) := [utf8 "5\r\nhello\r\n".toList, [13, 10], [48]]

theorem chunked_round_trip_sample :
    ((httpChunkedTransform (headBytes sampleHeader ++ encodeChunks sampleChunks) 13).status = .applied ∧
      (httpChunkedTransform (headBytes sampleHeader ++ encodeChunks sampleChunks) 13).bytes =
        headBytes sampleHeader ++ sampleChunks.flatten) ∧
    findChunkedBodyEnd (encodeChunks sampleChunks ++ [255]) =
      .complete ⟨(encodeChunks sampleChunks).length, sampleChunks.flatten.length, sampleChunks.length, 2⟩ :=
  chunked_round_trip sampleHeader sampleChunks [255] 13 (by decide +kernel) (by decide +kernel)
    (by decide +kernel) (by decide +kernel) (by decide +kernel) (by decide +kernel) (by decide +kernel)

end Rustmate.Transform
