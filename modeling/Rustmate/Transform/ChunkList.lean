import Rustmate.Transform.Chunked

/-!
# The chunks of a body

What a chunked body holds does not depend on how much of it may be shown. `chunkList` lists the chunks and how
the body ends; the decoder of `src/stream_transform.rs` goes through that list and stops where the limit is met.
-/

namespace Rustmate.Transform

open Message (Text)

/-- The data of a chunk, and how many bytes follow the end of its line: none is told of a chunk that breaks
off. -/
structure Chunk where
  data : List UInt8
  rest : Option ℕ
  deriving DecidableEq, Repr

/-- How a list of chunks ends: with the line of the last chunk, without a further line, or with a fault. -/
inductive ChunksEnd where
  | last (trailing_bytes : ℕ)
  | cut (partial_body : Bool)
  | fault (message : Text)
  deriving DecidableEq, Repr

/-- The chunks from a chunk line on. -/
def chunkListFrom (input : List UInt8) : ℕ → ℕ → List Chunk × ChunksEnd
  | 0, _ => ([], .cut false)
  | fuel + 1, offset =>
    match findLineEndFrom input offset with
    | none => ([], .cut (offset < input.length))
    | some (line_end, next_offset) =>
      let line := trimAscii ((input.drop offset).take (line_end - offset))
      if line.isEmpty then ([], .fault "empty chunk size line".toList)
      else
        match parseChunkSize line with
        | .error message => ([], .fault message)
        | .ok size =>
          if size = 0 then ([], .last (input.length - next_offset))
          else
            let take := min size (input.length - next_offset)
            let data := (input.drop next_offset).take take
            let offset := next_offset + take
            let next (offset : ℕ) : List Chunk × ChunksEnd :=
              let (chunks, finish) := chunkListFrom input fuel offset
              (⟨data, some (input.length - offset)⟩ :: chunks, finish)
            if take < size then ([⟨data, none⟩], .cut true)
            else if [13, 10].isPrefixOf (input.drop offset) then next (offset + 2)
            else if [10].isPrefixOf (input.drop offset) then next (offset + 1)
            else if offset = input.length then ([⟨data, none⟩], .cut true)
            else ([⟨data, none⟩], .fault "chunk payload is not followed by CRLF".toList)

/-- The chunks of a body and how it ends. -/
def chunkList (input : List UInt8) : List Chunk × ChunksEnd := chunkListFrom input (input.length + 1) 0

/-- The data that some chunks hold. -/
def chunkData (chunks : List Chunk) : List UInt8 := chunks.flatMap Chunk.data

@[simp] theorem chunkData_nil : chunkData [] = [] := rfl

@[simp] theorem chunkData_cons (chunk : Chunk) (chunks : List Chunk) :
    chunkData (chunk :: chunks) = chunk.data ++ chunkData chunks := List.flatMap_cons

/-! ## The decoder on a list of chunks -/

namespace ChunkedDecode

/-- What is decoded when the list ends. -/
def finish (decoded : ChunkedDecode) : ChunksEnd → Except Text ChunkedDecode
  | .last trailing_bytes => .ok { decoded with reached_last_chunk := true, trailing_bytes }
  | .cut partial_body => .ok { decoded with partial_body }
  | .fault message => .error message

/-- What is decoded with one more chunk. -/
def add (cap : ℕ) (decoded : ChunkedDecode) (data : List UInt8) : ChunkedDecode :=
  { decoded with
    bytes := appendLimited decoded.bytes data cap
    truncated_by_limit := decoded.truncated_by_limit ||
      (appendLimited decoded.bytes data cap).length - decoded.bytes.length < data.length
    chunks := decoded.chunks + 1 }

/-- What is decoded of some chunks: all of them, or those up to the one with which the limit is met. -/
def collect (cap : ℕ) (stop : ChunksEnd) : ChunkedDecode → List Chunk → Except Text ChunkedDecode
  | decoded, [] => decoded.finish stop
  | decoded, chunk :: chunks =>
    let decoded := decoded.add cap chunk.data
    match chunk.rest with
    | none => collect cap stop decoded chunks
    | some rest =>
      if cap ≤ decoded.bytes.length then .ok { decoded with truncated_by_limit := 0 < rest }
      else collect cap stop decoded chunks

end ChunkedDecode

/-- The decoder decodes the list of chunks. -/
theorem decodeChunkedLoop_eq_collect (input : List UInt8) (cap fuel offset : ℕ) (decoded : ChunkedDecode)
    (hwhole : decoded.partial_body = false) :
    decodeChunkedLoop input cap fuel offset decoded =
      decoded.collect cap (chunkListFrom input fuel offset).2 (chunkListFrom input fuel offset).1 := by
  induction fuel generalizing offset decoded with
  | zero =>
    cases decoded
    cases hwhole
    rfl
  | succ fuel ih =>
    unfold decodeChunkedLoop chunkListFrom
    cases findLineEndFrom input offset with
    | none => rfl
    | some line =>
      obtain ⟨line_end, next_offset⟩ := line
      dsimp only
      by_cases hempty : (trimAscii ((input.drop offset).take (line_end - offset))).isEmpty = true
      · rw [if_pos hempty, if_pos hempty]
        rfl
      rw [if_neg hempty, if_neg hempty]
      cases parseChunkSize (trimAscii ((input.drop offset).take (line_end - offset))) with
      | error message => rfl
      | ok size =>
        dsimp only
        by_cases hzero : size = 0
        · rw [if_pos hzero, if_pos hzero]
          rfl
        rw [if_neg hzero, if_neg hzero]
        generalize htake : min size (input.length - next_offset) = take
        generalize hdata : (input.drop next_offset).take take = data
        -- what the decoder has with this chunk
        have hlength : take = data.length := by
          rw [← hdata, List.length_take, List.length_drop]
          omega
        subst hlength
        -- what happens after the line end of the chunk
        have hnext : ∀ offset,
            (if cap ≤ (decoded.add cap data).bytes.length then
              .ok { decoded.add cap data with truncated_by_limit := offset < input.length }
            else decodeChunkedLoop input cap fuel offset (decoded.add cap data)) =
              decoded.collect cap (chunkListFrom input fuel offset).2
                (⟨data, some (input.length - offset)⟩ :: (chunkListFrom input fuel offset).1) := by
          intro offset
          rw [ih offset (decoded.add cap data) hwhole]
          simp only [ChunkedDecode.collect, Nat.sub_pos_iff_lt]
        by_cases hshort : data.length < size
        · rw [if_pos hshort, if_pos hshort]
          rfl
        rw [if_neg hshort, if_neg hshort]
        by_cases hcrlf : [13, 10].isPrefixOf (input.drop (next_offset + data.length)) = true
        · rw [if_pos hcrlf, if_pos hcrlf]
          exact hnext _
        rw [if_neg hcrlf, if_neg hcrlf]
        by_cases hlf : [10].isPrefixOf (input.drop (next_offset + data.length)) = true
        · rw [if_pos hlf, if_pos hlf]
          exact hnext _
        rw [if_neg hlf, if_neg hlf]
        by_cases hend : next_offset + data.length = input.length
        · rw [if_pos hend, if_pos hend]
          rfl
        · rw [if_neg hend, if_neg hend]
          rfl

/-- The body is decoded chunk by chunk. -/
theorem decodeChunkedBody_eq_collect (input : List UInt8) (cap : ℕ) :
    decodeChunkedBody input cap = ChunkedDecode.collect cap (chunkList input).2 {} (chunkList input).1 :=
  decodeChunkedLoop_eq_collect input cap (input.length + 1) 0 {} rfl

/-! ## What is decoded -/

namespace ChunkedDecode

variable {cap : ℕ} {decoded result : ChunkedDecode} {stop : ChunksEnd} {chunks : List Chunk}

/-- Bytes that are cut off do not come back. -/
theorem take_take_append (a b : List UInt8) (n : ℕ) : (a.take n ++ b).take n = (a ++ b).take n := by
  rw [List.take_append, List.take_append, List.take_take, Nat.min_self, List.length_take]
  rcases Nat.le_total n a.length with h | h
  · rw [Nat.min_eq_left h, Nat.sub_self, Nat.sub_eq_zero_of_le h]
  · rw [Nat.min_eq_right h]

theorem appendLimited_eq {out bytes : List UInt8} (h : out.length ≤ cap) :
    appendLimited out bytes cap = (out ++ bytes).take cap := by
  unfold appendLimited
  rw [List.take_append, List.take_of_length_le h]
  congr 1
  rw [Nat.min_comm, ← List.take_eq_take_min]

/-- What is decoded is the data of the chunks, up to the limit. -/
theorem collect_bytes (hroom : decoded.bytes.length ≤ cap)
    (h : decoded.collect cap stop chunks = .ok result) :
    result.bytes = (decoded.bytes ++ chunkData chunks).take cap := by
  induction chunks generalizing decoded with
  | nil =>
    have hbytes : result.bytes = decoded.bytes := by
      unfold collect finish at h
      cases stop with
      | fault message => cases h
      | last trailing_bytes =>
        cases h
        rfl
      | cut partial_body =>
        cases h
        rfl
    rw [hbytes, chunkData_nil, List.append_nil, List.take_of_length_le hroom]
  | cons chunk chunks ih =>
    have hadd : (decoded.add cap chunk.data).bytes = (decoded.bytes ++ chunk.data).take cap :=
      appendLimited_eq hroom
    have hroom' : (decoded.add cap chunk.data).bytes.length ≤ cap := by
      rw [hadd, List.length_take]
      exact Nat.min_le_left _ _
    -- going on with the other chunks
    have hrest : (decoded.add cap chunk.data).collect cap stop chunks = .ok result →
        result.bytes = (decoded.bytes ++ chunkData (chunk :: chunks)).take cap := by
      intro h
      rw [ih hroom' h, hadd, take_take_append, chunkData_cons, List.append_assoc]
    unfold collect at h
    dsimp only at h
    cases hclosed : chunk.rest with
    | none =>
      rw [hclosed] at h
      exact hrest h
    | some rest =>
      rw [hclosed] at h
      dsimp only at h
      split_ifs at h with hmet
      · -- the limit is met, and what follows is beyond it
        have hlong : cap ≤ (decoded.bytes ++ chunk.data).length := by
          rw [hadd, List.length_take] at hmet
          omega
        injection h with h
        rw [← h]
        dsimp only
        rw [hadd, chunkData_cons, ← List.append_assoc, List.take_append_of_le_length hlong]
      · exact hrest h

/-- One more chunk adds its data up to the limit, and it is noted whether some was cut off. -/
theorem add_eq (hroom : decoded.bytes.length ≤ cap) (data : List UInt8) :
    decoded.add cap data =
      { decoded with
        bytes := (decoded.bytes ++ data).take cap
        truncated_by_limit := decoded.truncated_by_limit || cap < (decoded.bytes ++ data).length
        chunks := decoded.chunks + 1 } := by
  unfold add
  have hcut : (appendLimited decoded.bytes data cap).length - decoded.bytes.length < data.length ↔
      cap < (decoded.bytes ++ data).length := by
    rw [appendLimited_eq hroom, List.length_take, List.length_append]
    omega
  simp only [hcut]
  rw [appendLimited_eq hroom]

/-- A chunk that fits is added as it is. -/
theorem add_of_fits {data : List UInt8} (hwhole : decoded.truncated_by_limit = false)
    (hfits : (decoded.bytes ++ data).length < cap) :
    decoded.add cap data = { decoded with bytes := decoded.bytes ++ data, chunks := decoded.chunks + 1 } := by
  have hroom : decoded.bytes.length ≤ cap := by
    rw [List.length_append] at hfits
    omega
  rw [add_eq hroom, List.take_of_length_le hfits.le, hwhole, Bool.false_or, decide_eq_false hfits.not_gt,
    ← hwhole]

/-! ## Where the limit is met -/

/-- The first chunk with a line end with which the data comes up to the limit: how long the data is up to it, and
how many bytes follow its line end. -/
def meets (cap : ℕ) : ℕ → List Chunk → Option (ℕ × ℕ)
  | _, [] => none
  | length, chunk :: chunks =>
    let length := length + chunk.data.length
    match chunk.rest with
    | none => meets cap length chunks
    | some rest => if cap ≤ length then some (length, rest) else meets cap length chunks

/-- Nothing follows a chunk that breaks off, nor one that no bytes follow. -/
def Closed : List Chunk → Prop
  | [] => True
  | chunk :: chunks => (chunk.rest = none ∨ chunk.rest = some 0 → chunks = []) ∧ Closed chunks

/-- Without meeting the limit, the decoder takes all the data there is, and notes whether some was cut off. -/
theorem collect_of_meets_none (decoded : ChunkedDecode) (stop : ChunksEnd)
    (hroom : decoded.bytes.length < cap) (hwhole : decoded.truncated_by_limit = false) (hclosed : Closed chunks)
    (hmeets : meets cap decoded.bytes.length chunks = none) :
    decoded.collect cap stop chunks =
      { decoded with
        bytes := (decoded.bytes ++ chunkData chunks).take cap
        truncated_by_limit := cap < (decoded.bytes ++ chunkData chunks).length
        chunks := decoded.chunks + chunks.length }.finish stop := by
  induction chunks generalizing decoded with
  | nil =>
    have hfits : ¬ cap < decoded.bytes.length := by omega
    simp only [collect, chunkData_nil, List.append_nil, List.length_nil, Nat.add_zero, hfits, decide_false,
      List.take_of_length_le hroom.le, ← hwhole]
  | cons chunk chunks ih =>
    have hsum : (decoded.bytes ++ chunk.data).length = decoded.bytes.length + chunk.data.length :=
      List.length_append
    obtain ⟨hlast, hclosed⟩ := hclosed
    unfold meets at hmeets
    unfold collect
    cases hrest : chunk.rest with
    | none =>
      -- The chunk breaks off, and is the last one.
      rw [hlast (.inl hrest), add_eq hroom.le, hwhole]
      simp only [collect, chunkData_cons, chunkData_nil, List.append_nil, List.length_singleton,
        Bool.false_or]
    | some rest =>
      simp only [hrest] at hmeets
      split_ifs at hmeets with hmet
      have hfits : (decoded.bytes ++ chunk.data).length < cap := by omega
      have hnot : ¬ cap ≤ (decoded.bytes ++ chunk.data).length := by omega
      have hwhole' : ({ decoded with
          bytes := decoded.bytes ++ chunk.data, chunks := decoded.chunks + 1 } :
            ChunkedDecode).truncated_by_limit = false := hwhole
      have hstep := ih _ hfits hwhole' hclosed (by rw [hsum]; exact hmeets)
      rw [add_of_fits hwhole hfits]
      dsimp only at hstep ⊢
      rw [if_neg hnot, hstep, chunkData_cons, List.append_assoc, List.length_cons,
        Nat.add_assoc decoded.chunks 1, Nat.add_comm 1]

/-- Where the limit is met, the decoder stops, and notes whether bytes follow. -/
theorem collect_of_meets_some (decoded : ChunkedDecode) (stop : ChunksEnd)
    (hroom : decoded.bytes.length < cap) (hwhole : decoded.truncated_by_limit = false)
    (hclosed : Closed chunks) {length rest : ℕ}
    (hmeets : meets cap decoded.bytes.length chunks = some (length, rest)) :
    ∃ n, decoded.collect cap stop chunks = .ok
      { decoded with
        bytes := (decoded.bytes ++ chunkData chunks).take cap
        truncated_by_limit := 0 < rest
        chunks := decoded.chunks + (n + 1) } := by
  induction chunks generalizing decoded with
  | nil => cases hmeets
  | cons chunk chunks ih =>
    have hsum : (decoded.bytes ++ chunk.data).length = decoded.bytes.length + chunk.data.length :=
      List.length_append
    obtain ⟨hlast, hclosed⟩ := hclosed
    unfold meets at hmeets
    unfold collect
    cases hrest : chunk.rest with
    | none =>
      simp only [hrest] at hmeets
      rw [hlast (.inl hrest)] at hmeets
      cases hmeets
    | some rest' =>
      simp only [hrest] at hmeets
      split_ifs at hmeets with hmet
      · -- It is met with this chunk.
        injection hmeets with hmeets
        injection hmeets with hlength hrest'
        subst hrest'
        have hlong : cap ≤ (decoded.bytes ++ chunk.data).length := by omega
        refine ⟨0, ?_⟩
        rw [add_eq hroom.le]
        dsimp only
        rw [if_pos (by rw [List.length_take]; omega), chunkData_cons, ← List.append_assoc,
          List.take_append_of_le_length hlong]
      · have hfits : (decoded.bytes ++ chunk.data).length < cap := by omega
        have hnot : ¬ cap ≤ (decoded.bytes ++ chunk.data).length := by omega
        have hwhole' : ({ decoded with
            bytes := decoded.bytes ++ chunk.data, chunks := decoded.chunks + 1 } :
              ChunkedDecode).truncated_by_limit = false := hwhole
        obtain ⟨n, hstep⟩ := ih _ hfits hwhole' hclosed (by rw [hsum]; exact hmeets)
        refine ⟨n + 1, ?_⟩
        rw [add_of_fits hwhole hfits]
        dsimp only at hstep ⊢
        rw [if_neg hnot, hstep, chunkData_cons, List.append_assoc, Nat.add_assoc decoded.chunks 1,
          Nat.add_comm 1]

end ChunkedDecode

open ChunkedDecode (Closed)

/-- Where no bytes are left there are no chunks. -/
theorem chunkListFrom_end {input : List UInt8} {offset : ℕ} (fuel : ℕ) (h : input.length ≤ offset) :
    (chunkListFrom input fuel offset).1 = [] := by
  cases fuel with
  | zero => rfl
  | succ fuel =>
    have hnone : findLineEndFrom input offset = none := by
      unfold findLineEndFrom
      rw [List.drop_eq_nil_of_le h]
      rfl
    simp only [chunkListFrom, hnone]

/-- A chunk that breaks off is the last one listed, and so is one that no bytes follow. -/
theorem chunkListFrom_closed (input : List UInt8) (fuel offset : ℕ) :
    Closed (chunkListFrom input fuel offset).1 := by
  induction fuel generalizing offset with
  | zero => exact trivial
  | succ fuel ih =>
    -- a chunk with its line end, before those that follow
    have hnext : ∀ (data : List UInt8) (offset : ℕ),
        Closed (⟨data, some (input.length - offset)⟩ :: (chunkListFrom input fuel offset).1) := by
      intro data offset
      refine ⟨fun hrest => ?_, ih offset⟩
      rcases hrest with hnone | hzero
      · cases hnone
      · have hend : input.length - offset = 0 := Option.some.inj hzero
        exact chunkListFrom_end fuel (by omega)
    have hone : ∀ data : List UInt8, Closed [⟨data, none⟩] := fun data => ⟨fun _ => rfl, trivial⟩
    unfold chunkListFrom
    split
    · exact trivial
    · dsimp only
      split_ifs
      · exact trivial
      · split
        · exact trivial
        · split_ifs
          · exact trivial
          · exact hone _
          · exact hnext _ _
          · exact hnext _ _
          · exact hone _
          · exact hone _

/-- So it is of a body. -/
theorem chunkList_closed (input : List UInt8) : Closed (chunkList input).1 :=
  chunkListFrom_closed input _ _

end Rustmate.Transform
