import Rustmate.Flow.Run

/-!
# TCP reassembly is exact

A stream `S` with the initial sequence number `isn`, cut into segments that arrive in any order, more than
once and overlapping. The positions are counted from `isn`, which is that of SYN: the first byte of `S` is
at position 1, and FIN follows the last.
-/

namespace Rustmate.Flow

open Reassembly Serial

/-- A segment cut out of the stream: it carries the bytes of `S` from `index` on, under their sequence
numbers, with SYN only before the first byte and FIN only after the last. -/
structure CutSegment (S : List UInt8) (isn : BitVec 32) where
  segment : TcpSegment
  index : ℕ
  not_rst : segment.flags.rst = false
  within : index + segment.payload_len ≤ S.length
  payload_start : segment.payloadSequenceStart = place isn (1 + index)
  syn_first : segment.flags.syn = true → index = 0
  fin_last : segment.flags.fin = true → index + segment.payload_len = S.length

namespace CutSegment

variable {S : List UInt8} {isn : BitVec 32}

/-- The bytes that the segment carries. -/
def payload (x : CutSegment S isn) : List UInt8 := (S.drop x.index).take x.segment.payload_len

/-- The positions that the segment occupies, with its bytes. -/
def piece (x : CutSegment S isn) : Piece UInt8 where
  start := 1 + x.index - x.segment.flags.syn.toNat
  stop := 1 + x.index + x.segment.payload_len + x.segment.flags.fin.toNat
  data := 1 + x.index
  bytes := x.payload

/-- The segment as `observe` gets it. -/
def arrival (x : CutSegment S isn) (flow_buffered_bytes : ℕ) : Arrival :=
  ⟨x.segment, x.payload, flow_buffered_bytes⟩

/-- The segment occupies at least one sequence number: it is not a bare acknowledgement. -/
def occupies (x : CutSegment S isn) : Bool := x.piece.start < x.piece.stop

/-- The payload is as long as the header says. -/
theorem payload_length (x : CutSegment S isn) : x.payload.length = x.segment.payload_len := by
  have := x.within
  unfold payload
  rw [List.length_take, List.length_drop]
  omega

/-- A flag takes one position or none. -/
theorem flag_le_one (b : Bool) : b.toNat ≤ 1 := by
  cases b <;> simp

/-- The segment is where its piece says. -/
theorem segmentAt (x : CutSegment S isn) : SegmentAt isn x.segment x.payload x.piece := by
  have hsyn := flag_le_one x.segment.flags.syn
  have hdata : x.piece.data = x.piece.start + x.segment.flags.syn.toNat := by
    unfold piece
    dsimp only
    omega
  refine ⟨?_, x.payload_length.symm, rfl, hdata, ?_⟩
  · -- The payload starts one after the sequence number when SYN is set.
    have hbit : u32OfBool x.segment.flags.syn = BitVec.ofNat 32 x.segment.flags.syn.toNat := by
      cases x.segment.flags.syn <;> rfl
    have hstart := x.payload_start
    unfold TcpSegment.payloadSequenceStart at hstart
    rw [hbit, show 1 + x.index = x.piece.data from rfl, hdata, ← place_add] at hstart
    exact add_right_cancel hstart
  · rw [x.payload_length]
    rfl

/-- A segment that occupies sequence numbers is a piece of the stream, whose first byte is at position
1. -/
theorem piece_of (x : CutSegment S isn) (h : x.occupies = true) : x.piece.Of S 1 := by
  have hlen := x.payload_length
  have hwithin := x.within
  have hsyn := flag_le_one x.segment.flags.syn
  have hbytes : x.piece.bytes = x.payload := rfl
  refine ⟨by simpa [occupies] using h, ?_, ?_, ?_, ?_, ?_, ?_, ?_⟩
  · exact Nat.le_add_right 1 _
  · exact Nat.sub_le _ _
  · intro hlt
    have hset : x.segment.flags.syn = true := by
      by_contra hclear
      rw [Bool.not_eq_true] at hclear
      simp [piece, hclear] at hlt
    simp [piece, x.syn_first hset]
  · rw [hbytes, hlen]
    simp [piece]
  · intro hlt
    rw [hbytes, hlen] at hlt ⊢
    have hset : x.segment.flags.fin = true := by
      by_contra hclear
      rw [Bool.not_eq_true] at hclear
      simp [piece, hclear] at hlt
    have hlast := x.fin_last hset
    simp only [piece]
    omega
  · rw [hbytes, hlen]
    simp only [piece]
    omega
  · rw [hbytes, hlen]
    simp [piece, payload]

end CutSegment

/-! ## Any order of the segments -/

variable {S : List UInt8} {isn : BitVec 32}

/-- What reassembly has come to: from the first segment on, every byte up to `next_seq`, once and in
order. -/
structure Reassembled (S : List UInt8) (isn : BitVec 32) (base : ℕ) (seen : List (CutSegment S isn))
    (first : CutSegment S isn) (final : TcpDirectionState) (observed : List TcpObservation)
    (e : ℕ) : Prop where
  next_seq : final.next_seq = some (place isn e)
  window : base ≤ e ∧ e < base + 2^31
  bytes : ((emittedChunks observed).map fun c => c.bytes).flatten =
    (S.drop first.index).take (offset S 1 e - first.index)
  contiguous : (emittedChunks observed).IsChain fun c d => d.sequence_start = c.sequence_end
  longest : (∀ x ∈ observed, x.status ≠ .outOfOrderDropped) →
    RunEnd (seen.map CutSegment.piece) first.piece.start e

/-- Chunks that follow each other in the stream have sequence numbers that follow each other. -/
theorem isChain_of_wire {cs : List StreamChunk} {ds : List (ℕ × List UInt8)}
    (h : cs.map StreamChunk.wire = ds.map (placeChunk isn))
    (hd : ds.IsChain fun x y => y.1 = x.1 + x.2.length) :
    cs.IsChain fun c d => d.sequence_start = c.sequence_end := by
  have hplaced : (ds.map (placeChunk isn)).IsChain fun x y => y.1 = x.2.1 := by
    rw [List.isChain_map]
    refine hd.imp fun x y hxy => ?_
    simp only [placeChunk, hxy]
  rw [← h, List.isChain_map] at hplaced
  exact hplaced

/-- The bytes of chunks do not depend on their sequence numbers. -/
theorem bytes_of_wire {cs : List StreamChunk} {ds : List (ℕ × List UInt8)}
    (h : cs.map StreamChunk.wire = ds.map (placeChunk isn)) :
    (cs.map fun c => c.bytes) = ds.map Prod.snd := by
  have hbytes := congrArg (List.map fun w => w.2.2) h
  rw [List.map_map, List.map_map] at hbytes
  exact hbytes

/-- The payload of the first segment begins where its positions begin, SYN apart. -/
theorem CutSegment.offset_start (x : CutSegment S isn) : offset S 1 x.piece.start = x.index := by
  have hwithin := x.within
  unfold offset CutSegment.piece
  dsimp only
  cases hsyn : x.segment.flags.syn with
  | false => simp; omega
  | true =>
    rw [x.syn_first hsyn]
    simp

/-- Reassembly is exact, whatever the order of the segments. Before the first segment that occupies
sequence numbers nothing is emitted; from it on, the stream up to `next_seq`. -/
theorem observeAll_exact (direction : FlowDirection) (config : FlowTableConfig)
    (stats : FlowTableStats) (base : ℕ) (xs : List (CutSegment S isn × ℕ))
    (hwin : ∀ x ∈ xs, base ≤ x.1.piece.start ∧ x.1.piece.stop < base + 2^31) :
    let r := TcpDirectionState.observeAll {} direction config stats
      (xs.map fun x => x.1.arrival x.2)
    match xs.find? fun x => x.1.occupies with
    | none => r.1.next_seq = none ∧ emittedChunks r.2.2 = []
    | some first => ∃ e, Reassembled S isn base (xs.map Prod.fst) first.1 r.1 r.2.2 e := by
  obtain ⟨steps, hsteps, hrep, hwithin, hacc⟩ := observeAll_represents
    (fun x : CutSegment S isn × ℕ => x.1.arrival x.2) (fun x => x.1.piece) direction config xs stats
    (represents_empty isn) (within_empty base) (fun x _ => x.1.not_rst) (fun x _ => x.1.segmentAt)
    hwin
  dsimp only
  generalize TcpDirectionState.observeAll {} direction config stats
    (xs.map fun x => x.1.arrival x.2) = r at hrep hacc ⊢
  -- The assembler takes the segments that occupy sequence numbers.
  have hpieces : steps.map Prod.snd =
      (xs.filter fun x => x.1.occupies).map fun x => x.1.piece := by
    rw [hsteps, List.filter_map]
    rfl
  rw [← List.head?_filter]
  cases hrest : xs.filter fun x => x.1.occupies with
  | nil =>
    rw [hrest, List.map_nil, List.map_eq_nil_iff] at hpieces
    rw [hpieces] at hrep hacc
    exact ⟨hrep.next, List.map_eq_nil_iff.mp hacc.chunks⟩
  | cons first rest =>
    have hmem : ∀ x ∈ first :: rest, x ∈ xs ∧ x.1.occupies = true := by
      intro x hx
      rw [← hrest] at hx
      exact List.mem_filter.mp hx
    rw [hrest, List.map_cons] at hpieces
    obtain ⟨⟨admitted, a⟩, steps, rfl, rfl, htail⟩ := List.map_eq_cons_iff.mp hpieces
    have hfirst := first.1.piece_of (hmem first List.mem_cons_self).2
    obtain ⟨e, he⟩ := run_tracks admitted first.1.piece steps hfirst (by
      intro y hy
      have hy' : y.2 ∈ rest.map fun x => x.1.piece := htail ▸ List.mem_map_of_mem hy
      obtain ⟨x, hx, hxy⟩ := List.mem_map.mp hy'
      rw [← hxy]
      exact x.1.piece_of (hmem x (List.mem_cons_of_mem _ hx)).2)
    have hnext := hrep.next
    rw [he.next] at hnext
    refine ⟨e, hnext, hwithin.next e he.next, ?_, isChain_of_wire hacc.chunks he.tiles.chain, ?_⟩
    · rw [bytes_of_wire hacc.chunks, he.tiles.flatten, first.1.offset_start]
    · intro hkept
      have htaken : first.1.piece :: steps.map Prod.snd =
          (first :: rest).map fun x => x.1.piece := by rw [List.map_cons, htail]
      obtain ⟨hle, hcov, hun⟩ := he.runEnd (hacc.dropped hkept)
      rw [htaken] at hcov hun
      refine ⟨hle, fun p hp hpe => ?_, ?_⟩
      · refine (hcov p hp hpe).mono fun b hb => ?_
        obtain ⟨x, hx, rfl⟩ := List.mem_map.mp hb
        exact List.mem_map.mpr ⟨x.1, List.mem_map_of_mem (hmem x hx).1, rfl⟩
      · -- A bare acknowledgement covers nothing, so the other segments do not matter.
        rintro ⟨b, hb, hbe⟩
        refine hun ⟨b, ?_, hbe⟩
        obtain ⟨c, hc, rfl⟩ := List.mem_map.mp hb
        obtain ⟨x, hx, rfl⟩ := List.mem_map.mp hc
        have hocc : x.1.occupies = true := by
          have := hbe.1
          have := hbe.2
          simp only [CutSegment.occupies, decide_eq_true_eq]
          omega
        rw [← hrest]
        exact List.mem_map.mpr ⟨x, List.mem_filter.mpr ⟨hx, hocc⟩, rfl⟩

/-- A stream of six bytes for the case below. -/
def sixBytes : List UInt8 := [10, 11, 12, 13, 14, 15]

/-- The bytes of it from `index` on, numbered so that the numbering wraps inside. -/
def sixBytesCut (index len : ℕ) (syn fin : Bool)
    (hwithin : index + len ≤ sixBytes.length := by decide)
    (hsyn : syn = true → index = 0 := by decide)
    (hfin : fin = true → index + len = sixBytes.length := by decide) :
    CutSegment sixBytes 0xfffffffd where
  segment :=
    { sequence_number := place 0xfffffffd (1 + index) - u32OfBool syn
      acknowledgment_number := 0
      flags := ⟨fin, syn, false, false, true, false, false, false⟩
      window_size := 0
      payload_len := len }
  index := index
  not_rst := rfl
  within := hwithin
  payload_start := sub_add_cancel _ _
  syn_first := hsyn
  fin_last := hfin

/-- The end first held, the beginning seen late, a bare acknowledgement in between: the numbering wraps
between the second byte and the third. -/
theorem observeAll_exact_wrap :
    ∃ e, Reassembled sixBytes 0xfffffffd 0
      [sixBytesCut 1 0 false false, sixBytesCut 1 2 false false, sixBytesCut 4 2 false true,
        sixBytesCut 0 4 true false]
      (sixBytesCut 1 2 false false)
      (TcpDirectionState.observeAll {} .aToB ⟨8, 0, 1, 64, 4⟩ {}
        [(sixBytesCut 1 0 false false).arrival 0, (sixBytesCut 1 2 false false).arrival 0,
          (sixBytesCut 4 2 false true).arrival 0, (sixBytesCut 0 4 true false).arrival 2]).1
      (TcpDirectionState.observeAll {} .aToB ⟨8, 0, 1, 64, 4⟩ {}
        [(sixBytesCut 1 0 false false).arrival 0, (sixBytesCut 1 2 false false).arrival 0,
          (sixBytesCut 4 2 false true).arrival 0, (sixBytesCut 0 4 true false).arrival 2]).2.2 e :=
  observeAll_exact .aToB ⟨8, 0, 1, 64, 4⟩ {} 0
    [(sixBytesCut 1 0 false false, 0), (sixBytesCut 1 2 false false, 0),
      (sixBytesCut 4 2 false true, 0), (sixBytesCut 0 4 true false, 2)] (by decide)

end Rustmate.Flow
