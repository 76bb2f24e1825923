import Mathlib.Order.Interval.Finset.Nat
import Rustmate.Content.Chained
import Rustmate.Lib.Sextets
import Rustmate.Slice.Reader

/-!
# Slices are exact

A slice of a stream that is stored returns the stored bytes of the range asked for, its highlights are the
parts that the matches and the segments have in common, and those that it leaves out are counted. -/

namespace Rustmate.Slice

open Content View

/-! ## Where matches and segments meet -/

/-- The matches of a direction, each with the segments that it has an offset in common with. -/
def meetings (direction : FlowDirection) (pattern_matches : List StreamPatternMatch)
    (segments : List StreamSliceSegment) : List (StreamPatternMatch × StreamSliceSegment × ℕ) :=
  pattern_matches.flatMap fun pattern_match =>
    if pattern_match.direction = direction then
      (segments.zipIdx.filter fun x =>
        (Finset.Ico pattern_match.logical_start pattern_match.logical_end ∩
          Finset.Ico x.1.logical_start x.1.logical_end).Nonempty).map fun x => (pattern_match, x)
    else []

/-- The highlight of a match in a segment: from the later beginning to the earlier end. -/
def highlightAt (stream_id : BitVec 64) (direction : FlowDirection)
    (meeting : StreamPatternMatch × StreamSliceSegment × ℕ) : StreamSliceHighlight :=
  let (pattern_match, segment, segment_index) := meeting
  { stream_id
    pattern_id := pattern_match.pattern_id
    pattern_name := pattern_match.pattern_name
    pattern_type := pattern_match.pattern_type
    direction
    logical_start := max pattern_match.logical_start segment.logical_start
    logical_end := min pattern_match.logical_end segment.logical_end
    segment_index
    segment_start := max pattern_match.logical_start segment.logical_start - segment.logical_start
    segment_end := min pattern_match.logical_end segment.logical_end - segment.logical_start }

/-- Two ranges have an offset in common when the later beginning is before the earlier end. -/
theorem meet_iff (a b c d : ℕ) : (Finset.Ico a b ∩ Finset.Ico c d).Nonempty ↔ max a c < min b d := by
  rw [Finset.Ico_inter_Ico, Finset.nonempty_Ico]

/-- The offsets of a highlight are those that the match and the segment have in common. -/
theorem highlightAt_offsets (stream_id : BitVec 64) (direction : FlowDirection) (pattern_match : StreamPatternMatch)
    (segment : StreamSliceSegment) (segment_index : ℕ) :
    let highlight := highlightAt stream_id direction (pattern_match, segment, segment_index)
    Finset.Ico highlight.logical_start highlight.logical_end =
      Finset.Ico pattern_match.logical_start pattern_match.logical_end ∩
        Finset.Ico segment.logical_start segment.logical_end := by
  intro highlight
  rw [Finset.Ico_inter_Ico]
  rfl

/-- The segments that a match meets, as the filter of the loop sees them. -/
theorem mem_meetings {direction : FlowDirection} {pattern_matches : List StreamPatternMatch}
    {segments : List StreamSliceSegment} {pattern_match : StreamPatternMatch} {segment : StreamSliceSegment} {i : ℕ}
    (h : (pattern_match, segment, i) ∈ meetings direction pattern_matches segments) :
    segments[i]? = some segment ∧
      max pattern_match.logical_start segment.logical_start < min pattern_match.logical_end segment.logical_end := by
  obtain ⟨m, -, hm⟩ := List.mem_flatMap.mp h
  split_ifs at hm with hdirection
  · obtain ⟨x, hx, heq⟩ := List.mem_map.mp hm
    obtain ⟨rfl, rfl⟩ := Prod.mk.inj heq
    rw [List.mem_filter, List.mem_zipIdx_iff_getElem?, decide_eq_true_eq, meet_iff] at hx
    exact hx
  · exact absurd hm List.not_mem_nil

/-- The loops of `highlights` collect one highlight for each meeting. -/
theorem collectHighlights_eq (stream_id : BitVec 64) (direction : FlowDirection)
    (pattern_matches : List StreamPatternMatch) (segments : List StreamSliceSegment) :
    collectHighlights stream_id direction pattern_matches segments =
      (meetings direction pattern_matches segments).map (highlightAt stream_id direction) := by
  unfold collectHighlights meetings
  rw [List.map_flatMap]
  congr 1
  funext pattern_match
  by_cases hdirection : pattern_match.direction = direction
  · rw [if_neg (not_not.mpr hdirection), if_pos hdirection, List.map_map]
    induction segments.zipIdx with
    | nil => rfl
    | cons x xs ih =>
      obtain ⟨segment, i⟩ := x
      by_cases hmeet : max pattern_match.logical_start segment.logical_start <
          min pattern_match.logical_end segment.logical_end
      · have hone : highlightOf stream_id direction pattern_match i segment =
            some (highlightAt stream_id direction (pattern_match, segment, i)) := if_neg (Nat.not_le.mpr hmeet)
        rw [List.filter_cons_of_pos (by simpa [meet_iff] using hmeet), List.map_cons, ← ih, List.filterMap_cons]
        dsimp only
        rw [hone]
        rfl
      · have hnone : highlightOf stream_id direction pattern_match i segment = none := if_pos (Nat.not_lt.mp hmeet)
        rw [List.filter_cons_of_neg (by simpa [meet_iff] using hmeet), ← ih, List.filterMap_cons]
        dsimp only
        rw [hnone]
  · rw [if_pos hdirection, if_neg hdirection]
    rfl

/-- Counting up to the largest number. -/
theorem foldl_saturatingAdd {α : Type*} (p : α → Prop) [DecidablePred p] (xs : List α) (n : ℕ) :
    xs.foldl (fun n x => if p x then saturatingAdd n 1 else n) (min n u64Max) =
      min (n + (xs.filter p).length) u64Max := by
  induction xs generalizing n with
  | nil => rfl
  | cons x xs ih =>
    rw [List.foldl_cons]
    by_cases hx : p x
    · have hone : saturatingAdd (min n u64Max) 1 = min (n + 1) u64Max := by
        unfold saturatingAdd
        omega
      rw [if_pos hx, hone, ih, List.filter_cons_of_pos (by simpa using hx), List.length_cons]
      congr 1
      omega
    · rw [if_neg hx, ih, List.filter_cons_of_neg (by simpa using hx)]

/-- The test of the counting path finds the same meetings, where neither matches nor segments are empty. -/
theorem countOverlappingMatches_eq {direction : FlowDirection} {pattern_matches : List StreamPatternMatch}
    {segments : List StreamSliceSegment} (hmatches : ∀ m ∈ pattern_matches, m.logical_start < m.logical_end)
    (hsegments : ∀ s ∈ segments, s.logical_start < s.logical_end) :
    countOverlappingMatches direction pattern_matches segments =
      min (meetings direction pattern_matches segments).length u64Max := by
  have hinner : ∀ m ∈ pattern_matches, ∀ n, segments.foldl (fun count segment =>
      if m.logical_start < segment.logical_end ∧ segment.logical_start < m.logical_end then saturatingAdd count 1
      else count) (min n u64Max) = min (n + (segments.zipIdx.filter fun x =>
        (Finset.Ico m.logical_start m.logical_end ∩
          Finset.Ico x.1.logical_start x.1.logical_end).Nonempty).length) u64Max := by
    intro m hm n
    rw [foldl_saturatingAdd]
    congr 2
    have hmap : segments = segments.zipIdx.map Prod.fst := (List.zipIdx_map_fst 0 segments).symm
    conv_lhs => rw [hmap]
    rw [List.filter_map, List.length_map]
    congr 1
    refine List.filter_congr fun x hx => ?_
    have hin := hsegments x.1 (List.mem_of_getElem? (List.mem_zipIdx_iff_getElem?.mp hx))
    have hne := hmatches m hm
    rw [Function.comp_apply, decide_eq_decide, meet_iff]
    omega
  unfold countOverlappingMatches meetings
  have hall : ∀ n, pattern_matches.foldl (fun count m =>
      if m.direction ≠ direction then count
      else segments.foldl (fun count segment =>
        if m.logical_start < segment.logical_end ∧ segment.logical_start < m.logical_end then saturatingAdd count 1
        else count) count) (min n u64Max) = min (n + (pattern_matches.flatMap fun m =>
          if m.direction = direction then (segments.zipIdx.filter fun x =>
            (Finset.Ico m.logical_start m.logical_end ∩
              Finset.Ico x.1.logical_start x.1.logical_end).Nonempty).map fun x => (m, x)
          else []).length) u64Max := by
    clear hsegments
    induction pattern_matches with
    | nil => exact fun n => rfl
    | cons m pattern_matches ih =>
      intro n
      rw [List.foldl_cons, List.flatMap_cons, List.length_append]
      have hrest := ih (fun m' hm' => hmatches m' (List.mem_cons_of_mem m hm'))
        (fun m' hm' => hinner m' (List.mem_cons_of_mem m hm'))
      by_cases hdirection : m.direction = direction
      · rw [if_neg (not_not.mpr hdirection), if_pos hdirection, hinner m List.mem_cons_self, hrest, List.length_map,
          Nat.add_assoc]
      · rw [if_pos hdirection, if_neg hdirection, hrest, List.length_nil, Nat.zero_add]
  have hzero := hall 0
  rw [Nat.zero_add] at hzero
  exact hzero

/-! ## The whole slice -/

/-- What a slice says is true of the bytes that are stored in the range asked for. -/
structure ExactSlice (base64 : Base64) (stored : List UInt8) (config : StreamSliceConfig)
    (request : StreamSliceRequest) (pattern_matches : List StreamPatternMatch) (slice : StreamContentSlice) :
    Prop where
  bytes : slice.concatenatedBytes base64 = stored
  returned : slice.returned_bytes = stored.length ∧ slice.returned_bytes ≤ config.max_slice_bytes
  segments : ∀ segment ∈ slice.segments, request.logical_start ≤ segment.logical_start ∧
    segment.logical_end = segment.logical_start + segment.bytes_len ∧
    (base64.decode segment.base64).map List.length = some segment.bytes_len
  highlights : ∃ all : List StreamSliceHighlight, all.Perm ((meetings request.direction pattern_matches slice.segments).map
      (highlightAt request.stream_id request.direction)) ∧
    all.Pairwise (fun a b => a.sortKey ≤ b.sortKey) ∧ slice.highlights = all.take config.max_highlights
  inside : ∀ highlight ∈ slice.highlights, ∃ segment, slice.segments[highlight.segment_index]? = some segment ∧
    highlight.segment_start < highlight.segment_end ∧ highlight.segment_end ≤ segment.bytes_len
  counted : slice.highlights.length + slice.dropped_highlights =
    (meetings request.direction pattern_matches slice.segments).length

/-- At most one segment, so a match meets at most one. -/
theorem length_meetings_le (direction : FlowDirection) (pattern_matches : List StreamPatternMatch)
    {segments : List StreamSliceSegment} (hone : segments.length ≤ 1) :
    (meetings direction pattern_matches segments).length ≤ pattern_matches.length := by
  unfold meetings
  induction pattern_matches with
  | nil => exact le_refl _
  | cons m pattern_matches ih =>
    rw [List.flatMap_cons, List.length_append, List.length_cons]
    have hfirst : (if m.direction = direction then
        (segments.zipIdx.filter fun x =>
          (Finset.Ico m.logical_start m.logical_end ∩
            Finset.Ico x.1.logical_start x.1.logical_end).Nonempty).map fun x => (m, x)
        else []).length ≤ 1 := by
      split_ifs
      · rw [List.length_map]
        exact le_trans (List.length_filter_le _ _) (by rwa [List.length_zipIdx])
      · exact Nat.zero_le _
    omega

/-- What `highlights` returns for at most one segment, which is not empty. -/
theorem highlights_exact (reader : StreamSliceReader) (stream_id : BitVec 64) (direction : FlowDirection)
    {pattern_matches : List StreamPatternMatch} {segments : List StreamSliceSegment}
    (hmatches : ∀ m ∈ pattern_matches, m.logical_start < m.logical_end) (hlength : pattern_matches.length < 2^64)
    (hone : segments.length ≤ 1) (hsegments : ∀ s ∈ segments, s.logical_start < s.logical_end) :
    let result := reader.highlights stream_id direction pattern_matches segments
    let met := (meetings direction pattern_matches segments).map (highlightAt stream_id direction)
    (∃ all : List StreamSliceHighlight, all.Perm met ∧ all.Pairwise (fun a b => a.sortKey ≤ b.sortKey) ∧
        result.1 = all.take reader.config.max_highlights) ∧
      result.1.length + result.2 = (meetings direction pattern_matches segments).length := by
  intro result met
  have hresult : result = reader.highlights stream_id direction pattern_matches segments := rfl
  unfold StreamSliceReader.highlights at hresult
  have hperm : (met.insertionSort fun a b => a.sortKey ≤ b.sortKey).Perm met := List.perm_insertionSort _ met
  have hsorted := List.pairwise_insertionSort (fun a b : StreamSliceHighlight => a.sortKey ≤ b.sortKey) met
  by_cases hzero : reader.config.max_highlights = 0
  · rw [if_pos hzero] at hresult
    refine ⟨⟨_, hperm, hsorted, by rw [hresult, hzero, List.take_zero]⟩, ?_⟩
    rw [hresult, countOverlappingMatches_eq hmatches hsegments, List.length_nil, Nat.zero_add]
    have hle := length_meetings_le direction pattern_matches hone
    unfold u64Max
    omega
  · rw [if_neg hzero, collectHighlights_eq] at hresult
    refine ⟨⟨_, hperm, hsorted, by rw [hresult]⟩, ?_⟩
    have hlen := hperm.length_eq
    rw [List.length_map] at hlen
    rw [hresult]
    dsimp only
    change (List.take _ (met.insertionSort _)).length + ((met.insertionSort _).length - _) = _
    rw [List.length_take, hlen]
    omega

/-- A highlight lies in its segment. -/
theorem highlightAt_inside {stream_id : BitVec 64} {direction : FlowDirection}
    {pattern_matches : List StreamPatternMatch} {segments : List StreamSliceSegment} {highlight : StreamSliceHighlight}
    (hends : ∀ s ∈ segments, s.logical_end = s.logical_start + s.bytes_len)
    (h : highlight ∈ (meetings direction pattern_matches segments).map (highlightAt stream_id direction)) :
    ∃ segment, segments[highlight.segment_index]? = some segment ∧
      highlight.segment_start < highlight.segment_end ∧ highlight.segment_end ≤ segment.bytes_len := by
  obtain ⟨⟨m, segment, i⟩, hmeeting, rfl⟩ := List.mem_map.mp h
  obtain ⟨hsegment, hmeet⟩ := mem_meetings hmeeting
  have hend := hends segment (List.mem_of_getElem? hsegment)
  refine ⟨segment, hsegment, ?_, ?_⟩ <;> unfold highlightAt <;> dsimp only <;> omega

/-- A slice of a direction whose segments are a chain. -/
theorem sliceWithContext_chained {base64 : Base64} (hbase : base64.Undoes) {content : StreamContent}
    (view : StreamViewState) {config : StreamSliceConfig} (hconfig : 1 ≤ config.max_slice_bytes)
    {request : StreamSliceRequest} (hrequest : 1 ≤ request.max_bytes) {key : FlowKey} {record : ContentRecord}
    (hkey : content.streams.lookup key = some record) (hchained : record.Chained)
    {pattern_matches : List StreamPatternMatch}
    (hmatches : ∀ m ∈ pattern_matches, m.logical_start < m.logical_end) (hlength : pattern_matches.length < 2^64) :
    ∃ slice, (StreamSliceReader.new content view config).sliceWithContext base64 request key pattern_matches =
        .ok slice ∧
      ExactSlice base64 ((record.directions.get request.direction).storedBetween request.logical_start
        (saturatingAdd request.logical_start (min request.max_bytes config.max_slice_bytes))) config request
        pattern_matches slice := by
  have hmax : max (min request.max_bytes (max config.max_slice_bytes 1)) 1 =
      min request.max_bytes config.max_slice_bytes := by omega
  have hhi : saturatingAdd request.logical_start (min request.max_bytes config.max_slice_bytes) ≤ u64Max :=
    Nat.min_le_right _ _
  have hspan : saturatingAdd request.logical_start (min request.max_bytes config.max_slice_bytes) ≤
      request.logical_start + config.max_slice_bytes :=
    le_trans (saturatingAdd_le _ _) (by omega)
  obtain ⟨hbytes, hone, hwindow⟩ := (hchained request.direction).windows_eq record.id request.direction
    request.logical_start hhi
  unfold StreamSliceReader.sliceWithContext StreamSliceReader.new StreamSliceConfig.normalized
  dsimp only
  rw [if_neg (by omega), hmax]
  unfold StreamContent.directionWindows
  rw [hkey, Option.map_some]
  generalize saturatingAdd request.logical_start (min request.max_bytes config.max_slice_bytes) = hi at *
  generalize (record.directions.get request.direction).storedBetween request.logical_start hi = stored at *
  generalize (record.directions.get request.direction).windows record.id request.direction request.logical_start hi =
    windows at *
  dsimp only
  refine ⟨_, rfl, ?_⟩
  generalize hsegments : windows.map (fun window => segmentFromWindow base64 window request.mode
    (min (max config.hex_row_bytes 1) 64)) = segments
  have hsegment : ∀ s ∈ segments, ∃ window ∈ windows, s.logical_start = window.logical_start ∧
      s.bytes_len = window.bytes.length ∧ s.base64 = base64.encode window.bytes ∧
      s.logical_end = s.logical_start + s.bytes_len ∧ s.logical_start < s.logical_end := by
    intro s hs
    rw [← hsegments] at hs
    obtain ⟨window, hin, rfl⟩ := List.mem_map.mp hs
    obtain ⟨hne, -, hend⟩ := hwindow window hin
    have hpos := List.length_pos_iff.mpr hne
    have hsum : saturatingAdd window.logical_start window.bytes.length = window.logical_start + window.bytes.length :=
      Nat.min_eq_left (by omega)
    unfold segmentFromWindow
    dsimp only
    rw [hsum]
    exact ⟨window, hin, rfl, rfl, rfl, rfl, by omega⟩
  have hlen : segments.length ≤ 1 := by rw [← hsegments, List.length_map]; exact hone
  have hends : ∀ s ∈ segments, s.logical_end = s.logical_start + s.bytes_len := by
    intro s hs
    obtain ⟨-, -, -, -, -, hend, -⟩ := hsegment s hs
    exact hend
  obtain ⟨hall, hcounted⟩ := highlights_exact (.new content view config) request.stream_id request.direction hmatches
    hlength hlen fun s hs => by
      obtain ⟨-, -, -, -, -, -, hlt⟩ := hsegment s hs
      exact hlt
  refine ⟨?_, ?_, fun s hs => ?_, hall, fun highlight hin => ?_, hcounted⟩
  · unfold StreamContentSlice.concatenatedBytes
    dsimp only
    rw [← hbytes, ← hsegments, List.flatMap_map]
    refine List.flatMap_congr fun window _ => ?_
    change (base64.decode (base64.encode window.bytes)).getD [] = window.bytes
    rw [hbase]
    rfl
  · -- one window at most, so the sum does not saturate
    dsimp only
    rw [← hbytes]
    rcases windows with - | ⟨window, - | ⟨window', windows⟩⟩
    · exact ⟨rfl, Nat.zero_le _⟩
    · obtain ⟨-, hlo, hend⟩ := hwindow window List.mem_cons_self
      have hsum : saturatingAdd 0 window.bytes.length = window.bytes.length := by
        unfold saturatingAdd
        omega
      rw [List.foldl_cons, List.foldl_nil, List.flatMap_singleton, hsum]
      exact ⟨rfl, by omega⟩
    · exact absurd hone (by simp)
  · obtain ⟨window, hin, hstart, hbyteslen, hencoded, hend, -⟩ := hsegment s hs
    obtain ⟨-, hlo, -⟩ := hwindow window hin
    refine ⟨hstart ▸ hlo, hend, ?_⟩
    rw [hencoded, hbase, Option.map_some, hbyteslen]
  · obtain ⟨all, hperm, -, htake⟩ := hall
    change highlight ∈ ((StreamSliceReader.new content view config).highlights request.stream_id request.direction
      pattern_matches segments).1 at hin
    rw [htake] at hin
    exact highlightAt_inside hends (hperm.mem_iff.mp (List.mem_of_mem_take hin))

/-- A slice of any stream that is stored, in any run, is exact. -/
theorem sliceWithContext_exact {base64 : Base64} (hbase : base64.Undoes) (config : StreamContentConfig)
    (calls : List ContentCall) (view : StreamViewState) {slice_config : StreamSliceConfig}
    (hconfig : 1 ≤ slice_config.max_slice_bytes) {request : StreamSliceRequest} (hrequest : 1 ≤ request.max_bytes)
    {key : FlowKey} {record : ContentRecord}
    (hkey : (StreamContent.observeAll config calls).1.streams.lookup key = some record)
    {pattern_matches : List StreamPatternMatch}
    (hmatches : ∀ m ∈ pattern_matches, m.logical_start < m.logical_end) (hlength : pattern_matches.length < 2^64) :
    ∃ slice, (StreamSliceReader.new (StreamContent.observeAll config calls).1 view slice_config).sliceWithContext
        base64 request key pattern_matches = .ok slice ∧
      ExactSlice base64 ((record.directions.get request.direction).storedBetween request.logical_start
        (saturatingAdd request.logical_start (min request.max_bytes slice_config.max_slice_bytes))) slice_config
        request pattern_matches slice :=
  sliceWithContext_chained hbase view hconfig hrequest hkey
    (StreamContent.observeAll_chained config calls key record hkey) hmatches hlength

/-- The standard engine, as it encodes and decodes. -/
def standard : Base64 := ⟨Sextets.encode, Sextets.decode⟩

/-- A match in a sample stream. -/
def sampleMatch (logical_start logical_end : ℕ) : StreamPatternMatch where
  stream_id := sampleKey.stableId
  pattern_id := []
  pattern_name := []
  pattern_type := .substring
  direction := .aToB
  logical_start := logical_start
  logical_end := logical_end
  match_len := logical_end - logical_start
  match_text := none

/-- Two of five bytes are asked for, where two matches meet them and one highlight is kept. -/
theorem sliceWithContext_exact_cut :
    ∃ record slice, (StreamContent.observeAll ⟨true, 8, 1000, 64, 64, 64⟩
          [datagramCall [97, 98, 99, 100, 101]]).1.streams.lookup sampleKey = some record ∧
      (StreamSliceReader.new (StreamContent.observeAll ⟨true, 8, 1000, 64, 64, 64⟩
          [datagramCall [97, 98, 99, 100, 101]]).1 (.new ⟨true, 8, 8, 8⟩) ⟨2, 1, 16, 64⟩).sliceWithContext standard
        ⟨sampleKey.stableId, .aToB, 1, 8, .raw⟩ sampleKey [sampleMatch 0 3, sampleMatch 2 4] = .ok slice ∧
      ExactSlice standard (record.directions.aToB.storedBetween 1 3) ⟨2, 1, 16, 64⟩
        ⟨sampleKey.stableId, .aToB, 1, 8, .raw⟩ [sampleMatch 0 3, sampleMatch 2 4] slice := by
  have hstored : ∃ record, (StreamContent.observeAll ⟨true, 8, 1000, 64, 64, 64⟩
      [datagramCall [97, 98, 99, 100, 101]]).1.streams.lookup sampleKey = some record := ⟨_, rfl⟩
  obtain ⟨record, hkey⟩ := hstored
  obtain ⟨slice, hslice, hexact⟩ := @sliceWithContext_exact standard Sextets.decode_encode
    ⟨true, 8, 1000, 64, 64, 64⟩ [datagramCall [97, 98, 99, 100, 101]] (.new ⟨true, 8, 8, 8⟩) ⟨2, 1, 16, 64⟩
    (by decide) ⟨sampleKey.stableId, .aToB, 1, 8, .raw⟩ (by decide) sampleKey record hkey
    [sampleMatch 0 3, sampleMatch 2 4] (by decide) (by decide)
  exact ⟨record, slice, hkey, hslice, hexact⟩

end Rustmate.Slice
