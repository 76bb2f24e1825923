import Rustmate.Content.Store
import Rustmate.Lib.Tiles

/-!
# What one direction stores

The segments of a direction tile the end of the log of all bytes ever appended to it: appending grows the
log, whether the bytes start a segment of their own or join the last one, and trimming moves the beginning
of the stored stretch forward.
-/

namespace Rustmate.Content

open Rustmate.Flow Tiling

/-- The segments as chunks with their logical offsets. -/
def DirectionContent.chunks (self : DirectionContent) : List (ℕ × List UInt8) :=
  self.segments.map fun s => (s.logical_start, s.bytes)

/-- The direction stores a suffix of the log, in segments of bounded length. -/
structure DirectionContent.Holds (max_segment_bytes : ℕ) (log : List UInt8)
    (content : DirectionContent) : Prop where
  next_offset : content.next_offset = log.length
  stored_le : content.stored_bytes ≤ log.length
  tiles : Tiles log 0 content.chunks (log.length - content.stored_bytes) log.length
  fits : ∀ s ∈ content.segments, s.bytes.length ≤ max_segment_bytes

/-- The ranges follow each other from offset `i` to offset `j`, all of them of one direction of one
stream. -/
inductive Consecutive (stream_id : BitVec 64) (direction : FlowDirection) :
    ℕ → List StreamContentRange → ℕ → Prop where
  | nil (i : ℕ) : Consecutive stream_id direction i [] i
  | cons {i j : ℕ} {r : StreamContentRange} {rs : List StreamContentRange} :
      r.stream_id = stream_id → r.direction = direction → r.logical_start = i → i < r.logical_end →
      Consecutive stream_id direction r.logical_end rs j →
      Consecutive stream_id direction i (r :: rs) j

variable {stream_id : BitVec 64} {direction : FlowDirection}

/-- Ranges up to `j`, then ranges from `j` on. -/
theorem Consecutive.append {i j k : ℕ} {rs ss : List StreamContentRange}
    (hr : Consecutive stream_id direction i rs j) (hs : Consecutive stream_id direction j ss k) :
    Consecutive stream_id direction i (rs ++ ss) k := by
  induction hr with
  | nil i => exact hs
  | cons hid hdir hstart hlt _ ih => exact .cons hid hdir hstart hlt (ih hs)

/-- Ranges move forward. -/
theorem Consecutive.le {i j : ℕ} {rs : List StreamContentRange}
    (h : Consecutive stream_id direction i rs j) : i ≤ j := by
  induction h with
  | nil i => exact le_refl i
  | cons _ _ _ hlt _ ih => exact le_trans (le_of_lt hlt) ih

/-- No range covers nothing. -/
theorem Consecutive.nil_eq {i j : ℕ} (h : Consecutive stream_id direction i [] j) : i = j := by
  cases h
  rfl

/-- The direction of each range. -/
theorem Consecutive.direction_eq {i j : ℕ} {rs : List StreamContentRange}
    (h : Consecutive stream_id direction i rs j) : ∀ r ∈ rs, r.direction = direction := by
  induction h with
  | nil i => simp
  | cons _ hdir _ _ _ ih =>
    intro r hr
    rcases List.mem_cons.mp hr with rfl | hr
    · exact hdir
    · exact ih r hr

/-- The bounds of each range. -/
theorem Consecutive.bounds {i j : ℕ} {rs : List StreamContentRange}
    (h : Consecutive stream_id direction i rs j) :
    ∀ r ∈ rs, i ≤ r.logical_start ∧ r.logical_start < r.logical_end ∧ r.logical_end ≤ j := by
  induction h with
  | nil i => simp
  | cons _ _ hstart hlt hrest ih =>
    intro r hr
    have hle := hrest.le
    rcases List.mem_cons.mp hr with rfl | hr
    · exact ⟨by omega, by omega, hle⟩
    · have := ih r hr
      omega

/-- Each offset from `i` to `j` is the end of a byte of some range. -/
theorem Consecutive.exists_mem {i j : ℕ} {rs : List StreamContentRange}
    (h : Consecutive stream_id direction i rs j) {e : ℕ} (hi : i < e) (hj : e ≤ j) :
    ∃ r ∈ rs, r.logical_start < e ∧ e ≤ r.logical_end := by
  induction h with
  | nil i => omega
  | @cons i j r rs _ _ hstart hlt hrest ih =>
    by_cases he : e ≤ r.logical_end
    · exact ⟨r, List.mem_cons_self, by omega, he⟩
    · obtain ⟨r', hr', hbounds⟩ := ih (by omega) hj
      exact ⟨r', List.mem_cons_of_mem r hr', hbounds⟩

namespace DirectionContent

variable {max_segment_bytes : ℕ} {log : List UInt8} {self : DirectionContent}

/-- An empty direction stores an empty log. -/
theorem holds_empty (max_segment_bytes : ℕ) : Holds max_segment_bytes [] {} :=
  ⟨rfl, le_refl _, .nil _, by simp⟩

/-! ## Appending -/

/-- When the bytes join the last segment. -/
theorem tryMergeLast_spec {sequence_start : Option (BitVec 32)} {bytes : List UInt8}
    {segments : List ContentSegment}
    (h : self.tryMergeLast sequence_start bytes max_segment_bytes = some segments) :
    ∃ init last, self.segments = init ++ [last] ∧
      segments = init ++ [{ last with bytes := last.bytes ++ bytes }] ∧
      saturatingAdd last.bytes.length bytes.length ≤ max_segment_bytes := by
  unfold tryMergeLast at h
  cases hlast : self.segments.getLast? with
  | none => simp [hlast] at h
  | some last =>
    have hsplit := List.dropLast_append_getLast? last hlast
    simp only [hlast] at h
    cases hend : last.sequenceEnd with
    | none => simp [hend] at h
    | some last_sequence_end =>
      cases hstart : sequence_start with
      | none => simp [hstart] at h
      | some sequence_start =>
        simp only [hstart, hend] at h
        split_ifs at h with hne hlong
        exact ⟨self.segments.dropLast, last, hsplit.symm, by simpa using h.symm, by omega⟩

/-- What one slice does to the direction. -/
theorem appendSlice_fst (self : DirectionContent) (stream_id : BitVec 64) (direction : FlowDirection)
    (slice : List UInt8) (sequence_start : Option (BitVec 32)) (observed_us max_segment_bytes : ℕ)
    (append : DirectionAppend) :
    (self.appendSlice stream_id direction slice sequence_start observed_us max_segment_bytes
        append).1 =
      { next_offset := saturatingAdd self.next_offset slice.length
        stored_bytes := saturatingAdd self.stored_bytes slice.length
        segments := (self.tryMergeLast sequence_start slice max_segment_bytes).getD
          (self.segments ++ [⟨self.next_offset, sequence_start, observed_us, slice⟩]) } := by
  unfold DirectionContent.appendSlice
  cases self.tryMergeLast sequence_start slice max_segment_bytes <;> rfl

/-- One slice joins the log, in a segment of its own or in the last one. -/
theorem Holds.appendSlice (h : Holds max_segment_bytes log self) {slice : List UInt8}
    (hne : slice ≠ []) (hle : slice.length ≤ max_segment_bytes)
    (hsmall : (log ++ slice).length < 2^64) (stream_id : BitVec 64) (direction : FlowDirection)
    (sequence_start : Option (BitVec 32)) (observed_us : ℕ) (append : DirectionAppend) :
    Holds max_segment_bytes (log ++ slice)
      (self.appendSlice stream_id direction slice sequence_start observed_us max_segment_bytes
        append).1 := by
  obtain ⟨hnext, hstored, htiles, hfits⟩ := h
  have hpos := List.length_pos_iff.mpr hne
  rw [List.length_append] at hsmall
  have hoffset : saturatingAdd self.next_offset slice.length = (log ++ slice).length := by
    rw [hnext, saturatingAdd_eq hsmall, List.length_append]
  have hbytes : saturatingAdd self.stored_bytes slice.length = self.stored_bytes + slice.length :=
    saturatingAdd_eq (by omega)
  -- The log with the slice, tiled by the segments and the slice on its own.
  have hslice : slice = ((log ++ slice).drop log.length).take ((log ++ slice).length - log.length) := by
    rw [List.drop_left, List.length_append, Nat.add_sub_cancel_left, List.take_length]
  have hown : Tiles (log ++ slice) 0 (self.chunks ++ [(log.length, slice)])
      (log.length - self.stored_bytes) (log ++ slice).length := by
    refine htiles.extend.append ?_
    have hsingle := Tiles.single (S := log ++ slice) 0 (i := log.length)
      (j := (log ++ slice).length) (by rw [List.length_append]; omega) (le_refl _)
    rw [Nat.zero_add, ← hslice] at hsingle
    exact hsingle
  have hstart : (log ++ slice).length - (self.stored_bytes + slice.length) =
      log.length - self.stored_bytes := by
    rw [List.length_append]
    omega
  rw [appendSlice_fst, hbytes]
  cases hmerge : self.tryMergeLast sequence_start slice max_segment_bytes with
  | none =>
    rw [Option.getD_none]
    refine ⟨hoffset, ?_, ?_, ?_⟩
    · rw [List.length_append]
      dsimp only
      omega
    · dsimp only
      rw [hstart]
      unfold chunks at hown ⊢
      rw [List.map_append, List.map_cons, List.map_nil, hnext]
      exact hown
    · intro s hs
      rcases List.mem_append.mp hs with hs | hs
      · exact hfits s hs
      · rw [List.mem_singleton.mp hs]
        exact hle
  | some segments =>
    obtain ⟨init, last, hsplit, rfl, hfit⟩ := tryMergeLast_spec hmerge
    have hlast : last.bytes.length ≤ log.length := by
      obtain ⟨j, -, -, hj, -, -⟩ := htiles.mem (show (last.logical_start, last.bytes) ∈ self.chunks by
        unfold chunks
        rw [hsplit]
        simp)
      omega
    rw [saturatingAdd_eq (by omega)] at hfit
    rw [Option.getD_some]
    refine ⟨hoffset, ?_, ?_, ?_⟩
    · rw [List.length_append]
      dsimp only
      omega
    · dsimp only
      rw [hstart]
      unfold chunks at hown ⊢
      rw [hsplit, List.map_append, List.map_cons, List.map_nil, List.append_assoc] at hown
      rw [List.map_append, List.map_cons, List.map_nil]
      exact hown.join
    · intro s hs
      rcases List.mem_append.mp hs with hs | hs
      · exact hfits s (by rw [hsplit]; exact List.mem_append_left _ hs)
      · rw [List.mem_singleton.mp hs, List.length_append]
        exact hfit

/-- The range that one slice adds. -/
theorem appendSlice_ranges (self : DirectionContent) (stream_id : BitVec 64)
    (direction : FlowDirection) (slice : List UInt8) (sequence_start : Option (BitVec 32))
    (observed_us max_segment_bytes : ℕ) (append : DirectionAppend) :
    ∃ r : StreamContentRange, (self.appendSlice stream_id direction slice sequence_start observed_us
        max_segment_bytes append).2.ranges = append.ranges ++ [r] ∧
      r.stream_id = stream_id ∧ r.direction = direction ∧ r.logical_start = self.next_offset ∧
      r.logical_end = saturatingAdd self.next_offset slice.length := by
  exact ⟨_, rfl, rfl, rfl, rfl, rfl⟩

/-- All the bytes join the log, slice by slice. -/
theorem Holds.appendLoop (stream_id : BitVec 64) (direction : FlowDirection)
    (sequence_start : Option (BitVec 32)) (observed_us : ℕ) (hmax : 0 < max_segment_bytes)
    (fuel : ℕ) {log : List UInt8} {self : DirectionContent} (h : Holds max_segment_bytes log self)
    (consumed : ℕ) (bytes : List UInt8) (append : DirectionAppend) (hfuel : bytes.length ≤ fuel)
    (hsmall : (log ++ bytes).length < 2^64) :
    Holds max_segment_bytes (log ++ bytes) (DirectionContent.appendLoop stream_id direction
        sequence_start observed_us max_segment_bytes fuel self consumed bytes append).1 ∧
      ∃ rs, (DirectionContent.appendLoop stream_id direction sequence_start observed_us
          max_segment_bytes fuel self consumed bytes append).2.ranges = append.ranges ++ rs ∧
        Consecutive stream_id direction log.length rs (log ++ bytes).length := by
  induction fuel generalizing log self consumed bytes append with
  | zero =>
    rw [List.length_eq_zero_iff.mp (Nat.le_zero.mp hfuel), List.append_nil]
    exact ⟨h, [], by simp [DirectionContent.appendLoop], .nil _⟩
  | succ fuel ih =>
    unfold DirectionContent.appendLoop
    split_ifs with hnil
    · rw [hnil, List.append_nil]
      exact ⟨h, [], by simp, .nil _⟩
    have hpos := List.length_pos_iff.mpr hnil
    set take := min bytes.length max_segment_bytes with htake
    have htakelen : (bytes.take take).length = take := by
      rw [List.length_take]
      omega
    have hsplit : (log ++ bytes.take take) ++ bytes.drop take = log ++ bytes := by
      rw [List.append_assoc, List.take_append_drop]
    have hlen := hsmall
    rw [List.length_append] at hlen
    have hne : bytes.take take ≠ [] := by
      rw [← List.length_pos_iff, htakelen]
      omega
    have hslice := h.appendSlice hne (by rw [htakelen]; omega)
      (by rw [List.length_append, htakelen]; omega) stream_id direction
      (sequence_start.map fun sequence => sequence + BitVec.ofNat 32 consumed) observed_us append
    obtain ⟨r, hranges, hid, hdir, hstart, hend⟩ := appendSlice_ranges self stream_id direction
      (bytes.take take) (sequence_start.map fun sequence => sequence + BitVec.ofNat 32 consumed)
      observed_us max_segment_bytes append
    rw [h.next_offset] at hstart
    rw [h.next_offset, htakelen, saturatingAdd_eq (by omega)] at hend
    obtain ⟨hrest, rs, hrs, hcons⟩ := ih hslice (consumed + take) (bytes.drop take)
      (self.appendSlice stream_id direction (bytes.take take)
        (sequence_start.map fun sequence => sequence + BitVec.ofNat 32 consumed) observed_us
        max_segment_bytes append).2
      (by rw [List.length_drop]; omega) (by rw [hsplit]; exact hsmall)
    rw [hsplit] at hrest hcons
    refine ⟨hrest, r :: rs, ?_, ?_⟩
    · rw [hrs, hranges, List.append_assoc, List.singleton_append]
    · refine .cons hid hdir hstart (by omega) ?_
      rw [hend]
      rw [List.length_append, htakelen] at hcons
      exact hcons

/-- `append` adds the bytes to the log, and its ranges cover them. -/
theorem Holds.append (h : Holds max_segment_bytes log self) (hmax : 0 < max_segment_bytes)
    (stream_id : BitVec 64) (direction : FlowDirection) (bytes : List UInt8)
    (sequence_start : Option (BitVec 32)) (observed_us : ℕ)
    (hsmall : (log ++ bytes).length < 2^64) :
    Holds max_segment_bytes (log ++ bytes)
        (self.append stream_id direction bytes sequence_start observed_us max_segment_bytes).1 ∧
      Consecutive stream_id direction log.length
        (self.append stream_id direction bytes sequence_start observed_us max_segment_bytes).2.ranges
        (log ++ bytes).length := by
  obtain ⟨hholds, rs, hrs, hcons⟩ := Holds.appendLoop stream_id direction sequence_start observed_us
    hmax bytes.length h 0 bytes {} (le_refl _) hsmall
  unfold DirectionContent.append
  rw [hrs]
  exact ⟨hholds, hcons⟩

/-! ## Trimming -/

/-- Trimming drops as many bytes in front as it is asked for and there are. -/
theorem trimLoop_spec {segments : List ContentSegment} {remaining trimmed stored : ℕ}
    (hstored : stored ≤ log.length) (hsmall : log.length < 2^64)
    (htrimmed : trimmed + stored < 2^64)
    (htiles : Tiles log 0 (segments.map fun s => (s.logical_start, s.bytes))
      (log.length - stored) log.length)
    (hfits : ∀ s ∈ segments, s.bytes.length ≤ max_segment_bytes) :
    (trimLoop remaining segments trimmed stored).2.1 = trimmed + min remaining stored ∧
      (trimLoop remaining segments trimmed stored).2.2 = stored - min remaining stored ∧
      Tiles log 0 ((trimLoop remaining segments trimmed stored).1.map fun s =>
        (s.logical_start, s.bytes)) (log.length - (stored - min remaining stored)) log.length ∧
      ∀ s ∈ (trimLoop remaining segments trimmed stored).1,
        s.bytes.length ≤ max_segment_bytes := by
  induction segments generalizing remaining trimmed stored with
  | nil =>
    have hzero : stored = 0 := by
      generalize hi : log.length - stored = i at htiles
      cases htiles
      omega
    subst hzero
    exact ⟨by simp [trimLoop], by simp [trimLoop], by simpa [trimLoop] using htiles, by
      simp [trimLoop]⟩
  | cons first rest ih =>
    unfold trimLoop
    dsimp only
    split_ifs with hzero hall
    · subst hzero
      simp only [Nat.zero_min, Nat.add_zero, Nat.sub_zero, true_and]
      exact ⟨htiles, hfits⟩
    · -- The whole first segment goes.
      obtain ⟨-, -, hle, -, hrest⟩ := htiles.cons_inv
      have hrestle := hrest.le
      have hsat : saturatingAdd trimmed (min remaining first.bytes.length) =
          trimmed + first.bytes.length := by
        rw [hall]
        exact saturatingAdd_eq (by omega)
      rw [show log.length - stored + first.bytes.length =
        log.length - (stored - first.bytes.length) by omega] at hrest
      obtain ⟨h1, h2, h3, h4⟩ := @ih (remaining - first.bytes.length)
        (trimmed + first.bytes.length) (stored - first.bytes.length) (by omega) (by omega) hrest
        (fun s hs => hfits s (List.mem_cons_of_mem _ hs))
      have hmin : stored - first.bytes.length -
          min (remaining - first.bytes.length) (stored - first.bytes.length) =
          stored - min remaining stored := by omega
      rw [hmin] at h2 h3
      rw [hsat, hall]
      refine ⟨?_, h2, h3, h4⟩
      rw [h1]
      omega
    · -- Part of the first segment goes.
      obtain ⟨-, -, hle, -, hrest⟩ := htiles.cons_inv
      have hrestle := hrest.le
      have hshort : min remaining first.bytes.length = remaining := by omega
      have hmin : min remaining stored = remaining := by omega
      obtain ⟨j, hj, -, hjle, -, -⟩ := htiles.mem
        (show (first.logical_start, first.bytes) ∈ _ from List.mem_cons_self)
      have hsat : saturatingAdd trimmed remaining = trimmed + remaining := saturatingAdd_eq (by omega)
      have hsat' : saturatingAdd first.logical_start remaining = first.logical_start + remaining :=
        saturatingAdd_eq (by omega)
      have htrim := htiles.trim (n := remaining) (by omega)
      rw [hshort, hmin, hsat, hsat']
      refine ⟨rfl, rfl, ?_, ?_⟩
      · rw [show log.length - (stored - remaining) = log.length - stored + remaining by omega]
        exact htrim
      · intro s hs
        rcases List.mem_cons.mp hs with rfl | hs
        · have := hfits first List.mem_cons_self
          simp only [List.length_drop]
          omega
        · exact hfits s (List.mem_cons_of_mem _ hs)

/-- `trim_oldest` keeps a suffix, shorter by what it reports. -/
theorem Holds.trimOldest (h : Holds max_segment_bytes log self) (hsmall : log.length < 2^64)
    (bytes : ℕ) : Holds max_segment_bytes log (self.trimOldest bytes).1 ∧
      (self.trimOldest bytes).2 = min bytes self.stored_bytes ∧
      (self.trimOldest bytes).1.stored_bytes = self.stored_bytes - min bytes self.stored_bytes := by
  have hle := h.stored_le
  obtain ⟨h1, h2, h3, h4⟩ := @trimLoop_spec _ _ _ bytes 0 _ hle hsmall (by omega) h.tiles h.fits
  have hle := h.stored_le
  refine ⟨⟨h.next_offset, ?_, ?_, h4⟩, ?_, h2⟩
  · exact le_trans (le_of_eq h2) (by omega)
  · have hstored : (self.trimOldest bytes).1.stored_bytes =
        self.stored_bytes - min bytes self.stored_bytes := h2
    rw [hstored]
    exact h3
  · rw [Nat.zero_add] at h1
    exact h1

/-! ## Reading -/

/-- What is stored is the end of the log. -/
theorem Holds.bytes_eq (h : Holds max_segment_bytes log self) :
    self.bytes = log.drop (log.length - self.stored_bytes) := by
  have hflat := h.tiles.flatten
  unfold chunks at hflat
  rw [List.map_map] at hflat
  have htake : (log.drop (log.length - self.stored_bytes)).take
      (log.length - (log.length - self.stored_bytes)) =
      log.drop (log.length - self.stored_bytes) := by
    rw [List.take_of_length_le]
    rw [List.length_drop]
  rw [htake] at hflat
  exact hflat

/-- One turn of the loop of `windows`, for a segment that starts at `i` and ends at `j`. -/
theorem windowsStep_eq (lo hi : ℕ) (state : WindowsState) {segment : ContentSegment} {i j : ℕ}
    (hstart : segment.logical_start = i) (hend : segment.logicalEnd = j) :
    windowsStep lo hi state segment =
      if min j hi ≤ max i lo then state
      else if state.current_bytes.isEmpty then
        { state with
          current_start := max i lo
          current_end := min j hi
          current_bytes := (segment.bytes.drop (max i lo - i)).take (min j hi - max i lo) }
      else if max i lo = state.current_end then
        { state with
          current_end := min j hi
          current_bytes := state.current_bytes ++
            (segment.bytes.drop (max i lo - i)).take (min j hi - max i lo) }
      else
        { windows := state.windows ++ [(state.current_start, state.current_bytes)]
          current_start := max i lo
          current_end := min j hi
          current_bytes := (segment.bytes.drop (max i lo - i)).take (min j hi - max i lo) } := by
  subst hstart hend
  rfl

/-- The turns of the loop of `windows` once a window is in progress: it grows up to the end that is asked
for. -/
theorem foldl_windowsStep_grow {segments : List ContentSegment} {i k lo hi : ℕ}
    (hsmall : k < 2^64) (hlo : lo ≤ i)
    (htiles : Tiles log 0 (segments.map fun s => (s.logical_start, s.bytes)) i k)
    (state : WindowsState) (hbytes : state.current_bytes ≠ [])
    (hend : state.current_end = min i hi) :
    segments.foldl (windowsStep lo hi) state =
      { state with
        current_end := min k hi
        current_bytes := state.current_bytes ++ (log.drop i).take (min k hi - i) } := by
  induction segments generalizing i state with
  | nil =>
    cases htiles
    simp [← hend, show state.current_end - k = 0 by omega]
  | cons s rest ih =>
    obtain ⟨hstart, hne, hle, hslice, hrest⟩ := htiles.cons_inv
    rw [Nat.zero_add] at hstart
    have hk := hrest.le
    have hpos := List.length_pos_iff.mpr hne
    have hend' : s.logicalEnd = i + s.bytes.length := by
      unfold ContentSegment.logicalEnd
      rw [hstart, saturatingAdd_eq (by omega)]
    rw [List.foldl_cons, windowsStep_eq lo hi state hstart hend', Nat.max_eq_left hlo]
    by_cases hpast : min (i + s.bytes.length) hi ≤ i
    · rw [if_pos hpast, ih (by omega) hrest state hbytes (by omega)]
      have h1 : min k hi - (i + s.bytes.length) = 0 := by omega
      have h2 : min k hi - i = 0 := by omega
      rw [h1, h2, List.take_zero, List.take_zero]
    · have hempty : state.current_bytes.isEmpty = false := by simpa using hbytes
      have hslice' := take_drop_slice (m := 0) (n := min (i + s.bytes.length) hi - i) hslice
        (by omega)
      rw [List.drop_zero, Nat.add_zero] at hslice'
      rw [if_neg hpast, hempty, if_neg (by simp), if_pos (by omega), Nat.sub_self, List.drop_zero,
        ih (by omega) hrest _ (by simp [hbytes]) rfl, hslice']
      congr 1
      rw [List.append_assoc]
      congr 1
      by_cases hmore : i + s.bytes.length ≤ hi
      · rw [show min k hi - i = (min (i + s.bytes.length) hi - i) +
          (min k hi - (i + s.bytes.length)) by omega, List.take_add, List.drop_drop]
        congr 3
        omega
      · rw [show min k hi - (i + s.bytes.length) = 0 by omega, List.take_zero, List.append_nil]
        congr 1
        omega

/-- The turns of the loop of `windows` from the beginning: at most one window is found. -/
theorem foldl_windowsStep {segments : List ContentSegment} {i k lo hi : ℕ} (hsmall : k < 2^64)
    (htiles : Tiles log 0 (segments.map fun s => (s.logical_start, s.bytes)) i k) :
    segments.foldl (windowsStep lo hi) {} =
      if max i lo < min k hi then
        { windows := []
          current_start := max i lo
          current_end := min k hi
          current_bytes := (log.drop (max i lo)).take (min k hi - max i lo) }
      else {} := by
  induction segments generalizing i with
  | nil =>
    cases htiles
    rw [if_neg (by omega)]
    rfl
  | cons s rest ih =>
    obtain ⟨hstart, hne, hle, hslice, hrest⟩ := htiles.cons_inv
    rw [Nat.zero_add] at hstart
    have hk := hrest.le
    have hpos := List.length_pos_iff.mpr hne
    have hend' : s.logicalEnd = i + s.bytes.length := by
      unfold ContentSegment.logicalEnd
      rw [hstart, saturatingAdd_eq (by omega)]
    rw [List.foldl_cons, windowsStep_eq lo hi {} hstart hend']
    by_cases hpast : min (i + s.bytes.length) hi ≤ max i lo
    · -- The segment lies before the window or after it.
      rw [if_pos hpast, ih hrest]
      by_cases hmore : max i lo < min k hi
      · rw [if_pos (by omega), if_pos hmore]
        rw [show max (i + s.bytes.length) lo = max i lo by omega]
      · rw [if_neg (by omega), if_neg hmore]
    · -- The window begins in the segment.
      rw [if_neg hpast]
      have hfirst : (s.bytes.drop (max i lo - i)).take (min (i + s.bytes.length) hi - max i lo) =
          (log.drop (max i lo)).take (min (i + s.bytes.length) hi - max i lo) := by
        rw [take_drop_slice hslice (by omega), show i + (max i lo - i) = max i lo by omega]
      have hbytes : (log.drop (max i lo)).take (min (i + s.bytes.length) hi - max i lo) ≠ [] := by
        rw [← List.length_pos_iff, List.length_take, List.length_drop]
        have := hrest.le_length (by omega)
        omega
      simp only [List.isEmpty_nil, if_true]
      rw [hfirst, foldl_windowsStep_grow hsmall (show lo ≤ i + s.bytes.length by omega) hrest _ hbytes (by
        dsimp only), if_pos (by omega)]
      congr 1
      dsimp only
      by_cases hmore : i + s.bytes.length ≤ hi
      · rw [show min k hi - max i lo = (min (i + s.bytes.length) hi - max i lo) +
          (min k hi - (i + s.bytes.length)) by omega, List.take_add, List.drop_drop]
        congr 3
        omega
      · rw [show min k hi - (i + s.bytes.length) = 0 by omega, List.take_zero, List.append_nil]
        congr 1
        omega

/-- The window of the stored bytes between two offsets: one, or none when they do not meet. -/
theorem Holds.windows_eq (h : Holds max_segment_bytes log self) (hsmall : log.length < 2^64)
    (stream_id : BitVec 64) (direction : FlowDirection) (lo hi : ℕ) :
    self.windows stream_id direction lo hi =
      if max (log.length - self.stored_bytes) lo < min log.length hi then
        [{ stream_id
           direction
           logical_start := max (log.length - self.stored_bytes) lo
           bytes := (log.drop (max (log.length - self.stored_bytes) lo)).take
             (min log.length hi - max (log.length - self.stored_bytes) lo) }]
      else [] := by
  unfold windows
  by_cases hempty : hi ≤ lo
  · rw [if_pos hempty, if_neg (by omega)]
  · rw [if_neg hempty, foldl_windowsStep hsmall h.tiles]
    by_cases hmeet : max (log.length - self.stored_bytes) lo < min log.length hi
    · rw [if_pos hmeet, if_pos hmeet]
      have hne : ((log.drop (max (log.length - self.stored_bytes) lo)).take
          (min log.length hi - max (log.length - self.stored_bytes) lo)).isEmpty = false := by
        rw [List.isEmpty_eq_false_iff, ← List.length_pos_iff, List.length_take, List.length_drop]
        omega
      simp [hne]
    · rw [if_neg hmeet, if_neg hmeet]
      simp

end DirectionContent

end Rustmate.Content
