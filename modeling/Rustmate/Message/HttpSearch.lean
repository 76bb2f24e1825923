import Rustmate.Lib.Occurrences
import Rustmate.Message.HttpBody

/-!
# What the searches find

The searches of the HTTP/1 parser when there are more bytes or fewer: what they found in some bytes and what
lies in a beginning of them is found there too.
-/

namespace Rustmate.Message

variable {b c : List UInt8}

/-! ## Patterns -/

/-- A pattern at the front of what is left is an occurrence. -/
theorem isPrefixOf_drop_iff (pattern bytes : List UInt8) (i : ℕ) :
    pattern.isPrefixOf (bytes.drop i) = true ∧ i + pattern.length ≤ bytes.length ↔
      Occurs pattern bytes i (i + pattern.length) := by
  unfold Occurs
  rw [List.isPrefixOf_iff_prefix, List.prefix_iff_eq_take]
  constructor
  · rintro ⟨heq, hle⟩
    exact ⟨rfl, hle, heq.symm⟩
  · rintro ⟨-, hle, heq⟩
    exact ⟨heq.symm, hle⟩

/-- What the search for a pattern finds: its first occurrence. -/
theorem findBytes_eq_some {pattern bytes : List UInt8} {i : ℕ} :
    findBytes pattern bytes = some i ↔ Occurs pattern bytes i (i + pattern.length) ∧
      ∀ j < i, ¬ Occurs pattern bytes j (j + pattern.length) := by
  unfold findBytes
  rw [List.find?_range_eq_some]
  constructor
  · rintro ⟨hpre, hmem, hfirst⟩
    rw [List.mem_range] at hmem
    refine ⟨(isPrefixOf_drop_iff pattern bytes i).mp ⟨hpre, by omega⟩, fun j hj hoccurs => ?_⟩
    have := ((isPrefixOf_drop_iff pattern bytes j).mpr hoccurs).1
    simpa [this] using hfirst j hj
  · rintro ⟨hoccurs, hfirst⟩
    obtain ⟨hpre, hle⟩ := (isPrefixOf_drop_iff pattern bytes i).mpr hoccurs
    refine ⟨hpre, List.mem_range.mpr (by omega), fun j hj => ?_⟩
    by_contra hpre
    exact hfirst j hj ((isPrefixOf_drop_iff pattern bytes j).mp ⟨by simpa using hpre, by omega⟩)

/-- It finds nothing when there is no occurrence. -/
theorem findBytes_eq_none {pattern bytes : List UInt8} :
    findBytes pattern bytes = none ↔ ∀ j, ¬ Occurs pattern bytes j (j + pattern.length) := by
  unfold findBytes
  rw [List.find?_eq_none]
  constructor
  · intro h j hoccurs
    obtain ⟨hpre, hle⟩ := (isPrefixOf_drop_iff pattern bytes j).mpr hoccurs
    exact h j (List.mem_range.mpr (by omega)) hpre
  · intro h j hj hpre
    rw [List.mem_range] at hj
    exact h j ((isPrefixOf_drop_iff pattern bytes j).mp ⟨hpre, by omega⟩)

/-- What is found lies within the bytes. -/
theorem findBytes_le {pattern bytes : List UInt8} {i : ℕ} (h : findBytes pattern bytes = some i) :
    i + pattern.length ≤ bytes.length := (findBytes_eq_some.mp h).1.2.1

/-- More bytes leave the first occurrence where it is. -/
theorem findBytes_append {pattern : List UInt8} {i : ℕ} (h : findBytes pattern b = some i) :
    findBytes pattern (b ++ c) = some i := by
  obtain ⟨hoccurs, hfirst⟩ := findBytes_eq_some.mp h
  have hle := hoccurs.2.1
  refine findBytes_eq_some.mpr ⟨(occurs_append hle).mpr hoccurs, fun j hj hj' => hfirst j hj ?_⟩
  exact (occurs_append (by omega)).mp hj'

/-- An occurrence in the first bytes is found without the others. -/
theorem findBytes_of_append {pattern : List UInt8} {i : ℕ}
    (h : findBytes pattern (b ++ c) = some i) (hle : i + pattern.length ≤ b.length) :
    findBytes pattern b = some i := by
  obtain ⟨hoccurs, hfirst⟩ := findBytes_eq_some.mp h
  refine findBytes_eq_some.mpr ⟨(occurs_append hle).mp hoccurs, fun j hj hj' => hfirst j hj ?_⟩
  exact (occurs_append (by omega)).mpr hj'

/-- What does not occur in the bytes does not occur in the first of them. -/
theorem findBytes_none_of_append {pattern : List UInt8} (h : findBytes pattern (b ++ c) = none) :
    findBytes pattern b = none := by
  rw [findBytes_eq_none] at h ⊢
  exact fun j hoccurs => h j ((occurs_append hoccurs.2.1).mpr hoccurs)

/-! ## Heads and lines -/

variable {first second bytes : List UInt8} {len total : ℕ}

/-- What is found lies within the bytes. -/
theorem findEnd_le (h : findEnd first second bytes = some (len, total)) :
    len ≤ total ∧ total ≤ bytes.length := by
  unfold findEnd at h
  cases hfirst : findBytes first bytes with
  | some pos =>
    simp only [hfirst, Option.some.injEq, Prod.mk.injEq] at h
    have := findBytes_le hfirst
    omega
  | none =>
    simp only [hfirst, Option.map_eq_some_iff, Prod.mk.injEq] at h
    obtain ⟨pos, hsecond, hlen, htotal⟩ := h
    have := findBytes_le hsecond
    omega

/-- What is found takes a byte, if both patterns do. -/
theorem findEnd_pos (hfirst : first ≠ []) (hsecond : second ≠ [])
    (h : findEnd first second bytes = some (len, total)) : len < total := by
  have h₁ := List.length_pos_iff.mpr hfirst
  have h₂ := List.length_pos_iff.mpr hsecond
  unfold findEnd at h
  split at h
  · simp only [Option.some.injEq, Prod.mk.injEq] at h
    omega
  · simp only [Option.map_eq_some_iff, Prod.mk.injEq] at h
    obtain ⟨pos, -, hlen, htotal⟩ := h
    omega

/-- What is found in the first bytes is found without the others. -/
theorem findEnd_of_append (h : findEnd first second (b ++ c) = some (len, total))
    (hle : total ≤ b.length) : findEnd first second b = some (len, total) := by
  unfold findEnd at h ⊢
  cases hwhole : findBytes first (b ++ c) with
  | some pos =>
    simp only [hwhole, Option.some.injEq, Prod.mk.injEq] at h
    rw [findBytes_of_append hwhole (by omega)]
    simp only [Option.some.injEq, Prod.mk.injEq]
    exact h
  | none =>
    simp only [hwhole, Option.map_eq_some_iff, Prod.mk.injEq] at h
    obtain ⟨pos, hsecond, hlen, htotal⟩ := h
    rw [findBytes_none_of_append hwhole]
    simp only [Option.map_eq_some_iff, Prod.mk.injEq]
    exact ⟨pos, findBytes_of_append hsecond (by omega), hlen, htotal⟩

/-- Nothing is found where the last byte of both patterns is not. -/
theorem findEnd_eq_none {x : UInt8} (hfirst : x ∈ first) (hsecond : x ∈ second) (hx : x ∉ bytes) :
    findEnd first second bytes = none := by
  have hnone : ∀ pattern : List UInt8, x ∈ pattern → findBytes pattern bytes = none := by
    intro pattern hpattern
    refine findBytes_eq_none.mpr fun j hoccurs => hx ?_
    rw [← hoccurs.2.2] at hpattern
    exact List.mem_of_mem_drop (List.mem_of_mem_take hpattern)
  unfold findEnd
  rw [hnone first hfirst, hnone second hsecond]
  rfl

/-! ## Chunked bodies -/

/-- A pattern that fits in the first bytes is at their front when it is at the front of all. -/
theorem isPrefixOf_append_iff {pattern : List UInt8} (h : pattern.length ≤ b.length) :
    pattern.isPrefixOf (b ++ c) = pattern.isPrefixOf b := by
  rw [Bool.eq_iff_iff, List.isPrefixOf_iff_prefix, List.isPrefixOf_iff_prefix]
  exact ⟨fun hp => List.prefix_of_prefix_length_le hp (List.prefix_append b c) h,
    fun hp => hp.trans (List.prefix_append b c)⟩

/-- A pattern at the front of the first bytes is at the front of all. -/
theorem isPrefixOf_append {pattern : List UInt8} (h : pattern.isPrefixOf b = true) :
    pattern.isPrefixOf (b ++ c) = true := by
  rw [List.isPrefixOf_iff_prefix] at h ⊢
  exact h.trans (List.prefix_append b c)

/-- A pattern at the front takes its length. -/
theorem length_le_of_isPrefixOf {pattern : List UInt8} (h : pattern.isPrefixOf b = true) :
    pattern.length ≤ b.length := (List.isPrefixOf_iff_prefix.mp h).length_le

variable {body : List UInt8} {position decoded_bytes chunks fuel : ℕ} {info : ChunkedBodyInfo}

/-- The trailer lies within the body. -/
theorem chunkedTrailer_le
    (h : chunkedTrailer body position decoded_bytes chunks = .complete info) :
    position ≤ info.wire_bytes ∧ (position ≤ body.length → info.wire_bytes ≤ body.length) := by
  unfold chunkedTrailer at h
  dsimp only at h
  have hpre : ∀ pattern : List UInt8, pattern.isPrefixOf (body.drop position) = true →
      pattern.length ≤ body.length - position := by
    intro pattern hpattern
    have := length_le_of_isPrefixOf hpattern
    rwa [List.length_drop] at this
  split_ifs at h with hcrlf hlf
  · have := hpre _ hcrlf
    rw [← ChunkedBodyEnd.complete.inj h]
    simp only [List.length_cons, List.length_nil] at this
    exact ⟨by dsimp only; omega, fun _ => by dsimp only; omega⟩
  · have := hpre _ hlf
    rw [← ChunkedBodyEnd.complete.inj h]
    simp only [List.length_cons, List.length_nil] at this
    exact ⟨by dsimp only; omega, fun _ => by dsimp only; omega⟩
  · cases hend : findHeaderEnd (body.drop position) with
    | none => simp [hend] at h
    | some found =>
      obtain ⟨len, finish⟩ := found
      simp only [hend] at h
      have := findEnd_le hend
      rw [List.length_drop] at this
      rw [← ChunkedBodyEnd.complete.inj h]
      exact ⟨by dsimp only; omega, fun _ => by dsimp only; omega⟩

/-- One turn of the loop that goes on or completes: a line, and what follows it. -/
theorem chunkedLoop_complete_cases
    (h : chunkedLoop body (fuel + 1) position decoded_bytes chunks = .complete info) :
    ∃ line_len line_total_len size, findLineEnd (body.drop position) = some (line_len, line_total_len) ∧
      chunkSize ((body.drop position).take line_len) = .ok size ∧
      ((size = 0 ∧
          chunkedTrailer body (position + line_total_len) decoded_bytes chunks = .complete info) ∨
        ∃ newline, (newline = [13, 10] ∨ (newline = [10] ∧
            [13, 10].isPrefixOf (body.drop (position + line_total_len + size)) = false)) ∧
          newline.isPrefixOf (body.drop (position + line_total_len + size)) = true ∧
          size ≠ 0 ∧
          chunkedLoop body fuel (position + line_total_len + size + newline.length)
            (saturatingAdd decoded_bytes size) (saturatingAdd chunks 1) = .complete info) := by
  unfold chunkedLoop at h
  cases hline : findLineEnd (body.drop position) with
  | none => simp [hline] at h
  | some found =>
    obtain ⟨line_len, line_total_len⟩ := found
    simp only [hline] at h
    cases hsize : chunkSize ((body.drop position).take line_len) with
    | error reason => simp [hsize] at h
    | ok size =>
      simp only [hsize] at h
      refine ⟨line_len, line_total_len, size, rfl, hsize, ?_⟩
      split_ifs at h with hzero hshort hend hcrlf hlf
      · exact .inl ⟨hzero, h⟩
      · exact .inr ⟨[13, 10], .inl rfl, hcrlf, hzero, h⟩
      · exact .inr ⟨[10], .inr ⟨rfl, eq_false_of_ne_true hcrlf⟩, hlf, hzero, h⟩

/-- A complete body lies within the bytes. -/
theorem chunkedLoop_le
    (h : chunkedLoop body fuel position decoded_bytes chunks = .complete info) :
    position ≤ info.wire_bytes ∧ (position ≤ body.length → info.wire_bytes ≤ body.length) := by
  induction fuel generalizing position decoded_bytes chunks with
  | zero => simp [chunkedLoop] at h
  | succ fuel ih =>
    obtain ⟨line_len, line_total_len, size, hline, -, ⟨-, htrailer⟩ |
      ⟨newline, hchoice, hnewline, -, hrest⟩⟩ := chunkedLoop_complete_cases h
    · have hle := findEnd_le hline
      rw [List.length_drop] at hle
      have := chunkedTrailer_le htrailer
      exact ⟨by omega, fun hpos => this.2 (by omega)⟩
    · have hle := findEnd_le hline
      have hfits := length_le_of_isPrefixOf hnewline
      rw [List.length_drop] at hle hfits
      have := ih hrest
      have hpos : 0 < newline.length := by
        rcases hchoice with rfl | ⟨rfl, -⟩ <;> simp
      exact ⟨by omega, fun hpos => this.2 (by omega)⟩

/-- The trailer of a body that lies in the first bytes. -/
theorem chunkedTrailer_of_append
    (h : chunkedTrailer (b ++ c) position decoded_bytes chunks = .complete info)
    (hle : info.wire_bytes ≤ b.length) :
    chunkedTrailer b position decoded_bytes chunks = .complete info := by
  have hpos := (chunkedTrailer_le h).1
  unfold chunkedTrailer at h ⊢
  rw [List.drop_append_of_le_length (by omega)] at h
  dsimp only at h ⊢
  by_cases hcrlf : [13, 10].isPrefixOf (b.drop position ++ c) = true
  · rw [if_pos hcrlf] at h
    have hwire := congrArg ChunkedBodyInfo.wire_bytes (ChunkedBodyEnd.complete.inj h)
    dsimp only at hwire
    rw [isPrefixOf_append_iff (by rw [List.length_drop]; simp; omega)] at hcrlf
    rw [if_pos hcrlf]
    exact h
  · rw [if_neg hcrlf] at h
    rw [if_neg fun hp => hcrlf (isPrefixOf_append hp)]
    by_cases hlf : [10].isPrefixOf (b.drop position ++ c) = true
    · rw [if_pos hlf] at h
      have hwire := congrArg ChunkedBodyInfo.wire_bytes (ChunkedBodyEnd.complete.inj h)
      dsimp only at hwire
      rw [isPrefixOf_append_iff (by rw [List.length_drop]; simp; omega)] at hlf
      rw [if_pos hlf]
      exact h
    · rw [if_neg hlf] at h
      rw [if_neg fun hp => hlf (isPrefixOf_append hp)]
      cases hend : findHeaderEnd (b.drop position ++ c) with
      | none => simp [hend] at h
      | some found =>
        obtain ⟨len, finish⟩ := found
        simp only [hend] at h
        have hwire := congrArg ChunkedBodyInfo.wire_bytes (ChunkedBodyEnd.complete.inj h)
        dsimp only at hwire
        unfold findHeaderEnd at hend ⊢
        rw [findEnd_of_append hend (by rw [List.length_drop]; omega)]
        exact h

/-- A complete body that lies in the first bytes is found without the others. -/
theorem chunkedLoop_of_append {fuel' : ℕ}
    (h : chunkedLoop (b ++ c) fuel position decoded_bytes chunks = .complete info)
    (hle : info.wire_bytes ≤ b.length) (hfuel : b.length < position + fuel') :
    chunkedLoop b fuel' position decoded_bytes chunks = .complete info := by
  induction fuel generalizing fuel' position decoded_bytes chunks with
  | zero => simp [chunkedLoop] at h
  | succ fuel ih =>
    have hpos := (chunkedLoop_le h).1
    obtain ⟨fuel', rfl⟩ : ∃ n, fuel' = n + 1 := ⟨fuel' - 1, by omega⟩
    obtain ⟨line_len, line_total_len, size, hline, hsize, hcases⟩ := chunkedLoop_complete_cases h
    rw [List.drop_append_of_le_length (by omega)] at hline hsize
    -- The line lies in the first bytes, as what follows it does.
    have hnext : position + line_total_len ≤ info.wire_bytes := by
      rcases hcases with ⟨-, htrailer⟩ | ⟨newline, -, -, -, hrest⟩
      · exact (chunkedTrailer_le htrailer).1
      · have := (chunkedLoop_le hrest).1
        omega
    unfold findLineEnd at hline
    have hline' := findEnd_of_append hline (by rw [List.length_drop]; omega)
    have hlen := findEnd_le hline'
    rw [List.take_append_of_le_length (by omega)] at hsize
    unfold chunkedLoop findLineEnd
    simp only [hline', hsize]
    rcases hcases with ⟨hzero, htrailer⟩ | ⟨newline, hchoice, hnewline, hzero, hrest⟩
    · rw [if_pos hzero]
      exact chunkedTrailer_of_append htrailer hle
    · have hrestLe := (chunkedLoop_le hrest).1
      have hnpos : 0 < newline.length := by
        rcases hchoice with rfl | ⟨rfl, -⟩ <;> simp
      have hsat₁ := saturatingAdd_le (position + line_total_len) size
      have hsat₂ := saturatingAdd_le (position + line_total_len + size) 1
      rw [if_neg hzero, if_neg (by omega), if_neg (by omega)]
      rw [List.drop_append_of_le_length (by omega)] at hnewline hchoice
      rw [isPrefixOf_append_iff (by rw [List.length_drop]; omega)] at hnewline
      have hrest' : chunkedLoop b fuel' (position + line_total_len + size + newline.length)
          (saturatingAdd decoded_bytes size) (saturatingAdd chunks 1) = .complete info :=
        ih hrest (by omega)
      rcases hchoice with rfl | ⟨rfl, hnot⟩
      · rw [if_pos hnewline]
        exact hrest'
      · rw [if_neg, if_pos hnewline]
        · exact hrest'
        · intro hcrlf
          rw [isPrefixOf_append hcrlf] at hnot
          exact absurd hnot (by simp)

/-- The end of a complete chunked body. -/
theorem findChunkedBodyEnd_le (h : findChunkedBodyEnd body = .complete info) :
    0 < info.wire_bytes ∧ info.wire_bytes ≤ body.length := by
  unfold findChunkedBodyEnd at h
  have hle := (chunkedLoop_le h).2 (Nat.zero_le _)
  obtain ⟨line_len, line_total_len, size, hline, -, hcases⟩ := chunkedLoop_complete_cases h
  have hpos := findEnd_pos (by simp) (by simp) hline
  rcases hcases with ⟨-, htrailer⟩ | ⟨newline, -, -, -, hrest⟩
  · have := (chunkedTrailer_le htrailer).1
    omega
  · have := (chunkedLoop_le hrest).1
    omega

/-- A complete chunked body that lies in the first bytes is found without the others. -/
theorem findChunkedBodyEnd_of_append (h : findChunkedBodyEnd (b ++ c) = .complete info)
    (hle : info.wire_bytes ≤ b.length) : findChunkedBodyEnd b = .complete info :=
  chunkedLoop_of_append h hle (by omega)

end Rustmate.Message
