import Rustmate.Content.Suffix
import Rustmate.Pattern.Scan

/-!
# Which matches an update contributes

The matches that one update contributes end within what it appended, and when nothing was trimmed those of a
literal pattern are all its occurrences that end there: the bytes before the new range reach back far enough.
-/

namespace Rustmate.Pattern

open Content

variable {lib : MatchLibrary} {definitions : List PatternDefinition}
  {config : PatternEngineConfig lib} {content : StreamContent} {key : FlowKey}

/-- The match of a candidate, below the largest offset. -/
theorem matchKey_eq_some {window : StreamContentWindow} {new_range : NewRange} {c : CandidateMatch}
    (hle : c.start ≤ c.stop) (hsmall : window.logical_start + c.stop < 2^64) (k : MatchKey) :
    PatternEngine.matchKey window new_range c = some k ↔
      c.start ≠ c.stop ∧ window.logical_start + c.start < new_range.stop ∧
        new_range.start < window.logical_start + c.stop ∧
        k = ⟨c.pattern_index, window.stream_id, window.direction, window.logical_start + c.start,
          window.logical_start + c.stop⟩ := by
  unfold PatternEngine.matchKey
  rw [saturatingAdd_eq (show window.logical_start + c.start < 2^64 by omega), saturatingAdd_eq hsmall]
  dsimp only
  by_cases hempty : c.start = c.stop
  · simp [hempty]
  rw [if_neg hempty]
  by_cases htouch : new_range.stop ≤ window.logical_start + c.start ∨
      window.logical_start + c.stop ≤ new_range.start
  · rw [if_pos (by simpa using htouch)]
    constructor
    · intro h
      exact absurd h (by simp)
    · rintro ⟨-, h1, h2, -⟩
      omega
  · rw [if_neg (by simpa using htouch), Option.some.injEq]
    refine ⟨fun h => ⟨hempty, by omega, by omega, h.symm⟩, fun h => h.2.2.2.symm⟩

/-- The windows of a stored stream: at most one, with the bytes of the log. -/
theorem directionWindows_eq {logs : FlowKey → Log} (hholds : content.Holds logs)
    {record : ContentRecord} (hrecord : content.streams.lookup key = some record)
    (d : FlowDirection) (hsmall : ((logs key).get d).length < 2^64) (lo hi : ℕ) :
    content.directionWindows key d lo hi =
      some (if max (((logs key).get d).length - (record.directions.get d).stored_bytes) lo <
          min ((logs key).get d).length hi then
        [⟨key.stableId, d, max (((logs key).get d).length - (record.directions.get d).stored_bytes) lo,
          (((logs key).get d).drop
            (max (((logs key).get d).length - (record.directions.get d).stored_bytes) lo)).take
            (min ((logs key).get d).length hi -
              max (((logs key).get d).length - (record.directions.get d).stored_bytes) lo)⟩]
      else []) := by
  obtain ⟨hid, h⟩ := hholds key record hrecord
  unfold StreamContent.directionWindows
  rw [hrecord, Option.map_some, (h d hsmall).windows_eq hsmall, hid]

/-- The matches of a window that begins at `lo` and ends at the end of the new range. -/
theorem windowMeets_bounds (hfrom : CompiledFrom definitions config)
    (hreports : lib.ReportsOccurrences) (hwithin : lib.MatchesWithin) (new_range : NewRange)
    {log : List UInt8} {stream_id : BitVec 64} {d : FlowDirection} {lo : ℕ}
    (hstop : new_range.stop ≤ log.length) (hlo : lo < new_range.stop) (hsmall : log.length < 2^64)
    {k : MatchKey}
    (h : WindowMeets config.set new_range
      ⟨stream_id, d, lo, (log.drop lo).take (new_range.stop - lo)⟩ k) :
    k.stream_id = stream_id ∧ k.direction = d ∧ new_range.start < k.stop ∧ k.stop ≤ new_range.stop ∧
      k.pattern_index < definitions.length := by
  obtain ⟨c, hc, hkey⟩ := h
  obtain ⟨hle, hlen, hindex⟩ := hfrom.within hreports hwithin _ c hc
  dsimp only at hlen
  rw [List.length_take, List.length_drop] at hlen
  obtain ⟨-, -, hnew, rfl⟩ := (matchKey_eq_some hle (by dsimp only; omega) k).mp hkey
  exact ⟨rfl, rfl, hnew, by dsimp only; omega, hindex⟩

/-- What a window contributes of a literal pattern are occurrences that end in the new range, wherever the window
begins. -/
theorem windowMeets_occurs (hfrom : CompiledFrom definitions config)
    (hreports : lib.ReportsOccurrences) (new_range : NewRange) (stream_id : BitVec 64)
    (d : FlowDirection) {log : List UInt8} {lo p s e : ℕ} {needle : List UInt8}
    (hneedle : definitions[p]?.bind PatternDefinition.needle = some needle)
    (hstop : new_range.stop ≤ log.length) (hlo : lo < new_range.stop) (hsmall : log.length < 2^64)
    (h : WindowMeets config.set new_range ⟨stream_id, d, lo, (log.drop lo).take (new_range.stop - lo)⟩
        ⟨p, stream_id, d, s, e⟩) :
    Occurs needle log s e ∧ new_range.start < e ∧ e ≤ new_range.stop := by
  obtain ⟨c, hc, hkey⟩ := h
  by_cases hp : c.pattern_index = p
  · subst hp
    have hoccurs := (hfrom.candidates hreports c.pattern_index needle hneedle _ c.start c.stop).mp hc
    dsimp only at hoccurs
    rw [occurs_window (le_of_lt hlo) hstop] at hoccurs
    obtain ⟨hoccurs, hwin⟩ := hoccurs
    have hlen := hoccurs.1
    obtain ⟨-, -, hnew, hk⟩ :=
      (matchKey_eq_some (by omega) (by dsimp only; omega) _).mp hkey
    dsimp only at hnew hk
    injection hk with _ _ _ hs he
    subst hs he
    exact ⟨hoccurs, hnew, hwin⟩
  · exfalso
    unfold PatternEngine.matchKey at hkey
    dsimp only at hkey
    split_ifs at hkey
    exact hp (congrArg MatchKey.pattern_index (Option.some.inj hkey))

/-- The occurrences of a literal pattern that such a window contributes: those that end in the new range, if
the window reaches back far enough. -/
theorem windowMeets_literal (hfrom : CompiledFrom definitions config)
    (hreports : lib.ReportsOccurrences) (new_range : NewRange) (stream_id : BitVec 64)
    (d : FlowDirection) {log : List UInt8} {lo p s e : ℕ} {needle : List UInt8}
    (hneedle : definitions[p]?.bind PatternDefinition.needle = some needle)
    (hstop : new_range.stop ≤ log.length) (hlo : lo < new_range.stop) (hsmall : log.length < 2^64)
    (hback : lo + needle.length ≤ new_range.start + 1 ∨ lo = 0) :
    WindowMeets config.set new_range ⟨stream_id, d, lo, (log.drop lo).take (new_range.stop - lo)⟩
        ⟨p, stream_id, d, s, e⟩ ↔
      Occurs needle log s e ∧ new_range.start < e ∧ e ≤ new_range.stop := by
  obtain ⟨hne, -⟩ := hfrom.bounded p needle hneedle
  have hpos := List.length_pos_iff.mpr hne
  refine ⟨windowMeets_occurs hfrom hreports new_range stream_id d hneedle hstop hlo hsmall, ?_⟩
  rintro ⟨hoccurs, hnew, hwin⟩
  have hlen := hoccurs.1
  obtain ⟨a, rfl⟩ : ∃ a, s = lo + a := ⟨s - lo, by omega⟩
  obtain ⟨b, rfl⟩ : ∃ b, e = lo + b := ⟨e - lo, by omega⟩
  refine ⟨⟨p, a, b⟩, (hfrom.candidates hreports p needle hneedle _ a b).mpr
    ((occurs_window (le_of_lt hlo) hstop).mpr ⟨hoccurs, hwin⟩), ?_⟩
  refine (matchKey_eq_some (by dsimp only; omega) (by dsimp only; omega) _).mpr
    ⟨by dsimp only; omega, by dsimp only; omega, by dsimp only; omega, rfl⟩

variable {logs : FlowKey → Log} {before : Log} {update : StreamContentUpdate}

/-- The ranges of an update, one direction of them. -/
theorem Covers.range {stream_id : BitVec 64} {after : Log} {ranges : List StreamContentRange}
    (h : Covers stream_id before after ranges) {range : StreamContentRange} (hmem : range ∈ ranges)
    (hsmall : (after.get range.direction).length < 2^64) :
    (before.get range.direction).length ≤ range.logical_start ∧
      range.logical_start < range.logical_end ∧
      range.logical_end ≤ (after.get range.direction).length :=
  (h range.direction hsmall).bounds range (by simpa using hmem)

/-- A match that an update contributes belongs to its stream and ends within what was appended. -/
theorem updateMeets_bounds (hfrom : CompiledFrom definitions config)
    (hreports : lib.ReportsOccurrences) (hwithin : lib.MatchesWithin) (hholds : content.Holds logs)
    (hkey : update.key = key) (hcovers : Covers key.stableId before (logs key) update.ranges)
    (hsmall : ∀ d, ((logs key).get d).length < 2^64) {k : MatchKey}
    (h : UpdateMeets config content update k) :
    k.stream_id = key.stableId ∧ (before.get k.direction).length < k.stop ∧
      k.stop ≤ ((logs key).get k.direction).length ∧ k.pattern_index < definitions.length := by
  obtain ⟨range, hrange, windows, hwindows, window, hwindow, hmeets⟩ := h
  rw [hkey] at hwindows
  obtain ⟨hfirst, hlt, hlast⟩ := Covers.range hcovers hrange (hsmall _)
  cases hrecord : content.streams.lookup key with
  | none =>
    unfold StreamContent.directionWindows at hwindows
    simp [hrecord] at hwindows
  | some record =>
    rw [directionWindows_eq hholds hrecord _ (hsmall _), Nat.min_eq_right hlast] at hwindows
    rw [← Option.some.inj hwindows] at hwindow
    split_ifs at hwindow with hmeet
    · rw [List.mem_singleton.mp hwindow] at hmeets
      obtain ⟨hid, hdir, hnew, hwin, hindex⟩ := windowMeets_bounds hfrom hreports hwithin
        ⟨range.logical_start, range.logical_end⟩ hlast hmeet (hsmall _) hmeets
      rw [hdir]
      dsimp only at hnew hwin
      exact ⟨hid, by omega, by omega, hindex⟩
    · simp at hwindow

/-- A match of a literal pattern that an update contributes is an occurrence in the stream, whatever was
trimmed. -/
theorem updateMeets_occurs (hfrom : CompiledFrom definitions config)
    (hreports : lib.ReportsOccurrences) (hholds : content.Holds logs)
    (hkey : update.key = key) (hcovers : Covers key.stableId before (logs key) update.ranges)
    (hsmall : ∀ d, ((logs key).get d).length < 2^64) {p : ℕ} {needle : List UInt8}
    (hneedle : definitions[p]?.bind PatternDefinition.needle = some needle) {d : FlowDirection} {s e : ℕ}
    (h : UpdateMeets config content update ⟨p, key.stableId, d, s, e⟩) :
    Occurs needle ((logs key).get d) s e := by
  obtain ⟨range, hrange, windows, hwindows, window, hwindow, c, hc, hmatch⟩ := h
  rw [hkey] at hwindows
  obtain ⟨-, hlt, hlast⟩ := Covers.range hcovers hrange (hsmall _)
  cases hrecord : content.streams.lookup key with
  | none =>
    unfold StreamContent.directionWindows at hwindows
    simp [hrecord] at hwindows
  | some record =>
    rw [directionWindows_eq hholds hrecord _ (hsmall _), Nat.min_eq_right hlast] at hwindows
    rw [← Option.some.inj hwindows] at hwindow
    split_ifs at hwindow with hmeet
    · rw [List.mem_singleton.mp hwindow] at hc hmatch
      -- the match has the direction of its range
      have hd : range.direction = d := by
        unfold PatternEngine.matchKey at hmatch
        dsimp only at hmatch
        split_ifs at hmatch
        exact congrArg MatchKey.direction (Option.some.inj hmatch)
      subst hd
      exact (windowMeets_occurs hfrom hreports ⟨range.logical_start, range.logical_end⟩ key.stableId range.direction
        hneedle hlast hmeet (hsmall _) ⟨c, hc, hmatch⟩).1
    · simp at hwindow

/-- When nothing was trimmed, an update contributes all occurrences of a literal pattern that end within
what was appended, and no others. -/
theorem updateMeets_literal (hfrom : CompiledFrom definitions config)
    (hreports : lib.ReportsOccurrences) (hholds : content.Holds logs)
    (hkey : update.key = key) (hcovers : Covers key.stableId before (logs key) update.ranges)
    (hsmall : ∀ d, ((logs key).get d).length < 2^64) {record : ContentRecord}
    (hrecord : content.streams.lookup key = some record)
    (hwhole : ∀ d, (record.directions.get d).stored_bytes = ((logs key).get d).length)
    {p : ℕ} {needle : List UInt8}
    (hneedle : definitions[p]?.bind PatternDefinition.needle = some needle) (d : FlowDirection)
    (s e : ℕ) :
    UpdateMeets config content update ⟨p, key.stableId, d, s, e⟩ ↔
      Occurs needle ((logs key).get d) s e ∧ (before.get d).length < e := by
  obtain ⟨hne, hlen⟩ := hfrom.bounded p needle hneedle
  have hpos := List.length_pos_iff.mpr hne
  -- What one range contributes.
  have hone : ∀ range ∈ update.ranges, RangeMeets config content key range ⟨p, key.stableId, d, s, e⟩ ↔
      range.direction = d ∧ Occurs needle ((logs key).get d) s e ∧ range.logical_start < e ∧
        e ≤ range.logical_end := by
    intro range hrange
    obtain ⟨hfirst, hlt, hlast⟩ := Covers.range hcovers hrange (hsmall _)
    have hwindows := directionWindows_eq hholds hrecord range.direction (hsmall _)
      (range.logical_start - config.lookbehindBytes) range.logical_end
    rw [hwhole, Nat.sub_self, Nat.zero_max, Nat.min_eq_right hlast,
      if_pos (show range.logical_start - config.lookbehindBytes < range.logical_end by omega)]
      at hwindows
    have hback : range.logical_start - config.lookbehindBytes + needle.length ≤
        range.logical_start + 1 ∨ range.logical_start - config.lookbehindBytes = 0 := by
      unfold PatternEngineConfig.lookbehindBytes
      omega
    unfold RangeMeets
    rw [hwindows]
    by_cases hd : range.direction = d
    · subst hd
      rw [← windowMeets_literal hfrom hreports ⟨range.logical_start, range.logical_end⟩ key.stableId
        range.direction hneedle hlast (by dsimp only; omega)
        (hsmall _) hback]
      simp
    · refine ⟨?_, fun h => absurd h.1 hd⟩
      rintro ⟨windows, hw, window, hwindow, c, -, hc⟩
      rw [← Option.some.inj hw, List.mem_singleton] at hwindow
      rw [hwindow] at hc
      unfold PatternEngine.matchKey at hc
      dsimp only at hc
      split_ifs at hc
      exact absurd (congrArg MatchKey.direction (Option.some.inj hc)) hd
  unfold UpdateMeets
  rw [hkey]
  constructor
  · rintro ⟨range, hrange, hmeets⟩
    obtain ⟨rfl, hoccurs, hstart, -⟩ := (hone range hrange).mp hmeets
    have := (Covers.range hcovers hrange (hsmall _)).1
    exact ⟨hoccurs, by omega⟩
  · rintro ⟨hoccurs, hnew⟩
    obtain ⟨range, hrange, hstart, hstop⟩ := (hcovers d (hsmall d)).exists_mem hnew hoccurs.2.1
    rw [List.mem_filter] at hrange
    exact ⟨range, hrange.1, (hone range hrange.1).mpr
      ⟨by simpa using hrange.2, hoccurs, hstart, hstop⟩⟩

end Rustmate.Pattern
