import Rustmate.Machine
import Rustmate.Lib.Reader
import Rustmate.Message.Text

/-!
# Outcomes of transforms

The data of `src/stream_transform.rs`, and how what a decompressor reads is limited. The decompressors are those
of `flate2`, outside the repository: a decompressor is a reader over the bytes that it is given.
-/

namespace Rustmate.Transform

open Message (Text)

inductive StreamTransformMode where
  | auto
  | urlDecode
  | gzip
  | httpChunked
  | httpGzip
  | webSocketDeflate
  deriving DecidableEq, Repr

inductive StreamTransformApplied where
  | urlDecode
  | gzip
  | httpChunked
  | httpGzip
  | webSocketDeflate
  | none
  deriving DecidableEq, Repr

inductive StreamTransformStatus where
  | applied
  | noop
  | failed
  deriving DecidableEq, Repr

/-- What one transform makes of some bytes. -/
structure TransformOutcome where
  applied : StreamTransformApplied
  status : StreamTransformStatus
  bytes : List UInt8
  truncated_by_limit : Bool
  notes : List Text
  deriving DecidableEq, Repr

namespace TransformOutcome

/-- `TransformOutcome::noop`. -/
def noop (note : Text) : TransformOutcome := ⟨.none, .noop, [], false, [note]⟩

/-- `TransformOutcome::failed`. -/
def failed (note : Text) : TransformOutcome := ⟨.none, .failed, [], false, [note]⟩

/-- `TransformOutcome::map_applied`. -/
def mapApplied (self : TransformOutcome) (applied : StreamTransformApplied) : TransformOutcome :=
  if self.status = .applied then { self with applied } else self

/-- A transform that is not applied has no bytes, and nothing is cut from it. -/
structure Idle (outcome : TransformOutcome) : Prop where
  status : outcome.status ≠ .applied
  applied : outcome.applied = .none
  bytes : outcome.bytes = []
  truncated_by_limit : outcome.truncated_by_limit = false

theorem noop_idle (note : Text) : (noop note).Idle := ⟨nofun, rfl, rfl, rfl⟩

theorem failed_idle (note : Text) : (failed note).Idle := ⟨nofun, rfl, rfl, rfl⟩

end TransformOutcome

/-! ## Decompressors -/

/-- An `io::Error`: whether its kind is `UnexpectedEof`, and its text. -/
structure ReadError where
  unexpected_eof : Bool
  text : Text
  deriving DecidableEq, Repr

/-- A decompressor: what it starts from on some bytes, and how it is read. -/
structure Decoder where
  State : Type
  new : List UInt8 → State
  reader : Reader UInt8 State ReadError

structure LimitedRead where
  bytes : List UInt8
  truncated_by_limit : Bool
  incomplete : Bool
  deriving DecidableEq, Repr

/-- The size of the buffer of `read_limited`. -/
def readSize : ℕ := 8192

section Limited

variable {σ : Type} (reader : Reader UInt8 σ ReadError)

/-- The loop of `read_limited`. Each turn but the last adds a byte, so the limit and one more are fuel
enough. -/
def readLimitedLoop (max_output_bytes : ℕ) : ℕ → σ → List UInt8 → Except ReadError LimitedRead
  | 0, _, bytes => .ok ⟨bytes, false, false⟩
  | fuel + 1, s, bytes =>
    match reader.read readSize s with
    | .error err =>
      if err.unexpected_eof && !bytes.isEmpty then .ok ⟨bytes, false, true⟩ else .error err
    | .ok (chunk, s) =>
      if chunk.isEmpty then .ok ⟨bytes, false, false⟩
      else
        let remaining := max_output_bytes - bytes.length
        if remaining < chunk.length then .ok ⟨bytes ++ chunk.take remaining, true, false⟩
        else
          let bytes := bytes ++ chunk
          if bytes.length = max_output_bytes then
            match reader.read 1 s with
            | .ok (probe, _) => .ok ⟨bytes, !probe.isEmpty, false⟩
            | .error err => if err.unexpected_eof then .ok ⟨bytes, false, true⟩ else .error err
          else readLimitedLoop max_output_bytes fuel s bytes

/-- `read_limited`. -/
def readLimited (s : σ) (max_output_bytes : ℕ) : Except ReadError LimitedRead :=
  readLimitedLoop reader max_output_bytes (max_output_bytes + 1) s []

variable {reader}

/-- What is read is what the reads give, up to the limit. -/
theorem readLimitedLoop_bytes {max_output_bytes fuel : ℕ} {s : σ} {bytes : List UInt8} {result : LimitedRead}
    (hroom : bytes.length ≤ max_output_bytes) (hfuel : max_output_bytes < bytes.length + fuel)
    (h : readLimitedLoop reader max_output_bytes fuel s bytes = .ok result) :
    result.bytes = (bytes ++ reader.gather readSize fuel s).take max_output_bytes := by
  induction fuel generalizing s bytes with
  | zero => omega
  | succ fuel ih =>
    unfold readLimitedLoop at h
    cases hread : reader.read readSize s with
    | error err =>
      simp only [hread] at h
      split_ifs at h
      cases h
      rw [Reader.gather_error hread, List.append_nil, List.take_of_length_le hroom]
    | ok read =>
      obtain ⟨chunk, t⟩ := read
      simp only [hread] at h
      by_cases hempty : chunk = []
      · subst hempty
        cases h
        rw [Reader.gather_end hread, List.append_nil, List.take_of_length_le hroom]
      have hlength : 0 < chunk.length := List.length_pos_iff.mpr hempty
      rw [if_neg (by simpa using hempty)] at h
      rw [Reader.gather_piece hread hempty, ← List.append_assoc]
      split_ifs at h with hlong hfull
      · -- The piece is longer than what is left of the limit.
        cases h
        dsimp only
        rw [List.append_assoc, List.take_append, List.take_of_length_le hroom,
          List.take_append_of_le_length (by omega)]
      · -- The limit is met, and one more byte is asked for.
        have hbytes : result.bytes = bytes ++ chunk := by
          split at h
          · cases h
            rfl
          · split_ifs at h
            cases h
            rfl
        rw [hbytes, ← hfull, List.take_left']
        rfl
      · have hlonger : (bytes ++ chunk).length = bytes.length + chunk.length := List.length_append
        exact ih (by omega) (by omega) h

/-- No more is read than the limit allows, and no less. -/
theorem readLimited_bytes {max_output_bytes : ℕ} {s : σ} {result : LimitedRead}
    (h : readLimited reader s max_output_bytes = .ok result) :
    result.bytes = (reader.gather readSize (max_output_bytes + 1) s).take max_output_bytes := by
  have hloop := readLimitedLoop_bytes (Nat.zero_le _)
    (by rw [List.length_nil, Nat.zero_add]; exact Nat.lt_succ_self _) h
  rwa [List.nil_append] at hloop

end Limited

/-! ## Streams -/

section Streams

variable {σ : Type} {reader : Reader UInt8 σ ReadError} {left : σ → List UInt8}
  {ending : σ → Option ReadError}

/-- What `read_limited` returns of a stream: its first bytes, or all of it, unless it ends in an error. -/
def limited (max_output_bytes : ℕ) (bytes : List UInt8) (ending : Option ReadError) :
    Except ReadError LimitedRead :=
  if max_output_bytes < bytes.length then .ok ⟨bytes.take max_output_bytes, true, false⟩
  else
    match ending with
    | none => .ok ⟨bytes, false, false⟩
    | some err =>
      if err.unexpected_eof && !bytes.isEmpty then .ok ⟨bytes, false, true⟩ else .error err

/-- A stream that is longer than the limit is cut, however it ends. -/
theorem limited_of_lt {max_output_bytes : ℕ} {bytes : List UInt8} (h : max_output_bytes < bytes.length)
    (ending : Option ReadError) :
    limited max_output_bytes bytes ending = .ok ⟨bytes.take max_output_bytes, true, false⟩ := if_pos h

/-- A stream within the limit is read to its end. -/
theorem limited_of_not_lt {max_output_bytes : ℕ} {bytes : List UInt8}
    (h : ¬ max_output_bytes < bytes.length) (ending : Option ReadError) :
    limited max_output_bytes bytes ending =
      match ending with
      | none => .ok ⟨bytes, false, false⟩
      | some err =>
        if err.unexpected_eof && !bytes.isEmpty then .ok ⟨bytes, false, true⟩ else .error err := if_neg h

/-- The loop of `read_limited` on a stream. -/
theorem readLimitedLoop_streams (hstreams : reader.Streams left ending) {max_output_bytes fuel : ℕ} {s : σ}
    {bytes : List UInt8} (hroom : bytes.length < max_output_bytes)
    (hfuel : max_output_bytes < bytes.length + fuel) :
    readLimitedLoop reader max_output_bytes fuel s bytes =
      limited max_output_bytes (bytes ++ left s) (ending s) := by
  induction fuel generalizing s bytes with
  | zero => omega
  | succ fuel ih =>
    have hsize : 0 < readSize := by decide
    by_cases hleft : left s = []
    · -- Nothing is left.
      have hfits : ¬ max_output_bytes < bytes.length := by omega
      rw [hleft, List.append_nil, limited_of_not_lt hfits, readLimitedLoop]
      cases hending : ending s with
      | none =>
        obtain ⟨t, hread⟩ := hstreams.clean hsize hleft hending
        rw [hread]
        rfl
      | some err =>
        rw [hstreams.broken hsize hleft hending]
    obtain ⟨n, t, hpos, hle, hread, hrest, hend⟩ := hstreams.piece hsize hleft
    have hlength : 0 < (left s).length := List.length_pos_iff.mpr hleft
    have hchunk : ((left s).take n).length = min n (left s).length := List.length_take
    have hfilled : ((left s).take n).isEmpty = false := by
      rw [List.isEmpty_eq_false_iff, ← List.length_pos_iff]
      omega
    have hsum : (bytes ++ left s).length = bytes.length + (left s).length := List.length_append
    have hwhole : bytes ++ (left s).take n ++ left t = bytes ++ left s := by
      rw [hrest, List.append_assoc, List.take_append_drop]
    rw [readLimitedLoop, hread]
    dsimp only
    rw [hfilled, if_neg Bool.false_ne_true]
    by_cases hlong : max_output_bytes - bytes.length < ((left s).take n).length
    · -- The piece is longer than what is left of the limit.
      have hover : max_output_bytes < (bytes ++ left s).length := by omega
      rw [if_pos hlong, limited_of_lt hover, List.take_append, List.take_of_length_le hroom.le, List.take_take,
        Nat.min_eq_left (by omega)]
    rw [if_neg hlong]
    have hsum' : (bytes ++ (left s).take n).length = bytes.length + ((left s).take n).length :=
      List.length_append
    by_cases hfull : (bytes ++ (left s).take n).length = max_output_bytes
    · -- The limit is met, and one more byte is asked for.
      rw [if_pos hfull]
      by_cases hleft' : left t = []
      · rw [hleft', List.append_nil] at hwhole
        have hfits : ¬ max_output_bytes < (bytes ++ left s).length := by
          rw [← hwhole]
          omega
        have hsome : (bytes ++ left s).isEmpty = false := by
          rw [List.isEmpty_eq_false_iff, ← List.length_pos_iff]
          omega
        rw [limited_of_not_lt hfits, ← hend, hwhole, hsome]
        cases hending : ending t with
        | none =>
          obtain ⟨u, hread'⟩ := hstreams.clean Nat.one_pos hleft' hending
          rw [hread']
          rfl
        | some err =>
          rw [hstreams.broken Nat.one_pos hleft' hending]
          simp
      · obtain ⟨k, u, hpos', -, hread', -, -⟩ := hstreams.piece Nat.one_pos hleft'
        have hlength' : 0 < (left t).length := List.length_pos_iff.mpr hleft'
        have hfilled' : ((left t).take k).isEmpty = false := by
          rw [List.isEmpty_eq_false_iff, ← List.length_pos_iff, List.length_take]
          omega
        have hover : max_output_bytes < (bytes ++ left s).length := by
          rw [← hwhole, List.length_append]
          omega
        rw [hread']
        dsimp only
        rw [hfilled', limited_of_lt hover, ← hwhole, List.take_left' hfull]
        rfl
    · rw [if_neg hfull, ih (by omega) (by omega), hwhole, hend]

/-- `read_limited` on a stream. -/
theorem readLimited_streams (hstreams : reader.Streams left ending) {max_output_bytes : ℕ}
    (hmax : 1 ≤ max_output_bytes) (s : σ) :
    readLimited reader s max_output_bytes = limited max_output_bytes (left s) (ending s) := by
  have hempty : ([] : List UInt8).length < max_output_bytes := hmax
  have hloop := readLimitedLoop_streams (s := s) hstreams hempty
    (show max_output_bytes < [].length + (max_output_bytes + 1) by rw [List.length_nil]; omega)
  rwa [List.nil_append] at hloop

end Streams

end Rustmate.Transform
