import Rustmate.Message.WebSocket

/-!
# The two parsers of WebSocket frames

`WebSocketParser::next_frame` of `src/stream_transform.rs`, which reads a frame field by field, and how it agrees
with `parse_websocket_frame`, which looks at the bytes of a whole frame.
-/

namespace Rustmate.Transform

open Digits (fromBeBytes)
open Message (Text ParsedWebSocketFrame websocketLength websocketMask websocketInfo parseWebsocketFrame
  websocketFrames unmaskByte)

/-! ## The parser -/

structure WebSocketFrame where
  fin : Bool
  opcode : ℕ
  rsv1 : Bool
  payload : List UInt8
  deriving DecidableEq, Repr

structure WebSocketParser where
  input : List UInt8
  offset : ℕ := 0
  deriving DecidableEq, Repr

namespace WebSocketParser

/-- `read_array`. -/
def readArray (n : ℕ) (self : WebSocketParser) : Except Text (List UInt8 × WebSocketParser) :=
  if self.input.length - self.offset < n then
    .error "truncated websocket frame length or mask".toList
  else .ok ((self.input.drop self.offset).take n, { self with offset := self.offset + n })

/-- The length of the payload, in seven bits, by `read_u16` or by `read_u64`. -/
def readLength (self : WebSocketParser) (payload_len : ℕ) : Except Text (ℕ × WebSocketParser) :=
  if payload_len = 126 then
    (self.readArray 2).map fun (bytes, self) => (fromBeBytes bytes, self)
  else if payload_len = 127 then
    (self.readArray 8).map fun (bytes, self) => (fromBeBytes bytes, self)
  else .ok (payload_len, self)

/-- The mask, if there is one. -/
def readMask (self : WebSocketParser) (masked : Bool) :
    Except Text (Option (List UInt8) × WebSocketParser) :=
  if masked then (self.readArray 4).map fun (mask, self) => (some mask, self)
  else .ok (none, self)

/-- `next_frame`. What the parser is after an error is never seen. -/
def nextFrame (self : WebSocketParser) : Except Text (Option (WebSocketFrame × WebSocketParser)) :=
  if self.offset = self.input.length then .ok none
  else if self.input.length - self.offset < 2 then .error "truncated websocket frame header".toList
  else
    let first := self.input.getD self.offset 0
    let second := self.input.getD (self.offset + 1) 0
    let self := { self with offset := self.offset + 2 }
    let fin : Bool := first &&& 0x80 ≠ 0
    let rsv1 : Bool := first &&& 0x40 ≠ 0
    let opcode := (first &&& 0x0f).toNat
    let masked : Bool := second &&& 0x80 ≠ 0
    match self.readLength (second &&& 0x7f).toNat with
    | .error message => .error message
    | .ok (payload_len, self) =>
      if u64Max < payload_len then
        .error "websocket frame payload is too large for this platform".toList
      else
        match self.readMask masked with
        | .error message => .error message
        | .ok (mask, self) =>
          if self.input.length - self.offset < payload_len then
            .error "truncated websocket frame payload".toList
          else
            let payload := (self.input.drop self.offset).take payload_len
            let self := { self with offset := self.offset + payload_len }
            let payload := payload.mapIdx fun index byte => unmaskByte byte mask index
            .ok (some ({ fin, opcode, rsv1, payload }, self))

/-- The frames until the end of the input. Each frame takes a byte, so the length of the input and one more are
fuel enough. -/
def framesLoop : ℕ → WebSocketParser → Except Text (List WebSocketFrame)
  | 0, _ => .error []
  | fuel + 1, self =>
    match self.nextFrame with
    | .error message => .error message
    | .ok none => .ok []
    | .ok (some (frame, self)) => (framesLoop fuel self).map fun frames => frame :: frames

/-- The frames of the input. -/
def frames (input : List UInt8) : Except Text (List WebSocketFrame) :=
  framesLoop (input.length + 1) { input }

end WebSocketParser

/-! ## Field by field -/

/-- The key in the header of a frame. -/
def wireMask (bytes : List UInt8) (frame : ParsedWebSocketFrame) : Option (List UInt8) :=
  if frame.info.masked then some ((bytes.drop (frame.header_len - 4)).take 4) else none

/-- The payload of a frame, as it is in the bytes. -/
def wirePayload (bytes : List UInt8) (frame : ParsedWebSocketFrame) : List UInt8 :=
  (bytes.drop frame.header_len).take (frame.total_len - frame.header_len)

/-- A frame that was read from some bytes is the one that was parsed at their front. -/
structure SameFrame (bytes : List UInt8) (frame : ParsedWebSocketFrame) (read : WebSocketFrame) : Prop where
  fin : read.fin = frame.info.fin
  rsv1 : read.rsv1 = frame.info.rsv1
  opcode : read.opcode = frame.info.opcode
  payload_length : read.payload.length = frame.info.payload_bytes
  payload : read.payload =
    (wirePayload bytes frame).mapIdx fun index byte => unmaskByte byte (wireMask bytes frame) index

namespace WebSocketParser

variable {input : List UInt8} {offset : ℕ}

/-- What is left of the input, byte by byte. -/
theorem getD_drop (input : List UInt8) (offset i : ℕ) :
    (input.drop offset).getD i 0 = input.getD (offset + i) 0 := by
  rw [List.getD_eq_getElem?_getD, List.getD_eq_getElem?_getD, List.getElem?_drop]

/-- The bytes after some others are read when they are there. -/
theorem readArray_drop (n : ℕ) {at_offset : ℕ} (hinside : offset + at_offset ≤ input.length) :
    readArray n ⟨input, offset + at_offset⟩ =
      if (input.drop offset).length < at_offset + n then
        .error "truncated websocket frame length or mask".toList
      else .ok (((input.drop offset).drop at_offset).take n, ⟨input, offset + (at_offset + n)⟩) := by
  unfold readArray
  rw [List.length_drop, List.drop_drop]
  dsimp only
  by_cases hshort : input.length - (offset + at_offset) < n
  · rw [if_pos hshort, if_pos (by omega)]
  · rw [if_neg hshort, if_neg (by omega), Nat.add_assoc]

/-- The length is read as it is parsed. -/
theorem readLength_eq (hlength : 2 ≤ (input.drop offset).length) :
    match websocketLength (input.drop offset) with
    | some (payload_len, header_len) =>
      readLength ⟨input, offset + 2⟩ ((input.drop offset).getD 1 0 &&& 0x7f).toNat =
        .ok (payload_len, ⟨input, offset + header_len⟩)
    | none => ∃ message,
      readLength ⟨input, offset + 2⟩ ((input.drop offset).getD 1 0 &&& 0x7f).toNat = .error message := by
  have hinside : offset + 2 ≤ input.length := by
    rw [List.length_drop] at hlength
    omega
  unfold websocketLength readLength
  dsimp only
  rw [readArray_drop 2 hinside, readArray_drop 8 hinside]
  split_ifs with h126 hshort h127 hshort
  · exact ⟨_, rfl⟩
  · rfl
  · exact ⟨_, rfl⟩
  · rfl
  · rfl

/-- The mask is read as it is parsed. -/
theorem readMask_eq {header_len : ℕ} (hheader : header_len ≤ (input.drop offset).length)
    (hinside : offset ≤ input.length) :
    match websocketMask (input.drop offset) header_len with
    | some (mask, header_len') =>
      readMask ⟨input, offset + header_len⟩ (decide ((input.drop offset).getD 1 0 &&& 0x80 ≠ 0)) =
        .ok (mask, ⟨input, offset + header_len'⟩)
    | none => ∃ message,
      readMask ⟨input, offset + header_len⟩ (decide ((input.drop offset).getD 1 0 &&& 0x80 ≠ 0)) =
        .error message := by
  have hinside' : offset + header_len ≤ input.length := by
    rw [List.length_drop] at hheader
    omega
  unfold websocketMask readMask
  dsimp only
  rw [readArray_drop 4 hinside']
  split_ifs with hmasked hshort
  · exact ⟨_, rfl⟩
  · rfl
  · rfl

/-- The mask of a frame is in its header. -/
theorem mask_eq_wireMask {bytes : List UInt8} {header_len : ℕ} {mask : Option (List UInt8)}
    {frame : ParsedWebSocketFrame} (h : websocketMask bytes header_len = some (mask, frame.header_len))
    (hmasked : frame.info.masked = decide (bytes.getD 1 0 &&& 0x80 ≠ 0)) : mask = wireMask bytes frame := by
  unfold websocketMask at h
  unfold wireMask
  rw [hmasked]
  dsimp only at h
  split_ifs at h ⊢ with hbit hshort
  · simp only [Option.some.injEq, Prod.mk.injEq] at h
    rw [← h.1, ← h.2, Nat.add_sub_cancel]
  · simp only [Option.some.injEq, Prod.mk.injEq] at h
    exact h.1.symm

/-- A frame that is parsed is read, and the parser goes on after it. -/
theorem nextFrame_complete (hslice : input.length < 2^63) {frame : ParsedWebSocketFrame}
    (h : parseWebsocketFrame (input.drop offset) = .complete frame) :
    ∃ read, nextFrame ⟨input, offset⟩ = .ok (some (read, ⟨input, offset + frame.total_len⟩)) ∧
      SameFrame (input.drop offset) frame read := by
  obtain ⟨hlength, payload_len, header_len, mask, hlen, hmask, htotal, hle, hinfo⟩ :=
    Message.parseWebsocketFrame_complete h
  have hbounds := Message.websocketLength_bounds hlength hlen
  have hbounds' := Message.websocketMask_bounds hbounds.2.2 hmask
  have hrest : (input.drop offset).length = input.length - offset := List.length_drop
  -- The length of the frame is not cut off at the greatest number.
  have hexact : frame.total_len = frame.header_len + payload_len := by
    rw [htotal] at hle ⊢
    unfold saturatingAdd u64Max at hle ⊢
    omega
  have hread := readLength_eq hlength
  rw [hlen] at hread
  have hreadMask := readMask_eq hbounds.2.2 (show offset ≤ input.length by omega)
  rw [hmask] at hreadMask
  have hmaskEq : mask = wireMask (input.drop offset) frame :=
    mask_eq_wireMask hmask (by rw [hinfo]; rfl)
  refine ⟨⟨frame.info.fin, frame.info.opcode, frame.info.rsv1,
    (wirePayload (input.drop offset) frame).mapIdx fun index byte => unmaskByte byte mask index⟩, ?_, ?_⟩
  · unfold nextFrame
    dsimp only
    have hfirst : input.getD offset 0 = (input.drop offset).getD 0 0 := by rw [getD_drop, Nat.add_zero]
    rw [if_neg (by omega), if_neg (by omega), hfirst, ← getD_drop]
    dsimp only at hread hreadMask ⊢
    rw [hread]
    dsimp only
    rw [if_neg (by unfold u64Max; omega), hreadMask]
    dsimp only
    rw [if_neg (by omega)]
    unfold wirePayload
    rw [hinfo, hexact, Nat.add_sub_cancel_left, List.drop_drop, Nat.add_assoc]
    rfl
  · refine ⟨rfl, rfl, rfl, ?_, by rw [hmaskEq]⟩
    dsimp only
    unfold wirePayload
    rw [List.length_mapIdx, List.length_take, List.length_drop, hinfo]
    unfold websocketInfo
    dsimp only
    omega

/-- Bytes that are left and are no whole frame are an error. -/
theorem nextFrame_incomplete (hne : input.drop offset ≠ [])
    (h : parseWebsocketFrame (input.drop offset) = .incomplete) :
    ∃ message, nextFrame ⟨input, offset⟩ = .error message := by
  have hrest : (input.drop offset).length = input.length - offset := List.length_drop
  have hpos := List.length_pos_iff.mpr hne
  unfold nextFrame
  dsimp only
  rw [if_neg (by omega)]
  by_cases hshort : input.length - offset < 2
  · rw [if_pos hshort]
    exact ⟨_, rfl⟩
  rw [if_neg hshort, ← getD_drop]
  unfold parseWebsocketFrame at h
  rw [if_neg (by omega)] at h
  dsimp only at h ⊢
  split_ifs at h with hopcode hfin
  -- What is missing is the length, the mask or the payload.
  have hread := readLength_eq (show 2 ≤ (input.drop offset).length by omega)
  cases hlen : websocketLength (input.drop offset) with
  | none =>
    rw [hlen] at hread
    obtain ⟨message, hread⟩ := hread
    rw [hread]
    exact ⟨message, rfl⟩
  | some found =>
    obtain ⟨payload_len, header_len⟩ := found
    have hbounds := Message.websocketLength_bounds (by omega) hlen
    rw [hlen] at hread
    dsimp only at hread
    simp only [hlen] at h
    split_ifs at h with hoversized hlarge
    rw [hread]
    dsimp only
    rw [if_neg hlarge]
    have hreadMask := readMask_eq hbounds.2.2 (show offset ≤ input.length by omega)
    cases hmask : websocketMask (input.drop offset) header_len with
    | none =>
      rw [hmask] at hreadMask
      obtain ⟨message, hreadMask⟩ := hreadMask
      rw [hreadMask]
      exact ⟨message, rfl⟩
    | some found =>
      obtain ⟨mask, header_len'⟩ := found
      have hbounds' := Message.websocketMask_bounds hbounds.2.2 hmask
      rw [hmask] at hreadMask
      dsimp only at hreadMask
      simp only [hmask] at h
      split_ifs at h with hmissing
      rw [hreadMask]
      dsimp only
      unfold saturatingAdd at hmissing
      rw [if_pos (by omega)]
      exact ⟨_, rfl⟩

/-- The frames that are parsed one after the other to the end are read one after the other to the end, by
induction on the frames. -/
theorem framesLoop_batch (hslice : input.length < 2^63) {records : List (ℕ × ParsedWebSocketFrame)}
    {fuel : ℕ} (hfuel : input.length - offset < fuel) (hinside : offset ≤ input.length)
    (h : websocketFrames.batch offset (input.drop offset) = ⟨records, [], none⟩) :
    ∃ reads, framesLoop fuel ⟨input, offset⟩ = .ok reads ∧
      List.Forall₂ (fun record read => SameFrame (input.drop record.1) record.2 read) records reads := by
  induction fuel generalizing offset records with
  | zero => omega
  | succ fuel ih =>
    cases hparse : parseWebsocketFrame (input.drop offset) with
    | invalid reason =>
      rw [RecordParser.batch_invalid offset hparse] at h
      injection h with hrecords hrest hfault
      cases hfault
    | incomplete =>
      rw [RecordParser.batch_incomplete offset hparse] at h
      injection h with hrecords hrest
      have hend : offset = input.length := by
        rw [List.drop_eq_nil_iff] at hrest
        omega
      refine ⟨[], ?_, ?_⟩
      · unfold framesLoop nextFrame
        rw [if_pos hend]
      · rw [← hrecords]
        exact List.Forall₂.nil
    | complete frame =>
      obtain ⟨read, hread, hsame⟩ := nextFrame_complete hslice hparse
      have hbounds := Message.parseWebsocketFrame_bounds hparse
      rw [List.length_drop] at hbounds
      rw [RecordParser.batch_complete offset hparse] at h
      injection h with hrecords hrest hfault
      rw [List.drop_drop] at hrecords hrest hfault
      have hsize : websocketFrames.size frame = frame.total_len := rfl
      rw [hsize] at hrecords hrest hfault
      generalize hlater : websocketFrames.batch (offset + frame.total_len)
        (input.drop (offset + frame.total_len)) = later at hrecords hrest hfault
      obtain ⟨later, rest, fault⟩ := later
      dsimp only at hrecords hrest hfault
      subst hrest hfault
      obtain ⟨reads, hreads, hall⟩ := ih (by omega) (by omega) hlater
      refine ⟨read :: reads, ?_, ?_⟩
      · unfold framesLoop
        rw [hread]
        dsimp only
        rw [hreads]
        rfl
      · rw [← hrecords]
        exact List.Forall₂.cons hsame hall

end WebSocketParser

open WebSocketParser in
/-- The two parsers agree on every input; a slice holds fewer than 2^63 bytes. Where a whole frame is parsed the
same frame is read, as long and with its payload unmasked; an input that is parsed frame by frame to its end is
read as the same frames to its end; and where more bytes are needed, reading is an error. -/
theorem frame_parsers_agree (input : List UInt8) (hslice : input.length < 2^63) :
    (∀ offset frame, parseWebsocketFrame (input.drop offset) = .complete frame →
      ∃ read, nextFrame ⟨input, offset⟩ = .ok (some (read, ⟨input, offset + frame.total_len⟩)) ∧
        SameFrame (input.drop offset) frame read) ∧
      (∀ records, websocketFrames.batch 0 input = ⟨records, [], none⟩ → ∃ reads,
        frames input = .ok reads ∧ List.Forall₂
          (fun record read => SameFrame (input.drop record.1) record.2 read) records reads) ∧
      ∀ offset, input.drop offset ≠ [] → parseWebsocketFrame (input.drop offset) = .incomplete →
        ∃ message, nextFrame ⟨input, offset⟩ = .error message := by
  refine ⟨fun offset frame h => nextFrame_complete hslice h, fun records h => ?_,
    fun offset hne h => nextFrame_incomplete hne h⟩
  have hfuel : input.length - 0 < input.length + 1 := by omega
  exact framesLoop_batch hslice hfuel (Nat.zero_le _) h

/-- Two frames, the first one masked, and the beginning of a third one. -/
theorem frame_parsers_agree_sample :
    let input : List UInt8 := [0x81, 0x81, 1, 2, 3, 4, 0x69, 0x89, 0x00, 0x82]
    (∃ read, WebSocketParser.nextFrame ⟨input, 0⟩ = .ok (some (read, ⟨input, 7⟩))) ∧
      ∃ message, WebSocketParser.nextFrame ⟨input, 9⟩ = .error message := by
  intro input
  have hagree := frame_parsers_agree input (by decide)
  refine ⟨?_, hagree.2.2 9 (by decide) (by decide +kernel)⟩
  obtain ⟨read, hread, -⟩ := hagree.1 0 ⟨7, 6, (websocketInfo 0x81 0x81 1 6 [0x69] (some [1, 2, 3, 4]))⟩
    (by decide +kernel)
  exact ⟨read, hread⟩

end Rustmate.Transform
