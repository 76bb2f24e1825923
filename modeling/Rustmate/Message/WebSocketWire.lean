import Rustmate.Message.RecordRun

/-!
# WebSocket frames on the wire

Frames as they are written, with a length in any of the three forms and masked or not, are read back by the
parser however the bytes arrive.
-/

namespace Rustmate.Message

open Digits (fromBeBytes toBeBytes fromBeBytes_toBeBytes length_toBeBytes)

/-! ## Writing frames -/

/-- How the length of a payload is written: in seven bits, in two bytes or in eight. -/
inductive LengthForm where
  | short
  | medium
  | long
  deriving DecidableEq, Repr

/-- How long a payload may be whose length is written in this form. -/
def LengthForm.bound : LengthForm → ℕ
  | .short => 126
  | .medium => 2^16
  | .long => 2^64

/-- A frame that may be written: of data, or of control with all of its few bytes. -/
structure WireFrame where
  opcode : ℕ
  fin : Bool
  rsv1 : Bool
  rsv2 : Bool
  rsv3 : Bool
  mask : Option (List UInt8)
  form : LengthForm
  payload : List UInt8
  opcode_mem : opcode ∈ [0, 1, 2, 8, 9, 10]
  control : 8 ≤ opcode → fin = true ∧ form = .short
  mask_length : ∀ key ∈ mask, key.length = 4
  payload_length : payload.length < form.bound

namespace WireFrame

variable (frame : WireFrame)

/-- The first byte: the end of the message, the reserved bits and the opcode. -/
def first : UInt8 :=
  UInt8.ofNat (128 * frame.fin.toNat + 64 * frame.rsv1.toNat + 32 * frame.rsv2.toNat +
    16 * frame.rsv3.toNat + frame.opcode)

/-- The seven bits of the length. -/
def shortLength : ℕ :=
  match frame.form with
  | .short => frame.payload.length
  | .medium => 126
  | .long => 127

/-- The second byte: whether there is a mask, and the length. -/
def second : UInt8 := UInt8.ofNat (128 * frame.mask.isSome.toNat + frame.shortLength)

/-- The bytes of the length after the first two bytes. -/
def longLength : List UInt8 :=
  match frame.form with
  | .short => []
  | .medium => toBeBytes 2 frame.payload.length
  | .long => toBeBytes 8 frame.payload.length

/-- The header. -/
def header : List UInt8 := [frame.first, frame.second] ++ frame.longLength ++ frame.mask.getD []

/-- The payload with the mask. -/
def masked : List UInt8 := frame.payload.mapIdx fun index byte => unmaskByte byte frame.mask index

/-- The bytes of the frame. -/
def encode : List UInt8 := frame.header ++ frame.masked

/-- What the parser is to say of the frame. -/
def info : WebSocketMessageInfo where
  opcode := frame.opcode
  opcode_name := websocketOpcodeName frame.opcode
  fin := frame.fin
  rsv1 := frame.rsv1
  rsv2 := frame.rsv2
  rsv3 := frame.rsv3
  masked := frame.mask.isSome
  control := 8 ≤ frame.opcode
  payload_bytes := frame.payload.length
  header_bytes := frame.header.length
  close_code :=
    if frame.opcode = 8 ∧ 2 ≤ frame.payload.length then some (fromBeBytes (frame.payload.take 2)) else none
  text_preview := websocketPayloadPreview frame.payload none frame.opcode

/-- What the parser is to read of the frame. -/
def parsed : ParsedWebSocketFrame where
  total_len := frame.encode.length
  header_len := frame.header.length
  info := frame.info

/-! ## The first two bytes -/

/-- The bits of the first byte. -/
theorem first_bits : (frame.first &&& 0x0f).toNat = frame.opcode ∧
    decide (frame.first &&& 0x80 ≠ 0) = frame.fin ∧ decide (frame.first &&& 0x40 ≠ 0) = frame.rsv1 ∧
      decide (frame.first &&& 0x20 ≠ 0) = frame.rsv2 ∧ decide (frame.first &&& 0x10 ≠ 0) = frame.rsv3 := by
  have hall : ∀ opcode ∈ [0, 1, 2, 8, 9, 10], ∀ fin rsv1 rsv2 rsv3 : Bool,
      let byte := UInt8.ofNat (128 * fin.toNat + 64 * rsv1.toNat + 32 * rsv2.toNat + 16 * rsv3.toNat +
        opcode)
      (byte &&& 0x0f).toNat = opcode ∧ decide (byte &&& 0x80 ≠ 0) = fin ∧
        decide (byte &&& 0x40 ≠ 0) = rsv1 ∧ decide (byte &&& 0x20 ≠ 0) = rsv2 ∧
          decide (byte &&& 0x10 ≠ 0) = rsv3 := by
    decide +kernel
  exact hall frame.opcode frame.opcode_mem frame.fin frame.rsv1 frame.rsv2 frame.rsv3

/-- The seven bits are enough for the length or for the form. -/
theorem shortLength_lt : frame.shortLength < 128 := by
  have hlength := frame.payload_length
  unfold shortLength
  cases hform : frame.form with
  | short =>
    rw [hform] at hlength
    exact Nat.lt_trans hlength (by decide)
  | medium => exact (by decide : 126 < 128)
  | long => exact (by decide : 127 < 128)

/-- The bits of the second byte. -/
theorem second_bits : (frame.second &&& 0x7f).toNat = frame.shortLength ∧
    decide (frame.second &&& 0x80 ≠ 0) = frame.mask.isSome := by
  have hall : ∀ length < 128, ∀ masked : Bool,
      let byte := UInt8.ofNat (128 * masked.toNat + length)
      (byte &&& 0x7f).toNat = length ∧ decide (byte &&& 0x80 ≠ 0) = masked := by
    decide +kernel
  exact hall frame.shortLength frame.shortLength_lt frame.mask.isSome

/-! ## The payload -/

/-- A byte that is masked twice is the byte. -/
theorem unmaskByte_unmaskByte (byte : UInt8) (mask : Option (List UInt8)) (index : ℕ) :
    unmaskByte (unmaskByte byte mask index) mask index = byte := by
  cases mask with
  | none => rfl
  | some key =>
    show byte ^^^ key.getD (index % 4) 0 ^^^ key.getD (index % 4) 0 = byte
    rw [UInt8.xor_assoc, UInt8.xor_self, UInt8.xor_zero]

/-- The mask takes no bytes. -/
@[simp]
theorem length_masked : frame.masked.length = frame.payload.length := by
  unfold masked
  exact List.length_mapIdx

/-- The bytes of the payload, unmasked. -/
theorem unmask_masked (take : ℕ) :
    ((frame.masked.take take).mapIdx fun index byte => unmaskByte byte frame.mask index) =
      frame.payload.take take := by
  unfold masked
  apply List.ext_getElem?
  intro i
  rw [List.getElem?_mapIdx, List.getElem?_take, List.getElem?_take]
  split_ifs with hi
  · rw [List.getElem?_mapIdx, Option.map_map]
    cases hbyte : frame.payload[i]? with
    | none => rfl
    | some byte =>
      rw [Option.map_some, Function.comp_apply, unmaskByte_unmaskByte]
  · rfl

/-- The text of a payload is that of its unmasked bytes. -/
theorem preview_masked : websocketPayloadPreview frame.masked frame.mask frame.opcode =
    websocketPayloadPreview frame.payload none frame.opcode := by
  have hplain : ∀ take, ((frame.payload.take take).mapIdx fun index byte => unmaskByte byte none index) =
      frame.payload.take take := by
    intro take
    apply List.ext_getElem?
    intro i
    rw [List.getElem?_mapIdx]
    exact Option.map_id'
  unfold websocketPayloadPreview
  dsimp only
  rw [length_masked, unmask_masked, hplain]

/-- The first two bytes of a payload, unmasked. -/
theorem close_masked (h : 2 ≤ frame.payload.length) :
    [unmaskByte (frame.masked.getD 0 0) frame.mask 0, unmaskByte (frame.masked.getD 1 0) frame.mask 1] =
      frame.payload.take 2 := by
  have hbyte : ∀ i < 2, ∃ byte, frame.payload[i]? = some byte ∧
      unmaskByte (frame.masked.getD i 0) frame.mask i = byte := by
    intro i hi
    refine ⟨frame.payload.get ⟨i, by omega⟩, List.getElem?_eq_getElem (by omega), ?_⟩
    unfold masked
    rw [List.getD_eq_getElem?_getD, List.getElem?_mapIdx, List.getElem?_eq_getElem (by omega)]
    exact unmaskByte_unmaskByte _ frame.mask i
  obtain ⟨a, ha, ha'⟩ := hbyte 0 (by decide)
  obtain ⟨b, hb, hb'⟩ := hbyte 1 (by decide)
  rw [ha', hb']
  apply List.ext_getElem?
  intro i
  rw [List.getElem?_take]
  match i with
  | 0 => simp [ha]
  | 1 => simp [hb]
  | i + 2 => simp

/-! ## Reading frames -/

/-- The header begins with its two bytes. -/
theorem encode_eq : frame.encode =
    frame.first :: frame.second :: (frame.longLength ++ (frame.mask.getD [] ++ frame.masked)) := by
  unfold encode header
  simp

/-- How long a frame is. -/
theorem length_encode : frame.encode.length = frame.header.length + frame.payload.length := by
  unfold encode
  rw [List.length_append, length_masked]

/-- The length of the payload is read from the frame. -/
theorem websocketLength_encode :
    websocketLength frame.encode = some (frame.payload.length, 2 + frame.longLength.length) := by
  have hlength := frame.payload_length
  have hsecond : frame.encode.getD 1 0 = frame.second := by
    rw [encode_eq]
    rfl
  have hrest : frame.encode.drop 2 = frame.longLength ++ (frame.mask.getD [] ++ frame.masked) := by
    rw [encode_eq]
    rfl
  have hlong : frame.encode.length = 2 + (frame.longLength.length +
      (frame.mask.getD [] ++ frame.masked).length) := by
    rw [encode_eq, List.length_cons, List.length_cons, List.length_append]
    omega
  unfold websocketLength
  dsimp only
  rw [hsecond, frame.second_bits.1, hrest, hlong]
  unfold shortLength longLength
  cases hform : frame.form with
  | short =>
    rw [hform] at hlength
    have hsmall : frame.payload.length < 126 := hlength
    dsimp only
    rw [if_neg (by omega), if_neg (by omega), List.length_nil]
  | medium =>
    rw [hform] at hlength
    dsimp only
    rw [if_pos rfl, if_neg (by rw [length_toBeBytes]; omega), List.take_left' (length_toBeBytes 2 _),
      fromBeBytes_toBeBytes hlength, length_toBeBytes]
  | long =>
    rw [hform] at hlength
    dsimp only
    rw [if_neg (by decide), if_pos rfl, if_neg (by rw [length_toBeBytes]; omega),
      List.take_left' (length_toBeBytes 8 _), fromBeBytes_toBeBytes hlength, length_toBeBytes]

/-- The mask is read from the frame. -/
theorem websocketMask_encode :
    websocketMask frame.encode (2 + frame.longLength.length) = some (frame.mask, frame.header.length) := by
  have hsecond : frame.encode.getD 1 0 = frame.second := by
    rw [encode_eq]
    rfl
  have hheader : frame.header.length = 2 + frame.longLength.length + (frame.mask.getD []).length := by
    unfold header
    rw [List.length_append, List.length_append]
    rfl
  have hrest : frame.encode.drop (2 + frame.longLength.length) = frame.mask.getD [] ++ frame.masked := by
    unfold encode header
    rw [List.append_assoc]
    exact List.drop_left' (by rw [List.length_append]; rfl)
  unfold websocketMask
  dsimp only
  rw [hsecond, frame.second_bits.2, hrest, length_encode, hheader]
  cases hmask : frame.mask with
  | none => rfl
  | some key =>
    have hkey : key.length = 4 := frame.mask_length key (by rw [hmask]; rfl)
    simp only [Option.isSome_some, if_true, Option.getD_some]
    rw [if_neg (by omega), hkey, List.take_left' hkey]

/-- The parser reads the frame. -/
theorem parseWebsocketFrame_encode (hsmall : frame.encode.length < 2^64) :
    parseWebsocketFrame frame.encode = .complete frame.parsed := by
  have hbytes : frame.encode.getD 0 0 = frame.first ∧ frame.encode.getD 1 0 = frame.second := by
    rw [encode_eq]
    exact ⟨rfl, rfl⟩
  obtain ⟨hopcode, hfin, hrsv1, hrsv2, hrsv3⟩ := frame.first_bits
  have hlength := frame.length_encode
  have htwo : 2 ≤ frame.encode.length := by
    rw [encode_eq, List.length_cons, List.length_cons]
    omega
  have htotal : saturatingAdd frame.header.length frame.payload.length = frame.encode.length := by
    rw [hlength]
    exact saturatingAdd_eq (by omega)
  have hpayload : (frame.encode.drop frame.header.length).take
      (frame.encode.length - frame.header.length) = frame.masked := by
    unfold encode
    rw [List.drop_left, List.length_append, Nat.add_sub_cancel_left, List.take_length]
  -- The opcode is known, and a frame of control has the last bit and few bytes.
  have hknown : (!(decide (frame.opcode ≤ 2) || (decide (8 ≤ frame.opcode) && decide (frame.opcode ≤ 10)))) =
      false := by
    have hall : ∀ opcode ∈ [0, 1, 2, 8, 9, 10],
        (!(decide (opcode ≤ 2) || (decide (8 ≤ opcode) && decide (opcode ≤ 10)))) = false := by decide
    exact hall frame.opcode frame.opcode_mem
  have hwhole : (decide (8 ≤ frame.opcode) && !frame.fin) = false := by
    by_cases hcontrol : 8 ≤ frame.opcode
    · rw [(frame.control hcontrol).1]
      simp
    · simp [hcontrol]
  have hshort : ¬ (decide (8 ≤ frame.opcode) && decide (125 < frame.payload.length)) = true := by
    rw [Bool.and_eq_true, decide_eq_true_eq, decide_eq_true_eq]
    rintro ⟨hcontrol, hlarge⟩
    have hbound := frame.payload_length
    rw [(frame.control hcontrol).2] at hbound
    have hfew : frame.payload.length < 126 := hbound
    omega
  have hfits : ¬ u64Max < frame.payload.length := by
    unfold u64Max
    omega
  have hinfo : websocketInfo frame.first frame.second frame.payload.length frame.header.length
      frame.masked frame.mask = frame.info := by
    unfold websocketInfo info
    dsimp only
    rw [hopcode, hfin, hrsv1, hrsv2, hrsv3, frame.second_bits.2, frame.preview_masked]
    congr 1
    split_ifs with hclose
    · rw [frame.close_masked hclose.2]
    · rfl
  unfold parseWebsocketFrame
  rw [if_neg (by omega)]
  dsimp only
  rw [hbytes.1, hbytes.2, hopcode, hfin, hknown, hwhole, frame.websocketLength_encode]
  simp only [Bool.false_eq_true, if_false]
  rw [if_neg hshort, if_neg hfits, frame.websocketMask_encode]
  simp only [htotal, lt_irrefl, if_false]
  rw [hpayload, hinfo]
  rfl

end WireFrame

/-! ## Reading all frames -/

/-- The bytes of some frames, one after the other. -/
def encodeFrames (frames : List WireFrame) : List UInt8 := frames.flatMap WireFrame.encode

/-- What the parser is to report of the frames that begin at `pos`. -/
def placeFrames (pos : ℕ) : List WireFrame → List (ℕ × ParsedWebSocketFrame)
  | [] => []
  | frame :: frames => (pos, frame.parsed) :: placeFrames (pos + frame.encode.length) frames

/-- The frames are read one after the other, and nothing is left. -/
theorem batch_encodeFrames (pos : ℕ) (frames : List WireFrame) (hsmall : (encodeFrames frames).length < 2^64) :
    websocketFrames.batch pos (encodeFrames frames) = ⟨placeFrames pos frames, [], none⟩ := by
  induction frames generalizing pos with
  | nil => exact RecordParser.batch_nil pos
  | cons frame frames ih =>
    have hcons : encodeFrames (frame :: frames) = frame.encode ++ encodeFrames frames := List.flatMap_cons
    rw [hcons, List.length_append] at hsmall
    have hparse : websocketFrames.parse (frame.encode ++ encodeFrames frames) = .complete frame.parsed :=
      websocketFrames.complete_append _ (frame.parseWebsocketFrame_encode (by omega))
    have hsize : websocketFrames.size frame.parsed = frame.encode.length := rfl
    rw [hcons, RecordParser.batch_complete pos hparse, hsize, List.drop_left, ih _ (by omega)]
    rfl

/-- The bytes of some frames, cut anywhere, are reported as the frames: one complete message for each, with what
it says and where it is, and nothing else; nothing is left in the buffer. -/
theorem pushAll_encodeFrames (stream_id : BitVec 64) (direction : FlowDirection) {max_buffer_bytes : ℕ}
    (husize : max_buffer_bytes ≤ u64Max) (frames : List WireFrame)
    (hmax : (encodeFrames frames).length ≤ max_buffer_bytes) {pieces : List (List UInt8)}
    (hne : ∀ piece ∈ pieces, piece ≠ []) (hcut : pieces.flatten = encodeFrames frames) :
    (WebSocketDirectionState.pushAll {} stream_id direction max_buffer_bytes pieces).2 =
        websocketProtocol.messages stream_id direction 0 (placeFrames 0 frames) ∧
      (WebSocketDirectionState.pushAll {} stream_id direction max_buffer_bytes pieces).1.buffer = [] := by
  have hsmall : (encodeFrames frames).length < 2^64 := by
    unfold u64Max at husize
    omega
  have hcomes := comesTo_batch websocketProtocol stream_id direction husize hne
    (show pieces.flatten.length ≤ max_buffer_bytes by rwa [hcut])
  have hbatch : websocketProtocol.parser.batch 0 pieces.flatten = ⟨placeFrames 0 frames, [], none⟩ := by
    rw [hcut]
    exact batch_encodeFrames 0 frames hsmall
  rw [hbatch] at hcomes
  refine ⟨?_, hcomes.kept rfl⟩
  have hnone : ∀ message ∈ (RecordDirectionState.pushAll websocketProtocol stream_id direction {}
      max_buffer_bytes pieces).2, decide (message.status ≠ .parseError) = true := by
    intro message hmem
    rw [decide_eq_true_eq]
    intro herror
    have hfault := hcomes.errors.mp ⟨message, hmem, herror⟩
    cases hfault.1
  have hmessages := hcomes.messages
  rw [List.takeWhile_eq_self_iff.mpr hnone] at hmessages
  exact hmessages

/-- A masked text with its length in two bytes. -/
def sampleText : WireFrame where
  opcode := 1
  fin := false
  rsv1 := true
  rsv2 := false
  rsv3 := false
  mask := some [1, 2, 3, 4]
  form := .medium
  payload := [0x68, 0x69]
  opcode_mem := by decide
  control := by decide
  mask_length := by simp
  payload_length := by decide

/-- A close frame with the code 1000. -/
def sampleClose : WireFrame where
  opcode := 8
  fin := true
  rsv1 := false
  rsv2 := false
  rsv3 := false
  mask := none
  form := .short
  payload := [3, 232]
  opcode_mem := by decide
  control := by decide
  mask_length := by simp
  payload_length := by decide

/-- The two frames in pieces. -/
theorem pushAll_encodeFrames_sample :
    let pieces := [encodeFrames [sampleText, sampleClose] |>.take 5,
      encodeFrames [sampleText, sampleClose] |>.drop 5]
    (WebSocketDirectionState.pushAll {} 7 .aToB 64 pieces).2 =
        websocketProtocol.messages 7 .aToB 0 (placeFrames 0 [sampleText, sampleClose]) ∧
      (placeFrames 0 [sampleText, sampleClose]).map (fun frame =>
        (frame.1, frame.2.total_len, frame.2.info.close_code)) = [(0, 10, none), (10, 4, some 1000)] :=
  ⟨(pushAll_encodeFrames 7 .aToB (by decide) [sampleText, sampleClose] (by decide) (by decide)
    (by decide)).1, by decide +kernel⟩

end Rustmate.Message
