import Rustmate.Lib.Digits
import Rustmate.Message.RecordState

/-!
# WebSocket frames

`parse_websocket_frame` of `src/stream_message.rs` and the message that a frame makes. More bytes change
nothing about a frame that has been read or found at fault, so that the frames are records.
-/

namespace Rustmate.Message

open Digits (fromBeBytes)

/-- `MAX_WS_PAYLOAD_PREVIEW_BYTES`. -/
def maxWsPayloadPreviewBytes : ℕ := 128

structure ParsedWebSocketFrame where
  total_len : ℕ
  header_len : ℕ
  info : WebSocketMessageInfo
  deriving DecidableEq, Repr

abbrev WebSocketFrameParse := RecordParse ParsedWebSocketFrame Text

/-! ## The payload -/

/-- `unmask_byte`. -/
def unmaskByte (byte : UInt8) (mask : Option (List UInt8)) (index : ℕ) : UInt8 :=
  match mask with
  | none => byte
  | some mask => byte ^^^ mask.getD (index % 4) 0

/-- `websocket_payload_preview`. -/
def websocketPayloadPreview (payload : List UInt8) (mask : Option (List UInt8)) (opcode : ℕ) :
    Option Text :=
  if !(opcode = 1 || opcode = 8 || opcode = 9 || opcode = 10) then none
  else
    let take := min payload.length maxWsPayloadPreviewBytes
    let decoded := (payload.take take).mapIdx fun index byte => unmaskByte byte mask index
    match fromUtf8 decoded with
    | none => none
    | some text =>
      let text := replace '\n' "\\n".toList (replace '\r' "\\r".toList text)
      if text.isEmpty then none else some text

/-- `websocket_opcode_name`. -/
def websocketOpcodeName (opcode : ℕ) : Text :=
  match opcode with
  | 0 => "continuation".toList
  | 1 => "text".toList
  | 2 => "binary".toList
  | 8 => "close".toList
  | 9 => "ping".toList
  | 10 => "pong".toList
  | _ => "unknown".toList

/-! ## The frame -/

/-- The length of the payload and of the header up to the mask, when the bytes that hold the length are
there: seven bits, or the two or eight bytes after them. -/
def websocketLength (bytes : List UInt8) : Option (ℕ × ℕ) :=
  let header_len := 2
  let payload_len := (bytes.getD 1 0 &&& 0x7f).toNat
  if payload_len = 126 then
    if bytes.length < header_len + 2 then none
    else some (fromBeBytes ((bytes.drop 2).take 2), header_len + 2)
  else if payload_len = 127 then
    if bytes.length < header_len + 8 then none
    else some (fromBeBytes ((bytes.drop 2).take 8), header_len + 8)
  else some (payload_len, header_len)

/-- The mask and the length of the header with it, when its bytes are there. -/
def websocketMask (bytes : List UInt8) (header_len : ℕ) : Option (Option (List UInt8) × ℕ) :=
  let masked : Bool := bytes.getD 1 0 &&& 0x80 ≠ 0
  if masked then
    if bytes.length < header_len + 4 then none
    else some (some ((bytes.drop header_len).take 4), header_len + 4)
  else some (none, header_len)

/-- What the two bytes of a header, the payload and the mask say. -/
def websocketInfo (first second : UInt8) (payload_len header_len : ℕ) (payload : List UInt8)
    (mask : Option (List UInt8)) : WebSocketMessageInfo :=
  let opcode := (first &&& 0x0f).toNat
  { opcode
    opcode_name := websocketOpcodeName opcode
    fin := first &&& 0x80 ≠ 0
    rsv1 := first &&& 0x40 ≠ 0
    rsv2 := first &&& 0x20 ≠ 0
    rsv3 := first &&& 0x10 ≠ 0
    masked := second &&& 0x80 ≠ 0
    control := 8 ≤ opcode
    payload_bytes := payload_len
    header_bytes := header_len
    close_code :=
      if opcode = 8 ∧ 2 ≤ payload_len then
        some (fromBeBytes [unmaskByte (payload.getD 0 0) mask 0, unmaskByte (payload.getD 1 0) mask 1])
      else none
    text_preview := websocketPayloadPreview payload mask opcode }

/-- `parse_websocket_frame`. -/
def parseWebsocketFrame (bytes : List UInt8) : WebSocketFrameParse :=
  if bytes.length < 2 then .incomplete
  else
    let first := bytes.getD 0 0
    let second := bytes.getD 1 0
    let fin : Bool := first &&& 0x80 ≠ 0
    let opcode := (first &&& 0x0f).toNat
    if !(opcode ≤ 2 || (8 ≤ opcode && opcode ≤ 10)) then
      .invalid ("unsupported websocket opcode ".toList ++ (Nat.repr opcode).toList)
    else
      let control : Bool := 8 ≤ opcode
      if control && !fin then .invalid "fragmented websocket control frame".toList
      else
        match websocketLength bytes with
        | none => .incomplete
        | some (payload_len, header_len) =>
          if control && 125 < payload_len then .invalid "oversized websocket control frame".toList
          else if u64Max < payload_len then .invalid "websocket payload is too large".toList
          else
            match websocketMask bytes header_len with
            | none => .incomplete
            | some (mask, header_len) =>
              let total_len := saturatingAdd header_len payload_len
              if bytes.length < total_len then .incomplete
              else
                let payload := (bytes.drop header_len).take (total_len - header_len)
                .complete
                  { total_len
                    header_len
                    info := websocketInfo first second payload_len header_len payload mask }

/-- `websocket_summary`. -/
def websocketSummary (info : WebSocketMessageInfo) : Text :=
  "WS ".toList ++ info.opcode_name ++ [' '] ++ (Nat.repr info.payload_bytes).toList ++
    " bytes".toList ++ (if info.rsv1 then " compressed".toList else []) ++
    (match info.close_code with
      | none => []
      | some close_code => " close=".toList ++ (Nat.repr close_code).toList) ++
    (match info.text_preview with
      | none => []
      | some preview => ' ' :: preview)

/-- `websocket_stream_message`. -/
def websocketStreamMessage (stream_id : BitVec 64) (direction : FlowDirection)
    (ordinal logical_start header_end logical_end : ℕ) (info : WebSocketMessageInfo) : StreamMessage :=
  { recordMessage .websocket (websocketSummary info) stream_id direction ordinal logical_start header_end
      logical_end with
    websocket := some info }

/-! ## More bytes -/

variable {bytes more : List UInt8}

/-- A byte that is there stays where it is. -/
theorem getD_append {i : ℕ} (h : i < bytes.length) (more : List UInt8) :
    (bytes ++ more).getD i 0 = bytes.getD i 0 := by
  rw [List.getD_eq_getElem?_getD, List.getD_eq_getElem?_getD, List.getElem?_append_left h]

/-- Bytes that are there stay where they are. -/
theorem take_drop_append {i n : ℕ} (h : i + n ≤ bytes.length) (more : List UInt8) :
    ((bytes ++ more).drop i).take n = (bytes.drop i).take n := by
  rw [List.drop_append_of_le_length (by omega),
    List.take_append_of_le_length (by rw [List.length_drop]; omega)]

/-- A length that is there stays the same. -/
theorem websocketLength_append {found : ℕ × ℕ} (hlength : 2 ≤ bytes.length)
    (h : websocketLength bytes = some found) (more : List UInt8) :
    websocketLength (bytes ++ more) = some found := by
  unfold websocketLength at h ⊢
  rw [getD_append (by omega), List.length_append]
  dsimp only at h ⊢
  split_ifs at h with h126 hshort h127 hshort
  · rw [if_pos h126, if_neg (by omega), take_drop_append (by omega)]
    exact h
  · rw [if_neg h126, if_pos h127, if_neg (by omega), take_drop_append (by omega)]
    exact h
  · rw [if_neg h126, if_neg h127]
    exact h

/-- Where the mask of a frame begins. -/
theorem websocketLength_bounds {payload_len header_len : ℕ} (hlength : 2 ≤ bytes.length)
    (h : websocketLength bytes = some (payload_len, header_len)) :
    2 ≤ header_len ∧ header_len ≤ 10 ∧ header_len ≤ bytes.length := by
  unfold websocketLength at h
  dsimp only at h
  split_ifs at h <;> simp only [Option.some.injEq, Prod.mk.injEq] at h <;> omega

/-- A mask that is there stays the same. -/
theorem websocketMask_append {header_len : ℕ} {found : Option (List UInt8) × ℕ}
    (hlength : 2 ≤ bytes.length) (h : websocketMask bytes header_len = some found)
    (more : List UInt8) : websocketMask (bytes ++ more) header_len = some found := by
  unfold websocketMask at h ⊢
  rw [getD_append (by omega), List.length_append]
  dsimp only at h ⊢
  split_ifs at h with hmasked hshort
  · rw [if_pos hmasked, if_neg (by omega), take_drop_append (by omega)]
    exact h
  · rw [if_neg hmasked]
    exact h

/-- The mask takes four bytes or none. -/
theorem websocketMask_bounds {header_len header_len' : ℕ} {mask : Option (List UInt8)}
    (hheader : header_len ≤ bytes.length)
    (h : websocketMask bytes header_len = some (mask, header_len')) :
    header_len ≤ header_len' ∧ header_len' ≤ header_len + 4 ∧ header_len' ≤ bytes.length := by
  unfold websocketMask at h
  dsimp only at h
  split_ifs at h <;> simp only [Option.some.injEq, Prod.mk.injEq] at h <;> omega

/-- What has been read, or found at fault, stays the same with more bytes. -/
theorem parseWebsocketFrame_append (h : parseWebsocketFrame bytes ≠ .incomplete) (more : List UInt8) :
    parseWebsocketFrame (bytes ++ more) = parseWebsocketFrame bytes := by
  unfold parseWebsocketFrame at h ⊢
  by_cases hshort : bytes.length < 2
  · rw [if_pos hshort] at h
    exact absurd rfl h
  rw [if_neg hshort] at h ⊢
  rw [if_neg (by rw [List.length_append]; omega), getD_append (by omega), getD_append (by omega)]
  dsimp only at h ⊢
  -- The first two bytes decide alike; then the length, the mask and the payload are the same.
  split_ifs at h ⊢ with hopcode hfin
  · rfl
  · rfl
  cases hlen : websocketLength bytes with
  | none =>
    rw [hlen] at h
    exact absurd rfl h
  | some found =>
    obtain ⟨payload_len, header_len⟩ := found
    rw [websocketLength_append (by omega) hlen]
    simp only [hlen] at h ⊢
    have hbounds := websocketLength_bounds (by omega) hlen
    split_ifs at h ⊢ with hoversized hlarge
    · rfl
    · rfl
    cases hmask : websocketMask bytes header_len with
    | none =>
      rw [hmask] at h
      exact absurd rfl h
    | some found =>
      obtain ⟨mask, header_len'⟩ := found
      rw [websocketMask_append (by omega) hmask]
      simp only [hmask] at h ⊢
      have hbounds' := websocketMask_bounds hbounds.2.2 hmask
      by_cases hmissing : bytes.length < saturatingAdd header_len' payload_len
      · rw [if_pos hmissing] at h
        exact absurd rfl h
      · rw [if_neg hmissing, if_neg (by rw [List.length_append]; omega), take_drop_append (by omega)]

/-- What a frame says that has been read, and what has been there to be read. -/
theorem parseWebsocketFrame_complete {frame : ParsedWebSocketFrame}
    (h : parseWebsocketFrame bytes = .complete frame) :
    2 ≤ bytes.length ∧ ∃ payload_len header_len mask,
      websocketLength bytes = some (payload_len, header_len) ∧
      websocketMask bytes header_len = some (mask, frame.header_len) ∧
      frame.total_len = saturatingAdd frame.header_len payload_len ∧
      frame.total_len ≤ bytes.length ∧
      frame.info = websocketInfo (bytes.getD 0 0) (bytes.getD 1 0) payload_len frame.header_len
        ((bytes.drop frame.header_len).take (frame.total_len - frame.header_len)) mask := by
  unfold parseWebsocketFrame at h
  split_ifs at h with hshort
  dsimp only at h
  split_ifs at h with hopcode hfin
  cases hlen : websocketLength bytes with
  | none => simp [hlen] at h
  | some found =>
    obtain ⟨payload_len, header_len⟩ := found
    simp only [hlen] at h
    split_ifs at h with hoversized hlarge
    cases hmask : websocketMask bytes header_len with
    | none => simp [hmask] at h
    | some found =>
      obtain ⟨mask, header_len'⟩ := found
      simp only [hmask] at h
      split_ifs at h with hmissing
      cases h
      exact ⟨by omega, payload_len, header_len, mask, rfl, hmask, rfl, Nat.le_of_not_lt hmissing, rfl⟩

/-- A frame takes a byte, lies within the bytes, and is at least as long as its header. -/
theorem parseWebsocketFrame_bounds {frame : ParsedWebSocketFrame}
    (h : parseWebsocketFrame bytes = .complete frame) :
    0 < frame.header_len ∧ frame.header_len ≤ frame.total_len ∧ frame.total_len ≤ bytes.length := by
  obtain ⟨hlength, payload_len, header_len, mask, hlen, hmask, htotal, hle, -⟩ :=
    parseWebsocketFrame_complete h
  have hbounds := websocketLength_bounds hlength hlen
  have hbounds' := websocketMask_bounds hbounds.2.2 hmask
  rw [htotal] at hle ⊢
  unfold saturatingAdd u64Max at hle ⊢
  omega

/-- The frames are records. -/
def websocketFrames : RecordParser UInt8 ParsedWebSocketFrame Text where
  parse := parseWebsocketFrame
  size := fun frame => frame.total_len
  parse_nil := rfl
  size_bounds h := by
    have hbounds := parseWebsocketFrame_bounds h
    omega
  complete_append more h := by
    rw [parseWebsocketFrame_append (by simp [h]) more, h]
  invalid_append more h := by
    rw [parseWebsocketFrame_append (by simp [h]) more, h]

/-! ## The parser -/

/-- What the frames have of their own. -/
def websocketProtocol : RecordProtocol ParsedWebSocketFrame where
  parser := websocketFrames
  header_len := fun frame => frame.header_len
  header_le h := (parseWebsocketFrame_bounds h).2.1
  message stream_id direction ordinal logical_start header_end logical_end frame :=
    websocketStreamMessage stream_id direction ordinal logical_start header_end logical_end frame.info
  message_complete _ _ _ _ _ _ _ := rfl
  protocol := .websocket
  error_summary := "WebSocket parse error".toList
  limit_reason := "websocket frame exceeded parser buffer limit".toList

abbrev WebSocketDirectionState := RecordDirectionState

/-- `WebSocketDirectionState::push`. -/
def WebSocketDirectionState.push (self : WebSocketDirectionState) (stream_id : BitVec 64)
    (direction : FlowDirection) (bytes : List UInt8) (max_buffer_bytes : ℕ) :
    WebSocketDirectionState × List StreamMessage :=
  RecordDirectionState.push websocketProtocol stream_id direction self bytes max_buffer_bytes

/-- What the pieces of a stream make. -/
def WebSocketDirectionState.pushAll (self : WebSocketDirectionState) (stream_id : BitVec 64)
    (direction : FlowDirection) (max_buffer_bytes : ℕ) (pieces : List (List UInt8)) :
    WebSocketDirectionState × List StreamMessage :=
  RecordDirectionState.pushAll websocketProtocol stream_id direction self max_buffer_bytes pieces

end Rustmate.Message
