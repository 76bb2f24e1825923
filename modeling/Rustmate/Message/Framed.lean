import Rustmate.Message.DnsState
import Rustmate.Message.Tls
import Rustmate.Message.WebSocket

/-!
# The bytes that messages are made of

Beside each message of a parser stand the wire bytes that it was made of: what the parser took off its buffer
for it, or the datagram. A parser that is handed a whole stream gives each complete message the range at which
its bytes lie in the stream. -/

namespace Rustmate.Message

/-! ## Ranges -/

/-- A message is about a direction of a stream, and its range is where its bytes lie among those of the
direction. -/
structure Points (stream_id : BitVec 64) (direction : FlowDirection) (S : List UInt8) (message : StreamMessage)
    (wire : List UInt8) : Prop where
  stream_id_eq : message.stream_id = stream_id
  direction_eq : message.direction = direction
  nonempty : wire ≠ []
  placed : ∃ before after, S = before ++ wire ++ after ∧ message.logical_start = before.length ∧
    message.logical_end = before.length + wire.length

/-- A buffer holds the end of the stream, and knows where it begins unless it is empty. -/
def EndsAt (S buffer : List UInt8) (buffer_start : ℕ) : Prop :=
  ∃ before, S = before ++ buffer ∧ (buffer ≠ [] → buffer_start = before.length)

variable {stream_id : BitVec 64} {direction : FlowDirection} {S buffer wire : List UInt8} {message : StreamMessage}
  {start count : ℕ}

/-- The range stays where it is when the stream goes on. -/
theorem Points.append (h : Points stream_id direction S message wire) (T : List UInt8) :
    Points stream_id direction (S ++ T) message wire := by
  obtain ⟨before, after, heq, hstart, hend⟩ := h.placed
  refine { h with placed := ⟨before, after ++ T, ?_, hstart, hend⟩ }
  rw [heq, List.append_assoc]

/-- An empty buffer. -/
theorem endsAt_nil (S : List UInt8) (start : ℕ) : EndsAt S [] start :=
  ⟨S, (List.append_nil S).symm, fun hne => absurd rfl hne⟩

/-- Where the buffer begins, if there is any. -/
theorem EndsAt.start_eq (h : EndsAt S buffer start) (hne : buffer ≠ []) : start + buffer.length = S.length := by
  obtain ⟨before, heq, hstart⟩ := h
  rw [hstart hne, heq, List.length_append]

/-- The front is taken off the buffer. -/
theorem EndsAt.drop (h : EndsAt S buffer start) (hcount : count < buffer.length) (hsmall : S.length < 2^64) :
    EndsAt S (buffer.drop count) (saturatingAdd start count) := by
  have hne : buffer ≠ [] := List.ne_nil_of_length_pos (by omega)
  have htotal := h.start_eq hne
  obtain ⟨before, heq, hstart⟩ := h
  refine ⟨before ++ buffer.take count, ?_, fun _ => ?_⟩
  · rw [List.append_assoc, List.take_append_drop, heq]
  · rw [saturatingAdd_eq (by omega), hstart hne, List.length_append, List.length_take]
    omega

/-- A message of the front of the buffer. -/
theorem EndsAt.points (h : EndsAt S buffer start) (hpos : 0 < count) (hcount : count ≤ buffer.length)
    (hstream : message.stream_id = stream_id) (hdirection : message.direction = direction)
    (hstart : message.logical_start = start) (hend : message.logical_end = start + count) :
    Points stream_id direction S message (buffer.take count) := by
  have hlength : (buffer.take count).length = count := by
    rw [List.length_take]
    omega
  have hne : buffer ≠ [] := List.ne_nil_of_length_pos (by omega)
  obtain ⟨before, heq, hbefore⟩ := h
  refine ⟨hstream, hdirection, List.ne_nil_of_length_pos (by omega), before, buffer.drop count, ?_, ?_, ?_⟩
  · rw [List.append_assoc, List.take_append_drop, heq]
  · rw [hstart, hbefore hne]
  · rw [hend, hbefore hne, hlength]

/-! ## Records -/

/-- The messages of a kind of records say what they are about and have the range that they are made with. -/
structure RecordProtocol.Ranged {R : Type} (P : RecordProtocol R) : Prop where
  stream_id : ∀ stream_id direction ordinal logical_start header_end logical_end record,
    (P.message stream_id direction ordinal logical_start header_end logical_end record).stream_id = stream_id
  direction : ∀ stream_id direction ordinal logical_start header_end logical_end record,
    (P.message stream_id direction ordinal logical_start header_end logical_end record).direction = direction
  logical_start : ∀ stream_id direction ordinal logical_start header_end logical_end record,
    (P.message stream_id direction ordinal logical_start header_end logical_end record).logical_start = logical_start
  logical_end : ∀ stream_id direction ordinal logical_start header_end logical_end record,
    (P.message stream_id direction ordinal logical_start header_end logical_end record).logical_end = logical_end

/-- So do those of WebSocket frames. -/
theorem websocketProtocol_ranged : websocketProtocol.Ranged where
  stream_id _ _ _ _ _ _ _ := rfl
  direction _ _ _ _ _ _ _ := rfl
  logical_start _ _ _ _ _ _ _ := rfl
  logical_end _ _ _ _ _ _ _ := rfl

/-- So do those of TLS records. -/
theorem tlsProtocol_ranged : tlsProtocol.Ranged where
  stream_id _ _ _ _ _ _ _ := rfl
  direction _ _ _ _ _ _ _ := rfl
  logical_start _ _ _ _ _ _ _ := rfl
  logical_end _ _ _ _ _ _ _ := rfl

namespace RecordDirectionState

variable {R : Type} (P : RecordProtocol R) (stream_id : BitVec 64) (direction : FlowDirection)

/-- The messages of the loop of `push`, each with what is taken off the buffer for it. -/
def framedLoop : ℕ → RecordDirectionState → List (StreamMessage × List UInt8)
  | 0, _ => []
  | fuel + 1, self =>
    match P.parser.parse self.buffer with
    | .complete record =>
      let logical_start := self.buffer_start
      let message := P.message stream_id direction self.next_ordinal logical_start
        (saturatingAdd logical_start (P.header_len record)) (saturatingAdd logical_start (P.parser.size record)) record
      let rest := self.countOrdinal.drainFront (P.parser.size record)
      (message, self.buffer.take (P.parser.size record)) ::
        if rest.buffer.isEmpty then [] else framedLoop fuel rest
    | .incomplete => []
    | .invalid reason => [((self.parseError P stream_id direction reason).2, self.buffer)]

/-- The state when `push` has put the bytes to the buffer. -/
def fill (self : RecordDirectionState) (bytes : List UInt8) : RecordDirectionState :=
  let self := if self.buffer.isEmpty then { self with buffer_start := self.next_logical } else self
  { self with
    next_logical := saturatingAdd self.next_logical bytes.length
    buffer := self.buffer ++ bytes }

/-- The messages of `push`, each with what is taken off the buffer for it. -/
def framed (self : RecordDirectionState) (bytes : List UInt8) (max_buffer_bytes : ℕ) :
    List (StreamMessage × List UInt8) :=
  if bytes.isEmpty then []
  else
    let self := self.fill bytes
    if max_buffer_bytes < self.buffer.length then
      [((self.parseError P stream_id direction P.limit_reason).2, self.buffer)]
    else framedLoop P stream_id direction (self.buffer.length + 1) self

/-- The loop makes these messages. -/
theorem map_framedLoop (fuel : ℕ) (self : RecordDirectionState) :
    (framedLoop P stream_id direction fuel self).map Prod.fst = (parseLoop P stream_id direction fuel self).2 := by
  induction fuel generalizing self with
  | zero => rfl
  | succ fuel ih =>
    unfold framedLoop parseLoop
    cases hparse : P.parser.parse self.buffer with
    | incomplete => rfl
    | invalid reason => rfl
    | complete record =>
      dsimp only
      split_ifs with hrest
      · rfl
      · rw [List.map_cons, ih]

/-- What `push` does once the bytes are in the buffer. -/
theorem push_eq (self : RecordDirectionState) (bytes : List UInt8) (max_buffer_bytes : ℕ) :
    push P stream_id direction self bytes max_buffer_bytes =
      if bytes.isEmpty then (self, [])
      else if max_buffer_bytes < (self.fill bytes).buffer.length then
        (((self.fill bytes).parseError P stream_id direction P.limit_reason).1.clearBuffer,
          [((self.fill bytes).parseError P stream_id direction P.limit_reason).2])
      else parseLoop P stream_id direction ((self.fill bytes).buffer.length + 1) (self.fill bytes) := rfl

/-- `push` makes these messages. -/
theorem map_framed (self : RecordDirectionState) (bytes : List UInt8) (max_buffer_bytes : ℕ) :
    (framed P stream_id direction self bytes max_buffer_bytes).map Prod.fst =
      (push P stream_id direction self bytes max_buffer_bytes).2 := by
  rw [push_eq]
  unfold framed
  dsimp only
  split_ifs with hempty hlimit
  · rfl
  · rfl
  · exact map_framedLoop P stream_id direction _ _

/-! ### What a parser of a whole stream knows -/

/-- The state of a parser that was handed the stream `S`, whatever faults it found. -/
structure Heard (S : List UInt8) (state : RecordDirectionState) : Prop where
  next_logical : state.next_logical = S.length
  buffer : EndsAt S state.buffer state.buffer_start

/-- A new parser was handed nothing. -/
theorem heard_new : Heard [] {} := ⟨rfl, endsAt_nil [] 0⟩

variable {P stream_id direction} {S : List UInt8} {state : RecordDirectionState}

/-- A record is taken off the buffer. -/
theorem Heard.drainFront (h : Heard S state) (hsmall : S.length < 2^64) (count : ℕ) :
    Heard S (state.countOrdinal.drainFront count) := by
  unfold RecordDirectionState.drainFront
  split_ifs with hall
  · exact ⟨h.next_logical, endsAt_nil S _⟩
  · exact ⟨h.next_logical, h.buffer.drop (Nat.lt_of_not_le hall) hsmall⟩

/-- Bytes come to the buffer. -/
theorem Heard.fill (h : Heard S state) {bytes : List UInt8} (hsmall : (S ++ bytes).length < 2^64) :
    Heard (S ++ bytes) (state.fill bytes) := by
  rw [List.length_append] at hsmall
  have hnext : saturatingAdd state.next_logical bytes.length = (S ++ bytes).length := by
    rw [h.next_logical, saturatingAdd_eq hsmall, List.length_append]
  unfold RecordDirectionState.fill
  by_cases hempty : state.buffer = []
  · -- The buffer begins where the bytes do.
    have hnil : state.buffer.isEmpty = true := by rw [hempty, List.isEmpty_nil]
    rw [if_pos hnil]
    refine ⟨hnext, S, ?_, fun _ => h.next_logical⟩
    dsimp only
    rw [hempty, List.nil_append]
  · have hkept : ¬ state.buffer.isEmpty = true := by simpa using hempty
    rw [if_neg hkept]
    obtain ⟨before, heq, hstart⟩ := h.buffer
    refine ⟨hnext, before, ?_, fun _ => hstart hempty⟩
    dsimp only
    rw [heq, List.append_assoc]

/-- The loop of `push` keeps what the parser knows, by induction on its turns, and the records that it finds
lie where their messages say. -/
theorem Heard.parseLoop (hP : P.Ranged) (hsmall : S.length < 2^64) (fuel : ℕ) (h : Heard S state) :
    Heard S (RecordDirectionState.parseLoop P stream_id direction fuel state).1 ∧
      ∀ x ∈ framedLoop P stream_id direction fuel state, x.1.status = .complete →
        Points stream_id direction S x.1 x.2 := by
  induction fuel generalizing state with
  | zero => exact ⟨h, fun x hx => absurd hx List.not_mem_nil⟩
  | succ fuel ih =>
    unfold RecordDirectionState.parseLoop framedLoop
    cases hparse : P.parser.parse state.buffer with
    | incomplete => exact ⟨h, fun x hx => absurd hx List.not_mem_nil⟩
    | invalid reason =>
      refine ⟨⟨h.next_logical, endsAt_nil S _⟩, fun x hx hcomplete => ?_⟩
      rw [List.mem_singleton.mp hx] at hcomplete
      cases hcomplete
    | complete record =>
      obtain ⟨hpos, hsize⟩ := P.parser.size_bounds hparse
      have htotal := h.buffer.start_eq (List.ne_nil_of_length_pos (by omega))
      have hpoints : Points stream_id direction S
          (P.message stream_id direction state.next_ordinal state.buffer_start
            (saturatingAdd state.buffer_start (P.header_len record))
            (saturatingAdd state.buffer_start (P.parser.size record)) record)
          (state.buffer.take (P.parser.size record)) := by
        refine h.buffer.points hpos hsize (hP.stream_id ..) (hP.direction ..) (hP.logical_start ..) ?_
        rw [hP.logical_end, saturatingAdd_eq (by omega)]
      have hrest := h.drainFront hsmall (P.parser.size record)
      obtain ⟨hlater, hfound⟩ := ih hrest
      dsimp only
      split_ifs with hempty
      · refine ⟨hrest, fun x hx _ => ?_⟩
        rw [List.mem_singleton.mp hx]
        exact hpoints
      · refine ⟨hlater, fun x hx hcomplete => ?_⟩
        rcases List.mem_cons.mp hx with rfl | hx
        · exact hpoints
        · exact hfound x hx hcomplete

/-- `push` keeps what the parser knows, and the records that it finds lie where their messages say. -/
theorem Heard.push (hP : P.Ranged) (h : Heard S state) {bytes : List UInt8} (hsmall : (S ++ bytes).length < 2^64)
    (max_buffer_bytes : ℕ) :
    Heard (S ++ bytes) (RecordDirectionState.push P stream_id direction state bytes max_buffer_bytes).1 ∧
      ∀ x ∈ framed P stream_id direction state bytes max_buffer_bytes, x.1.status = .complete →
        Points stream_id direction (S ++ bytes) x.1 x.2 := by
  have hfilled := h.fill hsmall
  rw [push_eq]
  unfold framed
  dsimp only
  split_ifs with hempty hlimit
  · refine ⟨?_, fun x hx => absurd hx List.not_mem_nil⟩
    rw [List.isEmpty_iff.mp hempty, List.append_nil]
    exact h
  · refine ⟨⟨hfilled.next_logical, endsAt_nil _ _⟩, fun x hx hcomplete => ?_⟩
    rw [List.mem_singleton.mp hx] at hcomplete
    cases hcomplete
  · exact hfilled.parseLoop hP hsmall _

end RecordDirectionState

/-! ## Datagrams -/

/-- A datagram lies where its message says, if the parser was handed all the bytes before it. -/
theorem DnsDirectionState.parseDatagram_points {state : DnsDirectionState} (h : state.next_logical = S.length)
    {payload : List UInt8} (hne : payload ≠ []) (hsmall : (S ++ payload).length < 2^64) (stream_id : BitVec 64)
    (direction : FlowDirection) :
    (state.parseDatagram stream_id direction payload).1.next_logical = (S ++ payload).length ∧
      Points stream_id direction (S ++ payload) (state.parseDatagram stream_id direction payload).2 payload := by
  rw [List.length_append] at hsmall ⊢
  have hend : saturatingAdd state.next_logical payload.length = S.length + payload.length := by
    rw [h, saturatingAdd_eq hsmall]
  unfold DnsDirectionState.parseDatagram
  cases parseDnsMessage payload with
  | ok dns => exact ⟨hend, rfl, rfl, hne, S, [], (List.append_nil _).symm, h, hend⟩
  | error error => exact ⟨hend, rfl, rfl, hne, S, [], (List.append_nil _).symm, h, hend⟩

end Rustmate.Message
