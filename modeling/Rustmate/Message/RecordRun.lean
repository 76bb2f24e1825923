import Rustmate.Message.Tls
import Rustmate.Message.WebSocket

/-!
# Records however they arrive

The parsers of WebSocket frames and of TLS records report the records of the whole stream, whatever the pieces
in which it arrives. The buffer is what the records leave.
-/

namespace Rustmate.Message

namespace RecordProtocol

variable {R : Type} (P : RecordProtocol R) (stream_id : BitVec 64) (direction : FlowDirection)

/-- The messages of records that begin at these places, numbered from `ordinal` on. -/
def messages (ordinal : ℕ) : List (ℕ × R) → List StreamMessage
  | [] => []
  | (pos, record) :: records =>
    P.message stream_id direction ordinal pos (pos + P.header_len record)
      (pos + P.parser.size record) record :: messages (ordinal + 1) records

/-- The messages of records and of more records. -/
theorem messages_append (ordinal : ℕ) (xs ys : List (ℕ × R)) :
    P.messages stream_id direction ordinal (xs ++ ys) =
      P.messages stream_id direction ordinal xs ++
        P.messages stream_id direction (ordinal + xs.length) ys := by
  induction xs generalizing ordinal with
  | nil => rfl
  | cons x xs ih =>
    obtain ⟨pos, record⟩ := x
    rw [List.cons_append, messages, messages, ih, List.length_cons, List.cons_append,
      show ordinal + 1 + xs.length = ordinal + (xs.length + 1) by omega]

/-- The messages of records are complete. -/
theorem messages_complete (ordinal : ℕ) (records : List (ℕ × R)) :
    ∀ message ∈ P.messages stream_id direction ordinal records, message.status = .complete := by
  induction records generalizing ordinal with
  | nil =>
    intro message hmem
    cases hmem
  | cons record records ih =>
    obtain ⟨pos, record⟩ := record
    intro message hmem
    rw [messages, List.mem_cons] at hmem
    rcases hmem with rfl | hmem
    · apply P.message_complete
    · exact ih _ message hmem

end RecordProtocol

namespace RecordDirectionState

variable {R : Type} {P : RecordProtocol R} {stream_id : BitVec 64} {direction : FlowDirection}
  {total ordinal pos : ℕ} {state : RecordDirectionState} {buffer : List UInt8}

/-- The state of a parser that has been given `total` bytes and has reported `ordinal` messages, and keeps
these bytes from `pos` on. -/
structure Keeps (total ordinal pos : ℕ) (buffer : List UInt8) (state : RecordDirectionState) : Prop where
  next_logical : state.next_logical = total
  next_ordinal : state.next_ordinal = ordinal
  buffer_eq : state.buffer = buffer
  buffer_start : buffer ≠ [] → state.buffer_start = pos
  total_eq : pos + buffer.length = total
  ordinal_le : ordinal ≤ pos

/-- A record is taken from the buffer and reported. -/
theorem Keeps.advance (h : Keeps total ordinal pos buffer state) (hsmall : total < 2^64) {count : ℕ}
    (hpos : 0 < count) (hcount : count ≤ buffer.length) :
    Keeps total (ordinal + 1) (pos + count) (buffer.drop count) (state.countOrdinal.drainFront count) := by
  obtain ⟨hnext, hordinal, hbuffer, hstart, htotal, hle⟩ := h
  have hne : buffer ≠ [] := by
    rintro rfl
    rw [List.length_nil] at hcount
    omega
  have hcounted : state.countOrdinal.next_ordinal = ordinal + 1 := by
    unfold countOrdinal
    dsimp only
    rw [hordinal]
    exact saturatingAdd_eq (by omega)
  have hlength : (buffer.drop count).length = buffer.length - count := List.length_drop
  unfold drainFront
  rw [show state.countOrdinal.buffer = buffer from hbuffer]
  split_ifs with hall
  · have hnil : buffer.drop count = [] := List.drop_eq_nil_of_le hall
    exact ⟨hnext, hcounted, hnil.symm, fun hne => absurd hnil hne, by omega, by omega⟩
  · refine ⟨hnext, hcounted, rfl, fun _ => ?_, by omega, by omega⟩
    dsimp only
    rw [show state.countOrdinal.buffer_start = pos from hstart hne]
    exact saturatingAdd_eq (by omega)

variable (P stream_id direction)

/-- The loop of `push` reads the batch of the buffer, by induction on its records: it reports the records and
keeps the rest, or reports the fault. -/
theorem Keeps.parseLoop (h : Keeps total ordinal pos buffer state) (hsmall : total < 2^64) {fuel : ℕ}
    (hfuel : buffer.length < fuel) :
    match (P.parser.batch pos buffer).fault with
    | none =>
      (parseLoop P stream_id direction fuel state).2 =
          P.messages stream_id direction ordinal (P.parser.batch pos buffer).records ∧
        Keeps total (ordinal + (P.parser.batch pos buffer).records.length)
          (P.parser.restStart pos buffer) (P.parser.batch pos buffer).rest
          (parseLoop P stream_id direction fuel state).1
    | some _ => ∃ error, error.status = .parseError ∧
        (parseLoop P stream_id direction fuel state).2 =
          P.messages stream_id direction ordinal (P.parser.batch pos buffer).records ++ [error] := by
  induction fuel generalizing state ordinal pos buffer with
  | zero => omega
  | succ fuel ih =>
    have hbuffer := h.buffer_eq
    rw [RecordDirectionState.parseLoop, hbuffer]
    cases hparse : P.parser.parse buffer with
    | incomplete =>
      have hstart : P.parser.restStart pos buffer = pos := by
        unfold RecordParser.restStart
        rw [RecordParser.batch_incomplete pos hparse, Nat.sub_self, Nat.add_zero]
      rw [hstart, RecordParser.batch_incomplete pos hparse]
      exact ⟨rfl, h⟩
    | invalid reason =>
      rw [RecordParser.batch_invalid pos hparse]
      exact ⟨(state.parseError P stream_id direction reason).2, rfl, rfl⟩
    | complete record =>
      obtain ⟨hpos, hsize⟩ := P.parser.size_bounds hparse
      have hheader := P.header_le hparse
      have hne : buffer ≠ [] := by
        rintro rfl
        rw [List.length_nil] at hsize
        omega
      have htotal := h.total_eq
      have hnext := h.advance hsmall hpos hsize
      have hmessage : P.message stream_id direction state.next_ordinal state.buffer_start
          (saturatingAdd state.buffer_start (P.header_len record))
          (saturatingAdd state.buffer_start (P.parser.size record)) record =
          P.message stream_id direction ordinal pos (pos + P.header_len record)
            (pos + P.parser.size record) record := by
        rw [h.next_ordinal, h.buffer_start hne, saturatingAdd_eq (by omega), saturatingAdd_eq (by omega)]
      rw [RecordParser.restStart_complete pos hparse, RecordParser.batch_complete pos hparse]
      dsimp only
      rw [hmessage, hnext.buffer_eq]
      by_cases hrest : buffer.drop (P.parser.size record) = []
      · -- The loop ends here, as it would with the next turn.
        rw [hrest] at hnext ⊢
        rw [RecordParser.batch_nil]
        refine ⟨rfl, ?_⟩
        unfold RecordParser.restStart
        rw [RecordParser.batch_nil]
        exact hnext
      · have hfilled : (buffer.drop (P.parser.size record)).isEmpty = false := by simpa using hrest
        have hlater := ih hnext (by rw [List.length_drop]; omega)
        simp only [hfilled, Bool.false_eq_true, if_false]
        cases hfault : (P.parser.batch (pos + P.parser.size record)
            (buffer.drop (P.parser.size record))).fault with
        | none =>
          simp only [hfault] at hlater ⊢
          obtain ⟨hmessages, hkeeps⟩ := hlater
          refine ⟨?_, ?_⟩
          · rw [hmessages]
            rfl
          · rw [List.length_cons, show ∀ n, ordinal + (n + 1) = ordinal + 1 + n by omega]
            exact hkeeps
        | some reason =>
          simp only [hfault] at hlater ⊢
          obtain ⟨error, herror, hmessages⟩ := hlater
          refine ⟨error, herror, ?_⟩
          rw [hmessages]
          rfl

/-- `push` reads the batch of the buffer and the bytes. -/
theorem Keeps.push (h : Keeps total ordinal pos buffer state) {bytes : List UInt8} {max_buffer_bytes : ℕ}
    (hne : bytes ≠ []) (hsmall : total + bytes.length < 2^64)
    (hmax : total + bytes.length ≤ max_buffer_bytes) :
    match (P.parser.batch pos (buffer ++ bytes)).fault with
    | none =>
      (push P stream_id direction state bytes max_buffer_bytes).2 =
          P.messages stream_id direction ordinal (P.parser.batch pos (buffer ++ bytes)).records ∧
        Keeps (total + bytes.length)
          (ordinal + (P.parser.batch pos (buffer ++ bytes)).records.length)
          (P.parser.restStart pos (buffer ++ bytes)) (P.parser.batch pos (buffer ++ bytes)).rest
          (push P stream_id direction state bytes max_buffer_bytes).1
    | some _ => ∃ error, error.status = .parseError ∧
        (push P stream_id direction state bytes max_buffer_bytes).2 =
          P.messages stream_id direction ordinal (P.parser.batch pos (buffer ++ bytes)).records ++
            [error] := by
  obtain ⟨hnext, hordinal, hbuffer, hstart, htotal, hle⟩ := h
  have hfilled : bytes.isEmpty = false := by simpa using hne
  -- Where the buffer begins, if it was empty.
  let opened : RecordDirectionState :=
    if state.buffer.isEmpty then { state with buffer_start := state.next_logical } else state
  let extended : RecordDirectionState := { opened with
    next_logical := saturatingAdd opened.next_logical bytes.length
    buffer := opened.buffer ++ bytes }
  have hopened : opened.next_logical = total ∧ opened.next_ordinal = ordinal ∧ opened.buffer = buffer ∧
      opened.buffer_start = pos := by
    by_cases hempty : buffer = []
    · rw [hempty] at hbuffer htotal
      have heq : opened = { state with buffer_start := state.next_logical } := by
        simp only [opened, hbuffer, List.isEmpty_nil, if_true]
      rw [heq, hempty]
      refine ⟨hnext, hordinal, hbuffer, ?_⟩
      rw [List.length_nil] at htotal
      dsimp only
      omega
    · have hkept : buffer.isEmpty = false := by simpa using hempty
      have heq : opened = state := by
        simp only [opened, hbuffer, hkept, Bool.false_eq_true, if_false]
      rw [heq]
      exact ⟨hnext, hordinal, hbuffer, hstart hempty⟩
  have hkeeps : Keeps (total + bytes.length) ordinal pos (buffer ++ bytes) extended := by
    refine ⟨?_, hopened.2.1, ?_, fun _ => hopened.2.2.2, ?_, hle⟩
    · show saturatingAdd opened.next_logical bytes.length = _
      rw [hopened.1]
      exact saturatingAdd_eq hsmall
    · show opened.buffer ++ bytes = _
      rw [hopened.2.2.1]
    · rw [List.length_append]
      omega
  have hlength : extended.buffer.length = buffer.length + bytes.length := by
    rw [hkeeps.buffer_eq, List.length_append]
  have hpush : RecordDirectionState.push P stream_id direction state bytes max_buffer_bytes =
      RecordDirectionState.parseLoop P stream_id direction (extended.buffer.length + 1) extended := by
    have hunfold : RecordDirectionState.push P stream_id direction state bytes max_buffer_bytes =
        if max_buffer_bytes < extended.buffer.length then
          ((extended.parseError P stream_id direction P.limit_reason).1.clearBuffer,
            [(extended.parseError P stream_id direction P.limit_reason).2])
        else RecordDirectionState.parseLoop P stream_id direction (extended.buffer.length + 1) extended := by
      unfold RecordDirectionState.push
      rw [hfilled]
      rfl
    rw [hunfold, if_neg (by omega)]
  rw [hpush]
  exact hkeeps.parseLoop P stream_id direction hsmall (by rw [hlength, List.length_append]; omega)

/-- What the pieces make that follow what is kept: the messages of the records up to the first error, an error
exactly when there is a fault, and without a fault the rest in the buffer. -/
theorem Keeps.pushAll (h : Keeps total ordinal pos buffer state) {max_buffer_bytes : ℕ}
    (hbuffer : P.parser.parse buffer = .incomplete) {pieces : List (List UInt8)}
    (hne : ∀ piece ∈ pieces, piece ≠ []) (hsmall : total + pieces.flatten.length < 2^64)
    (hmax : total + pieces.flatten.length ≤ max_buffer_bytes) :
    ((state.pushAll P stream_id direction max_buffer_bytes pieces).2.takeWhile
        fun message => message.status ≠ .parseError) =
        P.messages stream_id direction ordinal (P.parser.batch pos (buffer ++ pieces.flatten)).records ∧
      ((∃ message ∈ (state.pushAll P stream_id direction max_buffer_bytes pieces).2,
          message.status = .parseError) ↔
        (P.parser.batch pos (buffer ++ pieces.flatten)).fault.isSome = true) ∧
      ((P.parser.batch pos (buffer ++ pieces.flatten)).fault = none →
        (state.pushAll P stream_id direction max_buffer_bytes pieces).1.buffer =
          (P.parser.batch pos (buffer ++ pieces.flatten)).rest) := by
  induction pieces generalizing total ordinal pos buffer state with
  | nil =>
    rw [List.flatten_nil, List.append_nil, RecordParser.batch_incomplete pos hbuffer]
    refine ⟨rfl, ⟨?_, ?_⟩, fun _ => h.buffer_eq⟩
    · rintro ⟨message, hmem, -⟩
      cases hmem
    · intro hfault
      cases hfault
  | cons bytes pieces ih =>
    rw [List.flatten_cons, List.length_append] at hsmall hmax
    rw [List.flatten_cons, ← List.append_assoc]
    have hpush := h.push P stream_id direction (hne bytes List.mem_cons_self)
      (show total + bytes.length < 2^64 by omega) (show total + bytes.length ≤ max_buffer_bytes by omega)
    rw [RecordDirectionState.pushAll]
    dsimp only
    have hcompletes : ∀ records : List (ℕ × R), ∀ message ∈ P.messages stream_id direction ordinal records,
        decide (message.status ≠ .parseError) = true := by
      intro records message hmem
      rw [P.messages_complete stream_id direction ordinal records message hmem]
      rfl
    cases hfault : (P.parser.batch pos (buffer ++ bytes)).fault with
    | some reason =>
      -- The bytes are at fault, whatever follows.
      simp only [hfault] at hpush
      obtain ⟨error, herror, hmessages⟩ := hpush
      rw [RecordParser.batch_append_fault pos _ _ hfault, hmessages, List.append_assoc]
      refine ⟨?_, ⟨fun _ => rfl, fun _ => ⟨error, by simp, herror⟩⟩, fun hnone => by cases hnone⟩
      rw [List.takeWhile_append_of_pos (hcompletes _), List.singleton_append,
        List.takeWhile_cons_of_neg (by simp [herror]), List.append_nil]
    | none =>
      -- The records go on after those of this piece.
      simp only [hfault] at hpush
      obtain ⟨hmessages, hkeeps⟩ := hpush
      have hrest := RecordParser.parse_rest (F := P.parser) pos (buffer ++ bytes)
      simp only [hfault] at hrest
      obtain ⟨hlater, herrors, hkept⟩ := ih hkeeps hrest
        (fun piece hpiece => hne piece (List.mem_cons_of_mem bytes hpiece)) (by omega) (by omega)
      rw [RecordParser.batch_append pos _ _ hfault, hmessages]
      refine ⟨?_, ?_, hkept⟩
      · rw [List.takeWhile_append_of_pos (hcompletes _), hlater, P.messages_append]
      · rw [← herrors]
        constructor
        · rintro ⟨message, hmem, hstatus⟩
          rcases List.mem_append.mp hmem with hmem | hmem
          · rw [P.messages_complete stream_id direction ordinal _ message hmem] at hstatus
            cases hstatus
          · exact ⟨message, hmem, hstatus⟩
        · rintro ⟨message, hmem, hstatus⟩
          exact ⟨message, List.mem_append_right _ hmem, hstatus⟩

/-- A new parser keeps nothing. -/
theorem keeps_new : Keeps 0 0 0 [] {} := ⟨rfl, rfl, rfl, fun _ => rfl, rfl, le_refl 0⟩

end RecordDirectionState

/-! ## Results -/

/-- A run of pushes comes to a batch: the messages before the first error are those of its records, in order
and numbered from 0 on, there is an error exactly when the batch ends at bytes that are at fault, and
otherwise the buffer is what the batch leaves. -/
structure ComesTo {R : Type} (P : RecordProtocol R) (stream_id : BitVec 64) (direction : FlowDirection)
    (run : RecordDirectionState × List StreamMessage) (batch : Batch UInt8 R Text) : Prop where
  messages : (run.2.takeWhile fun message => message.status ≠ .parseError) =
    P.messages stream_id direction 0 batch.records
  errors : (∃ message ∈ run.2, message.status = .parseError) ↔
    batch.fault.isSome = true ∧ batch.rest ≠ []
  kept : batch.fault = none → run.1.buffer = batch.rest

/-- The pieces of some bytes come to the batch of the bytes. -/
theorem comesTo_batch {R : Type} (P : RecordProtocol R) (stream_id : BitVec 64)
    (direction : FlowDirection) {max_buffer_bytes : ℕ} (husize : max_buffer_bytes ≤ u64Max)
    {pieces : List (List UInt8)} (hne : ∀ piece ∈ pieces, piece ≠ [])
    (hmax : pieces.flatten.length ≤ max_buffer_bytes) :
    ComesTo P stream_id direction
      (RecordDirectionState.pushAll P stream_id direction {} max_buffer_bytes pieces)
      (P.parser.batch 0 pieces.flatten) := by
  unfold u64Max at husize
  have hrun := RecordDirectionState.keeps_new.pushAll P stream_id direction P.parser.parse_nil hne
    (show 0 + pieces.flatten.length < 2^64 by omega)
    (show 0 + pieces.flatten.length ≤ max_buffer_bytes by omega)
  rw [List.nil_append] at hrun
  obtain ⟨hmessages, herrors, hkept⟩ := hrun
  refine ⟨hmessages, herrors.trans ⟨fun hfault => ⟨hfault, ?_⟩, And.left⟩, hkept⟩
  -- Nothing is at fault with no bytes.
  intro hrest
  have hparse := RecordParser.parse_rest (F := P.parser) 0 pieces.flatten
  obtain ⟨reason, hreason⟩ := Option.isSome_iff_exists.mp hfault
  rw [hrest, P.parser.parse_nil, hreason] at hparse
  cases hparse

/-- Pushing the pieces of some bytes that fit in the buffer comes to reading all of them at once, for the frames
of WebSocket as for the records of TLS. The limit of the buffer is a `usize`. -/
theorem pushAll_comesTo_batch (stream_id : BitVec 64) (direction : FlowDirection) {max_buffer_bytes : ℕ}
    (husize : max_buffer_bytes ≤ u64Max) {bytes : List UInt8} (hmax : bytes.length ≤ max_buffer_bytes)
    {pieces : List (List UInt8)} (hne : ∀ piece ∈ pieces, piece ≠ []) (hcut : pieces.flatten = bytes) :
    ComesTo websocketProtocol stream_id direction
        (WebSocketDirectionState.pushAll {} stream_id direction max_buffer_bytes pieces)
        (websocketFrames.batch 0 bytes) ∧
      ComesTo tlsProtocol stream_id direction
        (TlsDirectionState.pushAll {} stream_id direction max_buffer_bytes pieces)
        (tlsRecords.batch 0 bytes) := by
  subst hcut
  constructor
  · exact comesTo_batch websocketProtocol stream_id direction husize hne hmax
  · exact comesTo_batch tlsProtocol stream_id direction husize hne hmax

/-- A text frame with two bytes, masked, and the beginning of a ping, cut within the mask; as TLS, the bytes are
at fault. -/
theorem pushAll_comesTo_batch_text :
    let pieces : List (List UInt8) := [[0x81, 0x82, 1, 2], [3, 4, 0x69], [0x6B, 0x89]]
    ComesTo websocketProtocol 7 .aToB (WebSocketDirectionState.pushAll {} 7 .aToB 64 pieces)
        (websocketFrames.batch 0 pieces.flatten) ∧
      (WebSocketDirectionState.pushAll {} 7 .aToB 64 pieces).1.buffer = [0x89] ∧
      (TlsDirectionState.pushAll {} 7 .aToB 64 pieces).2.map (fun message => message.status) =
        [.parseError] :=
  ⟨(pushAll_comesTo_batch 7 .aToB (by decide) (by decide) (by decide) rfl).1, by decide +kernel,
    by decide +kernel⟩

end Rustmate.Message
