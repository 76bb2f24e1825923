import Mathlib.Data.List.Range
import Rustmate.Message.DnsState
import Rustmate.Message.Http1
import Rustmate.Message.Tls
import Rustmate.Message.WebSocket

/-!
# The numbers of messages

Each parser numbers its messages one after the other, and the identifier of a message is made of the stream,
the direction and the number. The mixing loses nothing: what is mixed can be told from the identifier. -/

namespace Rustmate.Message

/-! ## Identifiers -/

/-- A value xored with itself shifted right can be told from the result. -/
theorem xor_shiftRight_injective {k : ℕ} (hk : 0 < k) :
    Function.Injective fun x : BitVec 64 => x ^^^ (x >>> k) := by
  intro x y h
  dsimp only at h
  -- what tells them apart equals itself shifted right, and so is zero
  have hdiff : x ^^^ y = (x ^^^ y) >>> k := by
    rw [BitVec.ushiftRight_xor_distrib, ← BitVec.xor_eq_zero_iff]
    calc x ^^^ y ^^^ (x >>> k ^^^ y >>> k) = (x ^^^ x >>> k) ^^^ (y ^^^ y >>> k) := by ac_rfl
      _ = 0 := BitVec.xor_eq_zero_iff.mpr h
  refine BitVec.xor_eq_zero_iff.mp (BitVec.eq_of_toNat_eq ?_)
  have hnat := congrArg BitVec.toNat hdiff
  rw [BitVec.toNat_ushiftRight, Nat.shiftRight_eq_div_pow] at hnat
  by_contra hne
  exact absurd hnat.symm (Nat.ne_of_lt (Nat.div_lt_self (Nat.pos_of_ne_zero hne) (Nat.one_lt_two_pow (by omega))))

/-- A product with a factor that has an inverse can be told apart. -/
theorem mul_right_injective {factor inverse : BitVec 64} (h : factor * inverse = 1#64) :
    Function.Injective fun x : BitVec 64 => x * factor := by
  intro x y hxy
  dsimp only at hxy
  calc x = x * factor * inverse := by rw [BitVec.mul_assoc, h, BitVec.mul_one]
    _ = y * factor * inverse := by rw [hxy]
    _ = y := by rw [BitVec.mul_assoc, h, BitVec.mul_one]

/-- `splitmix64` loses nothing. -/
theorem splitmix64_injective : Function.Injective splitmix64 := by
  intro x y h
  unfold splitmix64 at h
  dsimp only at h
  have h := xor_shiftRight_injective (by omega) h
  have h := @mul_right_injective 0x94d049bb133111eb#64 0x319642b2d24d8ec3#64 (by decide) _ _ h
  have h := xor_shiftRight_injective (by omega) h
  have h := @mul_right_injective 0xbf58476d1ce4e5b9#64 0x96de1b173f119089#64 (by decide) _ _ h
  have h := xor_shiftRight_injective (by omega) h
  exact (BitVec.add_left_inj _).mp h

/-- What the number adds to the seed is even, and its half is the number and one. -/
theorem shifted_ordinal {n : ℕ} (hn : n + 1 < 2^63) : ((BitVec.ofNat 64 n + 1) <<< 1).toNat = 2 * (n + 1) := by
  have hone : BitVec.toNat (1 : BitVec 64) = 1 := rfl
  rw [BitVec.toNat_shiftLeft, BitVec.toNat_add, BitVec.toNat_ofNat, Nat.shiftLeft_eq, hone]
  omega

/-- The lowest bit of the seed, but for the stream, is that of the direction. -/
theorem shifted_ordinal_low (n : ℕ) : ((BitVec.ofNat 64 n + 1) <<< 1).getLsbD 0 = false := by
  rw [BitVec.getLsbD_shiftLeft]
  rfl

/-- Below `2^63` less one the number and the direction can be told from the identifier, where the stream is
known. -/
theorem stableMessageId_inj {stream_id : BitVec 64} {direction direction' : FlowDirection} {n n' : ℕ}
    (hn : n + 1 < 2^63) (hn' : n' + 1 < 2^63)
    (h : stableMessageId stream_id direction n = stableMessageId stream_id direction' n') :
    direction = direction' ∧ n = n' := by
  have hseed := splitmix64_injective h
  unfold messageSeed at hseed
  dsimp only at hseed
  rw [BitVec.xor_assoc, BitVec.xor_assoc, BitVec.xor_right_inj] at hseed
  have hlow := congrArg (fun x => BitVec.getLsbD x 0) hseed
  rw [BitVec.getLsbD_xor, BitVec.getLsbD_xor, shifted_ordinal_low, shifted_ordinal_low] at hlow
  have hdirection : direction = direction' := by
    cases direction with
    | aToB =>
      cases direction' with
      | aToB => rfl
      | bToA => exact absurd hlow (by decide)
    | bToA =>
      cases direction' with
      | aToB => exact absurd hlow (by decide)
      | bToA => rfl
  subst hdirection
  have hshift := congrArg BitVec.toNat ((BitVec.xor_left_inj _).mp hseed)
  rw [shifted_ordinal hn, shifted_ordinal hn'] at hshift
  exact ⟨rfl, by omega⟩

/-! ## Messages with consecutive numbers -/

/-- Messages of a direction of a stream, numbered from `n` on. -/
def Numbered (stream_id : BitVec 64) (direction : FlowDirection) : ℕ → List StreamMessage → Prop
  | _, [] => True
  | n, message :: messages =>
    message.stream_id = stream_id ∧ message.message_id = stableMessageId stream_id direction n ∧
      Numbered stream_id direction (n + 1) messages

variable {stream_id : BitVec 64} {direction : FlowDirection} {n : ℕ}

/-- One message. -/
theorem numbered_singleton {message : StreamMessage} :
    Numbered stream_id direction n [message] ↔
      message.stream_id = stream_id ∧ message.message_id = stableMessageId stream_id direction n := by
  unfold Numbered Numbered
  rw [and_true]

/-- Messages behind messages. -/
theorem numbered_append {xs ys : List StreamMessage} :
    Numbered stream_id direction n (xs ++ ys) ↔
      Numbered stream_id direction n xs ∧ Numbered stream_id direction (n + xs.length) ys := by
  induction xs generalizing n with
  | nil => exact iff_of_eq (true_and _).symm
  | cons message xs ih =>
    change _ ∧ _ ∧ Numbered stream_id direction (n + 1) (xs ++ ys) ↔ (_ ∧ _ ∧ _) ∧ _
    rw [ih, List.length_cons, Nat.add_right_comm n 1, ← Nat.add_assoc, and_assoc, and_assoc]

/-- The identifiers of the messages. -/
theorem Numbered.map_eq {messages : List StreamMessage} (h : Numbered stream_id direction n messages) :
    messages.map (fun m => (m.stream_id, m.message_id)) =
      (List.range messages.length).map fun i => (stream_id, stableMessageId stream_id direction (n + i)) := by
  induction messages generalizing n with
  | nil => rfl
  | cons message messages ih =>
    obtain ⟨hstream, hid, hrest⟩ := h
    rw [List.map_cons, List.length_cons, List.range_succ_eq_map, List.map_cons, List.map_map, hstream, hid, ih hrest,
      Nat.add_zero]
    refine congrArg (List.cons _) (List.map_congr_left fun i _ => ?_)
    rw [Function.comp_apply, Nat.succ_eq_add_one, Nat.add_right_comm, Nat.add_assoc n i 1]

/-- What a parser makes of its input: messages numbered from where it stands, and where it stands then. -/
structure Numbers (stream_id : BitVec 64) (direction : FlowDirection) (n n' : ℕ) (messages : List StreamMessage) :
    Prop where
  numbered : Numbered stream_id direction n messages
  number_eq : n' = n + messages.length

variable {n' n'' : ℕ} {messages more : List StreamMessage}

/-- No message. -/
theorem numbers_nil (stream_id : BitVec 64) (direction : FlowDirection) (n : ℕ) :
    Numbers stream_id direction n n [] := ⟨trivial, rfl⟩

/-- One message. -/
theorem numbers_singleton {message : StreamMessage} (hstream : message.stream_id = stream_id)
    (hid : message.message_id = stableMessageId stream_id direction n) :
    Numbers stream_id direction n (n + 1) [message] := ⟨numbered_singleton.mpr ⟨hstream, hid⟩, rfl⟩

/-- One part of the input after the other. -/
theorem Numbers.append (h : Numbers stream_id direction n n' messages)
    (hmore : Numbers stream_id direction n' n'' more) :
    Numbers stream_id direction n n'' (messages ++ more) := by
  obtain ⟨hnumbered, rfl⟩ := h
  refine ⟨numbered_append.mpr ⟨hnumbered, hmore.numbered⟩, ?_⟩
  rw [hmore.number_eq, List.length_append, Nat.add_assoc]

/-! ## Records -/

/-- The messages of a kind of records have the identifier of their number. -/
def RecordProtocol.Identified {R : Type} (P : RecordProtocol R) : Prop :=
  ∀ stream_id direction ordinal logical_start header_end logical_end record,
    let message := P.message stream_id direction ordinal logical_start header_end logical_end record
    message.stream_id = stream_id ∧ message.message_id = stableMessageId stream_id direction ordinal

/-- WebSocket frames do. -/
theorem websocketProtocol_identified : websocketProtocol.Identified := fun _ _ _ _ _ _ _ => ⟨rfl, rfl⟩

/-- TLS records do. -/
theorem tlsProtocol_identified : tlsProtocol.Identified := fun _ _ _ _ _ _ _ => ⟨rfl, rfl⟩

namespace RecordDirectionState

variable {R : Type} {P : RecordProtocol R} {self : RecordDirectionState}

/-- Cutting the buffer hands out no number. -/
theorem drainFront_next_ordinal (self : RecordDirectionState) (count : ℕ) :
    (self.drainFront count).next_ordinal = self.next_ordinal := by
  unfold drainFront
  split_ifs
  · rfl
  · rfl

/-- An error takes a number. -/
theorem parseError_numbers (hroom : self.next_ordinal + 1 < 2^64) (reason : Text) :
    Numbers stream_id direction self.next_ordinal (self.parseError P stream_id direction reason).1.next_ordinal
      [(self.parseError P stream_id direction reason).2] := by
  have hcount : (self.parseError P stream_id direction reason).1.next_ordinal = self.next_ordinal + 1 :=
    saturatingAdd_eq hroom
  rw [hcount]
  exact numbers_singleton rfl rfl

/-- The loop numbers its messages. -/
theorem parseLoop_numbers (hP : P.Identified) {fuel : ℕ}
    (hroom : self.next_ordinal + (parseLoop P stream_id direction fuel self).2.length < 2^64) :
    Numbers stream_id direction self.next_ordinal (parseLoop P stream_id direction fuel self).1.next_ordinal
      (parseLoop P stream_id direction fuel self).2 := by
  induction fuel generalizing self with
  | zero => exact numbers_nil _ _ _
  | succ fuel ih =>
    unfold parseLoop at hroom ⊢
    cases hparse : P.parser.parse self.buffer with
    | incomplete => exact numbers_nil _ _ _
    | invalid reason =>
      rw [hparse] at hroom
      exact parseError_numbers hroom reason
    | complete record =>
      rw [hparse] at hroom
      dsimp only at hroom ⊢
      obtain ⟨hstream, hid⟩ := hP stream_id direction self.next_ordinal self.buffer_start
        (saturatingAdd self.buffer_start (P.header_len record)) (saturatingAdd self.buffer_start (P.parser.size record))
        record
      have hnext : self.next_ordinal + 1 < 2^64 →
          (self.countOrdinal.drainFront (P.parser.size record)).next_ordinal = self.next_ordinal + 1 := by
        intro hroom
        rw [drainFront_next_ordinal]
        exact saturatingAdd_eq hroom
      by_cases hempty : (self.countOrdinal.drainFront (P.parser.size record)).buffer.isEmpty = true
      · rw [if_pos hempty] at hroom ⊢
        rw [hnext hroom]
        exact numbers_singleton hstream hid
      · rw [if_neg hempty] at hroom ⊢
        rw [List.length_cons] at hroom
        have hrest := ih (by rw [hnext (by omega)]; omega)
        rw [hnext (by omega)] at hrest
        exact (numbers_singleton hstream hid).append hrest

/-- A push numbers its messages. -/
theorem push_numbers (hP : P.Identified) {bytes : List UInt8} {max_buffer_bytes : ℕ}
    (hroom : self.next_ordinal + (push P stream_id direction self bytes max_buffer_bytes).2.length < 2^64) :
    Numbers stream_id direction self.next_ordinal
      (push P stream_id direction self bytes max_buffer_bytes).1.next_ordinal
      (push P stream_id direction self bytes max_buffer_bytes).2 := by
  unfold push at hroom ⊢
  by_cases hempty : bytes.isEmpty = true
  · rw [if_pos hempty]
    exact numbers_nil _ _ _
  rw [if_neg hempty] at hroom ⊢
  dsimp only at hroom ⊢
  have hstart : (if self.buffer.isEmpty then { self with buffer_start := self.next_logical } else self).next_ordinal =
      self.next_ordinal := by
    split_ifs
    · rfl
    · rfl
  generalize (if self.buffer.isEmpty then { self with buffer_start := self.next_logical } else self) = started at *
  rw [← hstart] at hroom ⊢
  by_cases hlong : max_buffer_bytes < (started.buffer ++ bytes).length
  · rw [if_pos hlong] at hroom ⊢
    exact @parseError_numbers _ _ _ _ { started with
      next_logical := saturatingAdd started.next_logical bytes.length, buffer := started.buffer ++ bytes } hroom _
  · rw [if_neg hlong] at hroom ⊢
    exact @parseLoop_numbers _ _ _ _ { started with
      next_logical := saturatingAdd started.next_logical bytes.length, buffer := started.buffer ++ bytes } hP _ hroom

end RecordDirectionState

/-- WebSocket frames are numbered. -/
theorem WebSocketDirectionState.push_numbers {self : WebSocketDirectionState} {bytes : List UInt8} {max_buffer_bytes : ℕ}
    (hroom : self.next_ordinal + (self.push stream_id direction bytes max_buffer_bytes).2.length < 2^64) :
    Numbers stream_id direction self.next_ordinal (self.push stream_id direction bytes max_buffer_bytes).1.next_ordinal
      (self.push stream_id direction bytes max_buffer_bytes).2 :=
  RecordDirectionState.push_numbers websocketProtocol_identified hroom

/-- TLS records are numbered. -/
theorem TlsDirectionState.push_numbers {self : TlsDirectionState} {bytes : List UInt8} {max_buffer_bytes : ℕ}
    (hroom : self.next_ordinal + (self.push stream_id direction bytes max_buffer_bytes).2.length < 2^64) :
    Numbers stream_id direction self.next_ordinal (self.push stream_id direction bytes max_buffer_bytes).1.next_ordinal
      (self.push stream_id direction bytes max_buffer_bytes).2 :=
  RecordDirectionState.push_numbers tlsProtocol_identified hroom

/-! ## Datagrams -/

/-- A datagram makes one message. -/
theorem DnsDirectionState.parseDatagram_numbers {self : DnsDirectionState} {bytes : List UInt8}
    (hroom : self.next_ordinal + 1 < 2^64) :
    Numbers stream_id direction self.next_ordinal (self.parseDatagram stream_id direction bytes).1.next_ordinal
      [(self.parseDatagram stream_id direction bytes).2] := by
  unfold parseDatagram
  dsimp only
  rw [saturatingAdd_eq hroom]
  cases parseDnsMessage bytes with
  | ok dns => exact numbers_singleton rfl rfl
  | error error => exact numbers_singleton rfl rfl

/-! ## HTTP/1

A message whose body goes on has its number from its head on. -/

namespace Http1DirectionState

/-- The number of the next message that comes out. -/
def number (self : Http1DirectionState) : ℕ :=
  match self.pending with
  | none => self.next_ordinal
  | some pending => pending.ordinal

/-- A message whose body goes on was the last one to get a number. -/
def Coherent (self : Http1DirectionState) : Prop := ∀ pending ∈ self.pending, self.next_ordinal = pending.ordinal + 1

/-- A state without such a message, at a number. -/
structure Idle (state : Http1DirectionState) (n : ℕ) : Prop where
  pending : state.pending = none
  next_ordinal : state.next_ordinal = n

/-- What a part of a push comes to. -/
structure Goes (stream_id : BitVec 64) (direction : FlowDirection) (n : ℕ) (after : Http1DirectionState)
    (messages : List StreamMessage) : Prop where
  numbers : Numbers stream_id direction n after.number messages
  coherent : after.Coherent

variable {self : Http1DirectionState}

/-- An idle state stands at its number. -/
theorem Idle.number_eq (h : self.Idle n) : self.number = n := by
  unfold number
  rw [h.pending]
  exact h.next_ordinal

/-- An idle state is coherent. -/
theorem Idle.coherent (h : self.Idle n) : self.Coherent := by
  intro pending hpending
  rw [h.pending] at hpending
  exact absurd hpending (Option.not_mem_none _)

/-- A part that ends in an idle state. -/
theorem Idle.goes (hidle : self.Idle n') (h : Numbers stream_id direction n n' messages) :
    Goes stream_id direction n self messages := ⟨by rw [hidle.number_eq]; exact h, hidle.coherent⟩

/-- Cutting the buffer hands out no number. -/
theorem Idle.drainFront (h : self.Idle n) (count : ℕ) : (self.drainFront count).Idle n := by
  unfold Http1DirectionState.drainFront
  split_ifs
  · exact ⟨h.pending, h.next_ordinal⟩
  · exact ⟨h.pending, h.next_ordinal⟩

/-- Looking for another start hands out no number. -/
theorem Idle.resyncOrClear (h : self.Idle n) : self.resyncOrClear.Idle n := by
  unfold Http1DirectionState.resyncOrClear
  split
  · exact h.drainFront _
  · exact ⟨h.pending, h.next_ordinal⟩

/-- A number is handed out. -/
theorem Idle.countOrdinal (h : self.Idle n) (hroom : n + 1 < 2^64) : self.countOrdinal.Idle (n + 1) := by
  refine ⟨h.pending, ?_⟩
  change saturatingAdd self.next_ordinal 1 = n + 1
  rw [h.next_ordinal, saturatingAdd_eq hroom]

/-- An error takes a number. -/
theorem Idle.parseError (h : self.Idle n) (reason : Text) :
    Numbers stream_id direction n (n + 1) [(self.parseError stream_id direction reason).2] := by
  obtain ⟨-, rfl⟩ := h
  exact numbers_singleton rfl rfl

/-- A message takes a number. -/
theorem Idle.emitFront (h : self.Idle n) (context : Http1ParseContext) (head : Http1Head)
    (body_start body_len consumed : ℕ) :
    Numbers context.stream_id context.direction n (n + 1)
      [(self.emitFront context head body_start body_len consumed).2] := by
  obtain ⟨-, rfl⟩ := h
  exact numbers_singleton rfl rfl

/-- A turn of the loop: no number, or one. Where the loop goes on, the state is idle. -/
theorem Idle.parseStep (h : self.Idle n) (hroom : n + 1 < 2^64) (context : Http1ParseContext) :
    let r := self.parseStep context
    Goes context.stream_id context.direction n r.1 r.2.1 ∧ (r.2.2 = true → r.1.Idle (n + r.2.1.length)) := by
  have hcount := h.countOrdinal hroom
  have hnothing : Numbers context.stream_id context.direction n n [] := numbers_nil _ _ _
  unfold Http1DirectionState.parseStep
  by_cases hempty : self.buffer.isEmpty = true
  · rw [if_pos hempty]
    exact ⟨h.goes hnothing, nofun⟩
  rw [if_neg hempty]
  by_cases hlooks : (!looksLikeHttpPrefix self.buffer) = true
  · rw [if_pos hlooks]
    exact ⟨h.resyncOrClear.goes hnothing, fun _ => h.resyncOrClear⟩
  rw [if_neg hlooks]
  by_cases hlong : context.max_buffer_bytes < self.buffer.length
  · rw [if_pos hlong]
    exact ⟨Idle.goes ⟨hcount.pending, hcount.next_ordinal⟩ (h.parseError _), nofun⟩
  rw [if_neg hlong]
  cases findHeaderEnd self.buffer with
  | none =>
    dsimp only
    by_cases hheader : context.max_header_bytes < self.buffer.length
    · rw [if_pos hheader]
      exact ⟨Idle.goes ⟨hcount.pending, hcount.next_ordinal⟩ (h.parseError _), nofun⟩
    · rw [if_neg hheader]
      exact ⟨h.goes hnothing, nofun⟩
  | some ends =>
    obtain ⟨header_len, header_total_len⟩ := ends
    dsimp only
    cases parseHttp1Head (self.buffer.take header_len) with
    | error err => exact ⟨(hcount.drainFront _).goes (h.parseError err), fun _ => hcount.drainFront _⟩
    | ok head =>
      dsimp only
      cases bodyFraming head with
      | none => exact ⟨(hcount.drainFront _).goes (h.emitFront context _ _ _ _), fun _ => hcount.drainFront _⟩
      | chunked =>
        dsimp only
        cases findChunkedBodyEnd (self.buffer.drop header_total_len) with
        | complete chunked =>
          exact ⟨(hcount.drainFront _).goes (h.emitFront context _ _ _ _), fun _ => hcount.drainFront _⟩
        | incomplete => exact ⟨h.goes hnothing, nofun⟩
        | invalid reason => exact ⟨(hcount.drainFront _).goes (h.parseError reason), fun _ => hcount.drainFront _⟩
      | contentLength body_len =>
        dsimp only
        by_cases hbody : self.buffer.length - header_total_len < body_len
        · -- the number is handed out, and the message is to come
          rw [if_pos hbody]
          refine ⟨⟨?_, ?_⟩, nofun⟩
          · change Numbers _ _ n self.next_ordinal []
            rw [h.next_ordinal]
            exact hnothing
          · intro pending hpending
            obtain rfl := Option.some.inj hpending
            change self.countOrdinal.next_ordinal = self.next_ordinal + 1
            rw [hcount.next_ordinal, h.next_ordinal]
        · rw [if_neg hbody]
          exact ⟨(hcount.drainFront _).goes (h.emitFront context _ _ _ _), fun _ => hcount.drainFront _⟩

/-- The loop numbers its messages. -/
theorem Idle.parseLoop (h : self.Idle n) (context : Http1ParseContext) {fuel : ℕ}
    (hroom : n + (Http1DirectionState.parseLoop context fuel self).2.length + 1 < 2^64) :
    Goes context.stream_id context.direction n (Http1DirectionState.parseLoop context fuel self).1
      (Http1DirectionState.parseLoop context fuel self).2 := by
  induction fuel generalizing self n with
  | zero => exact h.goes (numbers_nil _ _ _)
  | succ fuel ih =>
    obtain ⟨hgoes, hidle⟩ := h.parseStep (by omega) context
    unfold Http1DirectionState.parseLoop at hroom ⊢
    generalize self.parseStep context = step at *
    rcases step with ⟨after, messages, _ | _⟩
    · exact hgoes
    · dsimp only at hroom hgoes hidle ⊢
      have hafter := hidle rfl
      rw [List.length_append] at hroom
      have hrest := ih hafter (by omega)
      have hnumbers := hgoes.numbers
      rw [hafter.number_eq] at hnumbers
      exact ⟨hnumbers.append hrest.numbers, hrest.coherent⟩

/-- What is appended to the buffer is parsed. -/
theorem Idle.appendInput (h : self.Idle n) (context : Http1ParseContext) {input : List UInt8} {input_start : ℕ}
    (hroom : n + (self.appendInput context input input_start).2.length + 1 < 2^64) :
    Goes context.stream_id context.direction n (self.appendInput context input input_start).1
      (self.appendInput context input input_start).2 := by
  unfold Http1DirectionState.appendInput at hroom ⊢
  cases hinput : self.httpInput input with
  | none => exact h.goes (numbers_nil _ _ _)
  | some part =>
    rw [hinput] at hroom
    dsimp only at hroom ⊢
    have hstarted : (if self.buffer.isEmpty then { self with buffer_start := saturatingAdd input_start part.1 }
        else self).Idle n := by
      split_ifs
      · exact ⟨h.pending, h.next_ordinal⟩
      · exact h
    generalize (if self.buffer.isEmpty then { self with buffer_start := saturatingAdd input_start part.1 }
      else self) = started at *
    unfold parseBuffer at hroom ⊢
    have hfull : Idle { started with buffer := started.buffer ++ part.2 } n :=
      ⟨hstarted.pending, hstarted.next_ordinal⟩
    exact hfull.parseLoop context hroom

/-- A push numbers its messages from where the state stands. -/
theorem push_goes (h : self.Coherent) (context : Http1ParseContext) {bytes : List UInt8}
    (hroom : self.number + (self.push context bytes).2.length + 1 < 2^64) :
    Goes context.stream_id context.direction self.number (self.push context bytes).1 (self.push context bytes).2 := by
  unfold Http1DirectionState.push at hroom ⊢
  by_cases hempty : bytes.isEmpty = true
  · rw [if_pos hempty]
    exact ⟨numbers_nil _ _ _, h⟩
  rw [if_neg hempty] at hroom ⊢
  dsimp only at hroom ⊢
  cases hpending : self.pending with
  | none =>
    rw [hpending] at hroom
    have hidle : Idle { self with next_logical := saturatingAdd self.next_logical bytes.length, pending := none }
        self.number := by
      refine ⟨rfl, ?_⟩
      unfold number
      rw [hpending]
    dsimp only at hroom ⊢
    exact hidle.appendInput context hroom
  | some pending =>
    rw [hpending] at hroom
    have hnumber : self.number = pending.ordinal := by
      unfold number
      rw [hpending]
    have hnext : self.next_ordinal = pending.ordinal + 1 := h pending hpending
    dsimp only at hroom ⊢
    rw [hnumber] at hroom ⊢
    by_cases hlast : pending.remaining - min pending.remaining bytes.length = 0
    · rw [if_pos hlast] at hroom ⊢
      -- the body is complete
      have hmessage : Numbers context.stream_id context.direction pending.ordinal (pending.ordinal + 1)
          [pending.complete context.stream_id context.direction] := numbers_singleton rfl rfl
      have hidle : Idle { self with
          next_logical := saturatingAdd self.next_logical bytes.length, pending := none } (pending.ordinal + 1) :=
        ⟨rfl, hnext⟩
      by_cases hrest : (bytes.drop (min pending.remaining bytes.length)).isEmpty = true
      · rw [if_pos hrest]
        exact hidle.goes hmessage
      · rw [if_neg hrest] at hroom ⊢
        dsimp only at hroom ⊢
        rw [List.length_cons] at hroom
        have hgoes := @Idle.appendInput _ _ hidle context (bytes.drop (min pending.remaining bytes.length))
          (saturatingAdd self.next_logical (min pending.remaining bytes.length)) (by omega)
        exact ⟨hmessage.append hgoes.numbers, hgoes.coherent⟩
    · rw [if_neg hlast]
      refine ⟨numbers_nil _ _ _, fun other hother => ?_⟩
      obtain rfl := Option.some.inj hother
      exact hnext

end Http1DirectionState

end Rustmate.Message
