import Mathlib.Data.List.Chain
import Rustmate.Analyzer.Http
import Rustmate.Message.HttpFraming

/-!
# Where messages start

The sequence number that the HTTP analyzer publishes with a message against the place of its head in the
stream. The numbers are set at four places; a ghost beside the state counts the bytes of the stream, and
remembers whether the head in the buffer was begun behind a body that ended inside its chunk. There the number
is that of the chunk and not of the head. -/

namespace Rustmate.Analyzer

open Events (Value)
open Rustmate.Flow (StreamChunk)
open Message

/-! ## The fields of a message -/

/-- An assignment to another field. -/
theorem get_assignField {fields : List (Text × Value)} {name other : String} (value : Value)
    (hne : name.toList ≠ other.toList) :
    (assignField (.object fields) name value).get other = (Value.object fields).get other := by
  unfold assignField insertField Value.get
  dsimp only
  rw [List.lookup_append]
  have hlast : List.lookup other.toList [(name.toList, value)] = none := by
    rw [List.lookup_cons, beq_false_of_ne (Ne.symm hne)]
    rfl
  rw [hlast, Option.or_none]
  induction fields with
  | nil => rfl
  | cons field fields ih =>
    by_cases hfield : field.1 = name.toList
    · rw [List.filter_cons_of_neg (by simpa using hfield), ih, List.lookup_cons, hfield,
        beq_false_of_ne (Ne.symm hne)]
    · rw [List.filter_cons_of_pos (by simpa using hfield), List.lookup_cons, List.lookup_cons, ih]

/-- What is read of a message that was parsed: the start that was given, and the length of the head. -/
structure HttpMessage.Of (message : HttpMessage) (header_len : ℕ) (start : Option (BitVec 32)) : Prop where
  fields : ∃ fields, message.fields = .object fields
  start : message.fields.get "stream_sequence_start" = some (sequenceValue start)
  header_len : message.header_len = header_len

/-- A request has the start that was given, which does not decide whether it is one. -/
theorem parseRequest_spec (line : Text) (headers : List (Text × Value)) (header_len : ℕ) (content_length : Option ℕ)
    (start : Option (BitVec 32)) :
    (parseRequest line headers header_len content_length start).isSome =
        (parseRequest line headers header_len content_length none).isSome ∧
      ∀ message ∈ parseRequest line headers header_len content_length start, message.Of header_len start := by
  unfold parseRequest
  rcases splitAsciiWhitespace line with _ | ⟨method, _ | ⟨target, parts⟩⟩
  · exact ⟨rfl, fun message h => nomatch h⟩
  · dsimp only
    cases isHttpMethod method with
    | false => exact ⟨rfl, fun message h => nomatch h⟩
    | true => exact ⟨rfl, fun message h => nomatch h⟩
  · dsimp only
    cases isHttpMethod method with
    | false => exact ⟨rfl, fun message h => nomatch h⟩
    | true =>
      refine ⟨rfl, fun message h => ?_⟩
      obtain rfl := Option.some.inj h
      exact ⟨⟨_, rfl⟩, rfl, rfl⟩

/-- A response has the start that was given, which does not decide whether it is one. -/
theorem parseResponse_spec (line : Text) (headers : List (Text × Value)) (header_len : ℕ) (content_length : Option ℕ)
    (start : Option (BitVec 32)) :
    (parseResponse line headers header_len content_length start).isSome =
        (parseResponse line headers header_len content_length none).isSome ∧
      ∀ message ∈ parseResponse line headers header_len content_length start, message.Of header_len start := by
  unfold parseResponse
  cases splitOnce ' ' line with
  | none => exact ⟨rfl, fun message h => nomatch h⟩
  | some parts =>
    dsimp only
    cases fromStrRadix 10 (2^16 - 1) ((splitOnce ' ' parts.2).getD (parts.2, [])).1 with
    | none => exact ⟨rfl, fun message h => nomatch h⟩
    | some status_code =>
      refine ⟨rfl, fun message h => ?_⟩
      obtain rfl := Option.some.inj h
      exact ⟨⟨_, rfl⟩, rfl, rfl⟩

/-- A message has the start that was given, which does not decide whether it is one. -/
theorem parseHttpHeader_spec (header : List UInt8) (start : Option (BitVec 32)) :
    (parseHttpHeader header start).isSome = (parseHttpHeader header none).isSome ∧
      ∀ message ∈ parseHttpHeader header start, message.Of header.length start := by
  unfold parseHttpHeader
  cases fromUtf8 header with
  | none => exact ⟨rfl, fun message h => nomatch h⟩
  | some text =>
    dsimp only
    rcases Transform.lines text with _ | ⟨line, lines⟩
    · exact ⟨rfl, fun message h => nomatch h⟩
    · dsimp only
      generalize lines.foldl headerLine ([], none) = read
      cases "HTTP/".toList.isPrefixOf (trimCr line) with
      | false => exact parseRequest_spec _ _ _ _ _
      | true => exact parseResponse_spec _ _ _ _ _

/-! ## The ghost -/

/-- A message, and the offset in the stream of the first byte of its head. -/
structure PlacedMessage where
  offset : ℕ
  message : HttpMessage

/-- The sequence number that is published with the message is that of the first byte of its head. -/
def PlacedMessage.Exact (first : BitVec 32) (placed : PlacedMessage) : Prop :=
  placed.message.fields.get "stream_sequence_start" =
    some (sequenceValue (some (first + BitVec.ofNat 32 placed.offset)))

/-- At the offset the stream has the head that the message was parsed from. -/
def PlacedMessage.Heads (stream : List UInt8) (placed : PlacedMessage) : Prop :=
  ∃ start message, parseHttpHeader ((stream.drop placed.offset).take placed.message.header_len) start = some message ∧
    placed.message = message.expecting (message.content_length.getD 0)

/-- A head is still there when the stream goes on. -/
theorem PlacedMessage.Heads.append {stream : List UInt8} {placed : PlacedMessage} (h : placed.Heads stream)
    (hle : placed.offset + placed.message.header_len ≤ stream.length) (rest : List UInt8) :
    placed.Heads (stream ++ rest) := by
  obtain ⟨start, message, hparse, heq⟩ := h
  refine ⟨start, message, ?_, heq⟩
  rw [List.drop_append_of_le_length (by omega), List.take_append_of_le_length (by rw [List.length_drop]; omega)]
  exact hparse

namespace HttpStreamState

/-- The messages of the loop of `push`, each with the offset of the buffer at its turn. The buffer ends with
the `total` bytes of the stream so far. -/
def placeLoop (sequence_end : BitVec 32) (total : ℕ) : ℕ → HttpStreamState → List PlacedMessage
  | 0, _ => []
  | fuel + 1, self =>
    match turn sequence_end self with
    | none => []
    | some (after, none) => placeLoop sequence_end total fuel after
    | some (after, some message) =>
      ⟨total - self.buffer.length, message⟩ ::
        if after.skip_body_remaining ≠ 0 then [] else placeLoop sequence_end total fuel after

/-- The state in which the loop of `push` begins, where the body that is skipped ends inside the chunk. -/
def takeIn (self : HttpStreamState) (chunk : StreamChunk) : HttpStreamState where
  buffer := self.buffer ++ chunk.bytes.drop self.skip_body_remaining
  skip_body_remaining := 0
  message_sequence_start :=
    if self.buffer.isEmpty then some chunk.sequence_start else self.message_sequence_start

/-- The messages of a chunk, each with the offset of its head. -/
def place (self : HttpStreamState) (chunk : StreamChunk) (max_header_bytes total : ℕ) : List PlacedMessage :=
  let taken := self.takeIn chunk
  if chunk.bytes.length ≤ self.skip_body_remaining ∨ max_header_bytes < taken.buffer.length then []
  else placeLoop chunk.sequence_end (total + chunk.bytes.length) (taken.buffer.length + 1) taken

/-- `push` by its cases: all of the chunk is skipped, the buffer would be too long, or heads are cut from it. -/
theorem push_eq (self : HttpStreamState) (chunk : StreamChunk) (max_header_bytes : ℕ) :
    self.push chunk max_header_bytes =
      if chunk.bytes.length ≤ self.skip_body_remaining then
        ({ self with skip_body_remaining := self.skip_body_remaining - chunk.bytes.length }, [])
      else if max_header_bytes < (self.takeIn chunk).buffer.length then ({}, [])
      else cutLoop chunk.sequence_end ((self.takeIn chunk).buffer.length + 1) (self.takeIn chunk) := by
  unfold push takeIn
  dsimp only
  by_cases hskip : chunk.bytes.length ≤ self.skip_body_remaining
  · have hempty : (chunk.bytes.drop (min self.skip_body_remaining chunk.bytes.length)).isEmpty = true := by
      rw [Nat.min_eq_right hskip, List.drop_length]
      rfl
    rw [if_pos hskip, if_pos hempty, Nat.min_eq_right hskip]
  · have hlt := Nat.lt_of_not_le hskip
    have hne : (chunk.bytes.drop self.skip_body_remaining).isEmpty = false := by
      rw [List.isEmpty_eq_false_iff, ← List.length_pos_iff, List.length_drop]
      omega
    rw [if_neg hskip, Nat.min_eq_left (Nat.le_of_lt hlt), hne, Nat.sub_self]
    rfl

/-- The ghost has the messages of the loop. -/
theorem placeLoop_messages (sequence_end : BitVec 32) (total fuel : ℕ) (self : HttpStreamState) :
    (placeLoop sequence_end total fuel self).map (fun placed => placed.message) = (cutLoop sequence_end fuel self).2 := by
  induction fuel generalizing self with
  | zero => rfl
  | succ fuel ih =>
    unfold placeLoop cutLoop
    rcases turn sequence_end self with _ | ⟨after, _ | message⟩
    · rfl
    · exact ih after
    · dsimp only
      by_cases hskip : after.skip_body_remaining ≠ 0
      · rw [if_pos hskip, if_pos hskip]
        rfl
      · rw [if_neg hskip, if_neg hskip, List.map_cons, ih after]

/-- The ghost has the messages of the chunk. -/
theorem place_messages (self : HttpStreamState) (chunk : StreamChunk) (max_header_bytes total : ℕ) :
    (self.place chunk max_header_bytes total).map (fun placed => placed.message) =
      (self.push chunk max_header_bytes).2 := by
  rw [push_eq]
  unfold place
  dsimp only
  by_cases hskip : chunk.bytes.length ≤ self.skip_body_remaining
  · rw [if_pos (.inl hskip), if_pos hskip]
    rfl
  · rw [if_neg hskip]
    by_cases hlong : max_header_bytes < (self.takeIn chunk).buffer.length
    · rw [if_pos (.inr hlong), if_pos hlong]
      rfl
    · rw [if_neg (not_or.mpr ⟨hskip, hlong⟩), if_neg hlong, placeLoop_messages]

/-! ## A turn -/

/-- The start of the buffer is the sequence number of its first byte, where it ends with the `total` bytes so
far. -/
def StartsAt (first : BitVec 32) (total : ℕ) (self : HttpStreamState) : Prop :=
  self.buffer ≠ [] →
    self.message_sequence_start = some (first + BitVec.ofNat 32 (total - self.buffer.length))

/-- The end of the chunk places the buffer. -/
theorem startBefore_eq {first : BitVec 32} {total : ℕ} {buffer : List UInt8} (hne : buffer ≠ [])
    (hle : buffer.length ≤ total) :
    startBefore (first + BitVec.ofNat 32 total) buffer =
      some (first + BitVec.ofNat 32 (total - buffer.length)) := by
  unfold startBefore
  rw [if_neg (by rw [List.isEmpty_iff]; exact hne)]
  have hsplit : BitVec.ofNat 32 total = BitVec.ofNat 32 (total - buffer.length) + BitVec.ofNat 32 buffer.length := by
    rw [← BitVec.ofNat_add, Nat.sub_add_cancel hle]
  rw [hsplit, ← BitVec.add_assoc, BitVec.add_sub_cancel]

/-- What a turn makes of the state: it cuts a head from the buffer, and what follows has its start from the
end of the chunk. -/
structure Turned (sequence_end : BitVec 32) (before after : HttpStreamState) (found : Option HttpMessage) : Prop where
  cut : ∃ header_len header_end n, findHeaderEnd before.buffer = some (header_len, header_end) ∧
    header_len < header_end ∧ header_end ≤ n ∧ n ≤ before.buffer.length ∧ after.buffer = before.buffer.drop n ∧
    found = (parseHttpHeader (before.buffer.take header_len) before.message_sequence_start).map fun message =>
      message.expecting (message.content_length.getD 0)
  skipping : after.skip_body_remaining ≠ 0 → after.buffer = []
  start : after.skip_body_remaining = 0 → after.message_sequence_start = startBefore sequence_end after.buffer
  bodiless : found = none → after.skip_body_remaining = 0

/-- A turn cuts a head. -/
theorem turn_turned {sequence_end : BitVec 32} {self after : HttpStreamState} {found : Option HttpMessage}
    (hskip : self.skip_body_remaining = 0) (h : turn sequence_end self = some (after, found)) :
    Turned sequence_end self after found := by
  unfold turn at h
  cases hfind : findHeaderEnd self.buffer with
  | none =>
    rw [hfind] at h
    exact nomatch h
  | some ends =>
    obtain ⟨header_len, header_end⟩ := ends
    obtain ⟨hlt, hle⟩ := findHeaderEnd_bounds hfind
    rw [hfind] at h
    dsimp only at h
    cases hparse : parseHttpHeader (self.buffer.take header_len) self.message_sequence_start with
    | none =>
      rw [hparse] at h
      obtain ⟨rfl, rfl⟩ := Prod.mk.inj (Option.some.inj h)
      refine ⟨⟨header_len, header_end, header_end, hfind, hlt, Nat.le_refl _, hle, rfl, ?_⟩,
        fun hne => absurd hskip hne, fun _ => rfl, fun _ => hskip⟩
      rw [hparse]
      rfl
    | some message =>
      rw [hparse] at h
      obtain ⟨rfl, rfl⟩ := Prod.mk.inj (Option.some.inj h)
      generalize hbody : message.content_length.getD 0 = body_len
      have hn : header_end + min body_len (self.buffer.length - header_end) ≤ self.buffer.length := by omega
      by_cases hrest : body_len - min body_len (self.buffer.length - header_end) ≠ 0
      · rw [if_pos hrest]
        have hall : header_end + min body_len (self.buffer.length - header_end) = self.buffer.length := by omega
        refine ⟨⟨header_len, header_end, _, hfind, hlt, Nat.le_add_right _ _, hn, rfl, ?_⟩, fun _ => ?_,
          fun hzero => absurd hzero hrest, nofun⟩
        · rw [hparse, Option.map_some, hbody]
        · dsimp only
          rw [hall, List.drop_length]
      · rw [if_neg hrest]
        refine ⟨⟨header_len, header_end, _, hfind, hlt, Nat.le_add_right _ _, hn, rfl, ?_⟩,
          fun hne => absurd hne hrest, fun _ => rfl, nofun⟩
        rw [hparse, Option.map_some, hbody]

/-- Whether the buffer begins with a whole head, and it is that of a message. -/
def beginsMessage (buffer : List UInt8) : Bool :=
  (findHeaderEnd buffer).any fun ends => (parseHttpHeader (buffer.take ends.1) none).isSome

/-- A turn finds a message if the buffer begins with one. -/
theorem Turned.isSome_eq {sequence_end : BitVec 32} {self after : HttpStreamState} {found : Option HttpMessage}
    (h : Turned sequence_end self after found) : found.isSome = beginsMessage self.buffer := by
  obtain ⟨header_len, header_end, n, hfind, -, -, -, -, hfound⟩ := h.cut
  unfold beginsMessage
  rw [hfound, hfind, Option.isSome_map, (parseHttpHeader_spec _ _).1]
  rfl

/-- The message of a turn: its head is where the buffer begins, and its start is that of the state. -/
theorem Turned.message {sequence_end : BitVec 32} {self after : HttpStreamState} {message : HttpMessage}
    {stream : List UInt8} (h : Turned sequence_end self after (some message)) (hsuffix : self.buffer <:+ stream) :
    PlacedMessage.Heads stream ⟨stream.length - self.buffer.length, message⟩ ∧
      message.fields.get "stream_sequence_start" = some (sequenceValue self.message_sequence_start) ∧
      stream.length - self.buffer.length + message.header_len ≤ stream.length - after.buffer.length ∧
      after.buffer.length ≤ self.buffer.length := by
  obtain ⟨header_len, header_end, n, -, hlt, hn, hle, hbuffer, hfound⟩ := h.cut
  obtain ⟨parsed, hparsed, rfl⟩ := Option.map_eq_some_iff.mp hfound.symm
  obtain ⟨⟨fields, hfields⟩, hstart, hlen⟩ := (parseHttpHeader_spec _ _).2 parsed hparsed
  have hheader : (parsed.expecting (parsed.content_length.getD 0)).header_len = header_len := by
    change parsed.header_len = header_len
    rw [hlen, List.length_take]
    omega
  have hstream := hsuffix.length_le
  have hdrop : stream.drop (stream.length - self.buffer.length) = self.buffer := (List.suffix_iff_eq_drop.mp hsuffix).symm
  refine ⟨⟨self.message_sequence_start, parsed, ?_, rfl⟩, ?_, ?_, ?_⟩
  · dsimp only
    rw [hdrop, hheader]
    exact hparsed
  · unfold HttpMessage.expecting
    dsimp only
    rw [hfields] at hstart ⊢
    rw [get_assignField _ (by decide +kernel)]
    exact hstart
  · rw [hheader, hbuffer, List.length_drop]
    omega
  · rw [hbuffer, List.length_drop]
    omega

/-- Behind a turn the start is that of the buffer. -/
theorem Turned.startsAt {first : BitVec 32} {total : ℕ} {self after : HttpStreamState} {found : Option HttpMessage}
    (h : Turned (first + BitVec.ofNat 32 total) self after found) (hle : self.buffer.length ≤ total) :
    StartsAt first total after := by
  intro hne
  obtain ⟨header_len, header_end, n, -, -, -, -, hbuffer, -⟩ := h.cut
  have hskip : after.skip_body_remaining = 0 := by
    by_contra hskip
    exact hne (h.skipping hskip)
  rw [h.start hskip]
  refine startBefore_eq hne ?_
  rw [hbuffer, List.length_drop]
  omega

/-- What the loop comes to, on a buffer that ends the stream so far. -/
structure CutFrom (first : BitVec 32) (stream : List UInt8) (before after : HttpStreamState)
    (placed : List PlacedMessage) : Prop where
  suffix : after.buffer <:+ before.buffer
  skipping : after.skip_body_remaining ≠ 0 → after.buffer = []
  unfinished : findHeaderEnd after.buffer = none
  idle : findHeaderEnd before.buffer = none → after = before
  startsAt : (findHeaderEnd before.buffer).isSome ∨ StartsAt first stream.length before → StartsAt first stream.length after
  heads : ∀ p ∈ placed, p.Heads stream
  within : ∀ p ∈ placed, stream.length - before.buffer.length ≤ p.offset ∧
    p.offset + p.message.header_len ≤ stream.length - after.buffer.length
  ordered : placed.Pairwise fun a b => a.offset + a.message.header_len ≤ b.offset
  exact_iff : (∀ p ∈ placed, p.Exact first) ↔
    (beginsMessage before.buffer = true → StartsAt first stream.length before)

/-- The start that a state holds is published, so it is exact if it is that of the buffer. -/
theorem sequenceValue_inj {a b : Option (BitVec 32)} (h : sequenceValue a = sequenceValue b) : a = b := by
  rcases a with _ | a
  · rcases b with _ | b
    · rfl
    · exact nomatch h
  · rcases b with _ | b
    · exact nomatch h
    · unfold sequenceValue at h
      rw [BitVec.eq_of_toNat_eq (Value.number.inj h)]

/-- The loop cuts messages from the buffer, and only the first can have a start that is not its own. -/
theorem cutLoop_cutFrom {first : BitVec 32} {stream : List UInt8} {fuel : ℕ} {self : HttpStreamState}
    (hskip : self.skip_body_remaining = 0) (hsuffix : self.buffer <:+ stream) (hfuel : self.buffer.length < fuel) :
    CutFrom first stream self (cutLoop (first + BitVec.ofNat 32 stream.length) fuel self).1
      (placeLoop (first + BitVec.ofNat 32 stream.length) stream.length fuel self) := by
  induction fuel generalizing self with
  | zero => exact absurd hfuel (Nat.not_lt_zero _)
  | succ fuel ih =>
    unfold cutLoop placeLoop
    cases hturn : turn (first + BitVec.ofNat 32 stream.length) self with
    | none =>
      have hfind : findHeaderEnd self.buffer = none := by
        unfold turn at hturn
        cases hfind : findHeaderEnd self.buffer with
        | none => rfl
        | some ends =>
          rw [hfind] at hturn
          dsimp only at hturn
          cases hparse : parseHttpHeader (self.buffer.take ends.1) self.message_sequence_start with
          | none =>
            rw [hparse] at hturn
            exact nomatch hturn
          | some message =>
            rw [hparse] at hturn
            exact nomatch hturn
      dsimp only
      refine ⟨List.suffix_refl _, fun hne => absurd hskip hne, hfind, fun _ => rfl, fun h => ?_, List.forall_mem_nil _,
        List.forall_mem_nil _, .nil, fun _ hbegins => ?_, fun _ => List.forall_mem_nil _⟩
      · rw [hfind] at h
        exact h.resolve_left Bool.false_ne_true
      · unfold beginsMessage at hbegins
        rw [hfind] at hbegins
        exact absurd hbegins Bool.false_ne_true
    | some turned =>
      obtain ⟨after, found⟩ := turned
      have h := turn_turned hskip hturn
      have hle := hsuffix.length_le
      have hstarts := h.startsAt hle
      have hsome := h.isSome_eq
      obtain ⟨header_len, header_end, n, hfind, hlt, hend, hn, hbuffer, -⟩ := h.cut
      have hcut : after.buffer <:+ self.buffer := by
        rw [hbuffer]
        exact List.drop_suffix _ _
      have hlength : after.buffer.length < self.buffer.length := by
        rw [hbuffer, List.length_drop]
        omega
      have hsound : ∀ {self' : HttpStreamState}, findHeaderEnd self.buffer = none → self' = self := fun hnone => by
        rw [hfind] at hnone
        exact nomatch hnone
      cases found with
      | none =>
        -- what was cut is no message, and the rest has its own start
        dsimp only
        rw [Option.isSome_none] at hsome
        have hrest := ih (h.bodiless rfl) (hcut.trans hsuffix) (by omega)
        refine ⟨hrest.suffix.trans hcut, hrest.skipping, hrest.unfinished, hsound, fun _ => hrest.startsAt (.inr hstarts),
          hrest.heads, fun p hp => ?_, hrest.ordered, ?_⟩
        · obtain ⟨hfrom, hto⟩ := hrest.within p hp
          exact ⟨by omega, hto⟩
        · rw [hrest.exact_iff, ← hsome]
          exact ⟨fun _ hfalse => absurd hfalse Bool.false_ne_true, fun _ _ => hstarts⟩
      | some message =>
        obtain ⟨hheads, hstart, hto, -⟩ := h.message hsuffix
        rw [Option.isSome_some] at hsome
        have hne : self.buffer ≠ [] := List.ne_nil_of_length_pos (by omega)
        have hexact : PlacedMessage.Exact first ⟨stream.length - self.buffer.length, message⟩ ↔
            StartsAt first stream.length self := by
          unfold PlacedMessage.Exact StartsAt
          dsimp only
          rw [hstart]
          exact ⟨fun h _ => sequenceValue_inj (Option.some.inj h), fun h => by rw [h hne]⟩
        dsimp only
        by_cases hbody : after.skip_body_remaining ≠ 0
        · -- the body goes on in the next chunk
          rw [if_pos hbody, if_pos hbody]
          have hempty := h.skipping hbody
          refine ⟨hcut, h.skipping, by rw [hempty]; rfl, hsound, fun _ => hstarts, fun p hp => ?_, fun p hp => ?_,
            List.pairwise_singleton _ _, ?_⟩
          · rw [List.mem_singleton.mp hp]
            exact hheads
          · rw [List.mem_singleton.mp hp]
            exact ⟨Nat.le_refl _, hto⟩
          · rw [List.forall_mem_singleton, hexact, ← hsome]
            exact ⟨fun h _ => h, fun h => h rfl⟩
        · rw [if_neg hbody, if_neg hbody]
          have hrest := ih (not_not.mp hbody) (hcut.trans hsuffix) (by omega)
          refine ⟨hrest.suffix.trans hcut, hrest.skipping, hrest.unfinished, hsound, fun _ => hrest.startsAt (.inr hstarts),
            List.forall_mem_cons.mpr ⟨hheads, hrest.heads⟩, List.forall_mem_cons.mpr ⟨⟨Nat.le_refl _, ?_⟩, fun p hp => ?_⟩,
            List.pairwise_cons.mpr ⟨fun p hp => ?_, hrest.ordered⟩, ?_⟩
          · have := hrest.suffix.length_le
            dsimp only
            omega
          · obtain ⟨hfrom, hto⟩ := hrest.within p hp
            exact ⟨by omega, hto⟩
          · exact Nat.le_trans hto (hrest.within p hp).1
          · rw [List.forall_mem_cons, hexact, hrest.exact_iff, ← hsome]
            exact ⟨fun h _ => h.1, fun h => ⟨h rfl, fun _ => hstarts⟩⟩

end HttpStreamState

/-! ## A chunk -/

/-- A state, and whether the head that its buffer holds was begun behind a body that ended inside its chunk. -/
structure HttpWatch where
  state : HttpStreamState := {}
  late : Bool := false

namespace HttpWatch

open HttpStreamState

/-- Whether the head in the buffer, after the chunk is taken in, was begun behind a body that ended inside its
chunk. Numbers are modulo `2^32`, and so is the part of the chunk that belongs to the body. -/
def beginsLate (self : HttpWatch) (chunk : StreamChunk) : Bool :=
  if self.state.buffer.isEmpty then
    self.state.skip_body_remaining < chunk.bytes.length && BitVec.ofNat 32 self.state.skip_body_remaining ≠ 0
  else self.late

/-- The state after the chunk. Behind a head, whole or not one of a message, the next one is not late. -/
def observe (self : HttpWatch) (chunk : StreamChunk) (max_header_bytes : ℕ) : HttpWatch where
  state := (self.state.push chunk max_header_bytes).1
  late := self.beginsLate chunk && (findHeaderEnd (self.state.takeIn chunk).buffer).isNone

/-- The chunk ends the head of a message that was begun behind a body that ended inside its chunk, and the
buffer is not too long for it. -/
def Misplaces (self : HttpWatch) (chunk : StreamChunk) (max_header_bytes : ℕ) : Prop :=
  self.beginsLate chunk = true ∧ (self.state.takeIn chunk).buffer.length ≤ max_header_bytes ∧
    beginsMessage (self.state.takeIn chunk).buffer = true

instance (self : HttpWatch) (chunk : StreamChunk) (max_header_bytes : ℕ) :
    Decidable (self.Misplaces chunk max_header_bytes) :=
  inferInstanceAs (Decidable (_ ∧ _ ∧ _))

/-- What holds of the state when the stream so far was pushed. -/
structure Follows (first : BitVec 32) (stream : List UInt8) (watch : HttpWatch) : Prop where
  suffix : watch.state.buffer <:+ stream
  skipping : watch.state.skip_body_remaining ≠ 0 → watch.state.buffer = []
  unfinished : findHeaderEnd watch.state.buffer = none
  start : watch.state.buffer ≠ [] → (StartsAt first stream.length watch.state ↔ watch.late = false)

variable {first : BitVec 32} {stream : List UInt8} {self : HttpWatch} {chunk : StreamChunk}

/-- The buffer with the chunk ends the stream with the chunk. -/
theorem Follows.takeIn_suffix (h : self.Follows first stream) :
    (self.state.takeIn chunk).buffer <:+ stream ++ chunk.bytes := by
  unfold takeIn
  dsimp only
  by_cases hzero : self.state.skip_body_remaining = 0
  · rw [hzero, List.drop_zero]
    obtain ⟨before, hbefore⟩ := h.suffix
    exact ⟨before, by rw [← List.append_assoc, hbefore]⟩
  · rw [h.skipping hzero, List.nil_append]
    exact (List.drop_suffix _ _).trans (List.suffix_append _ _)

/-- The start of the buffer with the chunk is its own unless its head was begun late. -/
theorem Follows.takeIn_startsAt (h : self.Follows first stream)
    (hstart : chunk.sequence_start = first + BitVec.ofNat 32 stream.length)
    (hskip : self.state.skip_body_remaining < chunk.bytes.length) :
    StartsAt first (stream ++ chunk.bytes).length (self.state.takeIn chunk) ↔ self.beginsLate chunk = false := by
  have hne : (self.state.takeIn chunk).buffer ≠ [] := by
    refine List.ne_nil_of_length_pos ?_
    unfold takeIn
    dsimp only
    rw [List.length_append, List.length_drop]
    omega
  unfold StartsAt
  rw [imp_iff_right hne]
  unfold takeIn beginsLate
  dsimp only
  cases hempty : self.state.buffer with
  | nil =>
    rw [List.isEmpty_nil, if_pos rfl, if_pos rfl, List.nil_append, List.length_drop, List.length_append, hstart]
    have hplace : stream.length + chunk.bytes.length - (chunk.bytes.length - self.state.skip_body_remaining) =
        stream.length + self.state.skip_body_remaining := by omega
    rw [hplace, decide_eq_true hskip, Bool.true_and, decide_eq_false_iff_not, not_not, BitVec.ofNat_add,
      ← BitVec.add_assoc, Option.some_inj]
    exact ⟨fun h => BitVec.add_right_eq_self.mp h.symm, fun h => (BitVec.add_right_eq_self.mpr h).symm⟩
  | cons byte buffer =>
    have hzero : self.state.skip_body_remaining = 0 := by
      by_contra hzero
      rw [h.skipping hzero] at hempty
      exact nomatch hempty
    have hfull : self.state.buffer ≠ [] := by
      rw [hempty]
      exact List.cons_ne_nil _ _
    have hold := h.start hfull
    unfold StartsAt at hold
    rw [imp_iff_right hfull, hempty] at hold
    rw [List.isEmpty_cons, if_neg Bool.false_ne_true, if_neg Bool.false_ne_true, hzero, List.drop_zero, ← hold,
      List.length_append, List.length_append, Nat.add_sub_add_right]

/-- What a chunk comes to: the state follows on, the messages are cut from what was not cut before, and they
have their own starts unless the first was begun late. -/
structure Observed (first : BitVec 32) (stream : List UInt8) (watch : HttpWatch) (chunk : StreamChunk)
    (max_header_bytes : ℕ) : Prop where
  follows : (watch.observe chunk max_header_bytes).Follows first (stream ++ chunk.bytes)
  heads : ∀ p ∈ watch.state.place chunk max_header_bytes stream.length, p.Heads (stream ++ chunk.bytes)
  within : ∀ p ∈ watch.state.place chunk max_header_bytes stream.length,
    stream.length - watch.state.buffer.length ≤ p.offset ∧ p.offset + p.message.header_len ≤
      (stream ++ chunk.bytes).length - (watch.observe chunk max_header_bytes).state.buffer.length
  ordered : (watch.state.place chunk max_header_bytes stream.length).Pairwise fun a b =>
    a.offset + a.message.header_len ≤ b.offset
  advances : stream.length - watch.state.buffer.length ≤
    (stream ++ chunk.bytes).length - (watch.observe chunk max_header_bytes).state.buffer.length
  exact_iff : (∀ p ∈ watch.state.place chunk max_header_bytes stream.length, p.Exact first) ↔
    ¬watch.Misplaces chunk max_header_bytes

/-- Where no head is looked for, nothing is placed. -/
theorem observed_of_place_nil {max_header_bytes : ℕ}
    (hfollows : (self.observe chunk max_header_bytes).Follows first (stream ++ chunk.bytes))
    (hplace : self.state.place chunk max_header_bytes stream.length = [])
    (hadvances : stream.length - self.state.buffer.length ≤
      (stream ++ chunk.bytes).length - (self.observe chunk max_header_bytes).state.buffer.length)
    (hmisplaces : ¬self.Misplaces chunk max_header_bytes) : Observed first stream self chunk max_header_bytes := by
  refine ⟨hfollows, ?_, ?_, ?_, hadvances, ?_⟩
  all_goals rw [hplace]
  · exact List.forall_mem_nil _
  · exact List.forall_mem_nil _
  · exact .nil
  · exact iff_of_true (List.forall_mem_nil _) hmisplaces

/-- A buffer that holds no whole head begins with no message. -/
theorem not_beginsMessage {buffer : List UInt8} (h : findHeaderEnd buffer = none) : ¬beginsMessage buffer = true := by
  unfold beginsMessage
  rw [h]
  exact Bool.false_ne_true

/-- The step lemma, where all of the chunk belongs to a body, or it is empty. -/
theorem Follows.observed_skipped (h : self.Follows first stream) (max_header_bytes : ℕ)
    (hskip : chunk.bytes.length ≤ self.state.skip_body_remaining) :
    Observed first stream self chunk max_header_bytes := by
  have hpush := self.state.push_eq chunk max_header_bytes
  rw [if_pos hskip] at hpush
  have htaken : (self.state.takeIn chunk).buffer = self.state.buffer := by
    unfold takeIn
    dsimp only
    rw [List.drop_of_length_le hskip, List.append_nil]
  have hempty : self.state.buffer = [] ∨ chunk.bytes = [] := by
    by_cases hzero : self.state.skip_body_remaining = 0
    · rw [hzero] at hskip
      exact .inr (List.eq_nil_of_length_eq_zero (Nat.le_zero.mp hskip))
    · exact .inl (h.skipping hzero)
  have hstate : (self.observe chunk max_header_bytes).state =
      { self.state with skip_body_remaining := self.state.skip_body_remaining - chunk.bytes.length } :=
    congrArg Prod.fst hpush
  have hlate : (self.observe chunk max_header_bytes).late = self.beginsLate chunk := by
    unfold observe
    dsimp only
    rw [htaken, h.unfinished, Option.isNone_none, Bool.and_true]
  refine observed_of_place_nil ⟨?_, ?_, ?_, ?_⟩ (if_pos (.inl hskip)) ?_ fun hmisplaces => ?_
  · rw [hstate]
    rcases hempty with hbuffer | hbytes
    · exact ⟨stream ++ chunk.bytes, by dsimp only; rw [hbuffer, List.append_nil]⟩
    · rw [hbytes, List.append_nil]
      exact h.suffix
  · rw [hstate]
    exact fun hne => h.skipping (by dsimp only at hne; omega)
  · rw [hstate]
    exact h.unfinished
  · rw [hstate, hlate]
    intro hne
    dsimp only at hne
    have hold := h.start hne
    rw [hempty.resolve_left hne, List.append_nil]
    unfold beginsLate
    rw [if_neg (by rw [List.isEmpty_iff]; exact hne)]
    exact hold
  · rw [hstate, List.length_append]
    dsimp only
    omega
  · have hbegins := hmisplaces.2.2
    rw [htaken] at hbegins
    exact not_beginsMessage h.unfinished hbegins

/-- The step lemma. -/
theorem Follows.observed (h : self.Follows first stream)
    (hstart : chunk.sequence_start = first + BitVec.ofNat 32 stream.length)
    (hend : chunk.sequence_end = chunk.sequence_start + BitVec.ofNat 32 chunk.bytes.length)
    (max_header_bytes : ℕ) : Observed first stream self chunk max_header_bytes := by
  by_cases hskip : chunk.bytes.length ≤ self.state.skip_body_remaining
  · exact h.observed_skipped max_header_bytes hskip
  have hpush := self.state.push_eq chunk max_header_bytes
  rw [if_neg hskip] at hpush
  by_cases hlong : max_header_bytes < (self.state.takeIn chunk).buffer.length
  · -- the buffer is dropped, and the next one begins with a chunk
    rw [if_pos hlong] at hpush
    have hstate : (self.observe chunk max_header_bytes).state = {} := congrArg Prod.fst hpush
    refine observed_of_place_nil ⟨?_, ?_, ?_, ?_⟩ (if_pos (.inr hlong)) ?_ fun hmisplaces => ?_
    · rw [hstate]
      exact List.nil_suffix
    · rw [hstate]
      exact fun _ => rfl
    · rw [hstate]
      rfl
    · rw [hstate]
      exact fun hne => absurd rfl hne
    · rw [hstate, List.length_append, List.length_nil]
      omega
    · exact absurd hmisplaces.2.1 (Nat.not_le.mpr hlong)
  -- heads are cut
  rw [if_neg hlong] at hpush
  rw [Nat.not_le] at hskip
  have hend' : chunk.sequence_end = first + BitVec.ofNat 32 (stream ++ chunk.bytes).length := by
    rw [hend, hstart, List.length_append, BitVec.ofNat_add, BitVec.add_assoc]
  have hsuffix : (self.state.takeIn chunk).buffer <:+ stream ++ chunk.bytes := h.takeIn_suffix
  have hcut : CutFrom first (stream ++ chunk.bytes) (self.state.takeIn chunk) _ _ :=
    cutLoop_cutFrom rfl hsuffix (Nat.lt_succ_self _)
  rw [← hend'] at hcut
  have hstarts := h.takeIn_startsAt hstart hskip
  have hstate : (self.observe chunk max_header_bytes).state =
      (cutLoop chunk.sequence_end ((self.state.takeIn chunk).buffer.length + 1) (self.state.takeIn chunk)).1 :=
    congrArg Prod.fst hpush
  have hplace : self.state.place chunk max_header_bytes stream.length =
      placeLoop chunk.sequence_end (stream ++ chunk.bytes).length ((self.state.takeIn chunk).buffer.length + 1)
        (self.state.takeIn chunk) := by
    unfold place
    rw [List.length_append]
    exact if_neg (not_or.mpr ⟨Nat.not_le.mpr hskip, hlong⟩)
  rw [← hstate, ← hplace] at hcut
  have htaken : (self.state.takeIn chunk).buffer.length =
      self.state.buffer.length + (chunk.bytes.length - self.state.skip_body_remaining) := by
    unfold takeIn
    dsimp only
    rw [List.length_append, List.length_drop]
  have hle := h.suffix.length_le
  have hcutLe := hcut.suffix.length_le
  have htotal : (stream ++ chunk.bytes).length = stream.length + chunk.bytes.length := List.length_append
  refine ⟨⟨hcut.suffix.trans hsuffix, hcut.skipping, hcut.unfinished, fun _ => ?_⟩, hcut.heads, fun p hp => ?_,
    hcut.ordered, by omega, ?_⟩
  · change _ ↔ (self.beginsLate chunk && (findHeaderEnd (self.state.takeIn chunk).buffer).isNone) = false
    cases hfind : findHeaderEnd (self.state.takeIn chunk).buffer with
    | none =>
      rw [hcut.idle hfind, hstarts, Option.isNone_none, Bool.and_true]
    | some ends =>
      have hbehind := hcut.startsAt (.inl (by rw [hfind]; rfl))
      rw [Option.isNone_some, Bool.and_false]
      exact iff_of_true hbehind rfl
  · obtain ⟨hfrom, hto⟩ := hcut.within p hp
    exact ⟨by omega, hto⟩
  · unfold Misplaces
    rw [hcut.exact_iff, hstarts, ← Bool.not_eq_true]
    exact ⟨fun h hmisplaces => h hmisplaces.2.2 hmisplaces.1, fun h hbegins hlate =>
      h ⟨hlate, Nat.le_of_not_lt hlong, hbegins⟩⟩

end HttpWatch

/-! ## The run -/

namespace HttpStreamState

open HttpWatch

/-- The messages of chunks that are pushed one after the other. -/
def pushAll (max_header_bytes : ℕ) : HttpStreamState → List StreamChunk → List HttpMessage
  | _, [] => []
  | self, chunk :: chunks =>
    (self.push chunk max_header_bytes).2 ++ pushAll max_header_bytes (self.push chunk max_header_bytes).1 chunks

/-- The same messages, each with the offset of its head, from some bytes of the stream on. -/
def placeAll (max_header_bytes : ℕ) : ℕ → HttpStreamState → List StreamChunk → List PlacedMessage
  | _, _, [] => []
  | total, self, chunk :: chunks =>
    self.place chunk max_header_bytes total ++
      placeAll max_header_bytes (total + chunk.bytes.length) (self.push chunk max_header_bytes).1 chunks

/-- No chunk ends the head of a message that was begun behind a body that ended inside its chunk. -/
def Punctual (max_header_bytes : ℕ) : HttpWatch → List StreamChunk → Prop
  | _, [] => True
  | watch, chunk :: chunks =>
    ¬watch.Misplaces chunk max_header_bytes ∧ Punctual max_header_bytes (watch.observe chunk max_header_bytes) chunks

/-- The bytes of some chunks. -/
def streamOf (chunks : List StreamChunk) : List UInt8 := (chunks.map fun chunk => chunk.bytes).flatten

/-- Chunks of one direction of a stream: each begins where the one before ends, and ends as many bytes on as
it has. -/
structure Contiguous (first : BitVec 32) (chunks : List StreamChunk) : Prop where
  begins : ∀ chunk ∈ chunks.head?, chunk.sequence_start = first
  chain : chunks.IsChain fun c d => d.sequence_start = c.sequence_end
  ends : ∀ chunk ∈ chunks, chunk.sequence_end = chunk.sequence_start + BitVec.ofNat 32 chunk.bytes.length
  direction : ∀ c ∈ chunks, ∀ d ∈ chunks, c.direction = d.direction

variable {first : BitVec 32} {stream : List UInt8} {max_header_bytes : ℕ}

/-- The ghost has the messages of the run. -/
theorem placeAll_messages (max_header_bytes total : ℕ) (self : HttpStreamState) (chunks : List StreamChunk) :
    (placeAll max_header_bytes total self chunks).map (fun placed => placed.message) =
      pushAll max_header_bytes self chunks := by
  induction chunks generalizing total self with
  | nil => rfl
  | cons chunk chunks ih =>
    unfold placeAll pushAll
    rw [List.map_append, place_messages, ih]

/-- The chunks behind the first one. -/
theorem Contiguous.tail {chunk : StreamChunk} {chunks : List StreamChunk}
    (h : Contiguous (first + BitVec.ofNat 32 stream.length) (chunk :: chunks)) :
    Contiguous (first + BitVec.ofNat 32 (stream ++ chunk.bytes).length) chunks := by
  have hend := h.ends chunk List.mem_cons_self
  have hstart := h.begins chunk rfl
  obtain ⟨hchain, hrest⟩ := List.isChain_cons.mp h.chain
  refine ⟨fun next hnext => ?_, hrest, fun c hc => h.ends c (List.mem_cons_of_mem _ hc), fun c hc d hd =>
    h.direction c (List.mem_cons_of_mem _ hc) d (List.mem_cons_of_mem _ hd)⟩
  rw [hchain next hnext, hend, hstart, List.length_append, BitVec.ofNat_add, BitVec.add_assoc]

/-- What the messages of a run are: their heads are in the stream, one behind the other, and the starts are
their own if and only if the chunks are punctual. -/
structure Placed (first : BitVec 32) (stream : List UInt8) (max_header_bytes : ℕ) (watch : HttpWatch)
    (chunks : List StreamChunk) : Prop where
  heads : ∀ p ∈ placeAll max_header_bytes stream.length watch.state chunks, p.Heads (stream ++ streamOf chunks)
  within : ∀ p ∈ placeAll max_header_bytes stream.length watch.state chunks,
    stream.length - watch.state.buffer.length ≤ p.offset
  ordered : (placeAll max_header_bytes stream.length watch.state chunks).Pairwise fun a b =>
    a.offset + a.message.header_len ≤ b.offset
  exact_iff : (∀ p ∈ placeAll max_header_bytes stream.length watch.state chunks, p.Exact first) ↔
    Punctual max_header_bytes watch chunks

/-- The run lemma. -/
theorem placed_of_follows {watch : HttpWatch} {chunks : List StreamChunk} (h : watch.Follows first stream)
    (hchunks : Contiguous (first + BitVec.ofNat 32 stream.length) chunks) :
    Placed first stream max_header_bytes watch chunks := by
  induction chunks generalizing watch stream with
  | nil =>
    exact ⟨List.forall_mem_nil _, List.forall_mem_nil _, .nil, iff_of_true (List.forall_mem_nil _) trivial⟩
  | cons chunk chunks ih =>
    have hstep := h.observed (hchunks.begins chunk rfl) (hchunks.ends chunk List.mem_cons_self) max_header_bytes
    have hrest := ih hstep.follows hchunks.tail
    have hlength : (stream ++ chunk.bytes).length = stream.length + chunk.bytes.length := List.length_append
    have hsplit : placeAll max_header_bytes stream.length watch.state (chunk :: chunks) =
        watch.state.place chunk max_header_bytes stream.length ++
          placeAll max_header_bytes (stream ++ chunk.bytes).length (watch.observe chunk max_header_bytes).state chunks := by
      rw [hlength]
      rfl
    have hstream : stream ++ streamOf (chunk :: chunks) = stream ++ chunk.bytes ++ streamOf chunks := by
      unfold streamOf
      rw [List.map_cons, List.flatten_cons, List.append_assoc]
    refine ⟨?_, ?_, ?_, ?_⟩
    all_goals rw [hsplit]
    · rw [hstream, List.forall_mem_append]
      refine ⟨fun p hp => (hstep.heads p hp).append ?_ _, hrest.heads⟩
      exact Nat.le_trans (hstep.within p hp).2 (Nat.sub_le _ _)
    · rw [List.forall_mem_append]
      exact ⟨fun p hp => (hstep.within p hp).1, fun p hp => Nat.le_trans hstep.advances (hrest.within p hp)⟩
    · rw [List.pairwise_append]
      exact ⟨hstep.ordered, hrest.ordered, fun a ha b hb => Nat.le_trans (hstep.within a ha).2 (hrest.within b hb)⟩
    · rw [List.forall_mem_append, hstep.exact_iff, hrest.exact_iff]
      rfl

/-- Before any chunk. -/
theorem follows_new (first : BitVec 32) : Follows first [] {} :=
  ⟨List.nil_suffix, fun _ => rfl, rfl, fun hne => absurd rfl hne⟩

/-- The messages of any chunks of one direction have their heads in the stream, one behind the other, and each
is published with the sequence number of the first byte of its head, if and only if no chunk ends the head of
a message that was begun behind a body that ended inside its chunk. -/
theorem pushAll_starts (max_header_bytes : ℕ) (first : BitVec 32) (chunks : List StreamChunk)
    (hchunks : Contiguous first chunks) :
    let placed := placeAll max_header_bytes 0 {} chunks
    placed.map (fun p => p.message) = pushAll max_header_bytes {} chunks ∧
      (∀ p ∈ placed, p.Heads (streamOf chunks)) ∧
      (placed.Pairwise fun a b => a.offset + a.message.header_len ≤ b.offset) ∧
      ((∀ p ∈ placed, p.Exact first) ↔ Punctual max_header_bytes {} chunks) := by
  have hzero : first + BitVec.ofNat 32 ([] : List UInt8).length = first := BitVec.add_zero first
  rw [← hzero] at hchunks
  have h : Placed first [] max_header_bytes {} chunks := placed_of_follows (follows_new first) hchunks
  exact ⟨placeAll_messages _ _ _ _, h.heads, h.ordered, h.exact_iff⟩

/-- A chunk that begins at this number. -/
def sampleChunk (sequence_start : BitVec 32) (text : String) : StreamChunk :=
  let bytes := utf8 text.toList
  ⟨.aToB, sequence_start, sequence_start + BitVec.ofNat 32 bytes.length, bytes, .currentSegment⟩

/-- A body that begins in one chunk and ends inside the next one, where the head of another message follows. -/
def lateChunks : List StreamChunk :=
  [sampleChunk 100 "POST / HTTP/1.1\r\nContent-Length: 4\r\n\r\nDA", sampleChunk 140 "TAGET / HTTP/1.1\r\n\r\n"]

/-- The second message is published with the sequence number of its chunk, two bytes before its head. -/
theorem pushAll_starts_late :
    ¬∀ (max_header_bytes : ℕ) (first : BitVec 32) (chunks : List StreamChunk), Contiguous first chunks →
      ∀ p ∈ placeAll max_header_bytes 0 {} chunks, p.Exact first := by
  intro h
  have hchunks : Contiguous 100 lateChunks := by
    refine ⟨?_, ?_, ?_, ?_⟩
    all_goals decide +kernel
  have hexact : (placeAll 65536 0 {} lateChunks).map (fun p =>
        (p.message.fields.get "stream_sequence_start").bind Value.asU64) =
      (placeAll 65536 0 {} lateChunks).map fun p => (sequenceValue (some (100 + BitVec.ofNat 32 p.offset))).asU64 := by
    refine List.map_congr_left fun p hp => ?_
    rw [h 65536 100 lateChunks hchunks p hp, Option.bind_some]
  exact absurd hexact (by decide +kernel)

/-- Chunks whose numbers wrap around, with borders in a body, behind it, and in a head. -/
def punctualChunks : List StreamChunk :=
  [sampleChunk 4294967276 "POST / HTTP/1.1\r\nContent-Length: 4\r\n\r\nDA", sampleChunk 20 "TA",
    sampleChunk 22 "GET / HT", sampleChunk 30 "TP/1.1\r\n\r\n\r\n\r\nGET /next HTTP/1.1\r\n\r\n"]

/-- All three messages are published with their own starts. -/
theorem pushAll_starts_wraps :
    (pushAll 65536 {} punctualChunks).length = 3 ∧
      ∀ p ∈ placeAll 65536 0 {} punctualChunks, p.Exact 4294967276 := by
  obtain ⟨-, -, -, hexact⟩ := pushAll_starts 65536 4294967276 punctualChunks (by
    refine ⟨?_, ?_, ?_, ?_⟩
    all_goals decide +kernel)
  refine ⟨by decide +kernel, hexact.mpr ?_⟩
  unfold punctualChunks Punctual
  refine ⟨by decide +kernel, by decide +kernel, by decide +kernel, by decide +kernel, trivial⟩

end HttpStreamState

end Rustmate.Analyzer
