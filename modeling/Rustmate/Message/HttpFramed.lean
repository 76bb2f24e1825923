import Rustmate.Message.Framed
import Rustmate.Message.HttpFraming

/-!
# The bytes that HTTP/1 messages are made of

Beside each message of the HTTP/1 parser stand its wire bytes: what a turn of the loop takes off the buffer
for it, and where the body was missing, what came for it later. -/

namespace Rustmate.Message

namespace Http1DirectionState

/-- What was taken off the front of the buffer between two states. -/
def takenOff (before after : Http1DirectionState) : List UInt8 :=
  before.buffer.take (before.buffer.length - after.buffer.length)

/-- The messages of the loop of `parse_buffer`, each with what its turn takes off the buffer, and what the
last turn takes: the bytes of the message whose body is missing, if one is. -/
def framedLoop (context : Http1ParseContext) :
    ℕ → Http1DirectionState → List (StreamMessage × List UInt8) × List UInt8
  | 0, _ => ([], [])
  | fuel + 1, self =>
    match self.parseStep context with
    | (after, messages, false) => (messages.map fun message => (message, self.takenOff after), self.takenOff after)
    | (after, messages, true) =>
      let (framed, wire) := framedLoop context fuel after
      ((messages.map fun message => (message, self.takenOff after)) ++ framed, wire)

/-- The state when `append_input` has put the input to the buffer. -/
def fill (self : Http1DirectionState) (input : List UInt8) (input_start : ℕ) : Http1DirectionState :=
  let self := if self.buffer.isEmpty then { self with buffer_start := input_start } else self
  { self with buffer := self.buffer ++ input }

/-- The messages of `append_input` with their bytes, and the bytes of the message whose body is missing, if
one is. -/
def framedInput (self : Http1DirectionState) (context : Http1ParseContext) (input : List UInt8) (input_start : ℕ) :
    List (StreamMessage × List UInt8) × List UInt8 :=
  match self.httpInput input with
  | none => ([], [])
  | some (start_offset, input) =>
    let self := self.fill input (saturatingAdd input_start start_offset)
    framedLoop context (self.buffer.length + 1) self

/-- The messages of `push` with their bytes, and the bytes so far of the message whose body is missing, if one
is: `wire` are those that it had before. -/
def framed (self : Http1DirectionState) (wire : List UInt8) (context : Http1ParseContext) (bytes : List UInt8) :
    List (StreamMessage × List UInt8) × List UInt8 :=
  if bytes.isEmpty then ([], wire)
  else
    let input_start := self.next_logical
    let self := { self with next_logical := saturatingAdd self.next_logical bytes.length }
    match self.pending with
    | none => self.framedInput context bytes input_start
    | some pending =>
      let consumed := min pending.remaining bytes.length
      if pending.remaining - consumed = 0 then
        let message := pending.complete context.stream_id context.direction
        let self := { self with pending := none }
        if (bytes.drop consumed).isEmpty then ([(message, wire ++ bytes.take consumed)], [])
        else
          let (framed, rest) := self.framedInput context (bytes.drop consumed) (saturatingAdd input_start consumed)
          ((message, wire ++ bytes.take consumed) :: framed, rest)
      else ([], wire ++ bytes)

/-- The loop makes these messages. -/
theorem map_framedLoop (context : Http1ParseContext) (fuel : ℕ) (self : Http1DirectionState) :
    (framedLoop context fuel self).1.map Prod.fst = (parseLoop context fuel self).2 := by
  induction fuel generalizing self with
  | zero => rfl
  | succ fuel ih =>
    have hfirst : ∀ (messages : List StreamMessage) (taken : List UInt8),
        (messages.map fun message => (message, taken)).map Prod.fst = messages := by
      intro messages taken
      rw [List.map_map]
      exact List.map_id _
    unfold framedLoop parseLoop
    obtain ⟨after, messages, more⟩ := self.parseStep context
    cases more with
    | false => exact hfirst messages _
    | true =>
      dsimp only
      rw [List.map_append, hfirst, ih]

/-- `append_input` makes these messages. -/
theorem map_framedInput (self : Http1DirectionState) (context : Http1ParseContext) (input : List UInt8)
    (input_start : ℕ) :
    (self.framedInput context input input_start).1.map Prod.fst = (self.appendInput context input input_start).2 := by
  unfold framedInput appendInput
  cases self.httpInput input with
  | none => rfl
  | some found => exact map_framedLoop context _ _

/-- `push` makes these messages. -/
theorem map_framed (self : Http1DirectionState) (wire : List UInt8) (context : Http1ParseContext) (bytes : List UInt8) :
    (self.framed wire context bytes).1.map Prod.fst = (self.push context bytes).2 := by
  unfold framed push
  split_ifs with hempty
  · rfl
  dsimp only
  cases self.pending with
  | none => exact map_framedInput _ context bytes _
  | some pending =>
    dsimp only
    split_ifs with hdone hrest
    · rfl
    · rw [List.map_cons, map_framedInput]
    · rfl

/-! ## Turns -/

/-- What one turn of the loop of `parse_buffer` can do. -/
inductive Stepped (context : Http1ParseContext) (state : Http1DirectionState) :
    Http1DirectionState × List StreamMessage × Bool → Prop
  | wait : Stepped context state (state, [], false)
  | resync : Stepped context state (state.resyncOrClear, [], true)
  | limit {message : StreamMessage} (hfault : message.status = .parseError) :
      Stepped context state (state.countOrdinal.clearBuffer, [message], false)
  | fault {message : StreamMessage} {count : ℕ} (hfault : message.status = .parseError) :
      Stepped context state (state.countOrdinal.drainFront count, [message], true)
  | frame {message : StreamMessage} {count : ℕ} (hpos : 0 < count) (hcount : count ≤ state.buffer.length)
      (hstream : message.stream_id = context.stream_id) (hdirection : message.direction = context.direction)
      (hstart : message.logical_start = state.buffer_start)
      (hend : message.logical_end = saturatingAdd state.buffer_start count) :
      Stepped context state (state.countOrdinal.drainFront count, [message], true)
  | await {pending : PendingContentLengthMessage} {count : ℕ} (hpos : 0 < count) (hcount : count ≤ state.buffer.length)
      (hstart : pending.logical_start = state.buffer_start)
      (hbody : pending.body_start = saturatingAdd state.buffer_start count)
      (hlong : count + pending.body_len = state.buffer.length + pending.remaining) :
      Stepped context state ({ state.countOrdinal.clearBuffer with pending := some pending }, [], false)

/-- A turn does one of these. -/
theorem parseStep_stepped (context : Http1ParseContext) (state : Http1DirectionState) :
    Stepped context state (state.parseStep context) := by
  unfold parseStep
  by_cases hempty : state.buffer.isEmpty = true
  · rw [if_pos hempty]
    exact .wait
  rw [if_neg hempty]
  by_cases hlooks : (!looksLikeHttpPrefix state.buffer) = true
  · rw [if_pos hlooks]
    exact .resync
  rw [if_neg hlooks]
  by_cases hlimit : context.max_buffer_bytes < state.buffer.length
  · rw [if_pos hlimit]
    exact .limit rfl
  rw [if_neg hlimit]
  cases hend : findHeaderEnd state.buffer with
  | none =>
    dsimp only
    split_ifs with hheader
    · exact .limit rfl
    · exact .wait
  | some found =>
    obtain ⟨header_len, header_total_len⟩ := found
    obtain ⟨hpos, hle⟩ := findHeaderEnd_bounds hend
    have hpos : 0 < header_total_len := by omega
    dsimp only
    cases hparse : parseHttp1Head (state.buffer.take header_len) with
    | error reason => exact .fault rfl
    | ok head =>
      dsimp only
      cases hframing : bodyFraming head with
      | none => exact .frame hpos hle rfl rfl rfl rfl
      | contentLength body_len =>
        dsimp only
        split_ifs with hmissing
        · exact .await hpos hle rfl rfl (by dsimp only; omega)
        · exact .frame (by omega) (by omega) rfl rfl rfl rfl
      | chunked =>
        dsimp only
        cases hchunked : findChunkedBodyEnd (state.buffer.drop header_total_len) with
        | incomplete => exact .wait
        | invalid reason => exact .fault rfl
        | complete chunked =>
          have hwithin := findChunkedBodyEnd_le hchunked
          rw [List.length_drop] at hwithin
          exact .frame (by omega) (by omega) rfl rfl rfl rfl

/-! ## What a parser of a whole stream knows -/

/-- The state of a parser that was handed the stream `S`: the buffer holds the end of the stream, or a body is
missing of the message that `wire` begins. -/
structure Heard (S wire : List UInt8) (state : Http1DirectionState) : Prop where
  next_logical : state.next_logical = S.length
  idle : state.pending = none → EndsAt S state.buffer state.buffer_start
  awaiting : ∀ pending, state.pending = some pending → state.buffer = [] ∧ wire ≠ [] ∧
    ∃ before, S = before ++ wire ∧ pending.logical_start = before.length ∧
      pending.body_start + pending.body_len = S.length + pending.remaining

/-- A new parser was handed nothing. -/
theorem heard_new (wire : List UInt8) : Heard [] wire {} :=
  ⟨rfl, fun _ => endsAt_nil [] 0, fun _ hpending => nomatch hpending⟩

variable {S wire : List UInt8} {state : Http1DirectionState} {context : Http1ParseContext}

/-- The front is taken off the buffer, or all of it. -/
theorem endsAt_drainFront (h : EndsAt S state.buffer state.buffer_start) (hsmall : S.length < 2^64) (count : ℕ) :
    EndsAt S (state.drainFront count).buffer (state.drainFront count).buffer_start := by
  unfold drainFront
  split_ifs with hall
  · exact endsAt_nil S _
  · exact h.drop (Nat.lt_of_not_le hall) hsmall

/-- What is taken off the buffer with its front. -/
theorem takenOff_drainFront {count : ℕ} (hcount : count ≤ state.buffer.length) :
    state.takenOff (state.countOrdinal.drainFront count) = state.buffer.take count := by
  unfold takenOff drainFront
  rw [show state.countOrdinal.buffer = state.buffer from rfl]
  split_ifs with hall
  · rw [show count = state.buffer.length by omega]
    rfl
  · dsimp only
    rw [List.length_drop, show state.buffer.length - (state.buffer.length - count) = count by omega]

/-- Taking from the buffer leaves the rest of the state as it was. -/
theorem drainFront_rest (state : Http1DirectionState) (count : ℕ) :
    (state.drainFront count).next_logical = state.next_logical ∧
      (state.drainFront count).pending = state.pending := by
  unfold drainFront
  split_ifs
  · exact ⟨rfl, rfl⟩
  · exact ⟨rfl, rfl⟩

/-- With nothing pending, the state is known from its buffer. -/
theorem heard_of_idle (hnext : state.next_logical = S.length) (hpending : state.pending = none)
    (hends : EndsAt S state.buffer state.buffer_start) (wire : List UInt8) : Heard S wire state :=
  ⟨hnext, fun _ => hends, fun _ hsome => nomatch hpending.symm.trans hsome⟩

/-- The whole buffer is given up. -/
theorem heard_clearBuffer (hnext : state.next_logical = S.length) (hpending : state.pending = none) (wire : List UInt8) :
    Heard S wire state.clearBuffer :=
  heard_of_idle (show state.clearBuffer.next_logical = S.length from hnext) hpending (endsAt_nil S _) wire

/-- A turn keeps what the parser knows, and the message that it finds lies where it says. -/
theorem Stepped.heard {r : Http1DirectionState × List StreamMessage × Bool} (h : Stepped context state r)
    (hnext : state.next_logical = S.length) (hpending : state.pending = none)
    (hends : EndsAt S state.buffer state.buffer_start) (hsmall : S.length < 2^64) :
    Heard S (state.takenOff r.1) r.1 ∧ (r.2.2 = true → r.1.pending = none) ∧
      ∀ message ∈ r.2.1, message.status = .complete →
        Points context.stream_id context.direction S message (state.takenOff r.1) := by
  have hdrain : ∀ count, Heard S (state.takenOff (state.countOrdinal.drainFront count))
      (state.countOrdinal.drainFront count) ∧ (state.countOrdinal.drainFront count).pending = none := by
    intro count
    obtain ⟨hsame, hnone⟩ := state.countOrdinal.drainFront_rest count
    have hnone := hnone.trans hpending
    exact ⟨heard_of_idle (hsame.trans hnext) hnone
      (endsAt_drainFront (show EndsAt S state.countOrdinal.buffer _ from hends) hsmall count) _, hnone⟩
  have hfaulty : ∀ {message : StreamMessage}, message.status = .parseError → ∀ wire, ∀ m ∈ [message],
      m.status = .complete → Points context.stream_id context.direction S m wire := by
    intro message hfault wire m hm hcomplete
    rw [List.mem_singleton.mp hm, hfault] at hcomplete
    cases hcomplete
  cases h with
  | wait => exact ⟨heard_of_idle hnext hpending hends _, fun _ => hpending, fun m hm => absurd hm List.not_mem_nil⟩
  | resync =>
    have hresync : state.resyncOrClear = state.clearBuffer ∨ ∃ count, state.resyncOrClear = state.drainFront count := by
      unfold resyncOrClear
      cases findHttpStartFrom state.buffer 1 with
      | none => exact .inl rfl
      | some offset => exact .inr ⟨offset, rfl⟩
    refine ⟨?_, fun _ => ?_, fun m hm => absurd hm List.not_mem_nil⟩
    · rcases hresync with heq | ⟨count, heq⟩
      · rw [heq]
        exact heard_clearBuffer hnext hpending _
      · rw [heq]
        obtain ⟨hsame, hnone⟩ := state.drainFront_rest count
        exact heard_of_idle (hsame.trans hnext) (hnone.trans hpending) (endsAt_drainFront hends hsmall count) _
    · rcases hresync with heq | ⟨count, heq⟩
      · rw [heq]
        exact hpending
      · rw [heq]
        exact (state.drainFront_rest count).2.trans hpending
  | limit hfault =>
    exact ⟨@heard_clearBuffer S state.countOrdinal hnext hpending _, fun _ => hpending, hfaulty hfault _⟩
  | @fault message count hfault => exact ⟨(hdrain count).1, fun _ => (hdrain count).2, hfaulty hfault _⟩
  | @frame message count hpos hcount hstream hdirection hstart hend =>
    refine ⟨(hdrain count).1, fun _ => (hdrain count).2, fun m hm _ => ?_⟩
    have htotal := hends.start_eq (List.ne_nil_of_length_pos (by omega))
    rw [List.mem_singleton.mp hm]
    dsimp only
    rw [takenOff_drainFront hcount]
    refine hends.points hpos hcount hstream hdirection hstart ?_
    rw [hend, saturatingAdd_eq (by omega)]
  | @await pending count hpos hcount hstart hbody hlong =>
    have hne : state.buffer ≠ [] := List.ne_nil_of_length_pos (by omega)
    have htotal := hends.start_eq hne
    have htaken : state.takenOff { state.countOrdinal.clearBuffer with pending := some pending } = state.buffer := by
      unfold takenOff clearBuffer
      dsimp only
      rw [List.length_nil, Nat.sub_zero, List.take_length]
    refine ⟨⟨hnext, (fun hnone => nomatch hnone), fun p hp => ?_⟩, (fun hmore => nomatch hmore),
      fun m hm => absurd hm List.not_mem_nil⟩
    obtain rfl := Option.some.inj hp
    dsimp only
    rw [htaken]
    obtain ⟨before, heq, hbefore⟩ := hends
    refine ⟨rfl, hne, before, heq, ?_, ?_⟩
    · rw [hstart, hbefore hne]
    · rw [hbody, saturatingAdd_eq (by omega)]
      omega

/-- The loop of `parse_buffer` keeps what the parser knows, by induction on its turns. -/
theorem heard_parseLoop (hsmall : S.length < 2^64) (fuel : ℕ) (hnext : state.next_logical = S.length)
    (hpending : state.pending = none) (hends : EndsAt S state.buffer state.buffer_start) :
    Heard S (framedLoop context fuel state).2 (parseLoop context fuel state).1 ∧
      ∀ x ∈ (framedLoop context fuel state).1, x.1.status = .complete →
        Points context.stream_id context.direction S x.1 x.2 := by
  induction fuel generalizing state with
  | zero => exact ⟨heard_of_idle hnext hpending hends _, fun x hx => absurd hx List.not_mem_nil⟩
  | succ fuel ih =>
    have hstepped := (parseStep_stepped context state).heard hnext hpending hends hsmall
    unfold parseLoop framedLoop
    generalize state.parseStep context = r at hstepped ⊢
    obtain ⟨after, messages, more⟩ := r
    obtain ⟨hheard, hidle, hpoints⟩ := hstepped
    have hfound : ∀ x ∈ messages.map fun message => (message, state.takenOff after), x.1.status = .complete →
        Points context.stream_id context.direction S x.1 x.2 := by
      intro x hx hcomplete
      obtain ⟨message, hmem, rfl⟩ := List.mem_map.mp hx
      exact hpoints message hmem hcomplete
    cases more with
    | false => exact ⟨hheard, hfound⟩
    | true =>
      have hnone := hidle rfl
      obtain ⟨hheard', hfound'⟩ := ih hheard.next_logical hnone (hheard.idle hnone)
      dsimp only
      refine ⟨hheard', fun x hx => ?_⟩
      rcases List.mem_append.mp hx with hx | hx
      · exact hfound x hx
      · exact hfound' x hx

/-! ## Pushes -/

/-- `append_input` keeps what the parser knows: the input, with nothing pending, is the end of the stream. -/
theorem heard_appendInput {T input : List UInt8} {input_start : ℕ} (hsmall : (T ++ input).length < 2^64)
    (hstart : input_start = T.length) (hnext : state.next_logical = (T ++ input).length) (hpending : state.pending = none)
    (hends : EndsAt T state.buffer state.buffer_start) :
    Heard (T ++ input) (state.framedInput context input input_start).2 (state.appendInput context input input_start).1 ∧
      ∀ x ∈ (state.framedInput context input input_start).1, x.1.status = .complete →
        Points context.stream_id context.direction (T ++ input) x.1 x.2 := by
  have hnothing : ∀ wire, EndsAt (T ++ input) state.buffer state.buffer_start → Heard (T ++ input) wire state :=
    fun wire hends => heard_of_idle hnext hpending hends wire
  have hparse : ∀ after : Http1DirectionState, after.next_logical = (T ++ input).length → after.pending = none →
      EndsAt (T ++ input) after.buffer after.buffer_start →
      Heard (T ++ input) (framedLoop context (after.buffer.length + 1) after).2 (after.parseBuffer context).1 ∧
        ∀ x ∈ (framedLoop context (after.buffer.length + 1) after).1, x.1.status = .complete →
          Points context.stream_id context.direction (T ++ input) x.1 x.2 :=
    fun after hnext hpending hends => heard_parseLoop hsmall _ hnext hpending hends
  obtain ⟨before, hbefore, hbegins⟩ := hends
  unfold framedInput appendInput httpInput
  by_cases hempty : input = []
  · rw [hempty]
    refine ⟨?_, fun x hx => absurd hx List.not_mem_nil⟩
    rw [hempty] at hnothing
    exact hnothing _ ⟨before, by rw [List.append_nil, hbefore], hbegins⟩
  rw [if_neg (by simpa using hempty)]
  by_cases hbuffer : state.buffer = []
  · -- The input is searched for a start, before which nothing is kept.
    rw [if_neg (by simp [hbuffer])]
    cases hfind : findHttpStart input with
    | none =>
      refine ⟨hnothing _ ?_, fun x hx => absurd hx List.not_mem_nil⟩
      rw [hbuffer]
      exact endsAt_nil _ _
    | some offset =>
      refine hparse (state.fill (input.drop offset) (saturatingAdd input_start offset)) ?_ ?_ ?_
      · unfold fill
        split_ifs <;> exact hnext
      · unfold fill
        split_ifs <;> exact hpending
      · unfold fill
        rw [if_pos (by rw [hbuffer]; rfl)]
        dsimp only
        rw [hbuffer, List.nil_append]
        refine ⟨T ++ input.take offset, ?_, fun hne => ?_⟩
        · rw [List.append_assoc, List.take_append_drop]
        · have hlt : offset < input.length := by
            by_contra hge
            exact hne (List.drop_eq_nil_of_le (Nat.le_of_not_lt hge))
          rw [List.length_append] at hsmall
          rw [hstart, saturatingAdd_eq (by omega), List.length_append, List.length_take]
          omega
  · rw [if_pos (by simpa using hbuffer)]
    refine hparse (state.fill input (saturatingAdd input_start 0)) ?_ ?_ ?_
    · unfold fill
      split_ifs <;> exact hnext
    · unfold fill
      split_ifs <;> exact hpending
    · unfold fill
      rw [if_neg (by simpa using hbuffer)]
      refine ⟨before, ?_, fun _ => hbegins hbuffer⟩
      dsimp only
      rw [hbefore, List.append_assoc]

/-- `push` keeps what the parser knows, and the messages that it completes lie where they say. -/
theorem Heard.push (h : Heard S wire state) {bytes : List UInt8} (hsmall : (S ++ bytes).length < 2^64)
    (context : Http1ParseContext) :
    Heard (S ++ bytes) (state.framed wire context bytes).2 (state.push context bytes).1 ∧
      ∀ x ∈ (state.framed wire context bytes).1, x.1.status = .complete →
        Points context.stream_id context.direction (S ++ bytes) x.1 x.2 := by
  have hlength : (S ++ bytes).length = S.length + bytes.length := List.length_append
  have hnext : saturatingAdd state.next_logical bytes.length = (S ++ bytes).length := by
    rw [h.next_logical, saturatingAdd_eq (by omega), hlength]
  unfold framed Http1DirectionState.push
  by_cases hempty : bytes.isEmpty = true
  · rw [if_pos hempty, if_pos hempty]
    refine ⟨?_, fun x hx => absurd hx List.not_mem_nil⟩
    rw [List.isEmpty_iff.mp hempty, List.append_nil]
    exact h
  rw [if_neg hempty, if_neg hempty]
  dsimp only
  cases hpending : state.pending with
  | none =>
    exact @heard_appendInput
      { state with
        next_logical := saturatingAdd state.next_logical bytes.length
        pending := none }
      context S bytes _ hsmall h.next_logical hnext rfl (h.idle hpending)
  | some pending =>
    obtain ⟨hbuffer, hwire, before, hbefore, hstart, htotal⟩ := h.awaiting pending hpending
    have hbefore_length : S.length = before.length + wire.length := by rw [hbefore, List.length_append]
    dsimp only
    by_cases hdone : pending.remaining - min pending.remaining bytes.length = 0
    · -- The rest of the body has come.
      have hconsumed : min pending.remaining bytes.length = pending.remaining := by omega
      have hlen : (bytes.take pending.remaining).length = pending.remaining := by
        rw [List.length_take]
        omega
      have hend : saturatingAdd pending.body_start pending.body_len = S.length + pending.remaining := by
        rw [saturatingAdd_eq (by omega), htotal]
      have hpoints : Points context.stream_id context.direction (S ++ bytes)
          (pending.complete context.stream_id context.direction) (wire ++ bytes.take pending.remaining) := by
        refine ⟨rfl, rfl, fun hnil => hwire (List.append_eq_nil_iff.mp hnil).1, before, bytes.drop pending.remaining, ?_,
          hstart, ?_⟩
        · rw [hbefore, List.append_assoc, List.append_assoc, List.append_assoc, List.take_append_drop]
        · rw [List.length_append, hlen]
          exact hend.trans (by omega)
      rw [if_pos hdone, if_pos hdone, hconsumed]
      by_cases hrest : (bytes.drop pending.remaining).isEmpty = true
      · rw [if_pos hrest, if_pos hrest]
        refine ⟨heard_of_idle hnext rfl ?_ _, fun x hx _ => ?_⟩
        · dsimp only
          rw [hbuffer]
          exact endsAt_nil _ _
        · rw [List.mem_singleton.mp hx]
          exact hpoints
      · rw [if_neg hrest, if_neg hrest]
        have hsplit : S ++ bytes.take pending.remaining ++ bytes.drop pending.remaining = S ++ bytes := by
          rw [List.append_assoc, List.take_append_drop]
        have hinput := @heard_appendInput
          { state with
            next_logical := saturatingAdd state.next_logical bytes.length
            pending := none }
          context (S ++ bytes.take pending.remaining) (bytes.drop pending.remaining)
          (saturatingAdd state.next_logical pending.remaining) (by rw [hsplit]; exact hsmall)
          (by rw [h.next_logical, saturatingAdd_eq (by omega), List.length_append, hlen])
          (by rw [hsplit]; exact hnext) rfl (by rw [hbuffer]; exact endsAt_nil _ _)
        rw [hsplit] at hinput
        obtain ⟨hheard, hfound⟩ := hinput
        refine ⟨hheard, fun x hx hcomplete => ?_⟩
        rcases List.mem_cons.mp hx with rfl | hx
        · exact hpoints
        · exact hfound x hx hcomplete
    · -- More of the body is missing.
      rw [if_neg hdone, if_neg hdone]
      refine ⟨⟨hnext, (fun hnone => nomatch hnone), fun p hp => ?_⟩, fun x hx => absurd hx List.not_mem_nil⟩
      obtain rfl := Option.some.inj hp
      refine ⟨hbuffer, fun hnil => hwire (List.append_eq_nil_iff.mp hnil).1, before, ?_, hstart, ?_⟩
      · rw [hbefore, List.append_assoc]
      · dsimp only
        omega

end Http1DirectionState

end Rustmate.Message
