import Rustmate.Message.HttpTurns

/-!
# Runs of the HTTP/1 parser

What the parser has reported after any pushes, with any limits at each of them: every complete message is a
cut of the stream, the messages are numbered as they come, and their ranges lie one after the other, errors
aside. The range of an error is the whole buffer, of which only the head may be dropped.
-/

namespace Rustmate.Message

namespace Http1DirectionState

/-- What pushes make, one after the other, each with the limits that it comes with. -/
def pushEach (self : Http1DirectionState) :
    List (Http1ParseContext × List UInt8) → Http1DirectionState × List StreamMessage
  | [] => (self, [])
  | (context, bytes) :: pushes =>
    let (self, messages) := self.push context bytes
    let (self, more) := pushEach self pushes
    (self, messages ++ more)

/-! ## Clean runs -/

/-- Every turn of the loop of `parse_buffer` is clean. -/
def cleanLoop (context : Http1ParseContext) : ℕ → Http1DirectionState → Bool
  | 0, _ => true
  | fuel + 1, self =>
    cleanTurn context self.buffer &&
      match self.parseStep context with
      | (_, _, false) => true
      | (self, _, true) => cleanLoop context fuel self

/-- Every turn that `append_input` leads to is clean. -/
def cleanAppend (self : Http1DirectionState) (context : Http1ParseContext) (input : List UInt8)
    (input_start : ℕ) : Bool :=
  match self.httpInput input with
  | none => true
  | some (start_offset, input) =>
    let input_start := saturatingAdd input_start start_offset
    let self :=
      if self.buffer.isEmpty then { self with buffer_start := input_start } else self
    let self := { self with buffer := self.buffer ++ input }
    cleanLoop context (self.buffer.length + 1) self

/-- Every turn that `push` leads to is clean. -/
def cleanPush (self : Http1DirectionState) (context : Http1ParseContext) (bytes : List UInt8) : Bool :=
  if bytes.isEmpty then true
  else
    let input_start := self.next_logical
    let self := { self with next_logical := saturatingAdd self.next_logical bytes.length }
    match self.pending with
    | none => self.cleanAppend context bytes input_start
    | some pending =>
      let consumed := min pending.remaining bytes.length
      if pending.remaining - consumed = 0 then
        { self with pending := none }.cleanAppend context (bytes.drop consumed)
          (saturatingAdd input_start consumed)
      else true

/-- Every turn of every push is clean. -/
def cleanEach (self : Http1DirectionState) : List (Http1ParseContext × List UInt8) → Bool
  | [] => true
  | (context, bytes) :: pushes =>
    self.cleanPush context bytes && cleanEach (self.push context bytes).1 pushes

end Http1DirectionState

/-! ## What has been reported -/

/-- One message ends before another begins. -/
def Before (a b : StreamMessage) : Prop := a.logical_end ≤ b.logical_start

/-- Whether a message is complete. -/
def isComplete (message : StreamMessage) : Bool := message.status = .complete

/-- What has been reported of the stream `S`, when nothing can begin before `front`: the ranges of the
messages that `P` selects lie one after the other. -/
structure Reported (P : StreamMessage → Bool) (S : List UInt8) (messages : List StreamMessage)
    (front : ℕ) : Prop where
  ordinals : messages.map (fun message => message.ordinal) = List.range messages.length
  faithful : ∀ message ∈ messages, message.status = .complete → FaithfulCut S message
  covers : ∀ message ∈ messages, message.logical_start < message.logical_end
  apart : (messages.filter P).Pairwise Before
  behind : ∀ message ∈ messages, P message = true → message.logical_end ≤ front

namespace Reported

variable {P : StreamMessage → Bool} {S : List UInt8} {messages : List StreamMessage} {front front' : ℕ}

/-- Nothing has been reported at first. -/
theorem nil (P : StreamMessage → Bool) (S : List UInt8) (front : ℕ) : Reported P S [] front where
  ordinals := rfl
  faithful := by simp
  covers := by simp
  apart := List.Pairwise.nil
  behind := by simp

/-- The front moves on. -/
theorem mono (h : Reported P S messages front) (hle : front ≤ front') : Reported P S messages front' :=
  { h with behind := fun message hmem hP => Nat.le_trans (h.behind message hmem hP) hle }

/-- The stream goes on. -/
theorem append (h : Reported P S messages front) (T : List UInt8) :
    Reported P (S ++ T) messages front :=
  { h with faithful := fun message hmem hcomplete => (h.faithful message hmem hcomplete).append T }

/-- Another message is reported. -/
theorem concat (h : Reported P S messages front) {message : StreamMessage}
    (hordinal : message.ordinal = messages.length)
    (hfaithful : message.status = .complete → FaithfulCut S message)
    (hcovers : message.logical_start < message.logical_end) (hstart : front ≤ message.logical_start)
    (hfront : front ≤ front') (hend : P message = true → message.logical_end ≤ front') :
    Reported P S (messages ++ [message]) front' := by
  have hmem : ∀ m ∈ messages ++ [message], m ∈ messages ∨ m = message := by simp
  refine ⟨?_, fun m hm => ?_, fun m hm => ?_, ?_, fun m hm hP => ?_⟩
  · rw [List.map_append, h.ordinals, List.map_singleton, hordinal, List.length_append,
      List.length_singleton, List.range_succ]
  · rcases hmem m hm with hold | rfl
    · exact h.faithful m hold
    · exact hfaithful
  · rcases hmem m hm with hold | rfl
    · exact h.covers m hold
    · exact hcovers
  · rw [List.filter_append, List.pairwise_append]
    refine ⟨h.apart, List.Pairwise.sublist List.filter_sublist (List.pairwise_singleton _ _), ?_⟩
    intro a ha b hb
    have hbehind := h.behind a (List.mem_of_mem_filter ha) (List.of_mem_filter ha)
    have hb := List.mem_of_mem_filter hb
    rw [List.mem_singleton] at hb
    subst hb
    exact Nat.le_trans hbehind hstart
  · rcases hmem m hm with hold | rfl
    · exact Nat.le_trans (h.behind m hold hP) hfront
    · exact hend hP

end Reported

/-! ## States -/

/-- Before where nothing can begin any more. -/
def front : FrameState UInt8 HttpFrame → ℕ
  | .start pos buffer => pos + startOf buffer
  | .body pos _ _ _ => pos

@[simp]
theorem front_start (pos : ℕ) (buffer : List UInt8) :
    front (.start pos buffer) = pos + startOf buffer := rfl

/-- What the state keeps is what the stream has. -/
def Holds (S : List UInt8) : FrameState UInt8 HttpFrame → Prop
  | .start pos buffer => S.drop pos = buffer
  | .body pos frame _ _ => pos ≤ S.length ∧ frame.Begins (S.drop pos)

/-- The state of the parser that has been given the stream `S` and has reported these messages. -/
structure Follows (P : StreamMessage → Bool) (S : List UInt8) (messages : List StreamMessage)
    (state : Http1DirectionState) (fs : FrameState UInt8 HttpFrame) : Prop where
  frames : state.Frames S.length messages.length fs
  holds : Holds S fs
  reported : Reported P S messages (front fs)

/-- A turn keeps what has been reported. An error that `P` selects must come from a clean turn. -/
theorem Turn.reported {P : StreamMessage → Bool} {S : List UInt8} {messages new : List StreamMessage}
    {context : Http1ParseContext} {pos : ℕ} {buffer : List UInt8} {fs : FrameState UInt8 HttpFrame}
    {more : Bool} (h : Turn context S.length messages.length pos buffer new fs more)
    (hreported : Reported P S messages (pos + startOf buffer)) (hholds : S.drop pos = buffer)
    (hlength : pos + buffer.length = S.length)
    (hclean : (∀ message, message.status = .parseError → P message = false) ∨
      cleanTurn context buffer = true) :
    Reported P S (messages ++ new) (front fs) ∧ Holds S fs := by
  cases h with
  | wait =>
    rw [List.append_nil]
    exact ⟨hreported, hholds⟩
  | @skip count hpos hcount =>
    have hle := startOf_le_drop hcount
    rw [List.append_nil]
    refine ⟨hreported.mono ?_, ?_⟩
    · rw [front_start]
      omega
    · unfold Holds
      rw [← hholds, List.drop_drop]
  | limit reason hlooks =>
    have hzero := startOf_eq_zero hlooks
    have hpos := List.length_pos_iff.mpr (ne_nil_of_looksLikeHttpPrefix hlooks)
    refine ⟨hreported.concat rfl ?_ ?_ ?_ ?_ fun _ => ?_, ?_⟩
    · intro hcomplete
      cases hcomplete
    · unfold frameMessage
      dsimp only
      omega
    · unfold frameMessage
      dsimp only
      omega
    · rw [front_start]
      omega
    · rw [front_start]
      exact Nat.le_trans hlength.le (Nat.le_add_right _ _)
    · unfold Holds
      exact List.drop_length
  | @frame frame head body hverdict hlimit hfits =>
    have hhead := httpFraming.head_pos hverdict
    obtain ⟨hlooks, len, size, -, hsize, -, hframe⟩ := httpVerdict_frame hverdict
    have hzero := startOf_eq_zero hlooks
    have hbegins := begins_of_httpVerdict hverdict
    have hfront : pos + startOf buffer ≤
        front (.start (pos + (head + body)) (buffer.drop (head + body))) := by
      rw [front_start]
      omega
    have hstart : (frameMessage context messages.length pos frame).logical_start = pos := by
      cases frame <;> rfl
    refine ⟨hreported.concat ?_ ?_ ?_ ?_ hfront ?_, ?_⟩
    · cases frame <;> rfl
    · intro hcomplete
      cases frame with
      | error reason size => cases hcomplete
      | complete message header length =>
        apply faithfulCut_of_begins
        · rwa [hholds]
        · simp only at hframe
          omega
    · rw [hstart]
      cases frame with
      | error reason size =>
        unfold frameMessage
        simp only at hframe ⊢
        omega
      | complete message header length =>
        unfold frameMessage
        simp only at hframe ⊢
        omega
    · rw [hstart]
      omega
    · intro hselected
      cases frame with
      | complete message header length =>
        unfold frameMessage
        rw [front_start]
        simp only at hframe ⊢
        omega
      | error reason size =>
        -- The range of the error is the whole buffer: nothing may begin in what is left of it.
        rcases hclean with hnever | hclean
        · rw [hnever _ rfl] at hselected
          cases hselected
        · have hnothing := startOf_of_cleanTurn hclean hlimit hverdict
          rw [List.length_drop] at hnothing
          unfold frameMessage
          rw [front_start]
          simp only at hframe ⊢
          obtain ⟨rfl, -, rfl⟩ := hframe
          rw [Nat.add_zero, hnothing]
          omega
    · unfold Holds
      rw [← hholds, List.drop_drop]
  | @body frame head body hverdict hlong =>
    have hlooks := (httpVerdict_frame hverdict).1
    rw [List.append_nil]
    refine ⟨hreported.mono ?_, ?_⟩
    · rw [startOf_eq_zero hlooks]
      exact le_refl _
    · refine ⟨by omega, ?_⟩
      rw [hholds]
      exact begins_of_httpVerdict hverdict

namespace Http1DirectionState

variable {P : StreamMessage → Bool} {S : List UInt8} {messages : List StreamMessage}
  {context : Http1ParseContext} {state : Http1DirectionState}

/-- The loop of `parse_buffer` keeps what has been reported, by induction on the turns. -/
theorem follows_parseLoop (pos : ℕ) (buffer : List UInt8)
    (h : Follows P S messages state (.start pos buffer)) (hsmall : S.length < 2^64) {fuel : ℕ}
    (hclean : (∀ message, message.status = .parseError → P message = false) ∨
      cleanLoop context fuel state = true) :
    ∃ fs, Follows P S (messages ++ (parseLoop context fuel state).2) (parseLoop context fuel state).1 fs := by
  induction fuel generalizing messages state pos buffer with
  | zero =>
    refine ⟨.start pos buffer, ?_⟩
    unfold parseLoop
    rw [List.append_nil]
    exact h
  | succ fuel ih =>
    obtain ⟨hframes, hholds, hreported⟩ := h
    obtain ⟨new, fs, more, hturn, state', hstep, hframes'⟩ := hframes.turn context hsmall
    have hbuffer : state.buffer = buffer := hframes.2.2.2.1
    have hturnClean : (∀ message, message.status = .parseError → P message = false) ∨
        cleanTurn context buffer = true := by
      rcases hclean with hnever | hclean
      · exact .inl hnever
      · unfold cleanLoop at hclean
        rw [Bool.and_eq_true, hbuffer] at hclean
        exact .inr hclean.1
    obtain ⟨hreported', hholds'⟩ :=
      hturn.reported hreported hholds hframes.2.2.2.2.2.1 hturnClean
    rw [← List.length_append] at hframes'
    have hfollows : Follows P S (messages ++ new) state' fs := ⟨hframes', hholds', hreported'⟩
    unfold parseLoop
    rw [hstep]
    cases more with
    | false => exact ⟨fs, hfollows⟩
    | true =>
      have hrest : (∀ message, message.status = .parseError → P message = false) ∨
          cleanLoop context fuel state' = true := by
        rcases hclean with hnever | hclean
        · exact .inl hnever
        · unfold cleanLoop at hclean
          rw [Bool.and_eq_true, hstep] at hclean
          exact .inr hclean.2
      -- The loop goes on only from where a message may begin.
      obtain ⟨pos', buffer', rfl⟩ : ∃ pos' buffer', fs = .start pos' buffer' := by
        cases hturn <;> exact ⟨_, _, rfl⟩
      obtain ⟨fs', hfollows'⟩ := ih pos' buffer' hfollows hrest
      refine ⟨fs', ?_⟩
      dsimp only
      rw [← List.append_assoc]
      exact hfollows'

/-- `append_input` keeps what has been reported. -/
theorem follows_appendInput {pos input_start : ℕ} {buffer input : List UInt8}
    (hnext : state.next_logical = S.length) (hordinal : state.next_ordinal = messages.length)
    (hpending : state.pending = none) (hbuffer : state.buffer = buffer)
    (hstart : buffer ≠ [] → state.buffer_start = pos) (hpos : pos + buffer.length = input_start)
    (htotal : input_start + input.length = S.length) (hle : messages.length ≤ pos)
    (hholds : S.drop pos = buffer ++ input) (hreported : Reported P S messages (pos + startOf buffer))
    (hsmall : S.length < 2^64)
    (hclean : (∀ message, message.status = .parseError → P message = false) ∨
      state.cleanAppend context input input_start = true) :
    ∃ fs, Follows P S (messages ++ (state.appendInput context input input_start).2)
      (state.appendInput context input input_start).1 fs := by
  have hmore := startOf_le_append buffer input
  unfold cleanAppend at hclean
  unfold appendInput parseBuffer
  unfold httpInput at hclean ⊢
  by_cases hempty : input = []
  · -- Nothing comes in.
    subst hempty
    refine ⟨.start pos buffer, ?_⟩
    rw [List.isEmpty_nil]
    simp only [if_true, List.append_nil] at hholds ⊢
    refine ⟨⟨hnext, hordinal, hpending, hbuffer, hstart, ?_, hle⟩, hholds, hreported⟩
    rw [List.length_nil] at htotal
    omega
  have hinput : input.isEmpty = false := by simpa using hempty
  simp only [hinput, Bool.false_eq_true, if_false] at hclean ⊢
  by_cases hne : buffer = []
  · -- The input is searched for a start.
    subst hne
    rw [List.length_nil, Nat.add_zero] at hpos
    subst hpos
    rw [hbuffer] at hclean ⊢
    simp only [List.isEmpty_nil, Bool.not_true, Bool.false_eq_true, if_false, if_true, List.nil_append]
      at hclean hholds ⊢
    rw [List.nil_append] at hmore
    have hwithin := startOf_le_length input
    have hzero : startOf [] = 0 := rfl
    cases hfind : findHttpStart input with
    | none =>
      have hend : startOf input = input.length := by
        unfold startOf
        rw [hfind]
        rfl
      simp only [Option.map_none, List.append_nil]
      refine ⟨.start S.length [], ⟨hnext, hordinal, hpending, hbuffer, ?_, ?_, ?_⟩, ?_, ?_⟩
      · exact fun hne => absurd rfl hne
      · rfl
      · omega
      · exact List.drop_length
      · refine hreported.mono ?_
        rw [front_start]
        omega
    | some k =>
      have hk : startOf input = k := by
        unfold startOf
        rw [hfind]
        rfl
      have hle' := startOf_le_drop (show k ≤ input.length by omega)
      simp only [hfind, Option.map_some] at hclean ⊢
      refine follows_parseLoop (pos + k) (input.drop k) ⟨?_, ?_, ?_⟩ hsmall hclean
      · refine ⟨hnext, hordinal, hpending, rfl, fun _ => saturatingAdd_eq (by omega), ?_, by omega⟩
        rw [List.length_drop]
        omega
      · unfold Holds
        rw [← hholds, List.drop_drop]
      · refine hreported.mono ?_
        rw [front_start]
        omega
  · -- The input follows what is in the buffer.
    have hfilled : buffer.isEmpty = false := by simpa using hne
    rw [hbuffer] at hclean ⊢
    simp only [hfilled, Bool.not_false, Bool.false_eq_true, if_false, if_true] at hclean ⊢
    rw [hbuffer] at hclean ⊢
    refine follows_parseLoop pos (buffer ++ input) ⟨?_, ?_, ?_⟩ hsmall hclean
    · refine ⟨hnext, hordinal, hpending, rfl, fun _ => hstart hne, ?_, hle⟩
      rw [List.length_append]
      omega
    · exact hholds
    · refine hreported.mono ?_
      rw [front_start]
      omega

/-- `push` keeps what has been reported. -/
theorem follows_push {fs : FrameState UInt8 HttpFrame} (h : Follows P S messages state fs)
    (bytes : List UInt8) (hsmall : (S ++ bytes).length < 2^64)
    (hclean : (∀ message, message.status = .parseError → P message = false) ∨
      state.cleanPush context bytes = true) :
    ∃ fs', Follows P (S ++ bytes) (messages ++ (state.push context bytes).2)
      (state.push context bytes).1 fs' := by
  obtain ⟨hframes, hholds, hreported⟩ := h
  have hreported' := hreported.append bytes
  by_cases hempty : bytes = []
  · subst hempty
    refine ⟨fs, ?_⟩
    unfold push
    rw [List.isEmpty_nil]
    simp only [if_true, List.append_nil]
    exact ⟨hframes, hholds, hreported⟩
  have hfilled : bytes.isEmpty = false := by simpa using hempty
  have htotal : (S ++ bytes).length = S.length + bytes.length := List.length_append
  unfold cleanPush at hclean
  unfold push
  simp only [hfilled, Bool.false_eq_true, if_false] at hclean ⊢
  cases fs with
  | start pos buffer =>
    obtain ⟨hnext, hordinal, hpending, hbuffer, hstart, hlength, hle⟩ := hframes
    simp only [hpending] at hclean ⊢
    refine follows_appendInput ?_ hordinal rfl hbuffer hstart ?_ ?_ hle ?_ hreported' hsmall hclean
    · dsimp only
      rw [hnext, htotal]
      exact saturatingAdd_eq (by omega)
    · omega
    · omega
    · rw [List.drop_append_of_le_length (by omega)]
      exact congrArg (fun kept => kept ++ bytes) hholds
  | body pos frame next remaining =>
    obtain ⟨hnext, hordinal, hbuffer, hpos, hend, hle, head, header, body, rfl, hsize, hheaderPos,
      hpending⟩ := hframes
    obtain ⟨hinside, hbegins⟩ := hholds
    have hbegins' : (HttpFrame.complete head header body).Begins ((S ++ bytes).drop pos) := by
      rw [List.drop_append_of_le_length hinside]
      exact hbegins.append bytes
    simp only [hpending] at hclean ⊢
    by_cases hdone : remaining ≤ bytes.length
    · -- The body ends in these bytes, and the message is a cut of the stream.
      simp only [Nat.min_eq_left hdone, Nat.sub_self, if_true] at hclean ⊢
      rw [complete_eq_frameMessage context head (show pos + header + body < 2^64 by omega)]
      have hconcat : Reported P (S ++ bytes)
          (messages ++ [frameMessage context messages.length pos (.complete head header body)]) next := by
        refine hreported'.concat rfl (fun _ => ?_) ?_ (le_refl pos) ?_ fun _ => ?_
        · exact faithfulCut_of_begins hbegins' (by omega)
        · unfold frameMessage
          dsimp only
          omega
        · unfold front
          dsimp only
          omega
        · unfold frameMessage
          dsimp only
          omega
      have hcount : (messages ++ [frameMessage context messages.length pos
          (.complete head header body)]).length = messages.length + 1 := by
        rw [List.length_append, List.length_singleton]
      have hnext' : saturatingAdd state.next_logical bytes.length = (S ++ bytes).length := by
        rw [hnext, htotal]
        exact saturatingAdd_eq (by omega)
      have hinput : saturatingAdd state.next_logical remaining = next := by
        rw [hnext, hend]
        exact saturatingAdd_eq (by omega)
      by_cases hrest : bytes.drop remaining = []
      · have hlength := congrArg List.length hrest
        rw [List.length_drop, List.length_nil] at hlength
        rw [hrest]
        simp only [List.isEmpty_nil, if_true]
        refine ⟨.start next [], ⟨hnext', ?_, rfl, hbuffer, fun hne => absurd rfl hne, ?_, ?_⟩, ?_, ?_⟩
        · rw [hcount]
          exact hordinal
        · rw [List.length_nil]
          omega
        · omega
        · apply List.drop_eq_nil_of_le
          omega
        · exact hconcat
      · have hmore : (bytes.drop remaining).isEmpty = false := by simpa using hrest
        simp only [hmore, Bool.false_eq_true, if_false]
        rw [hinput] at hclean ⊢
        have hlength : (bytes.drop remaining).length = bytes.length - remaining := List.length_drop
        have hdrop : (S ++ bytes).drop next = [] ++ bytes.drop remaining := by
          rw [List.drop_append, List.drop_eq_nil_of_le (by omega), hend, Nat.add_sub_cancel_left]
        let state' : Http1DirectionState :=
          { state with next_logical := saturatingAdd state.next_logical bytes.length, pending := none }
        obtain ⟨fs', hfollows⟩ := follows_appendInput (show state'.next_logical = _ from hnext')
          (hordinal.trans hcount.symm) rfl hbuffer (fun hne => absurd rfl hne)
          (show next + ([] : List UInt8).length = next from rfl) (by omega) (by omega) hdrop hconcat
          hsmall hclean
        refine ⟨fs', ?_⟩
        rw [List.append_cons]
        exact hfollows
    · -- More of the body is missing.
      have hmissing : remaining - bytes.length ≠ 0 := by omega
      simp only [Nat.min_eq_right (show bytes.length ≤ remaining by omega), hmissing, if_false,
        List.append_nil]
      refine ⟨.body pos (.complete head header body) next (remaining - bytes.length), ?_, ?_, ?_⟩
      · refine ⟨?_, hordinal, hbuffer, by omega, by omega, hle, head, header, body, rfl, hsize,
          hheaderPos, rfl⟩
        dsimp only
        rw [hnext, htotal]
        exact saturatingAdd_eq (by omega)
      · refine ⟨?_, hbegins'⟩
        omega
      · exact hreported'

/-- The pushes of a run keep what has been reported. -/
theorem follows_pushEach {fs : FrameState UInt8 HttpFrame} (h : Follows P S messages state fs)
    (pushes : List (Http1ParseContext × List UInt8))
    (hsmall : (S ++ (pushes.map Prod.snd).flatten).length < 2^64)
    (hclean : (∀ message, message.status = .parseError → P message = false) ∨
      state.cleanEach pushes = true) :
    ∃ fs', Follows P (S ++ (pushes.map Prod.snd).flatten) (messages ++ (state.pushEach pushes).2)
      (state.pushEach pushes).1 fs' := by
  induction pushes generalizing S messages state fs with
  | nil =>
    refine ⟨fs, ?_⟩
    unfold pushEach
    simp only [List.map_nil, List.flatten_nil, List.append_nil]
    exact h
  | cons push pushes ih =>
    obtain ⟨context, bytes⟩ := push
    rw [List.map_cons, List.flatten_cons, ← List.append_assoc] at hsmall ⊢
    dsimp only at hsmall ⊢
    have hfirst : (∀ message, message.status = .parseError → P message = false) ∨
        state.cleanPush context bytes = true := by
      rcases hclean with hnever | hclean
      · exact .inl hnever
      · unfold cleanEach at hclean
        rw [Bool.and_eq_true] at hclean
        exact .inr hclean.1
    have hrest : (∀ message, message.status = .parseError → P message = false) ∨
        (state.push context bytes).1.cleanEach pushes = true := by
      rcases hclean with hnever | hclean
      · exact .inl hnever
      · unfold cleanEach at hclean
        rw [Bool.and_eq_true] at hclean
        exact .inr hclean.2
    obtain ⟨fs₁, hfollows⟩ := follows_push h bytes
      (by rw [List.length_append] at hsmall; omega) hfirst
    obtain ⟨fs', hfollows'⟩ := ih hfollows hsmall hrest
    refine ⟨fs', ?_⟩
    unfold pushEach
    dsimp only
    rw [← List.append_assoc]
    exact hfollows'

/-- A new parser has reported nothing. -/
theorem follows_new (P : StreamMessage → Bool) : Follows P [] [] {} (.start 0 []) :=
  ⟨frames_new, rfl, .nil P [] _⟩

/-! ## Results -/

/-- The bytes of all pushes. -/
def pushed (pushes : List (Http1ParseContext × List UInt8)) : List UInt8 :=
  (pushes.map Prod.snd).flatten

/-- What the pushes of a new parser lead to. -/
theorem follows_pushed (P : StreamMessage → Bool) {pushes : List (Http1ParseContext × List UInt8)}
    (hsmall : (pushed pushes).length < 2^64)
    (hclean : (∀ message, message.status = .parseError → P message = false) ∨
      cleanEach {} pushes = true) :
    ∃ fs, Follows P (pushed pushes) (pushEach {} pushes).2 (pushEach {} pushes).1 fs := by
  have hrun := follows_pushEach (follows_new P) pushes
  rw [List.nil_append, List.nil_append] at hrun
  exact hrun hsmall hclean

/-- A buffer that is not empty holds the end of the stream, and no body is pending. -/
theorem Frames.buffer_eq {fs : FrameState UInt8 HttpFrame} {ordinal : ℕ}
    (h : state.Frames S.length ordinal fs) (hholds : Holds S fs) (hne : state.buffer ≠ []) :
    state.buffer = cut S state.buffer_start state.next_logical ∧ state.pending = none := by
  cases fs with
  | body pos frame next remaining =>
    obtain ⟨-, -, hbuffer, -⟩ := h
    exact absurd hbuffer hne
  | start pos buffer =>
    obtain ⟨hnext, -, hpending, hbuffer, hstart, hlength, -⟩ := h
    subst hbuffer
    refine ⟨?_, hpending⟩
    have hdrop : S.drop pos = state.buffer := hholds
    unfold cut
    rw [hstart hne, hnext, hdrop, List.take_of_length_le (by omega)]

/-- After any pushes with any limits: a buffer that is not empty is the part of the stream from its start to
the last byte so far, with no body pending, every complete message is a faithful cut of the stream, the
complete messages lie one after the other, and all messages are numbered from 0 on as they come. -/
theorem pushEach_faithful (pushes : List (Http1ParseContext × List UInt8))
    (hsmall : (pushed pushes).length < 2^64) :
    (∀ first rest, pushes = first ++ rest → (pushEach {} first).1.buffer ≠ [] →
      (pushEach {} first).1.buffer = cut (pushed pushes) (pushEach {} first).1.buffer_start
          (pushEach {} first).1.next_logical ∧
        (pushEach {} first).1.pending = none) ∧
      (∀ message ∈ (pushEach {} pushes).2, message.status = .complete →
        FaithfulCut (pushed pushes) message) ∧
      ((pushEach {} pushes).2.filter isComplete).Pairwise Before ∧
      (pushEach {} pushes).2.map (fun message => message.ordinal) =
        List.range (pushEach {} pushes).2.length := by
  have hnever : ∀ message : StreamMessage, message.status = .parseError → isComplete message = false := by
    intro message hstatus
    unfold isComplete
    rw [hstatus]
    rfl
  obtain ⟨fs, hfollows⟩ := follows_pushed isComplete hsmall (.inl hnever)
  refine ⟨?_, hfollows.reported.faithful, hfollows.reported.apart, hfollows.reported.ordinals⟩
  rintro first rest rfl hne
  have happend : pushed (first ++ rest) = pushed first ++ pushed rest := by
    unfold pushed
    rw [List.map_append, List.flatten_append]
  rw [happend, List.length_append] at hsmall
  obtain ⟨fs', hfirst⟩ := follows_pushed isComplete (show (pushed first).length < 2^64 by omega)
    (.inl hnever)
  obtain ⟨hbuffer, hpending⟩ := hfirst.frames.buffer_eq hfirst.holds hne
  -- The buffer lies in what has been pushed so far.
  have hnext : (pushEach {} first).1.next_logical = (pushed first).length := by
    cases fs' with
    | start pos buffer => exact hfirst.frames.1
    | body pos frame next remaining => exact hfirst.frames.1
  have hstart : (pushEach {} first).1.buffer_start ≤ (pushEach {} first).1.next_logical := by
    by_contra hlt
    apply hne
    rw [hbuffer]
    unfold cut
    rw [Nat.sub_eq_zero_of_le (by omega), List.take_zero]
  refine ⟨?_, hpending⟩
  rw [happend, cut_append hstart (by omega)]
  exact hbuffer

/-- Two requests, in pieces that end within the first one and its body, with limits of 1000 bytes and of 40. -/
def samplePushes : List (Http1ParseContext × List UInt8) :=
  [(⟨7, .aToB, 1000, 1000⟩, utf8 "xxPOST / HTTP/1.1\r\nContent-Le".toList),
    (⟨7, .aToB, 40, 100⟩, utf8 "ngth: 3\r\n\r\na".toList),
    (⟨7, .aToB, 40, 40⟩, utf8 "bcGET / HTTP/1.1\r\n\r\nGE".toList)]

/-- The two requests are cuts of these pushes. -/
theorem pushEach_faithful_sample :
    (pushEach {} samplePushes).2.map (fun message => (message.logical_start, message.logical_end)) =
        [(2, 43), (43, 61)] ∧
      ∀ message ∈ (pushEach {} samplePushes).2, message.status = .complete →
        FaithfulCut (pushed samplePushes) message :=
  ⟨by decide +kernel, (pushEach_faithful samplePushes (by decide +kernel)).2.1⟩

/-- When every turn is clean, the ranges of all messages, errors with them, lie one after the other. -/
theorem pushEach_apart (pushes : List (Http1ParseContext × List UInt8))
    (hsmall : (pushed pushes).length < 2^64) (hclean : cleanEach {} pushes = true) :
    (pushEach {} pushes).2.Pairwise Before ∧
      ∀ message ∈ (pushEach {} pushes).2, message.logical_start < message.logical_end := by
  obtain ⟨fs, hfollows⟩ := follows_pushed (fun _ => true) hsmall (.inr hclean)
  have hapart := hfollows.reported.apart
  rw [List.filter_true] at hapart
  exact ⟨hapart, hfollows.reported.covers⟩

/-- A head without a target, and bytes behind it that are no start of a message; then a request. -/
def noisyPushes : List (Http1ParseContext × List UInt8) :=
  [(⟨7, .aToB, 1000, 1000⟩, utf8 "GET\r\n\r\nzz".toList),
    (⟨7, .aToB, 1000, 1000⟩, utf8 "GET / HTTP/1.1\r\n\r\n".toList)]

/-- The error takes the first piece as its range, and the request that follows lies behind it. -/
theorem pushEach_apart_sample :
    (pushEach {} noisyPushes).2.map
        (fun message => (message.status, message.logical_start, message.logical_end)) =
      [(.parseError, 0, 9), (.complete, 9, 27)] ∧
      (pushEach {} noisyPushes).2.Pairwise Before := by
  constructor
  · decide +kernel
  · exact (pushEach_apart noisyPushes (by decide +kernel) (by decide +kernel)).1

/-- A head without a target, and a request in the same piece. -/
def strayPushes : List (Http1ParseContext × List UInt8) :=
  [(⟨7, .aToB, 1000, 1000⟩, utf8 "GET\r\n\r\nGET / HTTP/1.1\r\n\r\n".toList)]

/-- The error takes the whole piece as its range, and the request in it is reported too. -/
theorem pushEach_overlap :
    (pushEach {} strayPushes).2.map
        (fun message => (message.status, message.logical_start, message.logical_end)) =
      [(.parseError, 0, 25), (.complete, 7, 25)] ∧
      ¬ (pushEach {} strayPushes).2.Pairwise Before := by
  have hranges : (pushEach {} strayPushes).2.map
      (fun message => (message.status, message.logical_start, message.logical_end)) =
        [(.parseError, 0, 25), (.complete, 7, 25)] := by
    decide +kernel
  refine ⟨hranges, fun hapart => ?_⟩
  have hmapped : ((pushEach {} strayPushes).2.map
      (fun message => (message.status, message.logical_start, message.logical_end))).Pairwise
        fun a b => a.2.2 ≤ b.2.1 := by
    rw [List.pairwise_map]
    exact hapart
  rw [hranges] at hmapped
  exact absurd hmapped (by decide)

end Http1DirectionState

end Rustmate.Message
