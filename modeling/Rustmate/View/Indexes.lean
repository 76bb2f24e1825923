import Rustmate.View.State

/-!
# The indexes of the stream view

The order, the sets and the pattern index of `StreamViewState` agree with its rows in every reachable state.
-/

namespace Rustmate.View

open Message (Text)
open Events
open InvertedIndex (Lists)

/-- One call on the view. -/
inductive ViewCall where
  | event (event : Event)
  | setFavorite (stream_id : BitVec 64) (favorite : Bool)
  | setHidden (stream_id : BitVec 64) (hidden : Bool)
  | addHideRule (rule : StreamHideRule)
  | clearHideRules

namespace StreamViewState

/-- What a call does to the view. -/
def call (s : StreamViewState) : ViewCall → StreamViewState
  | .event event => s.observeEvent event
  | .setFavorite stream_id favorite => (s.setFavorite stream_id favorite).1
  | .setHidden stream_id hidden => (s.setHidden stream_id hidden).1
  | .addHideRule rule => s.addHideRule rule
  | .clearHideRules => s.clearHideRules

/-- A sequence of calls. -/
def callAll (s : StreamViewState) (calls : List ViewCall) : StreamViewState := calls.foldl call s

/-- A tracked stream has this pattern. -/
def HasPattern (s : StreamViewState) (id : BitVec 64) (pattern_id : Text) : Prop :=
  ∃ entry, s.streams.lookup id = some entry ∧ pattern_id ∈ entry.pattern_ids

/-- The collections beside the rows agree with them, under this configuration. -/
structure Agrees (c : StreamViewConfig) (s : StreamViewState) : Prop where
  config : s.view_config = c
  order_nodup : s.stream_order.Nodup
  mem_order : ∀ id, id ∈ s.stream_order ↔ id ∈ s.streams
  own_id : ∀ id entry, s.streams.lookup id = some entry → entry.stream_id = id
  favorites : ∀ id ∈ s.favorites, id ∈ s.streams
  hidden : ∀ id ∈ s.manually_hidden, id ∈ s.streams
  matched : ∀ id, id ∈ s.matched_streams ↔
    ∃ entry, s.streams.lookup id = some entry ∧ 0 < entry.match_count
  index : Lists s.pattern_index s.HasPattern
  bounded : ∀ id entry, s.streams.lookup id = some entry →
    entry.matches_.length ≤ c.max_matches_per_stream
  size_le : s.streams.size ≤ c.max_streams

/-- A view without streams agrees with itself. -/
theorem agrees_new (c : StreamViewConfig) : Agrees c (new c) where
  config := rfl
  order_nodup := List.nodup_nil
  mem_order := by simp [new]
  own_id _ _ h := by simp [new] at h
  favorites := by simp [new]
  hidden := by simp [new]
  matched := by simp [new]
  index := InvertedIndex.lists_empty fun _ _ ⟨_, h, _⟩ => by simp [new] at h
  bounded _ _ h := by simp [new] at h
  size_le := Nat.zero_le _

/-! ## Rows that are replaced -/

variable {c : StreamViewConfig} {s : StreamViewState} {id : BitVec 64}
  {old entry : StreamViewEntry}

/-- What an update of a row or a protocol message leaves alone. -/
structure SameMatches (old entry : StreamViewEntry) : Prop where
  stream_id : entry.stream_id = old.stream_id
  matches_ : entry.matches_ = old.matches_
  match_count : entry.match_count = old.match_count
  pattern_ids : entry.pattern_ids = old.pattern_ids

/-- A tracked stream stays tracked when its row is replaced, and so does every other. -/
theorem mem_insert_iff (h : s.streams.lookup id = some old) (id' : BitVec 64) :
    id' ∈ s.streams.insert id entry ↔ id' ∈ s.streams := by
  rw [AList.mem_insert]
  exact ⟨fun h' => h'.elim (fun heq => heq ▸ Table.mem_of_lookup h) fun h' => h', Or.inr⟩

/-- What holds of some row and speaks of the parts that are kept holds after the replacement. -/
theorem exists_insert_iff (h : s.streams.lookup id = some old) {P : StreamViewEntry → Prop}
    (hP : P entry ↔ P old) (id' : BitVec 64) :
    (∃ e, (s.streams.insert id entry).lookup id' = some e ∧ P e) ↔
      ∃ e, s.streams.lookup id' = some e ∧ P e := by
  by_cases heq : id' = id
  · rw [heq, AList.lookup_insert, h]
    simpa using hP
  · rw [AList.lookup_insert_ne heq]

/-- Replacing a row by one with the same matches keeps the agreement. -/
theorem Agrees.replace (ha : Agrees c s) (h : s.streams.lookup id = some old)
    (hsame : SameMatches old entry) : Agrees c { s with streams := s.streams.insert id entry } where
  config := ha.config
  order_nodup := ha.order_nodup
  mem_order id' := (ha.mem_order id').trans (mem_insert_iff h id').symm
  own_id id' e he := by
    by_cases heq : id' = id
    · subst heq
      rw [AList.lookup_insert] at he
      rw [← Option.some.inj he, hsame.stream_id, ha.own_id _ _ h]
    · rw [AList.lookup_insert_ne heq] at he
      exact ha.own_id id' e he
  favorites id' h' := (mem_insert_iff h id').mpr (ha.favorites id' h')
  hidden id' h' := (mem_insert_iff h id').mpr (ha.hidden id' h')
  matched id' := (ha.matched id').trans
    (exists_insert_iff h (P := fun e => 0 < e.match_count) (by rw [hsame.match_count]) id').symm
  index := ha.index.congr fun id' p =>
    (exists_insert_iff h (P := fun e => p ∈ e.pattern_ids) (by rw [hsame.pattern_ids]) id').symm
  bounded id' e he := by
    by_cases heq : id' = id
    · subst heq
      rw [AList.lookup_insert] at he
      rw [← Option.some.inj he, hsame.matches_]
      exact ha.bounded _ _ h
    · rw [AList.lookup_insert_ne heq] at he
      exact ha.bounded id' e he
  size_le := by
    rw [Table.size_insert_mem _ (Table.mem_of_lookup h)]
    exact ha.size_le

/-! ## Eviction -/

/-- The first stream of the order is tracked, so it is the one evicted. -/
theorem Agrees.evictOldest_cases (ha : Agrees c s) :
    (s.stream_order = [] ∧ s.evictOldest = s) ∨
      ∃ id rest entry, s.stream_order = id :: rest ∧ s.streams.lookup id = some entry ∧
        s.evictOldest = s.withoutFirst id entry := by
  rcases horder : s.stream_order with - | ⟨id, rest⟩
  · left
    refine ⟨rfl, ?_⟩
    rw [evictOldest, horder, evictLoop, ← horder]
  · right
    obtain ⟨entry, hentry⟩ :=
      Table.exists_lookup ((ha.mem_order id).mp (by rw [horder]; exact List.mem_cons_self))
    refine ⟨id, rest, entry, rfl, hentry, ?_⟩
    rw [evictOldest, horder, evictLoop, removeStream, hentry, withoutFirst, horder]
    rfl

/-- Everything about the evicted stream is gone, and nothing else. -/
theorem Agrees.withoutFirst (ha : Agrees c s) {rest : List (BitVec 64)}
    (horder : s.stream_order = id :: rest) (h : s.streams.lookup id = some entry) :
    Agrees c (s.withoutFirst id entry) := by
  have hnodup := ha.order_nodup
  rw [horder, List.nodup_cons] at hnodup
  have hmem : ∀ id', id' ∈ s.streams.erase id ↔ id' ≠ id ∧ id' ∈ s.streams := fun _ => AList.mem_erase
  have hne : ∀ {id' e}, (s.streams.erase id).lookup id' = some e → id' ≠ id := by
    intro id' e he heq
    rw [heq, AList.lookup_erase] at he
    exact absurd he (by simp)
  have hlookup : ∀ {id' e}, (s.streams.erase id).lookup id' = some e ↔
      id' ≠ id ∧ s.streams.lookup id' = some e := by
    intro id' e
    by_cases heq : id' = id
    · rw [heq, AList.lookup_erase]
      simp
    · rw [AList.lookup_erase_ne heq]
      simp [heq]
  refine ⟨ha.config, ?_, ?_, ?_, ?_, ?_, ?_, ?_, ?_, ?_⟩
  · simp only [StreamViewState.withoutFirst, horder, List.tail_cons]
    exact hnodup.2
  · intro id'
    simp only [StreamViewState.withoutFirst, horder, List.tail_cons]
    rw [hmem, ← ha.mem_order, horder, List.mem_cons]
    constructor
    · exact fun h' => ⟨fun heq => hnodup.1 (heq ▸ h'), Or.inr h'⟩
    · exact fun ⟨hneq, h'⟩ => h'.resolve_left hneq
  · exact fun id' e he => ha.own_id id' e (hlookup.mp he).2
  · intro id' h'
    obtain ⟨hneq, hfav⟩ := Finset.mem_erase.mp h'
    exact (hmem id').mpr ⟨hneq, ha.favorites id' hfav⟩
  · intro id' h'
    obtain ⟨hneq, hhid⟩ := Finset.mem_erase.mp h'
    exact (hmem id').mpr ⟨hneq, ha.hidden id' hhid⟩
  · intro id'
    simp only [StreamViewState.withoutFirst, Finset.mem_erase, hlookup, ha.matched]
    exact ⟨fun ⟨hneq, e, he, hpos⟩ => ⟨e, ⟨hneq, he⟩, hpos⟩,
      fun ⟨e, ⟨hneq, he⟩, hpos⟩ => ⟨hneq, e, he, hpos⟩⟩
  · refine ha.index.discardAll id _ fun id' p => ?_
    simp only [StreamViewState.HasPattern, StreamViewState.withoutFirst, hlookup, Finset.mem_sort]
    constructor
    · rintro ⟨e, ⟨hneq, he⟩, hp⟩
      exact ⟨⟨e, he, hp⟩, fun hid => hneq hid.1⟩
    · rintro ⟨⟨e, he, hp⟩, hnot⟩
      refine ⟨e, ⟨fun hid => hnot ⟨hid, ?_⟩, he⟩, hp⟩
      rw [hid, h] at he
      rwa [Option.some.inj he]
  · exact fun id' e he => ha.bounded id' e (hlookup.mp he).2
  · have := Table.size_erase (Table.mem_of_lookup h)
    have := ha.size_le
    simp only [StreamViewState.withoutFirst]
    omega

/-- Eviction keeps the agreement. -/
theorem Agrees.evictOldest (ha : Agrees c s) : Agrees c s.evictOldest := by
  rcases ha.evictOldest_cases with ⟨-, heq⟩ | ⟨id, rest, entry, horder, h, heq⟩
  · rwa [heq]
  · rw [heq]
    exact ha.withoutFirst horder h

/-- A stream that is not tracked is not after an eviction. -/
theorem Agrees.evictOldest_lookup_none (ha : Agrees c s) (h : s.streams.lookup id = none) :
    s.evictOldest.streams.lookup id = none := by
  rcases ha.evictOldest_cases with ⟨-, heq⟩ | ⟨id', rest, entry, -, -, heq⟩
  · rw [heq, h]
  · rw [heq, AList.lookup_eq_none]
    exact fun hmem => AList.lookup_eq_none.mp h (AList.mem_erase.mp hmem).2

/-! ## Inventory events -/

/-- The row of an update: the matches are those of the row that it replaces. -/
def updating (entry old : StreamViewEntry) : StreamViewEntry :=
  { entry with
    matches_ := old.matches_
    match_count := old.match_count
    pattern_ids := old.pattern_ids }

/-- The view with one row more, the last one. -/
def appended (s : StreamViewState) (entry : StreamViewEntry) : StreamViewState :=
  { s with
    stream_order := s.stream_order ++ [entry.stream_id]
    streams := s.streams.insert entry.stream_id entry }

/-- An inventory event updates the row of its stream, or appends one, after the eviction of another stream
where there is no room. -/
theorem upsertStream_cases (s : StreamViewState) (entry : StreamViewEntry) :
    (∃ old, s.streams.lookup entry.stream_id = some old ∧ s.upsertStream entry =
      { s with streams := s.streams.insert entry.stream_id (updating entry old) }) ∨
    (s.streams.lookup entry.stream_id = none ∧ ∃ t,
      (t = s ∧ s.streams.size < s.view_config.max_streams ∨
        t = s.evictOldest ∧ s.view_config.max_streams ≤ s.streams.size) ∧
      (t.view_config.max_streams ≤ t.streams.size ∧ s.upsertStream entry = t ∨
        t.streams.size < t.view_config.max_streams ∧ s.upsertStream entry = t.appended entry)) := by
  unfold upsertStream
  rcases hlookup : s.streams.lookup entry.stream_id with - | old
  · refine .inr ⟨rfl, if s.view_config.max_streams ≤ s.streams.size then s.evictOldest else s, ?_, ?_⟩
    · split_ifs with hfull
      · exact .inr ⟨rfl, hfull⟩
      · exact .inl ⟨rfl, by omega⟩
    · dsimp only
      generalize (if s.view_config.max_streams ≤ s.streams.size then s.evictOldest else s) = t
      split_ifs with hfull
      · exact .inl ⟨hfull, rfl⟩
      · exact .inr ⟨by omega, rfl⟩
  · exact .inl ⟨old, rfl, rfl⟩

/-- A new row, without matches, comes last. -/
theorem Agrees.appended (ha : Agrees c s) (hnone : s.streams.lookup entry.stream_id = none)
    (hroom : s.streams.size < c.max_streams) (hmatches : entry.matches_ = [])
    (hcount : entry.match_count = 0) (hpatterns : entry.pattern_ids = ∅) :
    Agrees c (s.appended entry) := by
  have hnew : entry.stream_id ∉ s.streams := AList.lookup_eq_none.mp hnone
  have hexists : ∀ {P : StreamViewEntry → Prop}, ¬ P entry → ∀ id',
      (∃ e, (s.streams.insert entry.stream_id entry).lookup id' = some e ∧ P e) ↔
        ∃ e, s.streams.lookup id' = some e ∧ P e := by
    intro P hP id'
    by_cases heq : id' = entry.stream_id
    · rw [heq, AList.lookup_insert, hnone]
      simpa using hP
    · rw [AList.lookup_insert_ne heq]
  have hold : ∀ {id' e}, (s.streams.insert entry.stream_id entry).lookup id' = some e →
      (id' = entry.stream_id ∧ e = entry) ∨ s.streams.lookup id' = some e := by
    intro id' e he
    by_cases heq : id' = entry.stream_id
    · rw [heq, AList.lookup_insert] at he
      exact .inl ⟨heq, (Option.some.inj he).symm⟩
    · rw [AList.lookup_insert_ne heq] at he
      exact .inr he
  refine ⟨ha.config, ?_, ?_, ?_, ?_, ?_, ?_, ?_, ?_, ?_⟩
  · refine List.nodup_append.mpr ⟨ha.order_nodup, List.nodup_singleton _, ?_⟩
    intro a ha' b hb
    rw [List.mem_singleton.mp hb]
    exact fun heq => hnew (heq ▸ (ha.mem_order a).mp ha')
  · intro id'
    unfold StreamViewState.appended
    rw [List.mem_append, ha.mem_order, List.mem_singleton, AList.mem_insert]
    exact Or.comm
  · intro id' e he
    rcases hold he with ⟨rfl, rfl⟩ | he
    · rfl
    · exact ha.own_id id' e he
  · exact fun id' h' => AList.mem_insert _ |>.mpr (.inr (ha.favorites id' h'))
  · exact fun id' h' => AList.mem_insert _ |>.mpr (.inr (ha.hidden id' h'))
  · exact fun id' => (ha.matched id').trans (hexists (by simp [hcount]) id').symm
  · exact ha.index.congr fun id' p => (hexists (by simp [hpatterns]) id').symm
  · intro id' e he
    rcases hold he with ⟨-, rfl⟩ | he
    · rw [hmatches]
      exact Nat.zero_le _
    · exact ha.bounded id' e he
  · unfold StreamViewState.appended
    rw [Table.size_insert _ hnew]
    exact hroom

/-- An inventory event keeps the agreement. -/
theorem Agrees.upsertStream (ha : Agrees c s) (hmatches : entry.matches_ = [])
    (hcount : entry.match_count = 0) (hpatterns : entry.pattern_ids = ∅) :
    Agrees c (s.upsertStream entry) := by
  rcases s.upsertStream_cases entry with ⟨old, hold, heq⟩ | ⟨hnone, t, ht, heq⟩
  · rw [heq]
    exact ha.replace hold ⟨(ha.own_id _ _ hold).symm, rfl, rfl, rfl⟩
  · have hagrees : Agrees c t := by
      rcases ht with ⟨rfl, -⟩ | ⟨rfl, -⟩
      · exact ha
      · exact ha.evictOldest
    have htnone : t.streams.lookup entry.stream_id = none := by
      rcases ht with ⟨rfl, -⟩ | ⟨rfl, -⟩
      · exact hnone
      · exact ha.evictOldest_lookup_none hnone
    rcases heq with ⟨-, heq⟩ | ⟨hroom, heq⟩
    · rwa [heq]
    · rw [heq]
      exact hagrees.appended htnone (by rwa [← hagrees.config]) hmatches hcount hpatterns

/-! ## Pattern matches -/

/-- The matches that are kept with one more, of which there may be so many. -/
def keepMatch (max_matches : ℕ) (matches_ : List StreamPatternMatch)
    (pattern_match : StreamPatternMatch) : List StreamPatternMatch :=
  if max_matches = 0 then matches_
  else if max_matches ≤ matches_.length then matches_.drop 1 ++ [pattern_match]
  else matches_ ++ [pattern_match]

/-- The row of a stream with one match more. -/
def matching (max_matches : ℕ) (entry : StreamViewEntry) (pattern_match : StreamPatternMatch) :
    StreamViewEntry :=
  { entry with
    matches_ := keepMatch max_matches entry.matches_ pattern_match
    match_count := saturatingAdd entry.match_count 1
    pattern_ids := insert pattern_match.pattern_id entry.pattern_ids }

/-- The counter of stored matches, after a match of a stream that has so many. -/
def countMatch (max_matches stored length : ℕ) : ℕ :=
  if max_matches = 0 then stored
  else if max_matches ≤ length then saturatingAdd (stored - 1) 1
  else saturatingAdd stored 1

/-- A match of an untracked stream is counted; any other goes to the row of its stream, to the matched
streams and to the index. -/
theorem observeMatch_cases (s : StreamViewState) (m : StreamPatternMatch) :
    (s.streams.lookup m.stream_id = none ∧ ∃ stats,
      stats.stored_matches = s.stats.stored_matches ∧ s.observeMatch m = { s with stats }) ∨
    ∃ entry stats, s.streams.lookup m.stream_id = some entry ∧
      stats.stored_matches = countMatch s.view_config.max_matches_per_stream
        s.stats.stored_matches entry.matches_.length ∧
      s.observeMatch m = { s with
        streams := s.streams.insert m.stream_id
          (matching s.view_config.max_matches_per_stream entry m)
        matched_streams := insert m.stream_id s.matched_streams
        pattern_index := InvertedIndex.post m.stream_id s.pattern_index m.pattern_id
        stats } := by
  unfold observeMatch
  dsimp only
  rcases hlookup : s.streams.lookup m.stream_id with - | entry
  · refine .inl ⟨rfl, _, ?_, rfl⟩
    rfl
  · refine .inr ⟨entry, ?_⟩
    dsimp only
    unfold matching keepMatch countMatch
    by_cases hzero : s.view_config.max_matches_per_stream = 0
    · rw [if_pos hzero, if_pos hzero, if_pos hzero]
      refine ⟨_, rfl, ?_, rfl⟩
      rfl
    rw [if_neg hzero, if_neg hzero, if_neg hzero]
    by_cases hfull : s.view_config.max_matches_per_stream ≤ entry.matches_.length
    · simp only [if_pos hfull, AList.insert_insert]
      refine ⟨_, trivial, ?_, rfl⟩
      rfl
    · simp only [if_neg hfull, AList.insert_insert]
      refine ⟨_, trivial, ?_, rfl⟩
      rfl

/-- No more matches are kept than may be. -/
theorem length_keepMatch {max_matches : ℕ} {matches_ : List StreamPatternMatch}
    (m : StreamPatternMatch) (h : matches_.length ≤ max_matches) :
    (keepMatch max_matches matches_ m).length ≤ max_matches := by
  unfold keepMatch
  split_ifs with hzero hfull
  · exact h
  · simp
    omega
  · simp
    omega

/-- A match keeps the agreement. -/
theorem Agrees.observeMatch (ha : Agrees c s) (m : StreamPatternMatch) :
    Agrees c (s.observeMatch m) := by
  rcases s.observeMatch_cases m with ⟨-, stats, -, heq⟩ | ⟨entry, stats, h, -, heq⟩
  · rw [heq]
    exact ⟨ha.config, ha.order_nodup, ha.mem_order, ha.own_id, ha.favorites, ha.hidden, ha.matched,
      ha.index, ha.bounded, ha.size_le⟩
  rw [heq]
  have hid : m.stream_id ∈ s.streams := Table.mem_of_lookup h
  have hlookup : ∀ id' e, (s.streams.insert m.stream_id
      (matching s.view_config.max_matches_per_stream entry m)).lookup id' = some e ↔
      if id' = m.stream_id then matching s.view_config.max_matches_per_stream entry m = e
      else s.streams.lookup id' = some e := by
    intro id' e
    split_ifs with heq
    · rw [heq, AList.lookup_insert, Option.some_inj]
    · rw [AList.lookup_insert_ne heq]
  refine ⟨ha.config, ha.order_nodup, ?_, ?_, ?_, ?_, ?_, ?_, ?_, ?_⟩
  · exact fun id' => (ha.mem_order id').trans (mem_insert_iff h id').symm
  · intro id' e he
    have he := (hlookup id' e).mp he
    split_ifs at he with hid'
    · rw [← he, hid']
      exact (ha.own_id _ entry h :)
    · exact ha.own_id id' e he
  · exact fun id' h' => (mem_insert_iff h id').mpr (ha.favorites id' h')
  · exact fun id' h' => (mem_insert_iff h id').mpr (ha.hidden id' h')
  · intro id'
    simp only [hlookup, Finset.mem_insert, ha.matched]
    by_cases hid' : id' = m.stream_id
    · have hpos : 0 < (matching s.view_config.max_matches_per_stream entry m).match_count := by
        simp only [matching, saturatingAdd, u64Max]
        omega
      simp [hid', hpos]
    · simp [hid']
  · refine ha.index.post m.stream_id m.pattern_id fun id' p => ?_
    unfold HasPattern
    simp only [hlookup]
    by_cases hid' : id' = m.stream_id
    · subst hid'
      simp [h, matching, or_comm]
    · simp [hid']
  · intro id' e he
    have he := (hlookup id' e).mp he
    split_ifs at he with hid'
    · rw [← he, ha.config]
      exact length_keepMatch m (ha.bounded _ _ h)
    · exact ha.bounded id' e he
  · dsimp only
    rw [Table.size_insert_mem _ hid]
    exact ha.size_le

/-! ## Protocol messages and marks -/

/-- The row of a stream after a message. -/
def informed (entry : StreamViewEntry) (message : Message.StreamMessage) (event : Event) :
    StreamViewEntry :=
  { entry with
    service :=
      if shouldReplaceService entry.service (serviceFromMessage message event) then
        serviceFromMessage message event
      else entry.service
    content_kind := contentKindFromMessage message.protocol entry.content_kind }

/-- A message of a tracked stream changes the row of the stream, and any other event nothing. -/
theorem observeProtocolMessage_cases (s : StreamViewState) (event : Event) :
    s.observeProtocolMessage event = s ∨
    ∃ message entry, messageFromEvent event = some message ∧ message.status ≠ .parseError ∧
      s.streams.lookup message.stream_id = some entry ∧ s.observeProtocolMessage event =
        { s with streams := s.streams.insert message.stream_id (informed entry message event) } := by
  unfold observeProtocolMessage
  rcases messageFromEvent event with - | message
  · exact .inl rfl
  · dsimp only
    split_ifs with herror
    · exact .inl rfl
    · rcases hlookup : s.streams.lookup message.stream_id with - | entry
      · exact .inl rfl
      · exact .inr ⟨message, entry, rfl, herror, hlookup, rfl⟩

/-- A message keeps the agreement. -/
theorem Agrees.observeProtocolMessage (ha : Agrees c s) (event : Event) :
    Agrees c (s.observeProtocolMessage event) := by
  rcases s.observeProtocolMessage_cases event with heq | ⟨message, entry, -, -, h, heq⟩
  · rwa [heq]
  · rw [heq]
    exact ha.replace h ⟨rfl, rfl, rfl, rfl⟩

/-- A row read from an event has no matches yet. -/
theorem fromStreamEvent_fresh {event : Event}
    (h : StreamViewEntry.fromStreamEvent event = some entry) :
    entry.matches_ = [] ∧ entry.match_count = 0 ∧ entry.pattern_ids = ∅ := by
  unfold StreamViewEntry.fromStreamEvent at h
  iterate 13 obtain ⟨_, -, h⟩ := Option.bind_eq_some_iff.mp h
  obtain rfl := Option.some.inj h
  exact ⟨rfl, rfl, rfl⟩

/-- An event keeps the agreement. -/
theorem Agrees.observeEvent (ha : Agrees c s) (event : Event) : Agrees c (s.observeEvent event) := by
  unfold StreamViewState.observeEvent
  split_ifs
  · exact ha
  · rcases hentry : StreamViewEntry.fromStreamEvent event with - | entry
    · exact ha
    · obtain ⟨hmatches, hcount, hpatterns⟩ := fromStreamEvent_fresh hentry
      exact ha.upsertStream hmatches hcount hpatterns
  · rcases StreamPatternMatch.fromEvent event with - | m
    · exact ha
    · exact ha.observeMatch m
  · exact ha.observeProtocolMessage event
  · exact ha

/-- Every call keeps the agreement. -/
theorem Agrees.call (ha : Agrees c s) (x : ViewCall) : Agrees c (s.call x) := by
  have hmark : ∀ {marks : Finset (BitVec 64)} {id : BitVec 64} {mark : Bool},
      (∀ id' ∈ marks, id' ∈ s.streams) → id ∈ s.streams →
      ∀ id' ∈ if mark then insert id marks else marks.erase id, id' ∈ s.streams := by
    intro marks id mark hmarks hid id' hid'
    split_ifs at hid'
    · rcases Finset.mem_insert.mp hid' with rfl | hid'
      · exact hid
      · exact hmarks id' hid'
    · exact hmarks id' (Finset.mem_of_mem_erase hid')
  cases x with
  | event event => exact ha.observeEvent event
  | setFavorite id favorite =>
    unfold StreamViewState.call StreamViewState.setFavorite
    dsimp only
    by_cases hid : id ∈ s.streams
    · rw [if_neg (not_not.mpr hid)]
      exact ⟨ha.config, ha.order_nodup, ha.mem_order, ha.own_id,
        hmark ha.favorites hid, ha.hidden, ha.matched, ha.index, ha.bounded, ha.size_le⟩
    · rwa [if_pos hid]
  | setHidden id hidden =>
    unfold StreamViewState.call StreamViewState.setHidden
    dsimp only
    by_cases hid : id ∈ s.streams
    · rw [if_neg (not_not.mpr hid)]
      exact ⟨ha.config, ha.order_nodup, ha.mem_order, ha.own_id, ha.favorites,
        hmark ha.hidden hid, ha.matched, ha.index, ha.bounded, ha.size_le⟩
    · rwa [if_pos hid]
  | addHideRule rule =>
    unfold StreamViewState.call StreamViewState.addHideRule
    dsimp only
    split_ifs
    · exact ha
    · exact ⟨ha.config, ha.order_nodup, ha.mem_order, ha.own_id, ha.favorites, ha.hidden,
        ha.matched, ha.index, ha.bounded, ha.size_le⟩
  | clearHideRules =>
    exact ⟨ha.config, ha.order_nodup, ha.mem_order, ha.own_id, ha.favorites, ha.hidden,
      ha.matched, ha.index, ha.bounded, ha.size_le⟩

/-- Every reachable view agrees with its rows. -/
theorem callAll_agrees (c : StreamViewConfig) (calls : List ViewCall) :
    Agrees c ((new c).callAll calls) := by
  have hrun : ∀ s : StreamViewState, Agrees c s → Agrees c (s.callAll calls) := by
    induction calls with
    | nil => exact fun s hs => hs
    | cons x calls ih => exact fun s hs => ih (s.call x) (hs.call x)
  exact hrun _ (agrees_new c)

/-! ## The counter of stored matches -/

/-- The number of matches that the rows keep. -/
def keptMatches (s : StreamViewState) : ℕ := s.streams.total fun entry => entry.matches_.length

/-- The counter is the number of matches kept. -/
def CountsStored (s : StreamViewState) : Prop := s.stats.stored_matches = s.keptMatches

/-- Eviction takes the evicted matches off the counter. -/
theorem CountsStored.evictOldest (hc : s.CountsStored) (ha : Agrees c s) :
    s.evictOldest.CountsStored := by
  rcases ha.evictOldest_cases with ⟨-, heq⟩ | ⟨id, rest, entry, -, h, heq⟩
  · rwa [heq]
  · have herase := Table.total_erase (fun entry => entry.matches_.length) h
    rw [heq]
    unfold CountsStored keptMatches at hc ⊢
    simp only [withoutFirst]
    omega

/-- Replacing a row by one with the same matches leaves their number as it is. -/
theorem keptMatches_replace (h : s.streams.lookup id = some old)
    (hsame : entry.matches_ = old.matches_) :
    Table.total (fun entry => entry.matches_.length) (s.streams.insert id entry) = s.keptMatches := by
  have hreplace := Table.total_replace (fun entry => entry.matches_.length) entry h
  rw [hsame] at hreplace
  exact Nat.add_right_cancel hreplace

/-- An inventory event keeps the counter. -/
theorem CountsStored.upsertStream (hc : s.CountsStored) (ha : Agrees c s)
    (hmatches : entry.matches_ = []) : (s.upsertStream entry).CountsStored := by
  rcases s.upsertStream_cases entry with ⟨old, h, heq⟩ | ⟨hnone, t, ht, heq⟩
  · rw [heq]
    exact hc.trans (keptMatches_replace h rfl).symm
  · have hcounts : t.CountsStored := by
      rcases ht with ⟨rfl, -⟩ | ⟨rfl, -⟩
      · exact hc
      · exact hc.evictOldest ha
    have htnone : t.streams.lookup entry.stream_id = none := by
      rcases ht with ⟨rfl, -⟩ | ⟨rfl, -⟩
      · exact hnone
      · exact ha.evictOldest_lookup_none hnone
    rcases heq with ⟨-, heq⟩ | ⟨-, heq⟩
    · rwa [heq]
    · rw [heq]
      have hinsert := Table.total_insert (fun entry => entry.matches_.length) entry htnone
      rw [hmatches] at hinsert
      exact hcounts.trans hinsert.symm

/-- A match keeps the counter, as long as the number of matches fits. -/
theorem CountsStored.observeMatch (hc : s.CountsStored) (m : StreamPatternMatch)
    (hfits : s.keptMatches < 2^64) (hfits' : (s.observeMatch m).keptMatches < 2^64) :
    (s.observeMatch m).CountsStored := by
  rcases s.observeMatch_cases m with ⟨-, stats, hstats, heq⟩ | ⟨entry, stats, h, hstats, heq⟩
  · rw [heq]
    exact hstats.trans hc
  · rw [heq] at hfits' ⊢
    unfold CountsStored at hc ⊢
    unfold keptMatches at hc hfits hfits' ⊢
    have hreplace := Table.total_replace (fun entry => entry.matches_.length)
      (matching s.view_config.max_matches_per_stream entry m) h
    have hle := Table.le_total (fun entry => entry.matches_.length) h
    dsimp only at hfits hfits' hle hreplace ⊢
    rw [hstats]
    generalize Table.total (fun entry => entry.matches_.length) (s.streams.insert m.stream_id
      (matching s.view_config.max_matches_per_stream entry m)) = after at *
    simp only [matching, keepMatch] at hreplace
    unfold countMatch
    split_ifs at hreplace ⊢ with hzero hfull
    · omega
    · simp only [List.length_append, List.length_drop, List.length_singleton] at hreplace
      rw [saturatingAdd_eq (by omega)]
      omega
    · simp only [List.length_append, List.length_singleton] at hreplace
      rw [saturatingAdd_eq (by omega)]
      omega

/-- Every call keeps the counter, as long as the number of matches fits. -/
theorem CountsStored.call (hc : s.CountsStored) (ha : Agrees c s) (x : ViewCall)
    (hfits : s.keptMatches < 2^64) (hfits' : (s.call x).keptMatches < 2^64) :
    (s.call x).CountsStored := by
  cases x with
  | event event =>
    unfold StreamViewState.call StreamViewState.observeEvent at hfits' ⊢
    dsimp only at hfits' ⊢
    split_ifs at hfits' ⊢
    · exact hc
    · rcases hentry : StreamViewEntry.fromStreamEvent event with - | entry
      · exact hc
      · exact hc.upsertStream ha (fromStreamEvent_fresh hentry).1
    · rcases hmatch : StreamPatternMatch.fromEvent event with - | m
      · exact hc
      · rw [hmatch] at hfits'
        exact hc.observeMatch m hfits hfits'
    · rcases s.observeProtocolMessage_cases event with heq | ⟨message, entry, -, -, h, heq⟩
      · rwa [heq]
      · rw [heq]
        exact hc.trans (keptMatches_replace h rfl).symm
    · exact hc
  | setFavorite id favorite =>
    unfold StreamViewState.call StreamViewState.setFavorite
    dsimp only
    split_ifs <;> exact hc
  | setHidden id hidden =>
    unfold StreamViewState.call StreamViewState.setHidden
    dsimp only
    split_ifs <;> exact hc
  | addHideRule rule =>
    unfold StreamViewState.call StreamViewState.addHideRule
    dsimp only
    split_ifs <;> exact hc
  | clearHideRules => exact hc

/-- The counter is right after any calls, as long as the number of matches fits throughout. -/
theorem callAll_countsStored (calls : List ViewCall) : ∀ s : StreamViewState, Agrees c s →
    s.CountsStored → (∀ before, before <+: calls → (s.callAll before).keptMatches < 2^64) →
    (s.callAll calls).CountsStored := by
  induction calls with
  | nil => exact fun s _ hc _ => hc
  | cons x calls ih =>
    intro s ha hc hfits
    have hnow : s.keptMatches < 2^64 := hfits [] List.nil_prefix
    have hnext : (s.call x).keptMatches < 2^64 := hfits [x] (by simp)
    exact ih (s.call x) (ha.call x) (hc.call ha x hnow hnext) fun before hbefore =>
      hfits (x :: before) (List.cons_prefix_cons.mpr ⟨rfl, hbefore⟩)

/-! ## Every reachable view -/

/-- After any calls, under any configuration: the order lists the tracked streams once each; the favorites,
the hidden and the matched streams are tracked; the matched ones are those with a match; a pattern has an
entry in the index exactly when a tracked stream has it, and the entry is the set of these streams; no list
of matches is longer than allowed, nor are there more streams; and the counter of stored matches is the
number of matches kept (as long as that number fits in a word). -/
theorem callAll_consistent (config : StreamViewConfig) (calls : List ViewCall) :
    let s := (new config).callAll calls
    s.stream_order.Nodup ∧ (∀ id, id ∈ s.stream_order ↔ id ∈ s.streams) ∧
      (∀ id, id ∈ s.favorites ∨ id ∈ s.manually_hidden ∨ id ∈ s.matched_streams →
        id ∈ s.streams) ∧
      (∀ id, id ∈ s.matched_streams ↔
        ∃ entry, s.streams.lookup id = some entry ∧ 0 < entry.match_count) ∧
      (∀ p, p ∈ s.pattern_index ↔ ∃ id, s.HasPattern id p) ∧
      (∀ p ids, s.pattern_index.lookup p = some ids → ∀ id, id ∈ ids ↔ s.HasPattern id p) ∧
      (∀ id entry, s.streams.lookup id = some entry →
        entry.matches_.length ≤ config.max_matches_per_stream) ∧
      s.streams.size ≤ config.max_streams ∧
      ((∀ before, before <+: calls → ((new config).callAll before).keptMatches < 2^64) →
        s.stats.stored_matches = s.keptMatches) := by
  intro s
  have ha : Agrees config s := callAll_agrees config calls
  refine ⟨ha.order_nodup, ha.mem_order, ?_, ha.matched, ha.index.mem_iff, ?_, ha.bounded, ha.size_le,
    callAll_countsStored calls _ (agrees_new config) rfl⟩
  · rintro id (hid | hid | hid)
    · exact ha.favorites id hid
    · exact ha.hidden id hid
    · obtain ⟨entry, h, -⟩ := (ha.matched id).mp hid
      exact Table.mem_of_lookup h
  · intro p ids hids id
    rw [← ha.index.mem_posted, InvertedIndex.posted, hids, Option.getD_some]

end StreamViewState

end Rustmate.View
