import Rustmate.Message.RecordState
import Rustmate.Message.Store

/-!
# Runs of the message store

After any messages the store is within its limits, its counters balance, it keeps the last messages of each
stream since the stream got its slot, and a client that follows the next cursor reads each matching message
once. -/

namespace Rustmate.Message

open StreamMessageStore (Bounded Inserts)

/-- The store, and what was inserted into it so far: each message, and whether its stream got a slot for it. -/
structure RecordedStore where
  store : StreamMessageStore
  log : List (StreamMessage × Bool)

namespace RecordedStore

/-- Nothing was inserted. -/
def new (config : StreamMessageStoreConfig) : RecordedStore := ⟨StreamMessageStore.new config, []⟩

/-- A message is inserted. -/
def insert (self : RecordedStore) (message : StreamMessage) : RecordedStore where
  store := self.store.insert message
  log := self.log ++ [(message, decide (message.stream_id ∉ self.store.streams.entries))]

/-- Messages are inserted one after the other. -/
def insertAll (self : RecordedStore) (messages : List StreamMessage) : RecordedStore := messages.foldl insert self

/-- These were inserted for the stream since its slot was created last. -/
def InsertedSince (stream_id : BitVec 64) (log inserted : List (StreamMessage × Bool)) : Prop :=
  Since (fun x => some x.1.stream_id) (fun x => x.2) stream_id log inserted

/-- What holds of the store after some messages. -/
structure Kept (config : StreamMessageStoreConfig) (recorded : RecordedStore) : Prop where
  config_eq : recorded.store.config = config.atLeastOne
  bounded : recorded.store.Bounded
  slots : ∀ stream_id messages, recorded.store.streams.entries.lookup stream_id = some messages →
    messages.length ≤ config.atLeastOne.max_messages_per_stream ∧
      ∃ inserted, InsertedSince stream_id recorded.log inserted ∧ messages <:+ inserted.map Prod.fst
  observed : recorded.store.stats.observed_messages = recorded.log.length
  balance : recorded.store.stats.dropped_messages + recorded.store.storedTotal = recorded.log.length
  stored : recorded.store.stats.stored_messages = recorded.store.storedTotal

variable {config : StreamMessageStoreConfig}

/-- It holds at first. -/
theorem kept_new (config : StreamMessageStoreConfig) : (new config).Kept config := by
  refine ⟨rfl, ⟨Nat.le_max_right _ _, Fifo.queued_empty, Nat.zero_le _⟩, ?_, rfl, rfl, rfl⟩
  intro stream_id messages hlookup
  rw [show (new config).store.streams.entries = ∅ from rfl, AList.lookup_empty] at hlookup
  cases hlookup

/-- The step lemma. -/
theorem Kept.insert {self : RecordedStore} (h : self.Kept config) (hroom : self.log.length + 1 < 2^64)
    (message : StreamMessage) : (self.insert message).Kept config := by
  have hbalance := h.balance
  have hconfig := h.config_eq
  have hinserts := h.bounded.insert (by omega) message
  refine ⟨hinserts.config.trans hconfig, hinserts.bounded, ?_, ?_, ?_, hinserts.stored⟩
  · intro stream_id messages hlookup
    by_cases hsame : stream_id = message.stream_id
    · subst hsame
      obtain ⟨kept, hkept, hle, hsuffix⟩ := hinserts.slot
      obtain rfl : messages = kept := Option.some.inj (hlookup.symm.trans hkept)
      rw [hconfig] at hle
      refine ⟨hle, ?_⟩
      change ∃ inserted, InsertedSince message.stream_id
        (self.log ++ [(message, decide (message.stream_id ∉ self.store.streams.entries))]) inserted ∧ _
      unfold StreamMessageStore.stored at hsuffix
      by_cases hmem : message.stream_id ∈ self.store.streams.entries
      · -- the slot was there, and the message comes behind what it held
        obtain ⟨before, hbefore⟩ := Table.exists_lookup hmem
        obtain ⟨-, inserted, hsince, hbeforeSuffix⟩ := h.slots _ before hbefore
        rw [hbefore, Option.getD_some] at hsuffix
        rw [decide_eq_false (not_not_intro hmem)]
        refine ⟨inserted ++ [(message, false)], Since.goesOn hsince rfl rfl, hsuffix.trans ?_⟩
        obtain ⟨dropped, hdropped⟩ := hbeforeSuffix
        rw [List.map_append, ← hdropped, List.append_assoc]
        exact List.suffix_append _ _
      · rw [AList.lookup_eq_none.mpr hmem, Option.getD_none] at hsuffix
        rw [decide_eq_true hmem]
        exact ⟨[(message, true)], Since.opening self.log rfl rfl, hsuffix⟩
    · rcases hinserts.others stream_id hsame with hnone | hold
      · rw [show (self.insert message).store.streams.entries.lookup stream_id = none from hnone] at hlookup
        cases hlookup
      · obtain ⟨hle, inserted, hsince, hsuffix⟩ := h.slots stream_id messages (hold.symm.trans hlookup)
        have hother : some message.stream_id ≠ some stream_id := fun heq => hsame (Option.some.inj heq).symm
        exact ⟨hle, inserted, Since.other hsince hother, hsuffix⟩
  · have hobserved := h.observed
    change (self.store.insert message).stats.observed_messages = (self.log ++ [_]).length
    rw [hinserts.observed, hobserved, List.length_append, saturatingAdd_eq hroom, List.length_singleton]
  · change (self.store.insert message).stats.dropped_messages + (self.store.insert message).storedTotal =
      (self.log ++ [_]).length
    rw [hinserts.balance, hbalance, List.length_append, List.length_singleton]

/-- The run lemma. -/
theorem insertAll_kept (config : StreamMessageStoreConfig) (messages : List StreamMessage)
    (hroom : messages.length < 2^64) :
    ((new config).insertAll messages).Kept config ∧
      ((new config).insertAll messages).log.map Prod.fst = messages := by
  induction messages using List.reverseRecOn with
  | nil => exact ⟨kept_new config, rfl⟩
  | append_singleton messages message ih =>
    rw [List.length_append, List.length_singleton] at hroom
    obtain ⟨hkept, hlog⟩ := ih (by omega)
    have hstep : (new config).insertAll (messages ++ [message]) = ((new config).insertAll messages).insert message := by
      unfold insertAll
      rw [List.foldl_append]
      rfl
    have hlength : ((new config).insertAll messages).log.length = messages.length := by
      rw [← List.length_map Prod.fst, hlog]
    rw [hstep]
    refine ⟨hkept.insert (by omega) message, ?_⟩
    change (((new config).insertAll messages).log ++ [_]).map Prod.fst = _
    rw [List.map_append, hlog]
    rfl

/-- The store of a recorded run is the store that the messages were inserted into. -/
theorem store_insertAll (self : RecordedStore) (messages : List StreamMessage) :
    (self.insertAll messages).store = messages.foldl StreamMessageStore.insert self.store := by
  induction messages generalizing self with
  | nil => rfl
  | cons message messages ih => exact ih (self.insert message)

end RecordedStore

/-! ## Pages -/

namespace StreamMessageStore

variable {self : StreamMessageStore}

/-- A page: some of the messages that match, from the cursor on. -/
theorem query_eq (stream_id : BitVec 64) (query : StreamMessageQuery) :
    (self.query stream_id query).total = ((self.stored stream_id).filter query.matches).length ∧
      (self.query stream_id query).messages =
        (((self.stored stream_id).filter query.matches).drop query.cursor).take
          (clampLimit query.limit self.config.max_query_limit) := by
  unfold StreamMessageStore.query stored
  cases self.streams.entries.lookup stream_id with
  | none => exact ⟨rfl, by simp⟩
  | some messages => exact ⟨rfl, rfl⟩

/-- The next cursor stands behind the page, or at the end. -/
theorem query_next_cursor (stream_id : BitVec 64) (query : StreamMessageQuery)
    (hcursor : query.cursor ≤ ((self.stored stream_id).filter query.matches).length)
    (htotal : ((self.stored stream_id).filter query.matches).length < 2^64) :
    (self.query stream_id query).next_cursor = query.cursor + (self.query stream_id query).messages.length := by
  have hlength := congrArg List.length (self.query_eq stream_id query).2
  rw [List.length_take, List.length_drop] at hlength
  unfold StreamMessageStore.query stored at *
  cases hlookup : self.streams.entries.lookup stream_id with
  | none => rfl
  | some messages =>
    rw [hlookup, Option.getD_some] at hcursor htotal hlength
    dsimp only at hlength ⊢
    rw [saturatingAdd_eq (by omega)]
    omega

/-- A limit is at least one. -/
theorem one_le_clampLimit {limit max_query_limit : ℕ} (h : 1 ≤ max_query_limit) :
    1 ≤ clampLimit limit max_query_limit := by
  unfold clampLimit
  split_ifs
  · exact Nat.le_refl _
  · exact h
  · omega

/-- From any cursor on, the pages hold what is left of the messages that match. -/
theorem followPages_drop (hlimit : 1 ≤ self.config.max_query_limit) (stream_id : BitVec 64)
    (query : StreamMessageQuery) (htotal : ((self.stored stream_id).filter query.matches).length < 2^64) {fuel cursor : ℕ}
    (hcursor : cursor ≤ ((self.stored stream_id).filter query.matches).length)
    (hfuel : ((self.stored stream_id).filter query.matches).length - cursor < fuel) :
    self.followPages stream_id query fuel cursor =
      some (((self.stored stream_id).filter query.matches).drop cursor) := by
  induction fuel generalizing cursor with
  | zero => exact absurd hfuel (Nat.not_lt_zero _)
  | succ fuel ih =>
    obtain ⟨hqueryTotal, hmessages⟩ := self.query_eq stream_id { query with cursor }
    have hnext := self.query_next_cursor stream_id { query with cursor } hcursor htotal
    have hone : 1 ≤ clampLimit query.limit self.config.max_query_limit := one_le_clampLimit hlimit
    change _ = ((self.stored stream_id).filter query.matches).length at hqueryTotal
    change _ = (((self.stored stream_id).filter query.matches).drop cursor).take
      (clampLimit query.limit self.config.max_query_limit) at hmessages
    dsimp only at hnext
    have hlength := congrArg List.length hmessages
    rw [List.length_take, List.length_drop] at hlength
    unfold followPages
    dsimp only
    rw [hqueryTotal, hnext]
    generalize (self.query stream_id { query with cursor }).messages = page at hmessages hlength ⊢
    generalize (self.stored stream_id).filter query.matches = matched at *
    by_cases hend : cursor + page.length = matched.length
    · rw [if_pos hend, hmessages, List.take_of_length_le (by rw [List.length_drop]; omega)]
    · rw [if_neg hend, ih (by omega) (by omega), Option.map_some]
      have hstart : page <+: matched.drop cursor := by
        rw [hmessages]
        exact List.take_prefix _ _
      rw [← List.drop_drop, List.prefix_iff_eq_append.mp hstart]

end StreamMessageStore

/-- After any messages, for the store that was fed them: there are no more streams than may be, and the queue
holds each of them once; each stream has no more messages than may be, the last ones of those inserted since
it got its slot; what was observed is what was dropped and what is stored; and the pages of a query hold each
stored message that matches once, in order. -/
theorem insertAll_store (config : StreamMessageStoreConfig) (messages : List StreamMessage)
    (hroom : messages.length < 2^64) :
    let recorded := (RecordedStore.new config).insertAll messages
    let store := messages.foldl StreamMessageStore.insert (StreamMessageStore.new config)
    recorded.store = store ∧ recorded.log.map Prod.fst = messages ∧ store.config = config.atLeastOne ∧
      store.streams.entries.size ≤ store.config.max_streams ∧
      store.streams.order.Nodup ∧ (∀ stream_id, stream_id ∈ store.streams.order ↔ stream_id ∈ store.streams.entries) ∧
      (∀ stream_id ∈ store.streams.entries,
        (store.stored stream_id).length ≤ store.config.max_messages_per_stream ∧
          ∃ inserted, RecordedStore.InsertedSince stream_id recorded.log inserted ∧
            store.stored stream_id <:+ inserted.map Prod.fst) ∧
      store.stats.observed_messages = store.stats.dropped_messages + store.storedTotal ∧
      store.stats.stored_messages = store.storedTotal ∧
      ∀ stream_id query, ∃ enough, ∀ fuel ≥ enough, store.followPages stream_id query fuel 0 =
        some ((store.stored stream_id).filter query.matches) := by
  dsimp only
  obtain ⟨hkept, hlog⟩ := RecordedStore.insertAll_kept config messages hroom
  have hstore := RecordedStore.store_insertAll (RecordedStore.new config) messages
  change _ = messages.foldl StreamMessageStore.insert (StreamMessageStore.new config) at hstore
  rw [← hstore]
  have hlength : ((RecordedStore.new config).insertAll messages).log.length = messages.length := by
    rw [← List.length_map Prod.fst, hlog]
  generalize (RecordedStore.new config).insertAll messages = recorded at *
  have hconfig := hkept.config_eq
  have hbalance := hkept.balance
  have hobserved := hkept.observed
  refine ⟨rfl, hlog, hconfig, hkept.bounded.size_le, hkept.bounded.queued.nodup, hkept.bounded.queued.mem_iff, ?_, ?_,
    hkept.stored, ?_⟩
  · intro stream_id hmem
    obtain ⟨stored, hlookup⟩ := Table.exists_lookup hmem
    have hstored : recorded.store.stored stream_id = stored := by
      unfold StreamMessageStore.stored
      rw [hlookup, Option.getD_some]
    rw [hstored, hconfig]
    exact hkept.slots stream_id stored hlookup
  · omega
  · intro stream_id query
    have hlimit : 1 ≤ recorded.store.config.max_query_limit := by
      rw [hconfig]
      exact Nat.le_max_right _ _
    -- what is stored of one stream is no more than what is stored of all
    have hle : (recorded.store.stored stream_id).length ≤ recorded.store.storedTotal := by
      unfold StreamMessageStore.stored StreamMessageStore.storedTotal
      cases hlookup : recorded.store.streams.entries.lookup stream_id with
      | none => exact Nat.zero_le _
      | some stored => exact Table.le_total List.length hlookup
    have hfilter := List.length_filter_le query.matches (recorded.store.stored stream_id)
    refine ⟨((recorded.store.stored stream_id).filter query.matches).length + 1, fun fuel hfuel => ?_⟩
    exact StreamMessageStore.followPages_drop hlimit stream_id query (by omega) (Nat.zero_le _) (by omega)

/-- Two streams take turns in a store that has room for one of them. -/
theorem insertAll_store_turns :
    let messages := [1, 2, 1, 1].map fun stream_id => recordMessage .tls [] stream_id .aToB 0 0 5 9
    let store := messages.foldl StreamMessageStore.insert (StreamMessageStore.new ⟨1, 1, 1⟩)
    store.streams.entries.size ≤ 1 ∧
      store.stats.observed_messages = store.stats.dropped_messages + store.storedTotal := by
  have h := insertAll_store ⟨1, 1, 1⟩ ([1, 2, 1, 1].map fun stream_id => recordMessage .tls [] stream_id .aToB 0 0 5 9)
    (by decide)
  obtain ⟨-, -, hconfig, hsize, -, -, -, hobserved, -⟩ := h
  rw [hconfig] at hsize
  exact ⟨hsize, hobserved⟩

end Rustmate.Message
