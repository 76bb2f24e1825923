import Rustmate.Lib.Fifo
import Rustmate.Lib.Since
import Rustmate.Machine
import Rustmate.Message.Types

/-!
# The message store

`StreamMessageStore` of `src/stream_message.rs`: for each stream the last of its messages, for at most so many
streams; the stream that came first goes when another one needs its place. Messages are read in pages. -/

namespace Rustmate.Message

structure StreamMessageStoreConfig where
  max_streams : ℕ
  max_messages_per_stream : ℕ
  max_query_limit : ℕ
  deriving DecidableEq, Repr

structure StreamMessageStats where
  active_message_streams : ℕ := 0
  stored_messages : ℕ := 0
  dropped_messages : ℕ := 0
  observed_messages : ℕ := 0
  http1_messages : ℕ := 0
  dns_messages : ℕ := 0
  websocket_messages : ℕ := 0
  tls_messages : ℕ := 0
  parse_errors : ℕ := 0
  deriving DecidableEq, Repr

structure StreamMessageQuery where
  cursor : ℕ
  limit : ℕ
  direction : Option FlowDirection
  protocol : Option StreamMessageProtocol
  kind : Option StreamMessageKind
  status : Option StreamMessageStatus
  deriving DecidableEq, Repr

structure StreamMessageQueryResult where
  stream_id : BitVec 64
  cursor : ℕ
  next_cursor : ℕ
  total : ℕ
  messages : List StreamMessage
  deriving DecidableEq, Repr

/-- The store. The map of the streams and the queue of their identifiers are kept together. -/
structure StreamMessageStore where
  config : StreamMessageStoreConfig
  streams : Fifo (BitVec 64) (List StreamMessage)
  stats : StreamMessageStats

/-- The limits that `StreamMessageStore::new` takes. -/
def StreamMessageStoreConfig.atLeastOne (config : StreamMessageStoreConfig) : StreamMessageStoreConfig where
  max_streams := max config.max_streams 1
  max_messages_per_stream := max config.max_messages_per_stream 1
  max_query_limit := max config.max_query_limit 1

/-- `StreamMessageQuery::matches`. -/
def StreamMessageQuery.matches (self : StreamMessageQuery) (message : StreamMessage) : Bool :=
  self.direction.all (fun direction => direction = message.direction) &&
    self.protocol.all (fun protocol => protocol = message.protocol) &&
    self.kind.all (fun kind => kind = message.kind) && self.status.all (fun status => status = message.status)

/-- The counters of one message. -/
def StreamMessageStats.observe (self : StreamMessageStats) (message : StreamMessage) : StreamMessageStats :=
  let self := { self with observed_messages := saturatingAdd self.observed_messages 1 }
  let self :=
    match message.protocol with
    | .http1 => { self with http1_messages := saturatingAdd self.http1_messages 1 }
    | .dns => { self with dns_messages := saturatingAdd self.dns_messages 1 }
    | .websocket => { self with websocket_messages := saturatingAdd self.websocket_messages 1 }
    | .tls => { self with tls_messages := saturatingAdd self.tls_messages 1 }
  if message.status = .parseError then { self with parse_errors := saturatingAdd self.parse_errors 1 } else self

/-- The loop of `insert`: the first messages go while there are too many, and are counted. -/
def popExcess (limit : ℕ) : List StreamMessage → ℕ → List StreamMessage × ℕ
  | [], dropped => ([], dropped)
  | message :: messages, dropped =>
    if limit < (message :: messages).length then popExcess limit messages (saturatingAdd dropped 1)
    else (message :: messages, dropped)

namespace StreamMessageStore

/-- `StreamMessageStore::new`. -/
def new (config : StreamMessageStoreConfig) : StreamMessageStore := ⟨config.atLeastOne, .empty, {}⟩

/-- `refresh_counts`. -/
def refreshCounts (self : StreamMessageStore) : StreamMessageStore :=
  { self with
    stats := { self.stats with
      active_message_streams := self.streams.entries.size
      stored_messages := self.streams.entries.total List.length } }

/-- The messages of a stream that goes are counted. -/
def dropStream (dropped_messages : ℕ) (messages : Option (List StreamMessage)) : ℕ :=
  match messages with
  | none => dropped_messages
  | some messages => saturatingAdd dropped_messages messages.length

/-- `ensure_stream`. -/
def ensureStream (self : StreamMessageStore) (stream_id : BitVec 64) : StreamMessageStore :=
  if stream_id ∈ self.streams.entries then self
  else
    let (streams, dropped_messages) :=
      self.streams.makeRoom dropStream self.config.max_streams self.stats.dropped_messages
    refreshCounts
      { self with streams := streams.push stream_id [], stats := { self.stats with dropped_messages } }

/-- `insert`. The slot of the stream is there; without it the program would stop. -/
def insert (self : StreamMessageStore) (message : StreamMessage) : StreamMessageStore :=
  let self := self.ensureStream message.stream_id
  match self.streams.entries.lookup message.stream_id with
  | none => self
  | some stream =>
    let stats := self.stats.observe message
    let (stream, dropped_messages) :=
      popExcess self.config.max_messages_per_stream (stream ++ [message]) stats.dropped_messages
    refreshCounts
      { self with streams := self.streams.replace message.stream_id stream, stats := { stats with dropped_messages } }

/-- `usize::clamp` from one on. -/
def clampLimit (limit max_query_limit : ℕ) : ℕ :=
  if limit < 1 then 1 else if max_query_limit < limit then max_query_limit else limit

/-- `query`. -/
def query (self : StreamMessageStore) (stream_id : BitVec 64) (query : StreamMessageQuery) :
    StreamMessageQueryResult :=
  let limit := clampLimit query.limit self.config.max_query_limit
  match self.streams.entries.lookup stream_id with
  | none => { stream_id, cursor := query.cursor, next_cursor := query.cursor, total := 0, messages := [] }
  | some messages =>
    let filtered := messages.filter query.matches
    let total := filtered.length
    let messages := (filtered.drop query.cursor).take limit
    { stream_id
      cursor := query.cursor
      next_cursor := min (saturatingAdd query.cursor messages.length) total
      total
      messages }

/-- The messages that are kept of a stream. -/
def stored (self : StreamMessageStore) (stream_id : BitVec 64) : List StreamMessage :=
  (self.streams.entries.lookup stream_id).getD []

/-- The pages of a query from a cursor on: the next cursor is followed until it is the total. There is no
result when that takes more pages than there is fuel. -/
def followPages (self : StreamMessageStore) (stream_id : BitVec 64) (query : StreamMessageQuery) :
    ℕ → ℕ → Option (List StreamMessage)
  | 0, _ => none
  | fuel + 1, cursor =>
    let page := self.query stream_id { query with cursor }
    if page.next_cursor = page.total then some page.messages
    else (followPages self stream_id query fuel page.next_cursor).map fun rest => page.messages ++ rest

end StreamMessageStore

/-! ## What an insert does -/

/-- The counters of a message leave those of the dropped ones. -/
theorem StreamMessageStats.observe_counters (self : StreamMessageStats) (message : StreamMessage) :
    (self.observe message).observed_messages = saturatingAdd self.observed_messages 1 ∧
      (self.observe message).dropped_messages = self.dropped_messages := by
  unfold observe
  cases message.protocol
  all_goals
    dsimp only
    split
    · exact ⟨rfl, rfl⟩
    · exact ⟨rfl, rfl⟩

/-- The excess goes from the front, and is counted. -/
theorem popExcess_spec (limit : ℕ) (messages : List StreamMessage) (dropped : ℕ)
    (hroom : dropped + messages.length < 2^64) :
    (popExcess limit messages dropped).1 <:+ messages ∧
      (popExcess limit messages dropped).1.length ≤ limit ∧
      (popExcess limit messages dropped).2 + (popExcess limit messages dropped).1.length =
        dropped + messages.length := by
  induction messages generalizing dropped with
  | nil => exact ⟨List.suffix_refl _, Nat.zero_le _, rfl⟩
  | cons message messages ih =>
    rw [List.length_cons] at hroom
    unfold popExcess
    by_cases hexcess : limit < (message :: messages).length
    · rw [if_pos hexcess, saturatingAdd_eq (by omega)]
      obtain ⟨hsuffix, hle, hcount⟩ := ih (dropped + 1) (by omega)
      refine ⟨hsuffix.trans (List.suffix_cons _ _), hle, ?_⟩
      rw [hcount, List.length_cons]
      omega
    · rw [if_neg hexcess]
      exact ⟨List.suffix_refl _, Nat.le_of_not_lt hexcess, rfl⟩

namespace StreamMessageStore

/-- The messages that are kept of all streams. -/
def storedTotal (self : StreamMessageStore) : ℕ := self.streams.entries.total List.length

/-- The queue holds each stream once, and there are no more streams than may be. -/
structure Bounded (store : StreamMessageStore) : Prop where
  pos : 1 ≤ store.config.max_streams
  queued : store.streams.Queued
  size_le : store.streams.entries.size ≤ store.config.max_streams

/-- A stream has its slot, new or not; another stream may have gone, and its messages are counted. -/
structure Ensures (stream_id : BitVec 64) (before after : StreamMessageStore) : Prop where
  config : after.config = before.config
  bounded : after.Bounded
  observed : after.stats.observed_messages = before.stats.observed_messages
  balance : after.stats.dropped_messages + after.storedTotal = before.stats.dropped_messages + before.storedTotal
  slot : (stream_id ∈ before.streams.entries ∧
      after.streams.entries.lookup stream_id = before.streams.entries.lookup stream_id) ∨
    (stream_id ∉ before.streams.entries ∧ after.streams.entries.lookup stream_id = some [])
  others : ∀ other ≠ stream_id, after.streams.entries.lookup other = none ∨
    after.streams.entries.lookup other = before.streams.entries.lookup other

variable {self : StreamMessageStore}

/-- `ensure_stream` does so. -/
theorem Bounded.ensureStream (h : self.Bounded) (hroom : self.stats.dropped_messages + self.storedTotal < 2^64)
    (stream_id : BitVec 64) : Ensures stream_id self (self.ensureStream stream_id) := by
  unfold StreamMessageStore.ensureStream
  by_cases hmem : stream_id ∈ self.streams.entries
  · rw [if_pos hmem]
    exact ⟨rfl, h, rfl, rfl, .inl ⟨hmem, rfl⟩, fun _ _ => .inr rfl⟩
  rw [if_neg hmem]
  have hpush : ∀ streams : Fifo (BitVec 64) (List StreamMessage), stream_id ∉ streams.entries →
      Table.size (streams.push stream_id []).entries = streams.entries.size + 1 ∧
        Table.total List.length (streams.push stream_id []).entries = streams.entries.total List.length := by
    intro streams hnew
    exact ⟨Table.size_insert [] hnew, Table.total_insert List.length [] (AList.lookup_eq_none.mpr hnew)⟩
  have hslot : ∀ streams : Fifo (BitVec 64) (List StreamMessage),
      (streams.push stream_id []).entries.lookup stream_id = some [] := fun _ => AList.lookup_insert _
  have hothers : ∀ (streams : Fifo (BitVec 64) (List StreamMessage)) (other : BitVec 64), other ≠ stream_id →
      (streams.push stream_id []).entries.lookup other = streams.entries.lookup other :=
    fun _ _ hne => AList.lookup_insert_ne hne
  rcases h.queued.makeRoom_cases h.pos h.size_le dropStream self.stats.dropped_messages with
    ⟨hmake, hsize⟩ | ⟨evicted, messages, order, -, hlookup, hmake, hqueued, hsize⟩
  · rw [hmake]
    obtain ⟨hpushed, htotal⟩ := hpush self.streams hmem
    refine ⟨rfl, ⟨h.pos, h.queued.push hmem [], ?_⟩, rfl, ?_, .inr ⟨hmem, hslot _⟩, fun other hne => ?_⟩
    · change Table.size (self.streams.push stream_id []).entries ≤ self.config.max_streams
      omega
    · change self.stats.dropped_messages + Table.total List.length (self.streams.push stream_id []).entries = _
      rw [htotal]
      rfl
    · exact .inr (hothers _ other hne)
  · rw [hmake]
    have hnew : stream_id ∉ self.streams.entries.erase evicted := by
      rw [AList.mem_erase]
      exact fun hin => hmem hin.2
    obtain ⟨hpushed, htotal⟩ := hpush ⟨self.streams.entries.erase evicted, order⟩ hnew
    dsimp only at hpushed htotal
    have herased := Table.total_erase List.length hlookup
    have hdropped : dropStream self.stats.dropped_messages (some messages) =
        self.stats.dropped_messages + messages.length := by
      unfold storedTotal at hroom
      exact saturatingAdd_eq (by omega)
    refine ⟨rfl, ⟨h.pos, hqueued.push hnew [], ?_⟩, rfl, ?_, .inr ⟨hmem, hslot _⟩, fun other hne => ?_⟩
    · change Table.size (Fifo.push _ stream_id []).entries ≤ self.config.max_streams
      omega
    · change dropStream self.stats.dropped_messages (some messages) +
        Table.total List.length (Fifo.push _ stream_id []).entries = _
      rw [hdropped, htotal]
      unfold storedTotal
      omega
    · change (Fifo.push _ stream_id []).entries.lookup other = none ∨
        (Fifo.push _ stream_id []).entries.lookup other = _
      rw [hothers _ other hne]
      by_cases hsame : other = evicted
      · rw [hsame]
        exact .inl (AList.lookup_erase _ _)
      · exact .inr (AList.lookup_erase_ne hsame)

/-- What `insert` does: the stream has its slot, the message comes to its end, and the first messages go. -/
structure Inserts (message : StreamMessage) (before after : StreamMessageStore) : Prop where
  config : after.config = before.config
  bounded : after.Bounded
  observed : after.stats.observed_messages = saturatingAdd before.stats.observed_messages 1
  balance : after.stats.dropped_messages + after.storedTotal = before.stats.dropped_messages + before.storedTotal + 1
  stored : after.stats.stored_messages = after.storedTotal
  slot : ∃ messages, after.streams.entries.lookup message.stream_id = some messages ∧
    messages.length ≤ before.config.max_messages_per_stream ∧ messages <:+ before.stored message.stream_id ++ [message]
  others : ∀ other ≠ message.stream_id, after.streams.entries.lookup other = none ∨
    after.streams.entries.lookup other = before.streams.entries.lookup other

/-- `insert` does so. -/
theorem Bounded.insert (h : self.Bounded) (hroom : self.stats.dropped_messages + self.storedTotal + 1 < 2^64)
    (message : StreamMessage) : Inserts message self (self.insert message) := by
  have hensures := h.ensureStream (by omega) message.stream_id
  have hstored : ∃ stream, (self.ensureStream message.stream_id).streams.entries.lookup message.stream_id = some stream ∧
      stream = self.stored message.stream_id := by
    unfold stored
    rcases hensures.slot with ⟨hmem, hsame⟩ | ⟨hnew, hempty⟩
    · obtain ⟨stream, hlookup⟩ := Table.exists_lookup hmem
      exact ⟨stream, hsame.trans hlookup, by rw [hlookup, Option.getD_some]⟩
    · exact ⟨[], hempty, by rw [AList.lookup_eq_none.mpr hnew, Option.getD_none]⟩
  obtain ⟨hconfig, ⟨hpos, hqueued, hsize⟩, hobserved, hbalance, -, hothers⟩ := hensures
  unfold StreamMessageStore.insert
  dsimp only
  generalize self.ensureStream message.stream_id = ensured at *
  obtain ⟨stream, hlookup, hstream⟩ := hstored
  obtain ⟨hcounted, hdropped⟩ := ensured.stats.observe_counters message
  have htotal := Table.le_total List.length hlookup
  unfold storedTotal at hbalance hroom
  obtain ⟨hsuffix, hle, hcount⟩ := popExcess_spec ensured.config.max_messages_per_stream
    (stream ++ [message]) (ensured.stats.observe message).dropped_messages
    (by rw [hdropped, List.length_append, List.length_singleton]; omega)
  rw [hlookup]
  dsimp only
  generalize popExcess ensured.config.max_messages_per_stream (stream ++ [message])
    (ensured.stats.observe message).dropped_messages = popped at hsuffix hle hcount ⊢
  rw [hdropped, List.length_append, List.length_singleton] at hcount
  have hmem := Table.mem_of_lookup hlookup
  have hreplaced := Table.total_replace List.length popped.1 hlookup
  refine ⟨hconfig, ⟨hpos, hqueued.replace hmem _, ?_⟩, ?_, ?_, rfl, ?_, fun other hne => ?_⟩
  · change Table.size (ensured.streams.entries.insert message.stream_id popped.1) ≤ ensured.config.max_streams
    rw [Table.size_insert_mem _ hmem]
    exact hsize
  · change (ensured.stats.observe message).observed_messages = _
    rw [hcounted, hobserved]
  · change popped.2 + Table.total List.length (ensured.streams.entries.insert message.stream_id popped.1) = _
    unfold storedTotal
    omega
  · rw [← hconfig, ← hstream]
    exact ⟨popped.1, AList.lookup_insert _, hle, hsuffix⟩
  · change (ensured.streams.entries.insert message.stream_id popped.1).lookup other = none ∨
      (ensured.streams.entries.insert message.stream_id popped.1).lookup other = _
    rw [AList.lookup_insert_ne hne]
    exact hothers other hne

end StreamMessageStore

end Rustmate.Message
