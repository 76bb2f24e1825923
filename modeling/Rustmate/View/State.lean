import Mathlib.Data.Char
import Mathlib.Data.List.Lex
import Rustmate.View.Types
import Rustmate.Lib.InvertedIndex

/-!
# The stream view

`StreamViewState` of `src/stream_view.rs`: the rows in the order in which their streams were opened, the sets
and the index beside them, and every operation. Hash sets are finite sets; where one is walked, the order is
that of the texts.
-/

namespace Rustmate.View

open Message (Text StreamMessage StreamMessageStatus eqIgnoreAsciiCase toAsciiLowercase trim)
open Events
open InvertedIndex (post discard)

/-- What `matches_profile` reads of a service profile. -/
structure ServiceProfile where
  id : Text
  enabled : Bool
  protocol : Option TransportProtocol
  services : List Text
  ports : List (BitVec 16)
  content_kind : Option StreamViewContentKind
  pattern_ids : List Text
  deriving DecidableEq, Repr

inductive StreamHideRule where
  | streamId (stream_id : BitVec 64)
  | service (service : Text)
  | protocol (protocol : TransportProtocol)
  | port (port : BitVec 16)
  | contentKind (kind : StreamViewContentKind)
  | status (status : StreamViewStatus)
  | patternId (pattern_id : Text)
  deriving DecidableEq, Repr

structure StreamViewQuery where
  cursor : ℕ := 0
  limit : ℕ := 100
  include_hidden : Bool := false
  only_favorites : Bool := false
  only_matched : Bool := false
  profile : Option ServiceProfile := none
  protocol : Option TransportProtocol := none
  service : Option Text := none
  port : Option (BitVec 16) := none
  content_kind : Option StreamViewContentKind := none
  status : Option StreamViewStatus := none
  pattern_id : Option Text := none
  deriving DecidableEq, Repr

/-- What a row shows beside its entry: the sorted pattern identifiers, whether it is a favorite, and why it
is hidden. The stored counters of the entry are shown as they are. -/
structure StreamViewRow where
  entry : StreamViewEntry
  stored_match_count : ℕ
  pattern_ids : List Text
  favorite : Bool
  hidden_reason : Option Text
  deriving DecidableEq

structure StreamViewQueryResult where
  rows : List StreamViewRow
  next_cursor : Option ℕ
  scanned : ℕ
  deriving DecidableEq

structure StreamViewStats where
  tracked_streams : ℕ := 0
  favorite_streams : ℕ := 0
  manually_hidden_streams : ℕ := 0
  matched_streams : ℕ := 0
  stored_matches : ℕ := 0
  dropped_matches : ℕ := 0
  orphan_matches : ℕ := 0
  evicted_streams : ℕ := 0
  hide_rules : ℕ := 0
  deriving DecidableEq, Repr

structure StreamViewState where
  view_config : StreamViewConfig
  streams : Table (BitVec 64) StreamViewEntry
  stream_order : List (BitVec 64)
  favorites : Finset (BitVec 64)
  manually_hidden : Finset (BitVec 64)
  matched_streams : Finset (BitVec 64)
  pattern_index : Table Text (Finset (BitVec 64))
  hide_rules : List StreamHideRule
  stats : StreamViewStats

/-! ## Rules and profiles -/

/-- Whether one of the endpoints has this port. -/
def StreamViewEntry.hasPort (entry : StreamViewEntry) (port : BitVec 16) : Bool :=
  entry.endpoint_a.port = port || entry.endpoint_b.port = port

namespace StreamHideRule

/-- `StreamHideRule::normalized`. -/
def normalized : StreamHideRule → StreamHideRule
  | .service name => .service (toAsciiLowercase name)
  | .patternId pattern_id => .patternId (trim pattern_id)
  | other => other

/-- `StreamHideRule::matches`. -/
def matches_ (rule : StreamHideRule) (entry : StreamViewEntry) : Bool :=
  match rule with
  | .streamId stream_id => entry.stream_id = stream_id
  | .service name => eqIgnoreAsciiCase entry.service.name name
  | .protocol p => entry.protocol = p
  | .port p => entry.hasPort p
  | .contentKind kind => entry.content_kind = kind
  | .status s => entry.status = s
  | .patternId pattern_id => pattern_id ∈ entry.pattern_ids

/-- `protocol_name`. -/
def protocolName : TransportProtocol → String
  | .tcp => "tcp"
  | .udp => "udp"
  | .icmpv4 => "icmpv4"
  | .icmpv6 => "icmpv6"

/-- `StreamViewContentKind::as_str`. -/
def contentKindName : StreamViewContentKind → String
  | .unknown => "unknown"
  | .text => "text"
  | .binary => "binary"
  | .mixed => "mixed"

/-- `StreamViewStatus::as_str`. -/
def statusName : StreamViewStatus → String
  | .open_ => "open"
  | .closing => "closing"
  | .closed => "closed"
  | .unknown => "unknown"

/-- `StreamHideRule::label`. -/
def label : StreamHideRule → Text
  | .streamId stream_id => "stream:".toList ++ hexText stream_id
  | .service name => "service:".toList ++ name
  | .protocol p => "protocol:".toList ++ (protocolName p).toList
  | .port p => "port:".toList ++ (Nat.repr p.toNat).toList
  | .contentKind kind => "content_kind:".toList ++ (contentKindName kind).toList
  | .status s => "status:".toList ++ (statusName s).toList
  | .patternId pattern_id => "pattern:".toList ++ pattern_id

end StreamHideRule

/-- `matches_profile`. -/
def matchesProfile (entry : StreamViewEntry) (profile : ServiceProfile) : Bool :=
  if !profile.enabled then false
  else if profile.protocol.any fun protocol => entry.protocol ≠ protocol then false
  else if profile.id = "matched".toList then entry.match_count ≠ 0
  else
    (profile.services.any fun service => eqIgnoreAsciiCase entry.service.name service) ||
      (profile.ports.any entry.hasPort) ||
      (profile.content_kind.any fun kind => entry.content_kind = kind) ||
      (profile.pattern_ids.any fun pattern_id => pattern_id ∈ entry.pattern_ids)

namespace StreamViewState

/-- `StreamViewState::new`. -/
def new (view_config : StreamViewConfig) : StreamViewState where
  view_config
  streams := ∅
  stream_order := []
  favorites := ∅
  manually_hidden := ∅
  matched_streams := ∅
  pattern_index := ∅
  hide_rules := []
  stats := {}

/-! ## Reading -/

/-- `hidden_reason`. -/
def hiddenReason (self : StreamViewState) (entry : StreamViewEntry) : Option Text :=
  if entry.stream_id ∈ self.manually_hidden then some "manual".toList
  else (self.hide_rules.find? fun rule => rule.matches_ entry).map StreamHideRule.label

/-- `matches_query`. -/
def matchesQuery (self : StreamViewState) (entry : StreamViewEntry) (query : StreamViewQuery)
    (hidden_reason : Option Text) : Bool :=
  if hidden_reason.isSome && !query.include_hidden then false
  else if query.only_favorites && entry.stream_id ∉ self.favorites then false
  else if query.only_matched && entry.match_count = 0 then false
  else if query.profile.any fun profile => !matchesProfile entry profile then false
  else if query.protocol.any fun protocol => entry.protocol ≠ protocol then false
  else if query.service.any fun service => !eqIgnoreAsciiCase entry.service.name service then false
  else if query.port.any fun port => !entry.hasPort port then false
  else if query.content_kind.any fun kind => entry.content_kind ≠ kind then false
  else if query.status.any fun status => entry.status ≠ status then false
  else if query.pattern_id.any fun pattern_id => pattern_id ∉ entry.pattern_ids then false
  else true

/-- `row`. -/
def row (self : StreamViewState) (entry : StreamViewEntry) (hidden_reason : Option Text) :
    StreamViewRow where
  entry
  stored_match_count := entry.matches_.length
  pattern_ids := entry.pattern_ids.sort
  favorite := entry.stream_id ∈ self.favorites
  hidden_reason

/-- The view without the first stream of its order. -/
def withoutFirst (s : StreamViewState) (id : BitVec 64) (entry : StreamViewEntry) :
    StreamViewState :=
  { s with
    stream_order := s.stream_order.tail
    streams := s.streams.erase id
    favorites := s.favorites.erase id
    manually_hidden := s.manually_hidden.erase id
    matched_streams := s.matched_streams.erase id
    pattern_index := entry.pattern_ids.sort.foldl (InvertedIndex.discard id) s.pattern_index
    stats := { s.stats with
      stored_matches := s.stats.stored_matches - entry.matches_.length
      evicted_streams := saturatingAdd s.stats.evicted_streams 1 } }

/-- `stream_row`. -/
def streamRow (self : StreamViewState) (stream_id : BitVec 64) : Option StreamViewRow :=
  (self.streams.lookup stream_id).map fun entry => self.row entry (self.hiddenReason entry)

/-- The loop of `query`, over what is left of the order from an index on. -/
def queryLoop (self : StreamViewState) (query : StreamViewQuery) (limit : ℕ) :
    ℕ → List (BitVec 64) → List StreamViewRow → ℕ → StreamViewQueryResult
  | _, [], rows, scanned => ⟨rows, none, scanned⟩
  | index, stream_id :: rest, rows, scanned =>
    match self.streams.lookup stream_id with
    | none => self.queryLoop query limit (index + 1) rest rows scanned
    | some entry =>
      let scanned := saturatingAdd scanned 1
      let hidden_reason := self.hiddenReason entry
      if !self.matchesQuery entry query hidden_reason then
        self.queryLoop query limit (index + 1) rest rows scanned
      else
        let rows := rows ++ [self.row entry hidden_reason]
        if rows.length = limit then
          ⟨rows, if index + 1 < self.stream_order.length then some (index + 1) else none, scanned⟩
        else self.queryLoop query limit (index + 1) rest rows scanned

/-- `StreamViewState::query`. -/
def query (self : StreamViewState) (query : StreamViewQuery) : StreamViewQueryResult :=
  if !self.view_config.enabled then ⟨[], none, 0⟩
  else
    let limit := min (max query.limit 1) (max self.view_config.max_query_limit 1)
    let start := min query.cursor self.stream_order.length
    self.queryLoop query limit start (self.stream_order.drop start) [] 0

/-- `StreamViewState::stats`. -/
def currentStats (self : StreamViewState) : StreamViewStats :=
  { self.stats with
    tracked_streams := self.streams.size
    favorite_streams := self.favorites.card
    manually_hidden_streams := self.manually_hidden.card
    matched_streams := self.matched_streams.card
    hide_rules := self.hide_rules.length }

/-! ## Marks and rules -/

/-- `set_favorite`. -/
def setFavorite (self : StreamViewState) (stream_id : BitVec 64) (favorite : Bool) :
    StreamViewState × Bool :=
  if stream_id ∉ self.streams then (self, false)
  else
    ({ self with
        favorites :=
          if favorite then insert stream_id self.favorites else self.favorites.erase stream_id }, true)

/-- `set_hidden`. -/
def setHidden (self : StreamViewState) (stream_id : BitVec 64) (hidden : Bool) :
    StreamViewState × Bool :=
  if stream_id ∉ self.streams then (self, false)
  else
    ({ self with
        manually_hidden :=
          if hidden then insert stream_id self.manually_hidden
          else self.manually_hidden.erase stream_id }, true)

/-- `add_hide_rule`. -/
def addHideRule (self : StreamViewState) (rule : StreamHideRule) : StreamViewState :=
  let rule := rule.normalized
  if rule ∈ self.hide_rules then self else { self with hide_rules := self.hide_rules ++ [rule] }

/-- `clear_hide_rules`. -/
def clearHideRules (self : StreamViewState) : StreamViewState := { self with hide_rules := [] }

/-! ## Eviction -/

/-- `remove_stream`. -/
def removeStream (self : StreamViewState) (stream_id : BitVec 64) : StreamViewState × Bool :=
  match self.streams.lookup stream_id with
  | none => (self, false)
  | some entry =>
    ({ self with
        streams := self.streams.erase stream_id
        favorites := self.favorites.erase stream_id
        manually_hidden := self.manually_hidden.erase stream_id
        matched_streams := self.matched_streams.erase stream_id
        pattern_index := entry.pattern_ids.sort.foldl (discard stream_id) self.pattern_index
        stats := { self.stats with
          stored_matches := self.stats.stored_matches - entry.matches_.length
          evicted_streams := saturatingAdd self.stats.evicted_streams 1 } }, true)

/-- The loop of `evict_oldest`, over what is left of the order. -/
def evictLoop (self : StreamViewState) : List (BitVec 64) → StreamViewState
  | [] => { self with stream_order := [] }
  | stream_id :: rest =>
    match { self with stream_order := rest }.removeStream stream_id with
    | (self, true) => self
    | (self, false) => self.evictLoop rest

/-- `evict_oldest`. -/
def evictOldest (self : StreamViewState) : StreamViewState := self.evictLoop self.stream_order

/-! ## Events -/

/-- `upsert_stream`. -/
def upsertStream (self : StreamViewState) (entry : StreamViewEntry) : StreamViewState :=
  match self.streams.lookup entry.stream_id with
  | some existing =>
    let entry := { entry with
      matches_ := existing.matches_
      match_count := existing.match_count
      pattern_ids := existing.pattern_ids }
    { self with streams := self.streams.insert entry.stream_id entry }
  | none =>
    let self :=
      if self.view_config.max_streams ≤ self.streams.size then self.evictOldest else self
    if self.view_config.max_streams ≤ self.streams.size then self
    else
      { self with
        stream_order := self.stream_order ++ [entry.stream_id]
        streams := self.streams.insert entry.stream_id entry }

/-- `observe_match`. -/
def observeMatch (self : StreamViewState) (pattern_match : StreamPatternMatch) : StreamViewState :=
  let stream_id := pattern_match.stream_id
  match self.streams.lookup stream_id with
  | none =>
    { self with
      stats := { self.stats with
        orphan_matches := saturatingAdd self.stats.orphan_matches 1 } }
  | some entry =>
    let entry := { entry with
      match_count := saturatingAdd entry.match_count 1
      pattern_ids := insert pattern_match.pattern_id entry.pattern_ids }
    let self := { self with
      streams := self.streams.insert stream_id entry
      matched_streams := insert stream_id self.matched_streams
      pattern_index := post stream_id self.pattern_index pattern_match.pattern_id }
    if self.view_config.max_matches_per_stream = 0 then
      { self with
        stats := { self.stats with
          dropped_matches := saturatingAdd self.stats.dropped_matches 1 } }
    else
      let stored_matches := self.stats.stored_matches
      let (self, matches_, stored_matches) :=
        if self.view_config.max_matches_per_stream ≤ entry.matches_.length then
          ({ self with
              stats := { self.stats with
                dropped_matches := saturatingAdd self.stats.dropped_matches 1 } },
            entry.matches_.drop 1, stored_matches - 1)
        else (self, entry.matches_, stored_matches)
      { self with
        streams :=
          self.streams.insert stream_id { entry with matches_ := matches_ ++ [pattern_match] }
        stats := { self.stats with stored_matches := saturatingAdd stored_matches 1 } }

/-- `observe_protocol_message`. -/
def observeProtocolMessage (self : StreamViewState) (event : Event) : StreamViewState :=
  match messageFromEvent event with
  | none => self
  | some message =>
    if message.status = .parseError then self
    else
      match self.streams.lookup message.stream_id with
      | none => self
      | some entry =>
        let service := serviceFromMessage message event
        let entry := { entry with
          service := if shouldReplaceService entry.service service then service else entry.service
          content_kind := contentKindFromMessage message.protocol entry.content_kind }
        { self with streams := self.streams.insert message.stream_id entry }

/-- `observe_event`. -/
def observeEvent (self : StreamViewState) (event : Event) : StreamViewState :=
  if !self.view_config.enabled then self
  else if event.analyzer = "stream_inventory".toList ∧
      (event.event_type = "stream_open".toList ∨ event.event_type = "stream_update".toList) then
    (StreamViewEntry.fromStreamEvent event).elim self self.upsertStream
  else if event.analyzer = "pattern".toList ∧ event.event_type = "pattern_match".toList then
    (StreamPatternMatch.fromEvent event).elim self self.observeMatch
  else if event.analyzer = "protocol_message".toList then self.observeProtocolMessage event
  else self

/-- `observe_events`. -/
def observeEvents (self : StreamViewState) (events : List Event) : StreamViewState :=
  if !self.view_config.enabled then self else events.foldl observeEvent self

end StreamViewState

end Rustmate.View
