import Rustmate.View.Indexes
import Rustmate.View.Reading

/-!
# Reports and messages in any order

The service and the kind of content in the row of a stream come from two sides: the inventory reports the
stream, first its opening and then updates, and the parsers send protocol messages. `upsert_stream` takes what
the report says, whatever the row said before, while `observe_protocol_message` weighs the service that the
row has against its own. The module follows both through every order in which they can arrive. -/

namespace Rustmate.View

open Message (Text StreamMessage)
open Events
open Inventory (StreamRecord inventoryEvent)

/-! ## What arrives -/

/-- What a row says about the service of its stream and about the kind of its content. -/
@[ext]
structure RowFacts where
  service : StreamViewService
  content_kind : StreamViewContentKind
  deriving DecidableEq, Repr

/-- What the row of a stream says, if the stream has one. -/
def StreamViewState.rowFacts (s : StreamViewState) (id : BitVec 64) : Option RowFacts :=
  (s.streams.lookup id).map fun entry => ⟨entry.service, entry.content_kind⟩

/-- A report of the inventory about a stream: its opening or an update. -/
structure InventoryReport where
  opening : Bool
  packet : DecodedPacket
  record : StreamRecord

namespace InventoryReport

/-- The event of a report. -/
def event (report : InventoryReport) : Event :=
  inventoryEvent (if report.opening then "stream_open" else "stream_update") report.packet report.record.fields

/-- What a report says. -/
def facts (report : InventoryReport) : RowFacts :=
  ⟨serviceOf report.record.service, contentKindOf report.record.contentKind⟩

end InventoryReport

/-- What the view sees of a stream: reports, and the events of its messages. -/
abbrev Arrival := InventoryReport ⊕ Event

/-- The event that arrives. -/
def arrivalEvent : Arrival → Event := Sum.elim InventoryReport.event fun event => event

/-- The event carries a message of the stream that is no parse error. -/
def IsMessageOf (id : BitVec 64) (event : Event) : Prop :=
  ∃ message, messageFromEvent event = some message ∧ message.stream_id = id ∧ message.status ≠ .parseError

/-- The arrival is about the stream, and a report fits its fields. -/
def IsAbout (id : BitVec 64) : Arrival → Prop
  | .inl report => report.record.id = id ∧ RecordFits report.record
  | .inr event => IsMessageOf id event

/-- The arrivals are these reports and these messages, each in its own order. -/
def Interleaves (reports : List InventoryReport) (messages : List Event) (run : List Arrival) : Prop :=
  run.filterMap Sum.getLeft? = reports ∧ run.filterMap Sum.getRight? = messages

/-- The service was confirmed by a parser. -/
def StreamViewService.Confirmed (service : StreamViewService) : Prop :=
  service.source = some "parser".toList ∧ service.confidence = 100

/-! ## What the row makes of it -/

/-- What a row says after a message. -/
def RowFacts.inform (facts : RowFacts) (message : StreamMessage) (event : Event) : RowFacts where
  service :=
    if shouldReplaceService facts.service (serviceFromMessage message event) then
      serviceFromMessage message event
    else facts.service
  content_kind := contentKindFromMessage message.protocol facts.content_kind

/-- What a row says after an event that may carry a message. -/
def RowFacts.hear (facts : RowFacts) (event : Event) : RowFacts :=
  (messageFromEvent event).elim facts fun message => facts.inform message event

/-- What a row says after an arrival: a report is taken as it is, and a message needs a row. -/
def mergeStep (facts : Option RowFacts) : Arrival → Option RowFacts
  | .inl report => some report.facts
  | .inr event => facts.map fun facts => facts.hear event

/-- What the row of a new stream says after some arrivals. -/
def merged (run : List Arrival) : Option RowFacts := run.foldl mergeStep none

/-- A message is heard as it is read. -/
theorem hear_eq_inform {facts : RowFacts} {event : Event} {message : StreamMessage}
    (hread : messageFromEvent event = some message) :
    facts.hear event = facts.inform message event := by
  unfold RowFacts.hear
  rw [hread]
  rfl

section Simulation

variable {c : StreamViewConfig} {s : StreamViewState} {id : BitVec 64}

/-- After an eviction there is room for a stream. -/
theorem StreamViewState.Agrees.evictOldest_size (ha : s.Agrees c) (hpos : 0 < c.max_streams) :
    s.evictOldest.streams.size < c.max_streams := by
  have hle := ha.size_le
  rcases ha.evictOldest_cases with ⟨horder, heq⟩ | ⟨first, rest, entry, -, hfirst, heq⟩
  · -- Nothing was there to be evicted.
    have hnone : ∀ id, id ∉ s.streams := fun id hid => by
      have := (ha.mem_order id).mpr hid
      rw [horder] at this
      exact absurd this List.not_mem_nil
    have hempty : s.streams.keys = [] := List.eq_nil_iff_forall_not_mem.mpr hnone
    rw [heq, Table.size_eq, hempty]
    exact hpos
  · have hsize := Table.size_erase (Table.mem_of_lookup hfirst)
    have herase : s.evictOldest.streams = s.streams.erase first := by
      rw [heq]
      rfl
    rw [herase]
    omega

/-- A report puts what it says into the row of its stream. -/
theorem rowFacts_report (ha : s.Agrees c) (henabled : c.enabled = true) (hpos : 0 < c.max_streams)
    {report : InventoryReport} (hid : report.record.id = id) (hfits : RecordFits report.record) :
    (s.observeEvent report.event).rowFacts id = some report.facts := by
  have hon : ¬ (!s.view_config.enabled) = true := by
    rw [ha.config, henabled]
    decide
  have htype : report.event.analyzer = "stream_inventory".toList ∧
      (report.event.event_type = "stream_open".toList ∨ report.event.event_type = "stream_update".toList) := by
    refine ⟨rfl, ?_⟩
    unfold InventoryReport.event
    cases report.opening with
    | true => exact .inl rfl
    | false => exact .inr rfl
  have hentry : StreamViewEntry.fromStreamEvent report.event = some (rowOf report.record) :=
    fromStreamEvent_fields hfits _ _
  have hrun : s.observeEvent report.event = s.upsertStream (rowOf report.record) := by
    unfold StreamViewState.observeEvent
    rw [if_neg hon, if_pos htype, hentry]
    rfl
  have hstream : (rowOf report.record).stream_id = id := hid
  rw [hrun]
  unfold StreamViewState.rowFacts
  rcases s.upsertStream_cases (rowOf report.record) with ⟨old, -, heq⟩ | ⟨-, t, ht, heq⟩
  · -- The stream has a row, which is replaced.
    rw [heq, hstream]
    dsimp only
    rw [AList.lookup_insert]
    rfl
  · -- The stream is new, and there is room for it.
    have hroom : t.streams.size < t.view_config.max_streams := by
      rcases ht with ⟨rfl, hroom⟩ | ⟨rfl, -⟩
      · exact hroom
      · rw [ha.evictOldest.config]
        exact ha.evictOldest_size hpos
    rcases heq with ⟨hfull, -⟩ | ⟨-, heq⟩
    · omega
    · rw [heq]
      unfold StreamViewState.appended
      dsimp only
      rw [hstream, AList.lookup_insert]
      rfl

/-- A message is heard by the row of its stream. -/
theorem rowFacts_message (ha : s.Agrees c) (henabled : c.enabled = true) {event : Event}
    (hmessage : IsMessageOf id event) :
    (s.observeEvent event).rowFacts id = (s.rowFacts id).map fun facts => facts.hear event := by
  obtain ⟨message, hread, hid, hstatus⟩ := hmessage
  have hon : ¬ (!s.view_config.enabled) = true := by
    rw [ha.config, henabled]
    decide
  have hanalyzer : event.analyzer = "protocol_message".toList := by
    by_contra hother
    unfold messageFromEvent at hread
    rw [if_pos hother] at hread
    cases hread
  have hrun : s.observeEvent event = s.observeProtocolMessage event := by
    unfold StreamViewState.observeEvent
    rw [if_neg hon, hanalyzer, if_neg fun h => absurd h.1 (by decide),
      if_neg fun h => absurd h.1 (by decide), if_pos rfl]
  have hhear : ∀ facts : RowFacts, facts.hear event = facts.inform message event :=
    fun facts => hear_eq_inform hread
  rw [hrun]
  unfold StreamViewState.observeProtocolMessage StreamViewState.rowFacts
  rw [hread]
  dsimp only
  rw [if_neg hstatus, hid]
  cases hlookup : s.streams.lookup id with
  | none =>
    dsimp only
    rw [hlookup]
    rfl
  | some entry =>
    dsimp only
    rw [AList.lookup_insert, Option.map_some, Option.map_some, Option.map_some, hhear]
    rfl

/-- What the row says after some arrivals is what they make of what it said before. -/
theorem rowFacts_run (ha : s.Agrees c) (henabled : c.enabled = true) (hpos : 0 < c.max_streams)
    {run : List Arrival} (hrun : ∀ arrival ∈ run, IsAbout id arrival) :
    ((run.map arrivalEvent).foldl StreamViewState.observeEvent s).rowFacts id =
      run.foldl mergeStep (s.rowFacts id) := by
  induction run generalizing s with
  | nil => rfl
  | cons arrival run ih =>
    have hothers := fun other hother => hrun other (List.mem_cons_of_mem _ hother)
    have hstep : (s.observeEvent (arrivalEvent arrival)).rowFacts id = mergeStep (s.rowFacts id) arrival := by
      have harrival := hrun arrival List.mem_cons_self
      cases arrival with
      | inl report => exact rowFacts_report ha henabled hpos harrival.1 harrival.2
      | inr event => exact rowFacts_message ha henabled harrival
    rw [List.map_cons, List.foldl_cons, List.foldl_cons, ih (ha.observeEvent _) hothers, hstep]

end Simulation

/-! ## What messages make of a report -/

/-- What a row says after some events, none of them a report. -/
def RowFacts.hearAll (facts : RowFacts) (messages : List Event) : RowFacts := messages.foldl hear facts

/-- The message is about TLS and no more, which an HTTPS service is not replaced for. -/
def IsPlainTls (event : Event) : Prop :=
  ∀ message, messageFromEvent event = some message → serviceNameFromMessage message event = "tls".toList

/-- A report is no parser's confirmation. -/
theorem InventoryReport.not_confirmed (report : InventoryReport) :
    report.facts.service.source ≠ some "parser".toList := by
  have hsource : report.facts.service.source = some report.record.service.source.asStr.toList := rfl
  rw [hsource]
  cases report.record.service.source <;> decide

/-- A service that no parser confirmed is replaced, unless it is HTTPS and the message is about TLS. -/
theorem shouldReplaceService_of_source {current : StreamViewService} (h : current.source ≠ some "parser".toList)
    (next : StreamViewService) :
    shouldReplaceService current next = true ↔ ¬ (current.name = "https".toList ∧ next.name = "tls".toList) := by
  unfold shouldReplaceService
  by_cases habsorbed : current.name = "https".toList ∧ next.name = "tls".toList
  · have hcond : (decide (current.name = "https".toList) && decide (next.name = "tls".toList)) = true := by
      rw [decide_eq_true habsorbed.1, decide_eq_true habsorbed.2]
      rfl
    rw [if_pos hcond]
    exact ⟨fun hno => absurd hno (by decide), fun hnot => absurd habsorbed hnot⟩
  · have hcond : ¬ (decide (current.name = "https".toList) && decide (next.name = "tls".toList)) = true := by
      rwa [Bool.and_eq_true, decide_eq_true_iff, decide_eq_true_iff]
    rw [if_neg hcond, decide_eq_true h, Bool.or_true]
    exact ⟨fun _ => habsorbed, fun _ => rfl⟩

/-- After a message the kind of content is known. -/
theorem contentKindFromMessage_known (protocol : Message.StreamMessageProtocol) (kind : StreamViewContentKind) :
    contentKindFromMessage protocol kind ≠ .unknown := by
  cases protocol <;> cases kind <;> decide

section Hearing

variable {facts : RowFacts} {event : Event} {id : BitVec 64}

/-- A confirmed service stays confirmed. -/
theorem confirmed_hear (h : facts.service.Confirmed) : (facts.hear event).service.Confirmed := by
  unfold RowFacts.hear
  cases messageFromEvent event with
  | none => exact h
  | some message =>
    show (facts.inform message event).service.Confirmed
    unfold RowFacts.inform
    dsimp only
    split_ifs
    · exact ⟨rfl, rfl⟩
    · exact h

/-- After a message the kind of content is known. -/
theorem hear_known (hmessage : IsMessageOf id event) : (facts.hear event).content_kind ≠ .unknown := by
  obtain ⟨message, hread, -, -⟩ := hmessage
  rw [hear_eq_inform hread]
  exact contentKindFromMessage_known _ _

/-- What a message makes of a service that no parser confirmed: it confirms its own, or there is HTTPS already. -/
theorem hear_of_source (h : facts.service.source ≠ some "parser".toList) (hmessage : IsMessageOf id event) :
    (facts.hear event).service.Confirmed ∧ ¬ (facts.service.name = "https".toList ∧ IsPlainTls event) ∨
      (facts.hear event).service = facts.service ∧ (facts.service.name = "https".toList ∧ IsPlainTls event) ∧
        (facts.content_kind ≠ .unknown → (facts.hear event).content_kind = facts.content_kind) := by
  obtain ⟨message, hread, -, -⟩ := hmessage
  have hplain : IsPlainTls event ↔ serviceNameFromMessage message event = "tls".toList := by
    constructor
    · exact fun htls => htls message hread
    · intro htls other hother
      rw [hread] at hother
      rwa [← Option.some.inj hother]
  have hreplace := shouldReplaceService_of_source h (serviceFromMessage message event)
  rw [hear_eq_inform hread, hplain]
  by_cases habsorbed : facts.service.name = "https".toList ∧ serviceNameFromMessage message event = "tls".toList
  · right
    have hkeep : ¬ shouldReplaceService facts.service (serviceFromMessage message event) = true :=
      fun hyes => hreplace.mp hyes habsorbed
    have htls : message.protocol = .tls := by
      have hname := habsorbed.2
      unfold serviceNameFromMessage at hname
      cases hprotocol : message.protocol with
      | tls => rfl
      | http1 =>
        rw [hprotocol] at hname
        exact absurd (show "http".toList = "tls".toList from hname) (by decide)
      | dns =>
        rw [hprotocol] at hname
        exact absurd (show "dns".toList = "tls".toList from hname) (by decide)
      | websocket =>
        rw [hprotocol] at hname
        exact absurd (show "websocket".toList = "tls".toList from hname) (by decide)
    refine ⟨if_neg hkeep, habsorbed, fun hknown => ?_⟩
    unfold RowFacts.inform
    dsimp only
    rw [htls]
    unfold contentKindFromMessage
    cases hkind : facts.content_kind with
    | unknown => exact absurd hkind hknown
    | text => rfl
    | binary => rfl
    | mixed => rfl
  · left
    have hyes : shouldReplaceService facts.service (serviceFromMessage message event) = true :=
      hreplace.mpr habsorbed
    refine ⟨?_, habsorbed⟩
    have hservice : (facts.inform message event).service = serviceFromMessage message event := if_pos hyes
    rw [hservice]
    exact ⟨rfl, rfl⟩

variable {messages : List Event}

/-- Messages do not replace a confirmed service by one that is not. -/
theorem confirmed_hearAll (h : facts.service.Confirmed) : (facts.hearAll messages).service.Confirmed := by
  induction messages generalizing facts with
  | nil => exact h
  | cons event messages ih => exact ih (confirmed_hear h)

/-- After some messages the kind of content is known. -/
theorem hearAll_known (hmessages : ∀ event ∈ messages, IsMessageOf id event)
    (h : messages ≠ [] ∨ facts.content_kind ≠ .unknown) :
    (facts.hearAll messages).content_kind ≠ .unknown := by
  induction messages generalizing facts with
  | nil => exact h.resolve_left fun hnil => hnil rfl
  | cons event messages ih =>
    have hothers := fun other hother => hmessages other (List.mem_cons_of_mem _ hother)
    exact ih hothers (.inr (hear_known (hmessages event List.mem_cons_self)))

/-- What a report says is HTTPS, and the messages are about TLS and no more; or there are none. -/
def Absorbs (facts : RowFacts) (messages : List Event) : Prop :=
  messages = [] ∨ facts.service.name = "https".toList ∧ ∀ event ∈ messages, IsPlainTls event

/-- Messages leave the service of a report as it is if it absorbs them, and else they confirm another. -/
theorem hearAll_of_source (h : facts.service.source ≠ some "parser".toList)
    (hmessages : ∀ event ∈ messages, IsMessageOf id event) :
    (facts.hearAll messages).service.Confirmed ∧ ¬ Absorbs facts messages ∨
      (facts.hearAll messages).service = facts.service ∧ Absorbs facts messages ∧
        (facts.content_kind ≠ .unknown → (facts.hearAll messages).content_kind = facts.content_kind) := by
  induction messages generalizing facts with
  | nil => exact .inr ⟨rfl, .inl rfl, fun _ => rfl⟩
  | cons event messages ih =>
    have hothers := fun other hother => hmessages other (List.mem_cons_of_mem _ hother)
    have hall : facts.hearAll (event :: messages) = (facts.hear event).hearAll messages := rfl
    have habsorbs : Absorbs facts (event :: messages) ↔
        (facts.service.name = "https".toList ∧ IsPlainTls event) ∧ ∀ other ∈ messages, IsPlainTls other := by
      unfold Absorbs
      rw [List.forall_mem_cons, and_assoc]
      exact ⟨fun hor => hor.resolve_left (List.cons_ne_nil _ _), Or.inr⟩
    rw [hall, habsorbs]
    rcases hear_of_source h (hmessages event List.mem_cons_self) with ⟨hconfirmed, hnot⟩ | ⟨hsame, hfirst, hkind⟩
    · -- The first message confirms its service, and the others keep one confirmed.
      exact .inl ⟨confirmed_hearAll hconfirmed, fun hyes => hnot hyes.1⟩
    · have hknown : (facts.hear event).content_kind ≠ .unknown :=
        hear_known (hmessages event List.mem_cons_self)
      rcases ih (hsame ▸ h) hothers with ⟨hconfirmed, hnot⟩ | ⟨hsame', hrest, hkind'⟩
      · exact .inl ⟨hconfirmed, fun hyes => hnot (.inr ⟨hsame ▸ hyes.1.1, hyes.2⟩)⟩
      · refine .inr ⟨hsame'.trans hsame, ⟨hfirst, ?_⟩, fun hfacts => (hkind' hknown).trans (hkind hfacts)⟩
        rcases hrest with rfl | hrest
        · exact List.forall_mem_nil _
        · exact hrest.2

end Hearing

/-! ## Runs -/

/-- A run ends in messages, behind the last report or from the beginning on. -/
theorem run_cases (run : List Arrival) :
    (∃ messages : List Event, run = messages.map .inr) ∨
      ∃ (before : List Arrival) (report : InventoryReport) (messages : List Event),
        run = before ++ .inl report :: messages.map .inr := by
  induction run with
  | nil => exact .inl ⟨[], rfl⟩
  | cons arrival run ih =>
    rcases ih with ⟨messages, rfl⟩ | ⟨before, report, messages, rfl⟩
    · cases arrival with
      | inl report => exact .inr ⟨[], report, messages, rfl⟩
      | inr event => exact .inl ⟨event :: messages, rfl⟩
    · exact .inr ⟨arrival :: before, report, messages, rfl⟩

/-- Messages behind a report are heard. -/
theorem foldl_messages (facts : RowFacts) (messages : List Event) :
    (messages.map Sum.inr).foldl mergeStep (some facts) = some (facts.hearAll messages) := by
  induction messages generalizing facts with
  | nil => rfl
  | cons event messages ih => exact ih (facts.hear event)

/-- Without a report there is no row. -/
theorem merged_messages (messages : List Event) : merged (messages.map .inr) = none := by
  induction messages with
  | nil => rfl
  | cons event messages ih => exact ih

/-- The row says what the last report says, and what the messages behind it make of it. -/
theorem merged_report (before : List Arrival) (report : InventoryReport) (messages : List Event) :
    merged (before ++ .inl report :: messages.map .inr) = some (report.facts.hearAll messages) := by
  unfold merged
  rw [List.foldl_append, List.foldl_cons]
  exact foldl_messages report.facts messages

section Interleaving

variable {reports : List InventoryReport} {messages : List Event} {run : List Arrival} {id : BitVec 64}

/-- Some reports, and nothing else. -/
theorem interleaves_reports (reports : List InventoryReport) : Interleaves reports [] (reports.map .inl) := by
  constructor
  · rw [List.filterMap_map]
    exact List.filterMap_some
  · rw [List.filterMap_map]
    exact List.filterMap_eq_nil_iff.mpr fun _ _ => rfl

/-- Some messages, and nothing else. -/
theorem interleaves_messages (messages : List Event) : Interleaves [] messages (messages.map .inr) := by
  constructor
  · rw [List.filterMap_map]
    exact List.filterMap_eq_nil_iff.mpr fun _ _ => rfl
  · rw [List.filterMap_map]
    exact List.filterMap_some

/-- One run behind another. -/
theorem Interleaves.append {reports' : List InventoryReport} {messages' : List Event} {run' : List Arrival}
    (h : Interleaves reports messages run) (h' : Interleaves reports' messages' run') :
    Interleaves (reports ++ reports') (messages ++ messages') (run ++ run') := by
  constructor
  · rw [List.filterMap_append, h.1, h'.1]
  · rw [List.filterMap_append, h.2, h'.2]

/-- Every arrival is one of the reports or one of the messages. -/
theorem Interleaves.isAbout (h : Interleaves reports messages run)
    (hreports : ∀ report ∈ reports, report.record.id = id ∧ RecordFits report.record)
    (hmessages : ∀ event ∈ messages, IsMessageOf id event) : ∀ arrival ∈ run, IsAbout id arrival := by
  intro arrival harrival
  cases arrival with
  | inl report => exact hreports report (h.1 ▸ List.mem_filterMap.mpr ⟨_, harrival, rfl⟩)
  | inr event => exact hmessages event (h.2 ▸ List.mem_filterMap.mpr ⟨_, harrival, rfl⟩)

/-- The reports and the messages around a report and the messages behind it. -/
theorem Interleaves.split {before after : List Arrival} {report : InventoryReport} {behind : List Event}
    (h : Interleaves reports messages (before ++ .inl report :: behind.map .inr ++ after)) :
    reports = before.filterMap Sum.getLeft? ++ report :: after.filterMap Sum.getLeft? ∧
      ∀ event ∈ behind, event ∈ messages := by
  obtain ⟨hreports, hmessages⟩ := h
  have hbehind := interleaves_messages behind
  constructor
  · rw [← hreports, List.filterMap_append, List.filterMap_append, List.filterMap_cons, hbehind.1]
    simp
  · intro event hevent
    rw [← hmessages, List.filterMap_append, List.filterMap_append, List.filterMap_cons, hbehind.2]
    simp [hevent]

end Interleaving

/-! ## Every order -/

/-- In every order in which the reports and the messages can arrive the row says the same in the end, and no report
replaces a service that a parser confirmed by one of lower confidence. -/
structure MergesFreely (s : StreamViewState) (id : BitVec 64) (reports : List InventoryReport)
    (messages : List Event) : Prop where
  order_free : ∀ run run', Interleaves reports messages run → Interleaves reports messages run' →
    (s.observeEvents (run.map arrivalEvent)).rowFacts id = (s.observeEvents (run'.map arrivalEvent)).rowFacts id
  keeps_confirmed : ∀ before report after, Interleaves reports messages (before ++ .inl report :: after) →
    ∀ old new, (s.observeEvents (before.map arrivalEvent)).rowFacts id = some old →
      (s.observeEvents ((before ++ [.inl report]).map arrivalEvent)).rowFacts id = some new →
      old.service.source = some "parser".toList → old.service.confidence ≤ new.service.confidence

/-- The messages change no report that is the last one or that is followed by a report of less confidence than they
have: they are about TLS and no more, and the report says HTTPS. -/
structure Undisturbed (reports : List InventoryReport) (messages : List Event) : Prop where
  messages : ∀ event ∈ messages, IsPlainTls event
  last : ∀ report ∈ reports.getLast?,
    report.facts.service.name = "https".toList ∧ report.facts.content_kind ≠ .unknown
  followed : ∀ before report next after, reports = before ++ report :: next :: after →
    next.facts.service.confidence < 100 → report.facts.service.name = "https".toList

section Orders

variable {config : StreamViewConfig} {s : StreamViewState} {id : BitVec 64}
  {reports : List InventoryReport} {messages : List Event} {run : List Arrival}

/-- A view that is off or has no room for any stream has no row. -/
theorem rowFacts_off (ha : s.Agrees config) (hnew : id ∉ s.streams)
    (hoff : config.enabled = false ∨ config.max_streams = 0) (events : List Event) :
    (s.observeEvents events).rowFacts id = none := by
  have hagrees : ∀ t : StreamViewState, t.Agrees config → (events.foldl StreamViewState.observeEvent t).Agrees config := by
    induction events with
    | nil => exact fun t ht => ht
    | cons event events ih => exact fun t ht => ih _ (ht.observeEvent event)
  have hnone : id ∉ (s.observeEvents events).streams := by
    unfold StreamViewState.observeEvents
    rcases hoff with hoff | hoff
    · rw [if_pos (by rw [ha.config, hoff]; rfl)]
      exact hnew
    · split_ifs
      · exact hnew
      · have hsize := (hagrees s ha).size_le
        rw [hoff, Table.size_eq] at hsize
        have hkeys := List.eq_nil_of_length_eq_zero (Nat.le_zero.mp hsize)
        exact fun hmem => absurd (hkeys ▸ hmem : id ∈ ([] : List (BitVec 64))) List.not_mem_nil
  unfold StreamViewState.rowFacts
  rw [AList.lookup_eq_none.mpr hnone]
  rfl

/-- A view that is on has the row that the arrivals make. -/
theorem rowFacts_on (ha : s.Agrees config) (hnew : id ∉ s.streams) (henabled : config.enabled = true)
    (hpos : 0 < config.max_streams) (hrun : ∀ arrival ∈ run, IsAbout id arrival) :
    (s.observeEvents (run.map arrivalEvent)).rowFacts id = merged run := by
  have hnone : s.rowFacts id = none := by
    unfold StreamViewState.rowFacts
    rw [AList.lookup_eq_none.mpr hnew]
    rfl
  unfold StreamViewState.observeEvents
  rw [if_neg (by rw [ha.config, henabled]; decide), rowFacts_run ha henabled hpos hrun, hnone]
  rfl

/-- Where the last report absorbs the messages and knows the kind of content, the row says what it says. -/
theorem merged_eq_last (hrun : Interleaves reports messages run)
    (hmessages : ∀ event ∈ messages, IsMessageOf id event)
    (h : ∀ report ∈ reports.getLast?, messages = [] ∨
      Absorbs report.facts messages ∧ report.facts.content_kind ≠ .unknown) :
    merged run = reports.getLast?.map InventoryReport.facts := by
  rcases run_cases run with ⟨behind, rfl⟩ | ⟨before, report, behind, rfl⟩
  · rw [merged_messages, ← hrun.1, (interleaves_messages behind).1]
    rfl
  · have hsplit : Interleaves reports messages (before ++ .inl report :: behind.map .inr ++ []) := by
      rwa [List.append_nil]
    obtain ⟨hreports, hbehind⟩ := hsplit.split
    have hlast : reports.getLast? = some report := by
      rw [hreports]
      exact List.getLast?_concat
    rw [merged_report, hlast, Option.map_some]
    congr 1
    rcases h report hlast with rfl | ⟨habsorbs, hknown⟩
    · rw [List.eq_nil_iff_forall_not_mem.mpr fun event hevent => List.not_mem_nil (hbehind event hevent)]
      rfl
    · have hsome : Absorbs report.facts behind := by
        rcases habsorbs with rfl | ⟨hhttps, htls⟩
        · exact .inl (List.eq_nil_iff_forall_not_mem.mpr fun event hevent => List.not_mem_nil (hbehind event hevent))
        · exact .inr ⟨hhttps, fun event hevent => htls event (hbehind event hevent)⟩
      rcases hearAll_of_source report.not_confirmed fun event hevent => hmessages event (hbehind event hevent) with
        ⟨-, hnot⟩ | ⟨hservice, -, hkind⟩
      · exact absurd hsome hnot
      · exact RowFacts.ext hservice (hkind hknown)

/-- Messages behind some reports, and then more reports. -/
theorem interleaves_between (before after : List InventoryReport) (messages : List Event) :
    Interleaves (before ++ after) messages (before.map .inl ++ (messages.map .inr ++ after.map .inl)) := by
  have h := (interleaves_reports before).append
    ((interleaves_messages messages).append (interleaves_reports after))
  rwa [List.nil_append, List.append_nil, List.nil_append] at h

/-- The same of the row by itself: every order leads to the same facts, and no report replaces a service that
a parser confirmed by one of lower confidence. -/
structure OrderFree (reports : List InventoryReport) (messages : List Event) : Prop where
  order_free : ∀ run run', Interleaves reports messages run → Interleaves reports messages run' →
    merged run = merged run'
  keeps_confirmed : ∀ before report after, Interleaves reports messages (before ++ .inl report :: after) →
    ∀ old, merged before = some old → old.service.source = some "parser".toList →
      old.service.confidence ≤ report.facts.service.confidence

/-- Where every order leads to the same, the messages disturb no report. -/
theorem OrderFree.undisturbed (h : OrderFree reports messages)
    (hmessages : ∀ event ∈ messages, IsMessageOf id event) (hreports : reports ≠ []) (hsome : messages ≠ []) :
    Undisturbed reports messages := by
  obtain ⟨before, last, hlast⟩ := (List.eq_nil_or_concat reports).resolve_left hreports
  rw [List.concat_eq_append] at hlast
  -- Before the reports the messages are lost, and behind them they are heard.
  have hlost : merged (messages.map .inr ++ reports.map .inl) = some last.facts := by
    have hrun := merged_report (messages.map .inr ++ before.map .inl) last []
    rw [hlast, List.map_append, ← List.append_assoc]
    exact hrun
  have hheard : merged (reports.map .inl ++ messages.map .inr) = some (last.facts.hearAll messages) := by
    have hrun := merged_report (before.map .inl) last messages
    rw [hlast, List.map_append, List.append_assoc]
    exact hrun
  have hfirst : Interleaves reports messages (messages.map .inr ++ reports.map .inl) :=
    interleaves_between [] reports messages
  have hsecond : Interleaves reports messages (reports.map .inl ++ messages.map .inr) := by
    have := interleaves_between reports [] messages
    rwa [List.append_nil, List.map_nil, List.append_nil] at this
  have hsame : last.facts.hearAll messages = last.facts := by
    have heq := h.order_free _ _ hsecond hfirst
    rw [hlost, hheard] at heq
    exact Option.some.inj heq
  have habsorbs : last.facts.service.name = "https".toList ∧ ∀ event ∈ messages, IsPlainTls event := by
    rcases hearAll_of_source last.not_confirmed hmessages with ⟨hconfirmed, -⟩ | ⟨-, habsorbs, -⟩
    · rw [hsame] at hconfirmed
      exact absurd hconfirmed.1 last.not_confirmed
    · exact habsorbs.resolve_left hsome
  refine ⟨habsorbs.2, ?_, ?_⟩
  · intro report hreport
    rw [hlast, List.getLast?_concat] at hreport
    obtain rfl := Option.some.inj hreport
    have hknown : (last.facts.hearAll messages).content_kind ≠ .unknown :=
      hearAll_known hmessages (.inl hsome)
    rw [hsame] at hknown
    exact ⟨habsorbs.1, hknown⟩
  · intro before report next after heq hlow
    rcases hearAll_of_source report.not_confirmed hmessages with ⟨hconfirmed, -⟩ | ⟨-, habsorbs', -⟩
    · -- The next report would replace the service that the messages confirmed.
      have hrun := interleaves_between (before ++ [report]) (next :: after) messages
      rw [List.append_assoc, List.singleton_append, ← heq, List.map_cons, ← List.append_assoc] at hrun
      have hmerged := merged_report (before.map .inl) report messages
      have hle := h.keeps_confirmed _ _ _ hrun (report.facts.hearAll messages)
        (by rw [List.map_append, List.append_assoc]; exact hmerged) hconfirmed.1
      rw [hconfirmed.2] at hle
      omega
    · exact (habsorbs'.resolve_left hsome).1

/-- Every order leads to the same exactly when there is nothing to put in order, or the messages disturb no
report. -/
theorem orderFree_iff (hmessages : ∀ event ∈ messages, IsMessageOf id event) :
    OrderFree reports messages ↔ reports = [] ∨ messages = [] ∨ Undisturbed reports messages := by
  constructor
  · intro h
    by_cases hreports : reports = []
    · exact .inl hreports
    by_cases hsome : messages = []
    · exact .inr (.inl hsome)
    exact .inr (.inr (h.undisturbed hmessages hreports hsome))
  · intro h
    constructor
    · intro run run' hrun hrun'
      have hlast : ∀ report ∈ reports.getLast?, messages = [] ∨
          Absorbs report.facts messages ∧ report.facts.content_kind ≠ .unknown := by
        intro report hreport
        rcases h with rfl | hnone | h
        · cases hreport
        · exact .inl hnone
        · obtain ⟨hhttps, hknown⟩ := h.last report hreport
          exact .inr ⟨.inr ⟨hhttps, h.messages⟩, hknown⟩
      rw [merged_eq_last hrun hmessages hlast, merged_eq_last hrun' hmessages hlast]
    · intro before report after hrun old hold hsource
      rcases run_cases before with ⟨behind, rfl⟩ | ⟨start, previous, behind, rfl⟩
      · rw [merged_messages] at hold
        cases hold
      obtain ⟨hreports, hbehind⟩ := hrun.split
      rw [List.filterMap_cons] at hreports
      rw [merged_report] at hold
      obtain rfl := Option.some.inj hold
      rcases hearAll_of_source previous.not_confirmed fun event hevent => hmessages event (hbehind event hevent) with
        ⟨hconfirmed, hnot⟩ | ⟨hservice, -, -⟩
      · -- The report before was not disturbed, unless this one is as sure as a parser.
        by_contra hlow
        rw [hconfirmed.2] at hlow
        apply hnot
        rcases h with hnil | rfl | h
        · rw [hnil] at hreports
          simp at hreports
        · exact .inl (List.eq_nil_iff_forall_not_mem.mpr fun event hevent => List.not_mem_nil (hbehind event hevent))
        · refine .inr ⟨h.followed _ _ _ _ hreports (by omega), ?_⟩
          exact fun event hevent => h.messages event (hbehind event hevent)
      · rw [hservice] at hsource
        exact absurd hsource previous.not_confirmed

/-- A view that is on merges freely exactly when the row by itself does. -/
theorem mergesFreely_iff_orderFree (ha : s.Agrees config) (hnew : id ∉ s.streams)
    (henabled : config.enabled = true) (hpos : 0 < config.max_streams)
    (hreports : ∀ report ∈ reports, report.record.id = id ∧ RecordFits report.record)
    (hmessages : ∀ event ∈ messages, IsMessageOf id event) :
    MergesFreely s id reports messages ↔ OrderFree reports messages := by
  have hrow : ∀ run, (∀ arrival ∈ run, IsAbout id arrival) →
      (s.observeEvents (run.map arrivalEvent)).rowFacts id = merged run :=
    fun run hrun => rowFacts_on ha hnew henabled hpos hrun
  have habout : ∀ run, Interleaves reports messages run → ∀ arrival ∈ run, IsAbout id arrival :=
    fun run hrun => hrun.isAbout hreports hmessages
  have hsome : ∀ (before : List Arrival) (report : InventoryReport) (after : List Arrival),
      Interleaves reports messages (before ++ .inl report :: after) →
      (s.observeEvents (before.map arrivalEvent)).rowFacts id = merged before ∧
        (s.observeEvents ((before ++ [Sum.inl report]).map arrivalEvent)).rowFacts id = some report.facts := by
    intro before report after hrun
    have hall := habout _ hrun
    refine ⟨hrow _ fun arrival harrival => hall arrival (List.mem_append_left _ harrival), ?_⟩
    rw [hrow]
    · exact merged_report before report []
    · intro arrival harrival
      apply hall
      rw [List.append_cons]
      exact List.mem_append_left _ harrival
  constructor
  · intro h
    constructor
    · intro run run' hrun hrun'
      have heq := h.order_free run run' hrun hrun'
      rwa [hrow run (habout run hrun), hrow run' (habout run' hrun')] at heq
    · intro before report after hrun old hold hsource
      obtain ⟨hbefore, hreport⟩ := hsome before report after hrun
      exact h.keeps_confirmed before report after hrun old report.facts (hbefore.trans hold) hreport hsource
  · intro h
    constructor
    · intro run run' hrun hrun'
      rw [hrow run (habout run hrun), hrow run' (habout run' hrun')]
      exact h.order_free run run' hrun hrun'
    · intro before report after hrun old new hold hnew' hsource
      obtain ⟨hbefore, hreport⟩ := hsome before report after hrun
      rw [hbefore] at hold
      rw [hreport] at hnew'
      obtain rfl := Option.some.inj hnew'
      exact h.keeps_confirmed before report after hrun old hold hsource

end Orders

/-- A stream that the view has not seen, its reports and its messages: every order in which they can arrive
leads to the same row, and no report replaces a confirmed service by one of lower confidence, exactly when the
view has no room for rows, or there are no reports or no messages, or the messages disturb no report. -/
theorem mergesFreely_iff (config : StreamViewConfig) (calls : List ViewCall) (id : BitVec 64)
    (reports : List InventoryReport) (messages : List Event)
    (hnew : id ∉ ((StreamViewState.new config).callAll calls).streams)
    (hreports : ∀ report ∈ reports, report.record.id = id ∧ RecordFits report.record)
    (hmessages : ∀ event ∈ messages, IsMessageOf id event) :
    MergesFreely ((StreamViewState.new config).callAll calls) id reports messages ↔
      (config.enabled = false ∨ config.max_streams = 0) ∨
        reports = [] ∨ messages = [] ∨ Undisturbed reports messages := by
  have ha := StreamViewState.callAll_agrees config calls
  by_cases hoff : config.enabled = false ∨ config.max_streams = 0
  · have hnone := rowFacts_off ha hnew hoff
    refine ⟨fun _ => .inl hoff, fun _ => ⟨fun run run' _ _ => ?_, fun before report after _ old new hold => ?_⟩⟩
    · rw [hnone, hnone]
    · rw [hnone] at hold
      cases hold
  · have henabled : config.enabled = true := by
      cases henabled : config.enabled with
      | true => rfl
      | false => exact absurd (.inl henabled) hoff
    have hpos : 0 < config.max_streams := Nat.pos_of_ne_zero fun hzero => hoff (.inr hzero)
    rw [mergesFreely_iff_orderFree ha hnew henabled hpos hreports hmessages, orderFree_iff hmessages]
    exact ⟨fun h => .inr h, fun h => h.resolve_left hoff⟩

/-- A record of a flow that no port tells of. -/
def sampleRecord : StreamRecord :=
  StreamRecord.new ⟨.tcp, ⟨.ofOctets 10 0 0 1, 1000⟩, ⟨.ofOctets 10 0 0 2, 12345⟩⟩ 1

/-- The opening of its stream, or an update. -/
def sampleReport (opening : Bool) : InventoryReport :=
  ⟨opening, Inventory.samplePacket 1000 .aToB 0 Inventory.noFlags [], sampleRecord⟩

/-- A request in the stream. -/
def sampleMessage : Event where
  analyzer := "protocol_message".toList
  event_type := "http1_request".toList
  source_port := some 1000
  destination_port := some 12345
  fields := .message
    { stream_id := sampleRecord.id
      message_id := 0
      protocol := .http1
      kind := .request
      status := .complete
      direction := .aToB
      ordinal := 0
      summary := []
      logical_start := 0
      logical_end := 16
      header_start := none
      header_end := none
      body_start := none
      body_end := none
      wire_bytes := 16
      header_bytes := 16
      body_bytes := 0 }

/-- Room for two streams. -/
def sampleConfig : StreamViewConfig := ⟨true, 2, 8, 8⟩

theorem sampleRecord_fits : RecordFits sampleRecord := by
  have hdirection : DirectionFits {} := by constructor <;> decide
  constructor
  case aToB => exact hdirection
  case bToA => exact hdirection
  all_goals decide +kernel

/-- An opening, an update and a message. -/
theorem mergesFreely_iff_sample :
    MergesFreely ((StreamViewState.new sampleConfig).callAll []) sampleRecord.id
        [sampleReport true, sampleReport false] [sampleMessage] ↔
      (sampleConfig.enabled = false ∨ sampleConfig.max_streams = 0) ∨
        [sampleReport true, sampleReport false] = [] ∨ [sampleMessage] = [] ∨
          Undisturbed [sampleReport true, sampleReport false] [sampleMessage] := by
  apply mergesFreely_iff
  · decide
  · intro report hreport
    have heq : report.record = sampleRecord := by
      rcases List.mem_pair.mp hreport with rfl | rfl
      · rfl
      · rfl
    rw [heq]
    exact ⟨rfl, sampleRecord_fits⟩
  · intro event hevent
    obtain rfl := List.mem_singleton.mp hevent
    exact ⟨_, rfl, rfl, by decide⟩

/-- An update behind the message forgets the service that the parser confirmed, and an update before it does
not. -/
theorem not_mergesFreely_sample :
    ¬ MergesFreely (StreamViewState.new sampleConfig) sampleRecord.id
      [sampleReport true, sampleReport false] [sampleMessage] := by
  intro h
  have hsame := h.order_free
    [.inl (sampleReport true), .inr sampleMessage, .inl (sampleReport false)]
    [.inl (sampleReport true), .inl (sampleReport false), .inr sampleMessage] ⟨rfl, rfl⟩ ⟨rfl, rfl⟩
  revert hsame
  decide +kernel

end Rustmate.View
