import Rustmate.Parser.Analyzer

/-!
# The tables of parser states

A table of parser states always has a state for a key: the queue names what may go. One call looks up at most
one key of each table, so at most one state is created and at most one goes. -/

namespace Rustmate.Parser

open Events (Event)
open Rustmate.Flow (FlowObservation StreamChunk)
open Message

namespace ParserStates

variable {S : Type}

/-- There are no more states than may be, the queue holds each key once, and no lookup failed. -/
structure Sound (table : ParserStates S) : Prop where
  pos : 1 ≤ table.max_states
  queued : table.states.Queued
  size_le : table.states.entries.size ≤ table.max_states
  none_dropped : table.dropped = 0

/-- A table goes on: what was added is there or was evicted. -/
structure Advances (before after : ParserStates S) : Prop where
  max_states : after.max_states = before.max_states
  sound : after.Sound
  evicted_le : after.evicted_states ≤ before.evicted_states + 1
  balance : after.states.entries.size + after.evicted_states = before.states.entries.size + before.evicted_states +
    Table.added before.states.entries.keySet after.states.entries.keySet

variable {self before after : ParserStates S}

/-- Nothing happened. -/
theorem Advances.refl (h : self.Sound) : Advances self self :=
  ⟨rfl, h, Nat.le_succ _, by rw [Table.added_self, Nat.add_zero]⟩

/-- A state was put back. -/
theorem Advances.put (h : Advances before after) {key : StreamKey} (hmem : key ∈ after.states.entries) (state : S) :
    Advances before (after.put key state) := by
  have hsize : Table.size (after.states.entries.insert key state) = after.states.entries.size :=
    Table.size_insert_mem state hmem
  have hkeys : Table.keySet (after.states.entries.insert key state) = after.states.entries.keySet :=
    Table.keySet_insert_mem hmem state
  refine ⟨h.max_states, ⟨h.sound.pos, h.sound.queued.replace hmem state, ?_, h.sound.none_dropped⟩, h.evicted_le, ?_⟩
  · change Table.size (after.states.entries.insert key state) ≤ after.max_states
    rw [hsize]
    exact h.sound.size_le
  · change Table.size (after.states.entries.insert key state) + after.evicted_states = _ + _ +
      Table.added _ (Table.keySet (after.states.entries.insert key state))
    rw [hsize, hkeys]
    exact h.balance

/-- There is a state for every key. -/
theorem Sound.state (h : self.Sound) (hroom : self.evicted_states + 1 < 2^64) (default : S) (key : StreamKey) :
    ∃ table state, self.state default key = (table, some state) ∧ Advances self table ∧ key ∈ table.states.entries := by
  unfold ParserStates.state
  cases hlookup : self.states.entries.lookup key with
  | some state => exact ⟨self, state, rfl, .refl h, Table.mem_of_lookup hlookup⟩
  | none =>
    have hnew : key ∉ self.states.entries := AList.lookup_eq_none.mp hlookup
    dsimp only
    rcases h.queued.makeRoom_cases h.pos h.size_le (fun evicted _ => saturatingAdd evicted 1) self.evicted_states with
      ⟨hmake, hsize⟩ | ⟨evicted, state, order, -, hevicted, hmake, hqueued, hsize⟩
    · rw [hmake]
      dsimp only
      rw [if_neg (by omega)]
      refine ⟨_, default, rfl, ⟨rfl, ⟨h.pos, h.queued.push hnew default, ?_, h.none_dropped⟩, Nat.le_succ _, ?_⟩,
        (AList.mem_insert _).mpr (.inl rfl)⟩
      · change Table.size (self.states.entries.insert key default) ≤ self.max_states
        rw [Table.size_insert default hnew]
        omega
      · change Table.size (self.states.entries.insert key default) + self.evicted_states = _ + _ +
          Table.added self.states.entries.keySet (Table.keySet (self.states.entries.insert key default))
        rw [Table.size_insert default hnew, Table.added_insert_new hnew (fun _ hother => hother)]
        omega
    · have hgone : key ∉ self.states.entries.erase evicted := by
        rw [AList.mem_erase]
        exact fun hin => hnew hin.2
      have hsub : ∀ other ∈ self.states.entries.erase evicted, other ∈ self.states.entries := by
        intro other hother
        exact (AList.mem_erase.mp hother).2
      have herased := Table.size_erase (Table.mem_of_lookup hevicted)
      have hcount : saturatingAdd self.evicted_states 1 = self.evicted_states + 1 := saturatingAdd_eq hroom
      rw [hmake]
      dsimp only
      rw [if_neg (Nat.not_le_of_lt hsize), hcount]
      refine ⟨_, default, rfl, ⟨rfl, ⟨h.pos, hqueued.push hgone default, ?_, h.none_dropped⟩, Nat.le_refl _, ?_⟩,
        (AList.mem_insert _).mpr (.inl rfl)⟩
      · change Table.size ((self.states.entries.erase evicted).insert key default) ≤ self.max_states
        rw [Table.size_insert default hgone]
        omega
      · change Table.size ((self.states.entries.erase evicted).insert key default) + (self.evicted_states + 1) = _ + _ +
          Table.added self.states.entries.keySet
            (Table.keySet ((self.states.entries.erase evicted).insert key default))
        rw [Table.size_insert default hgone, Table.added_insert_new hnew hsub]
        omega

/-! ## What is true of each state -/

variable {I I' : StreamKey → S → Prop} {key : StreamKey}

/-- Each state of a table is as `I` says. -/
def All (I : StreamKey → S → Prop) (table : ParserStates S) : Prop :=
  ∀ key state, table.states.entries.lookup key = some state → I key state

/-- At first there is no state. -/
theorem all_new (I : StreamKey → S → Prop) (max_states : ℕ) : (new S max_states).All I := by
  intro key state hlookup
  rw [show (new S max_states).states.entries.lookup key = none from AList.lookup_empty key] at hlookup
  exact nomatch hlookup

/-- A state is looked up or created. -/
theorem All.state (h : self.All I) {default : S} (hnew : self.states.entries.lookup key = none → I key default) :
    (self.state default key).1.All I ∧ ∀ state ∈ (self.state default key).2, I key state := by
  unfold ParserStates.state
  cases hlookup : self.states.entries.lookup key with
  | some state =>
    refine ⟨h, fun other hother => ?_⟩
    obtain rfl := Option.some.inj hother
    exact h key state hlookup
  | none =>
    have hdefault := hnew hlookup
    dsimp only
    have hmade : ∀ key state, (self.states.makeRoom (fun evicted _ => saturatingAdd evicted 1) self.max_states
        self.evicted_states).1.entries.lookup key = some state → self.states.entries.lookup key = some state :=
      fun key state => Fifo.lookup_of_makeRoom
    generalize self.states.makeRoom (fun evicted _ => saturatingAdd evicted 1) self.max_states
      self.evicted_states = made at hmade ⊢
    by_cases hfull : self.max_states ≤ made.1.entries.size
    · rw [if_pos hfull]
      exact ⟨fun key state hlookup => h key state (hmade key state hlookup), nofun⟩
    · rw [if_neg hfull]
      refine ⟨fun other state hother => ?_, fun state hstate => ?_⟩
      · change (made.1.entries.insert key default).lookup other = some state at hother
        by_cases hkey : other = key
        · rw [hkey, AList.lookup_insert] at hother
          obtain rfl := Option.some.inj hother
          rw [hkey]
          exact hdefault
        · rw [AList.lookup_insert_ne hkey] at hother
          exact h other state (hmade other state hother)
      · obtain rfl := Option.some.inj hstate
        exact hdefault

/-- A state is put back, of which something else is known than of the others. -/
theorem All.put (h : self.All I) {state : S} (hown : I' key state)
    (hothers : ∀ other state, other ≠ key → I other state → I' other state) : (self.put key state).All I' := by
  intro other found hlookup
  change (self.states.entries.insert key state).lookup other = some found at hlookup
  by_cases hkey : other = key
  · rw [hkey, AList.lookup_insert] at hlookup
    obtain rfl := Option.some.inj hlookup
    rw [hkey]
    exact hown
  · rw [AList.lookup_insert_ne hkey] at hlookup
    exact hothers other found hkey (h other found hlookup)

end ParserStates

/-! ## The analyzer -/

/-- Each table is sound, and so is the one of the flows of WebSocket frames. -/
structure ProtocolMessageAnalyzer.Sound (analyzer : ProtocolMessageAnalyzer) : Prop where
  http1 : analyzer.http1.Sound
  dns : analyzer.dns.Sound
  websocket : analyzer.websocket.Sound
  tls : analyzer.tls.Sound
  active_queued : analyzer.websocket_active.Queued
  active_le : analyzer.websocket_active.entries.size ≤ analyzer.websocket.max_states

/-- Each table goes on. -/
structure ProtocolMessageAnalyzer.Advances (before after : ProtocolMessageAnalyzer) : Prop where
  http1 : ParserStates.Advances before.http1 after.http1
  dns : ParserStates.Advances before.dns after.dns
  websocket : ParserStates.Advances before.websocket after.websocket
  tls : ParserStates.Advances before.tls after.tls
  active_queued : after.websocket_active.Queued
  active_le : after.websocket_active.entries.size ≤ after.websocket.max_states

namespace ProtocolMessageAnalyzer

variable {self : ProtocolMessageAnalyzer}

/-- There is room in the counters of the evicted states for one more. -/
structure Roomy (analyzer : ProtocolMessageAnalyzer) (n : ℕ) : Prop where
  http1 : analyzer.http1.evicted_states ≤ n
  dns : analyzer.dns.evicted_states ≤ n
  websocket : analyzer.websocket.evicted_states ≤ n
  tls : analyzer.tls.evicted_states ≤ n

/-- Where there is room for the flow of WebSocket frames, only its table changes. -/
theorem activateWebsocketFlow_eq (hqueued : self.websocket_active.Queued) (hpos : 1 ≤ self.websocket.max_states)
    (hle : self.websocket_active.entries.size ≤ self.websocket.max_states) (flow : FlowKey) :
    ∃ active : Fifo FlowKey Unit, self.activateWebsocketFlow flow = { self with websocket_active := active } ∧
      active.Queued ∧ active.entries.size ≤ self.websocket.max_states := by
  unfold activateWebsocketFlow
  by_cases hmem : flow ∈ self.websocket_active.entries
  · rw [if_pos hmem]
    exact ⟨self.websocket_active, rfl, hqueued, hle⟩
  rw [if_neg hmem]
  have hmade : ∃ active : Fifo FlowKey Unit,
      self.websocket_active.makeRoom (fun _ _ => ()) self.websocket.max_states () = (active, ()) ∧ active.Queued ∧
        active.entries.size < self.websocket.max_states ∧ flow ∉ active.entries := by
    rcases hqueued.makeRoom_cases hpos hle (fun (_ : Unit) _ => ()) () with
      ⟨hmake, hsize⟩ | ⟨evicted, state, order, -, -, hmake, hrest, hsize⟩
    · exact ⟨self.websocket_active, hmake, hqueued, hsize, hmem⟩
    · refine ⟨_, hmake, hrest, hsize, ?_⟩
      change flow ∉ self.websocket_active.entries.erase evicted
      rw [AList.mem_erase]
      exact fun hin => hmem hin.2
  obtain ⟨active, hmake, hrest, hsize, hnew⟩ := hmade
  rw [hmake]
  dsimp only
  rw [if_neg (Nat.not_le_of_lt hsize)]
  refine ⟨_, rfl, hrest.push hnew (), ?_⟩
  change Table.size (active.entries.insert flow ()) ≤ self.websocket.max_states
  rw [Table.size_insert () hnew]
  omega

/-- The same after some messages. -/
theorem foldl_activateWebsocketFlow_eq (flow : FlowKey) (messages : List StreamMessage)
    (hqueued : self.websocket_active.Queued) (hpos : 1 ≤ self.websocket.max_states)
    (hle : self.websocket_active.entries.size ≤ self.websocket.max_states) :
    ∃ active : Fifo FlowKey Unit,
      messages.foldl (fun self message =>
        if http1IsWebsocketUpgrade message then self.activateWebsocketFlow flow else self) self =
          { self with websocket_active := active } ∧
        active.Queued ∧ active.entries.size ≤ self.websocket.max_states := by
  induction messages generalizing self with
  | nil => exact ⟨self.websocket_active, rfl, hqueued, hle⟩
  | cons message messages ih =>
    rw [List.foldl_cons]
    by_cases hupgrade : http1IsWebsocketUpgrade message = true
    · rw [if_pos hupgrade]
      obtain ⟨active, hactive, hqueued', hle'⟩ := activateWebsocketFlow_eq hqueued hpos hle flow
      rw [hactive]
      exact ih hqueued' hpos hle'
    · rw [if_neg hupgrade]
      exact ih hqueued hpos hle

/-- Only the table of TLS changes. -/
theorem emitTlsRecords_eq (h : self.tls.Sound) (hroom : self.tls.evicted_states + 1 < 2^64) (packet : DecodedPacket)
    (flow : FlowObservation) (chunk : StreamChunk) :
    ∃ tls, (self.emitTlsRecords packet flow chunk).1 = { self with tls } ∧ ParserStates.Advances self.tls tls := by
  unfold emitTlsRecords
  dsimp only
  by_cases hskip : (⟨flow.key, chunk.direction⟩ : StreamKey) ∉ self.tls.states.entries ∧ (!looksLikeTls chunk.bytes) = true
  · rw [if_pos hskip]
    exact ⟨self.tls, rfl, .refl h⟩
  rw [if_neg hskip]
  obtain ⟨table, state, hstate, hadvances, hmem⟩ := h.state hroom {} ⟨flow.key, chunk.direction⟩
  unfold tlsState
  rw [hstate]
  exact ⟨_, rfl, hadvances.put hmem _⟩

/-- Only the table of WebSocket frames changes. -/
theorem emitWebsocketFrames_eq (h : self.websocket.Sound) (hroom : self.websocket.evicted_states + 1 < 2^64)
    (packet : DecodedPacket) (flow : FlowObservation) (chunk : StreamChunk) :
    ∃ websocket, (self.emitWebsocketFrames packet flow chunk).1 = { self with websocket } ∧
      ParserStates.Advances self.websocket websocket := by
  unfold emitWebsocketFrames
  obtain ⟨table, state, hstate, hadvances, hmem⟩ := h.state hroom {} ⟨flow.key, chunk.direction⟩
  dsimp only
  unfold websocketState
  rw [hstate]
  exact ⟨_, rfl, hadvances.put hmem _⟩

/-- Only the table of HTTP/1 and that of the flows of WebSocket frames change. -/
theorem emitHttp1Messages_eq (h : self.Sound) (hroom : self.http1.evicted_states + 1 < 2^64) (packet : DecodedPacket)
    (flow : FlowObservation) (chunk : StreamChunk) :
    ∃ http1 active, (self.emitHttp1Messages packet flow chunk).1 = { self with http1, websocket_active := active } ∧
      ParserStates.Advances self.http1 http1 ∧ active.Queued ∧
      active.entries.size ≤ self.websocket.max_states := by
  unfold emitHttp1Messages
  obtain ⟨table, state, hstate, hadvances, hmem⟩ := h.http1.state hroom {} ⟨flow.key, chunk.direction⟩
  dsimp only
  unfold http1State
  rw [hstate]
  dsimp only
  generalize state.push _ chunk.bytes = pushed
  obtain ⟨active, hactive, hqueued, hle⟩ := @foldl_activateWebsocketFlow_eq
    { self with http1 := table.put ⟨flow.key, chunk.direction⟩ pushed.1 } flow.key pushed.2
    h.active_queued h.websocket.pos h.active_le
  exact ⟨_, active, hactive, hadvances.put hmem _, hqueued, hle⟩

/-- Only the table of DNS changes. -/
theorem emitDnsDatagram_eq (h : self.dns.Sound) (hroom : self.dns.evicted_states + 1 < 2^64) (packet : DecodedPacket)
    (flow : FlowObservation) (payload : List UInt8) :
    ∃ dns, (self.emitDnsDatagram packet flow payload).1 = { self with dns } ∧ ParserStates.Advances self.dns dns := by
  unfold emitDnsDatagram
  cases Inventory.detectPayload flow.key flow.direction payload with
  | none => exact ⟨self.dns, rfl, .refl h⟩
  | some detection =>
    dsimp only
    by_cases hservice : detection.service ∉ ([.dns, .mdns, .llmnr, .netbios] : List Inventory.Service)
    · rw [if_pos hservice]
      exact ⟨self.dns, rfl, .refl h⟩
    rw [if_neg hservice]
    by_cases hlooks : (!looksLikeDnsDatagram payload) = true
    · rw [if_pos hlooks]
      exact ⟨self.dns, rfl, .refl h⟩
    rw [if_neg hlooks]
    obtain ⟨table, state, hstate, hadvances, hmem⟩ := h.state hroom {} ⟨flow.key, flow.direction⟩
    unfold dnsState
    rw [hstate]
    exact ⟨_, rfl, hadvances.put hmem _⟩

end ProtocolMessageAnalyzer

end Rustmate.Parser
