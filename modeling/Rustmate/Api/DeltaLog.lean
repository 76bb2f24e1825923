import Rustmate.Lib.Journal
import Rustmate.Machine

/-!
# The live delta log

`LiveDeltaLog` of `src/api.rs`, the bounded log of what a live run publishes, and the polls of a client that
continues each time from the returned cursor. The log is the journal of what was pushed without its oldest
entries, and the polls are the readings of that journal.
-/

namespace Rustmate.Api

open Journal (Reading Reads)

/-- One published delta. The log does not look at its payload. -/
structure LiveDelta (P : Type) where
  cursor : ℕ
  payload : P
  deriving DecidableEq, Repr

inductive ApiRunStatus where
  | running
  | completed
  | failed
  deriving DecidableEq, Repr

structure LiveDeltaResponse (P : Type) where
  deltas : List (LiveDelta P)
  next_cursor : ℕ
  latest_cursor : ℕ
  dropped_before : ℕ
  missed : Bool
  run_status : ApiRunStatus
  deriving DecidableEq, Repr

structure LiveDeltaLog (P : Type) where
  capacity : ℕ
  next_cursor : ℕ
  dropped_before : ℕ
  entries : List (LiveDelta P)
  deriving DecidableEq, Repr

namespace LiveDeltaLog

variable {P : Type}

/-- `LiveDeltaLog::new`. -/
def new (capacity : ℕ) : LiveDeltaLog P := ⟨max capacity 1, 1, 0, []⟩

/-- The loop of `push` that drops the front. -/
def trimFront (capacity : ℕ) : ℕ → List (LiveDelta P) → ℕ × List (LiveDelta P)
  | dropped_before, [] => (dropped_before, [])
  | dropped_before, delta :: entries =>
    if capacity < (delta :: entries).length then trimFront capacity delta.cursor entries
    else (dropped_before, delta :: entries)

/-- `LiveDeltaLog::push`. -/
def push (self : LiveDeltaLog P) (payload : P) : LiveDeltaLog P :=
  let cursor := self.next_cursor
  let (dropped_before, entries) :=
    trimFront self.capacity self.dropped_before (self.entries ++ [⟨cursor, payload⟩])
  { self with next_cursor := saturatingAdd self.next_cursor 1, dropped_before, entries }

/-- `LiveDeltaLog::latest_cursor`. -/
def latestCursor (self : LiveDeltaLog P) : ℕ := self.next_cursor - 1

/-- `LiveDeltaLog::response`. -/
def response (self : LiveDeltaLog P) (cursor limit : ℕ) (run_status : ApiRunStatus) :
    LiveDeltaResponse P :=
  let missed : Bool := cursor < self.dropped_before
  let deltas :=
    (self.entries.filter fun delta => max cursor self.dropped_before < delta.cursor).take limit
  let next_cursor :=
    (deltas.getLast?).elim (max cursor self.dropped_before) fun delta => delta.cursor
  { deltas
    next_cursor
    latest_cursor := self.latestCursor
    dropped_before := self.dropped_before
    missed
    run_status }

/-- `append_deltas`: push some payloads under one lock. -/
def appendDeltas (self : LiveDeltaLog P) (payloads : List P) : LiveDeltaLog P :=
  payloads.foldl push self

/-! ## The request -/

/-- The parameters of a poll. -/
structure LiveDeltaQueryParams where
  cursor : Option ℕ
  limit : Option ℕ
  wait_ms : Option ℕ

/-- `LiveApiHandle::deltas`: the log as the request finds it, and as it is when the wait for a notification
ends, each with the status of the run. -/
def deltas (now later : LiveDeltaLog P × ApiRunStatus) (params : LiveDeltaQueryParams) :
    LiveDeltaResponse P :=
  let cursor := params.cursor.getD 0
  let limit := min (max (params.limit.getD 1024) 1) 8192
  let wait_ms := min (params.wait_ms.getD 0) 30000
  let response := now.1.response cursor limit now.2
  if wait_ms = 0 || !response.deltas.isEmpty || response.run_status ≠ .running then response
  else later.1.response cursor limit later.2

/-- A request is answered from the log as it is at one moment, with a limit of at least one. -/
theorem deltas_eq_response (now later : LiveDeltaLog P × ApiRunStatus)
    (params : LiveDeltaQueryParams) : ∃ log ∈ [now, later], ∃ limit, 1 ≤ limit ∧
      deltas now later params = log.1.response (params.cursor.getD 0) limit log.2 := by
  unfold deltas
  dsimp only
  split_ifs
  · exact ⟨now, by simp, _, by omega, rfl⟩
  · exact ⟨later, by simp, _, by omega, rfl⟩

/-! ## What the log keeps -/

/-- An entry of the journal as a delta. -/
def ofEntry (e : ℕ × P) : LiveDelta P := ⟨e.1, e.2⟩

/-- After these pushes the log holds the last ones, up to its capacity, and knows how many are gone. -/
structure Retains (log : LiveDeltaLog P) (pushed : List P) : Prop where
  capacity_pos : 1 ≤ log.capacity
  next_cursor : log.next_cursor = pushed.length + 1
  dropped_before : log.dropped_before = pushed.length - log.capacity
  entries : log.entries = ((Journal.number pushed).drop log.dropped_before).map ofEntry

/-- A new log retains nothing of nothing. -/
theorem retains_new (capacity : ℕ) : Retains (new (P := P) capacity) [] :=
  ⟨Nat.le_max_right _ _, rfl, by simp [new], by simp [new, Journal.number]⟩

/-- Nothing is dropped while the entries fit. -/
theorem trimFront_of_le {capacity dropped_before : ℕ} {entries : List (LiveDelta P)}
    (h : entries.length ≤ capacity) :
    trimFront capacity dropped_before entries = (dropped_before, entries) := by
  cases entries with
  | nil => rfl
  | cons delta entries => rw [trimFront, if_neg (by omega)]

/-- One entry too many: the first one is dropped. -/
theorem trimFront_cons {capacity dropped_before : ℕ} {delta : LiveDelta P}
    {entries : List (LiveDelta P)} (h : entries.length = capacity) :
    trimFront capacity dropped_before (delta :: entries) = (delta.cursor, entries) := by
  rw [trimFront, if_pos (by simp [h]), trimFront_of_le (by omega)]

/-- A push keeps the last entries. -/
theorem Retains.push {log : LiveDeltaLog P} {pushed : List P} (h : log.Retains pushed)
    (hlt : pushed.length + 1 < 2^64 - 1) (payload : P) :
    (log.push payload).Retains (pushed ++ [payload]) := by
  obtain ⟨hcap, hnext, hdropped, hentries⟩ := h
  have hnext' : saturatingAdd log.next_cursor 1 = (pushed ++ [payload]).length + 1 := by
    rw [hnext, saturatingAdd_eq (by omega), List.length_append, List.length_singleton]
  have happend : log.entries ++ [⟨log.next_cursor, payload⟩] =
      ((Journal.number (pushed ++ [payload])).drop log.dropped_before).map ofEntry := by
    rw [hentries, Journal.number_concat, List.drop_append_of_le_length (by simp [hdropped]),
      List.map_append, hnext]
    rfl
  unfold LiveDeltaLog.push
  dsimp only
  rw [happend]
  by_cases hfit : pushed.length < log.capacity
  · rw [trimFront_of_le (by simp; omega)]
    refine ⟨hcap, hnext', ?_, rfl⟩
    dsimp only
    rw [hdropped, List.length_append, List.length_singleton]
    omega
  · -- the entry after the ones that are gone goes too
    have hin : log.dropped_before < (Journal.number (pushed ++ [payload])).length := by
      simp
      omega
    have hcursor : (Journal.number (pushed ++ [payload]))[log.dropped_before].1 =
        log.dropped_before + 1 := by
      simp [Journal.number]
    rw [List.drop_eq_getElem_cons hin, List.map_cons, trimFront_cons (by simp; omega), ofEntry]
    refine ⟨hcap, hnext', ?_, ?_⟩
    · dsimp only
      rw [hcursor, List.length_append, List.length_singleton]
      omega
    · dsimp only
      rw [hcursor]

/-- What is retained are the consecutive cursors from the one after those dropped to the latest. -/
theorem Retains.cursors {log : LiveDeltaLog P} {pushed : List P} (h : log.Retains pushed) :
    log.entries.map LiveDelta.cursor =
      List.range' (log.dropped_before + 1) (log.latestCursor - log.dropped_before) := by
  have hlatest : log.latestCursor = pushed.length := by
    rw [latestCursor, h.next_cursor, Nat.add_sub_cancel]
  have hfst : ((Journal.number pushed).map ofEntry).map LiveDelta.cursor =
      List.range' 1 pushed.length := by
    rw [← Journal.number_fst, List.map_map]
    rfl
  rw [h.entries, List.map_drop, List.map_drop, hfst, hlatest, List.drop_range']
  rw [Nat.mul_one, Nat.add_comm]

/-- Every entry carries what was pushed at its number. -/
theorem Retains.payload {log : LiveDeltaLog P} {pushed : List P} (h : log.Retains pushed)
    {d : LiveDelta P} (hd : d ∈ log.entries) :
    1 ≤ d.cursor ∧ pushed[d.cursor - 1]? = some d.payload := by
  rw [h.entries] at hd
  obtain ⟨e, he, rfl⟩ := List.mem_map.mp hd
  exact Journal.mem_number (List.mem_of_mem_drop he)

/-- A response is the next part of the journal that is still there. -/
theorem Retains.response_deltas {log : LiveDeltaLog P} {pushed : List P} (h : log.Retains pushed)
    (cursor limit : ℕ) (run_status : ApiRunStatus) :
    (log.response cursor limit run_status).deltas =
      (((Journal.number pushed).drop (max cursor log.dropped_before)).take limit).map ofEntry := by
  have hcomp : (fun d : LiveDelta P => decide (max cursor log.dropped_before < d.cursor)) ∘ ofEntry =
      fun e => decide (max cursor log.dropped_before < e.1) := rfl
  unfold response
  dsimp only
  rw [h.entries, List.filter_map, hcomp, ← Journal.filter_number, List.filter_filter, List.map_take,
    ← Journal.filter_number]
  congr 3
  funext e
  simp only [Bool.and_eq_decide, decide_eq_true_eq, decide_eq_decide]
  omega

/-- The reading that a response is, for a cursor that the log knows. -/
def reading (cursor : ℕ) (response : LiveDeltaResponse P) : Reading :=
  ⟨cursor, response.dropped_before, response.next_cursor⟩

/-- What a response brings are the entries of its reading, in order. -/
theorem Retains.response_cursors {log : LiveDeltaLog P} {pushed : List P} (h : log.Retains pushed)
    {cursor : ℕ} (limit : ℕ) (run_status : ApiRunStatus) (hcursor : cursor ≤ pushed.length) :
    let r := log.response cursor limit run_status
    let start := max cursor log.dropped_before
    r.deltas.map LiveDelta.cursor = List.range' (start + 1) (r.next_cursor - start) ∧
      start ≤ r.next_cursor ∧ r.next_cursor ≤ pushed.length := by
  intro r start
  have hdeltas : r.deltas = (((Journal.number pushed).drop start).take limit).map ofEntry :=
    h.response_deltas cursor limit run_status
  have hstart : start ≤ pushed.length := by
    have := h.dropped_before
    omega
  have hcursors : r.deltas.map LiveDelta.cursor =
      List.range' (start + 1) (min limit (pushed.length - start)) := by
    have hfst : LiveDelta.cursor ∘ ofEntry = (Prod.fst : ℕ × P → ℕ) := rfl
    rw [hdeltas, List.map_map, hfst, Journal.window_fst]
  have hnext : r.next_cursor = start + min limit (pushed.length - start) := by
    have hlast : r.next_cursor = (r.deltas.map LiveDelta.cursor).getLast?.getD start := by
      show r.deltas.getLast?.elim start (fun d => d.cursor) = _
      rw [List.getLast?_map]
      cases r.deltas.getLast? <;> rfl
    rw [hlast, hcursors, List.getLast?_range']
    split_ifs with hzero
    · rw [hzero, Option.getD_none, Nat.add_zero]
    · rw [Option.getD_some]
      omega
  rw [hcursors, hnext]
  refine ⟨?_, Nat.le_add_right _ _, by omega⟩
  rw [Nat.add_sub_cancel_left]

end LiveDeltaLog

/-! ## A client -/

/-- One poll: the log as it was then, the cursor and limit sent, and the answer. -/
structure Poll (P : Type) where
  log : LiveDeltaLog P
  cursor : ℕ
  limit : ℕ
  response : LiveDeltaResponse P

/-- A log with everything that was pushed to it, and a client with all its polls. -/
structure Session (P : Type) where
  log : LiveDeltaLog P
  pushed : List P
  cursor : ℕ
  polls : List (Poll P)

inductive SessionStep (P : Type) where
  | push (payload : P)
  | poll (limit : ℕ) (run_status : ApiRunStatus)

namespace Session

variable {P : Type}

/-- Nothing is pushed, and the client starts at cursor 0. -/
def start (capacity : ℕ) : Session P := ⟨.new capacity, [], 0, []⟩

/-- One step: the client continues from the cursor that it gets. -/
def step (s : Session P) : SessionStep P → Session P
  | .push payload => { s with log := s.log.push payload, pushed := s.pushed ++ [payload] }
  | .poll limit run_status =>
    let response := s.log.response s.cursor limit run_status
    { s with
      cursor := response.next_cursor
      polls := s.polls ++ [⟨s.log, s.cursor, limit, response⟩] }

/-- A run, step by step. -/
def run (capacity : ℕ) (steps : List (SessionStep P)) : Session P :=
  steps.foldl step (start capacity)

/-- What the client has received, in order. -/
def received (s : Session P) : List (LiveDelta P) := s.polls.flatMap fun p => p.response.deltas

/-- A response that reports missed deltas covers this one. -/
def Reported (s : Session P) (c : ℕ) : Prop :=
  ∃ p ∈ s.polls, p.response.missed = true ∧ p.cursor < c ∧ c ≤ p.response.dropped_before

/-- This delta was pushed and is no longer in the log. -/
def Dropped (s : Session P) (c : ℕ) : Prop :=
  1 ≤ c ∧ c ≤ s.pushed.length ∧ ∀ d ∈ s.log.entries, d.cursor ≠ c

/-- The state that every run keeps. -/
structure Follows (s : Session P) : Prop where
  retains : s.log.Retains s.pushed
  cursor_le : s.cursor ≤ s.pushed.length
  reads : Reads 0 (s.polls.map fun p => LiveDeltaLog.reading p.cursor p.response) s.cursor
  missed : ∀ p ∈ s.polls, p.response.missed = true ↔ p.cursor < p.response.dropped_before
  brings : ∀ p ∈ s.polls, ∀ c, (LiveDeltaLog.reading p.cursor p.response).Brings c ↔
    c ∈ p.response.deltas.map LiveDelta.cursor
  sorted : (s.received.map LiveDelta.cursor).Pairwise (· < ·)
  payload : ∀ d ∈ s.received, s.pushed[d.cursor - 1]? = some d.payload

/-- Before anything happens. -/
theorem follows_start (capacity : ℕ) : Follows (start (P := P) capacity) where
  retains := LiveDeltaLog.retains_new capacity
  cursor_le := Nat.le_refl _
  reads := .nil 0
  missed := by simp [start]
  brings := by simp [start]
  sorted := by simp [start, received]
  payload := by simp [start, received]

/-- What was received lies at or before the client's cursor. -/
theorem Follows.received_le {s : Session P} (h : s.Follows) :
    ∀ d ∈ s.received, d.cursor ≤ s.cursor := by
  intro d hd
  obtain ⟨p, hp, hdp⟩ := List.mem_flatMap.mp hd
  have hbrings := (h.brings p hp d.cursor).mpr (List.mem_map_of_mem hdp)
  exact hbrings.2.trans (h.reads.stop_le _ (List.mem_map_of_mem hp)).2

/-- A push changes the log and nothing that the client has. -/
theorem Follows.push {s : Session P} (h : s.Follows) (hlt : s.pushed.length + 1 < 2^64 - 1)
    (payload : P) : (s.step (.push payload)).Follows where
  retains := h.retains.push hlt payload
  cursor_le := by
    have := h.cursor_le
    simp only [step, List.length_append, List.length_singleton]
    omega
  reads := h.reads
  missed := h.missed
  brings := h.brings
  sorted := h.sorted
  payload d hd := by
    obtain ⟨hlt, -⟩ := List.getElem?_eq_some_iff.mp (h.payload d hd)
    exact (List.getElem?_append_left hlt).trans (h.payload d hd)

/-- A poll is one more reading of the log. -/
theorem Follows.poll {s : Session P} (h : s.Follows) (limit : ℕ) (run_status : ApiRunStatus) :
    (s.step (.poll limit run_status)).Follows := by
  obtain ⟨hcursors, hstart, hnext⟩ :=
    h.retains.response_cursors limit run_status h.cursor_le
  have hdeltas := h.retains.response_deltas s.cursor limit run_status
  have hmissed : (s.log.response s.cursor limit run_status).missed =
      decide (s.cursor < (s.log.response s.cursor limit run_status).dropped_before) := rfl
  have hgone : (s.log.response s.cursor limit run_status).dropped_before = s.log.dropped_before := rfl
  unfold step
  dsimp only
  generalize s.log.response s.cursor limit run_status = r at *
  have hreceived : received ⟨s.log, s.pushed, r.next_cursor, s.polls ++ [⟨s.log, s.cursor, limit, r⟩]⟩ =
      s.received ++ r.deltas := by simp [received]
  have hbrings : ∀ c, (LiveDeltaLog.reading s.cursor r).Brings c ↔
      c ∈ r.deltas.map LiveDelta.cursor := by
    intro c
    rw [hcursors, List.mem_range'_1]
    unfold Reading.Brings LiveDeltaLog.reading
    dsimp only
    rw [hgone]
    omega
  refine ⟨h.retains, hnext, ?_, ?_, ?_, ?_, ?_⟩
  · dsimp only
    rw [List.map_append]
    refine Reads.snoc h.reads rfl ?_
    rw [← hgone] at hstart
    exact hstart
  · intro p hp
    rcases List.mem_append.mp hp with hp | hp
    · exact h.missed p hp
    · obtain rfl := List.mem_singleton.mp hp
      simp [hmissed]
  · intro p hp
    rcases List.mem_append.mp hp with hp | hp
    · exact h.brings p hp
    · obtain rfl := List.mem_singleton.mp hp
      exact hbrings
  · -- the new ones come after the cursor, the old ones at or before it
    rw [hreceived, List.map_append, List.pairwise_append]
    refine ⟨h.sorted, ?_, ?_⟩
    · rw [hcursors]
      exact List.pairwise_lt_range'
    · intro a ha b hb
      obtain ⟨d, hd, rfl⟩ := List.mem_map.mp ha
      have hle := h.received_le d hd
      have hlt := ((hbrings b).mpr hb).1
      unfold LiveDeltaLog.reading at hlt
      dsimp only at hlt
      omega
  · intro d hd
    rw [hreceived] at hd
    rcases List.mem_append.mp hd with hd | hd
    · exact h.payload d hd
    · rw [hdeltas] at hd
      obtain ⟨e, he, rfl⟩ := List.mem_map.mp hd
      exact (Journal.mem_number (List.mem_of_mem_drop (List.mem_of_mem_take he))).2

/-- How many steps are pushes. -/
def pushes (steps : List (SessionStep P)) : ℕ :=
  steps.countP fun step =>
    match step with
    | .push _ => true
    | .poll _ _ => false

/-- As long as the cursors fit, every run keeps the state. -/
theorem Follows.foldl {s : Session P} (h : s.Follows) (steps : List (SessionStep P))
    (hlt : s.pushed.length + pushes steps < 2^64 - 1) : (steps.foldl step s).Follows := by
  induction steps generalizing s with
  | nil => exact h
  | cons x steps ih =>
    cases x with
    | push payload =>
      have hcount : pushes (.push payload :: steps) = pushes steps + 1 := by simp [pushes]
      refine ih (h.push (by omega) payload) ?_
      simp only [step, List.length_append, List.length_singleton]
      omega
    | poll limit run_status =>
      have hcount : pushes (.poll limit run_status :: steps) = pushes steps := by simp [pushes]
      rw [hcount] at hlt
      exact ih (h.poll limit run_status) hlt

variable {s : Session P}

/-- A delta that was pushed is gone from the log when the log says that it was dropped. -/
theorem Follows.dropped_iff (h : s.Follows) (c : ℕ) :
    s.Dropped c ↔ 1 ≤ c ∧ c ≤ s.log.dropped_before := by
  have hmem : (∀ d ∈ s.log.entries, d.cursor ≠ c) ↔ c ∉ s.log.entries.map LiveDelta.cursor := by
    simp
  have hlatest : s.log.latestCursor = s.pushed.length := by
    rw [LiveDeltaLog.latestCursor, h.retains.next_cursor, Nat.add_sub_cancel]
  have hgone := h.retains.dropped_before
  unfold Dropped
  rw [hmem, h.retains.cursors, List.mem_range'_1, hlatest]
  omega

/-- What was received is what the readings bring. -/
theorem Follows.mem_received (h : s.Follows) (c : ℕ) : c ∈ s.received.map LiveDelta.cursor ↔
    ∃ p ∈ s.polls, (LiveDeltaLog.reading p.cursor p.response).Brings c := by
  unfold received
  simp only [List.map_flatMap, List.mem_flatMap]
  exact exists_congr fun p => and_congr_right fun hp => (h.brings p hp c).symm

/-- What was reported are the deltas that the readings miss. -/
theorem Follows.reported_iff (h : s.Follows) (c : ℕ) : s.Reported c ↔
    ∃ p ∈ s.polls, (LiveDeltaLog.reading p.cursor p.response).Misses c := by
  refine exists_congr fun p => and_congr_right fun hp => ?_
  rw [h.missed p hp]
  unfold Reading.Misses LiveDeltaLog.reading
  dsimp only
  omega

/-- A response reports exactly that something new to report was dropped. -/
theorem Follows.missed_iff (h : s.Follows) (limit : ℕ) (run_status : ApiRunStatus) :
    (s.log.response s.cursor limit run_status).missed = true ↔
      ∃ c, s.Dropped c ∧ c ∉ s.received.map LiveDelta.cursor ∧ ¬ s.Reported c := by
  have hmissed : (s.log.response s.cursor limit run_status).missed =
      decide (s.cursor < s.log.dropped_before) := rfl
  rw [hmissed, decide_eq_true_eq, h.reads.gone_iff]
  refine exists_congr fun c => ?_
  rw [h.dropped_iff, h.mem_received, h.reported_iff]
  simp only [List.forall_mem_map, not_exists, not_and, and_assoc]
  exact and_congr_right fun _ => and_congr_right fun _ => forall₂_and

/-- In every run of fewer than `2^64 - 1` pushes: the client receives deltas in strictly increasing order
of their cursors, each with what was pushed; a response has `missed` set exactly when a delta was dropped
that the client neither has received nor was told about; each delta that the client's cursor has passed was
received or reported; and the log retains exactly the cursors from `dropped_before + 1` to the latest. -/
theorem run_delivers (capacity : ℕ) (steps : List (SessionStep P))
    (hlt : pushes steps < 2^64 - 1) :
    let s := run capacity steps
    (s.received.map LiveDelta.cursor).Pairwise (· < ·) ∧
      (∀ d ∈ s.received ++ s.log.entries, s.pushed[d.cursor - 1]? = some d.payload) ∧
      (∀ limit run_status, (s.log.response s.cursor limit run_status).missed = true ↔
        ∃ c, s.Dropped c ∧ c ∉ s.received.map LiveDelta.cursor ∧ ¬ s.Reported c) ∧
      (∀ c, 1 ≤ c → c ≤ s.cursor → c ∉ s.received.map LiveDelta.cursor → s.Reported c) ∧
      s.log.latestCursor = s.pushed.length ∧
      s.log.entries.map LiveDelta.cursor =
        List.range' (s.log.dropped_before + 1) (s.log.latestCursor - s.log.dropped_before) := by
  intro s
  have h : s.Follows := (follows_start capacity).foldl steps (by simpa [start] using hlt)
  refine ⟨h.sorted, ?_, h.missed_iff, ?_, ?_, h.retains.cursors⟩
  · intro d hd
    rcases List.mem_append.mp hd with hd | hd
    · exact h.payload d hd
    · exact (h.retains.payload hd).2
  · intro c hpos hle hnot
    rw [h.reported_iff]
    rw [h.mem_received] at hnot
    obtain ⟨r, hr, hc⟩ := h.reads.covers (by omega) hle
    obtain ⟨p, hp, rfl⟩ := List.mem_map.mp hr
    exact ⟨p, hp, hc.resolve_left fun hb => hnot ⟨p, hp, hb⟩⟩
  · rw [LiveDeltaLog.latestCursor, h.retains.next_cursor, Nat.add_sub_cancel]

/-- A log of one entry: two deltas, a poll that reports the first as missed, and one more delta. -/
theorem run_delivers_missed :
    let s := run 1 [.push 'a', .push 'b', .poll 10 .running, .push 'c']
    s.received = [⟨2, 'b'⟩] ∧ (s.polls.map fun p => p.response.missed) = [true] ∧
      (s.received.map LiveDelta.cursor).Pairwise (· < ·) :=
  ⟨by decide, by decide,
    (run_delivers 1 [.push 'a', .push 'b', .poll 10 .running, .push 'c'] (by decide)).1⟩

/-- The report is made once: the next response has `missed` unset although the first delta, dropped from
the log, was never received. -/
theorem run_reports_once :
    ¬ ∀ (capacity : ℕ) (steps : List (SessionStep Char)), 1 ≤ capacity →
      pushes steps < 2^64 - 1 → ∀ limit, 1 ≤ limit →
      let s := run capacity steps
      ((s.log.response s.cursor limit .running).missed = true ↔
        ∃ c, s.Dropped c ∧ c ∉ s.received.map LiveDelta.cursor) := by
  intro h
  have hmissed := (h 1 [.push 'a', .push 'b', .poll 10 .running] (by decide) (by decide) 10
    (by decide)).mpr ⟨1, ⟨by decide, by decide, by decide⟩, by decide⟩
  exact absurd hmissed (by decide)

end Session

end Rustmate.Api
