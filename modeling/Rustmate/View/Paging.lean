import Rustmate.Lib.Paging
import Rustmate.Inventory.Store
import Rustmate.View.Indexes

/-!
# Walking through the list of streams

A client asks for the first page of a query and goes on with the returned cursor until there is none. While
nothing changes it gets every matching stream once. The cursor is a position in the order of the streams, so
an eviction between two pages moves the next stream in front of it.
-/

namespace Rustmate.View

open Message (Text)
open Paging (takePage)

namespace StreamViewState

/-- The stream is tracked and matches the query. -/
def live (s : StreamViewState) (query : StreamViewQuery) (id : BitVec 64) : Bool :=
  (s.streams.lookup id).any fun entry => s.matchesQuery entry query (s.hiddenReason entry)

/-- The limit that a page has. -/
def pageLimit (s : StreamViewState) (query : StreamViewQuery) : ℕ :=
  min (max query.limit 1) (max s.view_config.max_query_limit 1)

/-- What the loop of a query finds is a page of the streams that match. -/
theorem queryLoop_eq (s : StreamViewState) (query : StreamViewQuery) (limit : ℕ)
    (rest : List (BitVec 64)) : ∀ (index : ℕ) (rows : List StreamViewRow) (scanned : ℕ),
    index + rest.length = s.stream_order.length → rows.length < limit →
    let page := takePage (s.live query) (limit - rows.length) rest
    let result := s.queryLoop query limit index rest rows scanned
    result.rows = rows ++ page.1.filterMap s.streamRow ∧
      result.next_cursor =
        if page.2 = [] then none else some (s.stream_order.length - page.2.length) := by
  induction rest with
  | nil => exact fun index rows scanned _ _ => by simp [queryLoop, takePage]
  | cons id rest ih =>
    intro index rows scanned hindex hrows
    rw [List.length_cons] at hindex
    have hstep := fun scanned => ih (index + 1) rows scanned (by omega) hrows
    dsimp only at hstep ⊢
    unfold queryLoop takePage
    rcases hlookup : s.streams.lookup id with - | entry
    · have hlive : s.live query id = false := by rw [live, hlookup, Option.any_none]
      rw [hlive]
      simpa using hstep scanned
    · have hlive : s.live query id = s.matchesQuery entry query (s.hiddenReason entry) := by
        rw [live, hlookup, Option.any_some]
      have hrow : s.streamRow id = some (s.row entry (s.hiddenReason entry)) := by
        rw [streamRow, hlookup, Option.map_some]
      rw [hlive]
      dsimp only
      rcases hmatch : s.matchesQuery entry query (s.hiddenReason entry) with - | -
      · simpa using hstep (saturatingAdd scanned 1)
      · simp only [Bool.not_true, Bool.false_eq_true, if_false, if_true, List.length_append,
          List.length_singleton]
        by_cases hfull : rows.length + 1 = limit
        · -- the page is full
          have hlast : limit - rows.length ≤ 1 := by omega
          simp only [if_pos hfull, if_pos hlast]
          rw [List.filterMap_cons_some hrow, List.filterMap_nil]
          refine ⟨rfl, ?_⟩
          rcases rest with - | ⟨id', rest⟩
          · rw [if_neg (by simp at hindex; omega), if_pos rfl]
          · rw [List.length_cons] at hindex
            rw [if_pos (by omega), if_neg (by simp), List.length_cons]
            congr 1
            omega
        · have hmore : ¬ limit - rows.length ≤ 1 := by omega
          simp only [if_neg hfull, if_neg hmore]
          have hnext := ih (index + 1) (rows ++ [s.row entry (s.hiddenReason entry)])
            (saturatingAdd scanned 1) (by omega) (by simp; omega)
          dsimp only at hnext ⊢
          rw [List.length_append, List.length_singleton, ← Nat.sub_sub] at hnext
          rw [List.filterMap_cons_some hrow]
          simpa using hnext

/-- A query returns a page of the matching streams from its cursor on, and the position after it when
there is more to look at. -/
theorem query_eq (s : StreamViewState) (query : StreamViewQuery)
    (henabled : s.view_config.enabled = true) :
    let page := takePage (s.live query) (s.pageLimit query) (s.stream_order.drop query.cursor)
    (s.query query).rows = page.1.filterMap s.streamRow ∧
      (s.query query).next_cursor =
        if page.2 = [] then none else some (s.stream_order.length - page.2.length) := by
  have hdrop : s.stream_order.drop (min query.cursor s.stream_order.length) =
      s.stream_order.drop query.cursor := by
    rcases Nat.le_total query.cursor s.stream_order.length with h | h
    · rw [Nat.min_eq_left h]
    · rw [Nat.min_eq_right h, List.drop_eq_nil_of_le h, List.drop_length]
  have hpage := s.queryLoop_eq query (s.pageLimit query)
    (s.stream_order.drop (min query.cursor s.stream_order.length))
    (min query.cursor s.stream_order.length) [] 0 (by rw [List.length_drop]; omega)
    (by rw [List.length_nil, pageLimit]; omega)
  rw [hdrop] at hpage
  unfold StreamViewState.query
  rw [henabled]
  simp only [List.length_nil, Nat.sub_zero, List.nil_append] at hpage
  simp only [Bool.not_true, Bool.false_eq_true, if_false, hdrop]
  exact hpage

/-- A live stream is tracked and has a row of its own. -/
theorem Agrees.streamRow_of_live {c : StreamViewConfig} {s : StreamViewState} (ha : Agrees c s)
    {query : StreamViewQuery} {id : BitVec 64} (h : s.live query id = true) :
    id ∈ s.stream_order ∧ ∃ row, s.streamRow id = some row ∧ row.entry.stream_id = id := by
  unfold live at h
  rcases hlookup : s.streams.lookup id with - | entry
  · rw [hlookup] at h
    exact absurd h (by simp)
  · refine ⟨(ha.mem_order id).mpr (Table.mem_of_lookup hlookup),
      s.row entry (s.hiddenReason entry), ?_, ha.own_id id entry hlookup⟩
    rw [streamRow, hlookup, Option.map_some]

/-- The rows of live streams are theirs, in order. -/
theorem Agrees.rows_of_live {c : StreamViewConfig} {s : StreamViewState} (ha : Agrees c s)
    (query : StreamViewQuery) (ids : List (BitVec 64)) :
    ((ids.filter (s.live query)).filterMap s.streamRow).map (fun row => row.entry.stream_id) =
      ids.filter (s.live query) := by
  induction ids with
  | nil => rfl
  | cons id ids ih =>
    rcases hlive : s.live query id with - | -
    · rw [List.filter_cons_of_neg (by simp [hlive]), ih]
    · obtain ⟨-, row, hrow, hid⟩ := ha.streamRow_of_live hlive
      rw [List.filter_cons_of_pos hlive, List.filterMap_cons_some hrow, List.map_cons, hid, ih]

/-! ## What calls do to the order -/

/-- The row that an event brings, if it is an inventory event. -/
def inventoryEntry (event : Events.Event) : Option StreamViewEntry :=
  if event.analyzer = "stream_inventory".toList ∧
      (event.event_type = "stream_open".toList ∨ event.event_type = "stream_update".toList) then
    StreamViewEntry.fromStreamEvent event
  else none

/-- The call brings a stream that is not tracked, and there is no room for it. -/
def Evicts (s : StreamViewState) (x : ViewCall) : Prop :=
  ∃ event entry, x = .event event ∧ inventoryEntry event = some entry ∧
    s.streams.lookup entry.stream_id = none ∧ s.view_config.max_streams ≤ s.streams.size

/-- A call leaves the order as it is, takes the first stream away when it evicts, and may put a stream at the
end. -/
theorem Agrees.call_order {c : StreamViewConfig} {s : StreamViewState} (ha : Agrees c s)
    (x : ViewCall) : ∃ new, (s.call x).stream_order = s.stream_order ++ new ∨
      s.Evicts x ∧ (s.call x).stream_order = s.stream_order.tail ++ new := by
  cases x with
  | event event =>
    unfold StreamViewState.call StreamViewState.observeEvent
    dsimp only
    split_ifs with _ hinventory
    · exact ⟨[], .inl (List.append_nil _).symm⟩
    · rcases hentry : StreamViewEntry.fromStreamEvent event with - | entry
      · exact ⟨[], .inl (List.append_nil _).symm⟩
      have hevent : inventoryEntry event = some entry := by rw [inventoryEntry, if_pos hinventory, hentry]
      rw [Option.elim_some]
      rcases s.upsertStream_cases entry with ⟨old, -, heq⟩ | ⟨hnone, t, ht, heq⟩
      · rw [heq]
        exact ⟨[], .inl (List.append_nil _).symm⟩
      have htail : t.stream_order = s.stream_order ∨
          s.Evicts (.event event) ∧ t.stream_order = s.stream_order.tail := by
        rcases ht with ⟨rfl, -⟩ | ⟨rfl, hfull⟩
        · exact .inl rfl
        · refine .inr ⟨⟨event, entry, rfl, hevent, hnone, hfull⟩, ?_⟩
          rcases ha.evictOldest_cases with ⟨hnil, heq⟩ | ⟨id, rest, e, -, -, heq⟩
          · rw [heq, hnil, List.tail_nil]
          · rw [heq]
            rfl
      rcases heq with ⟨-, heq⟩ | ⟨-, heq⟩
      · refine ⟨[], ?_⟩
        rwa [heq, List.append_nil, List.append_nil]
      · refine ⟨[entry.stream_id], ?_⟩
        rw [heq]
        exact htail.imp (congrArg (· ++ [entry.stream_id]))
          (And.imp_right (congrArg (· ++ [entry.stream_id])))
    · rcases StreamPatternMatch.fromEvent event with - | m
      · exact ⟨[], .inl (List.append_nil _).symm⟩
      · rw [Option.elim_some]
        rcases s.observeMatch_cases m with ⟨-, stats, -, heq⟩ | ⟨entry, stats, -, -, heq⟩
        · rw [heq]
          exact ⟨[], .inl (List.append_nil _).symm⟩
        · rw [heq]
          exact ⟨[], .inl (List.append_nil _).symm⟩
    · rcases s.observeProtocolMessage_cases event with heq | ⟨message, entry, -, -, -, heq⟩
      · rw [heq]
        exact ⟨[], .inl (List.append_nil _).symm⟩
      · rw [heq]
        exact ⟨[], .inl (List.append_nil _).symm⟩
    · exact ⟨[], .inl (List.append_nil _).symm⟩
  | setFavorite id favorite =>
    unfold StreamViewState.call StreamViewState.setFavorite
    dsimp only
    split_ifs <;> exact ⟨[], .inl (List.append_nil _).symm⟩
  | setHidden id hidden =>
    unfold StreamViewState.call StreamViewState.setHidden
    dsimp only
    split_ifs <;> exact ⟨[], .inl (List.append_nil _).symm⟩
  | addHideRule rule =>
    unfold StreamViewState.call StreamViewState.addHideRule
    dsimp only
    split_ifs <;> exact ⟨[], .inl (List.append_nil _).symm⟩
  | clearHideRules => exact ⟨[], .inl (List.append_nil _).symm⟩

/-- A disabled view tracks nothing. -/
theorem callAll_disabled {c : StreamViewConfig} (hdisabled : c.enabled = false)
    (calls : List ViewCall) : ((new c).callAll calls).stream_order = [] := by
  have hstep : ∀ (s : StreamViewState) (x : ViewCall), s.view_config.enabled = false →
      s.stream_order = [] → (s.call x).view_config.enabled = false ∧ (s.call x).stream_order = [] := by
    intro s x hs horder
    cases x with
    | event event =>
      unfold StreamViewState.call StreamViewState.observeEvent
      dsimp only
      rw [hs]
      exact ⟨hs, horder⟩
    | setFavorite id favorite =>
      unfold StreamViewState.call StreamViewState.setFavorite
      dsimp only
      split_ifs <;> exact ⟨hs, horder⟩
    | setHidden id hidden =>
      unfold StreamViewState.call StreamViewState.setHidden
      dsimp only
      split_ifs <;> exact ⟨hs, horder⟩
    | addHideRule rule =>
      unfold StreamViewState.call StreamViewState.addHideRule
      dsimp only
      split_ifs <;> exact ⟨hs, horder⟩
    | clearHideRules => exact ⟨hs, horder⟩
  have hrun : ∀ s : StreamViewState, s.view_config.enabled = false → s.stream_order = [] →
      (s.callAll calls).stream_order = [] := by
    induction calls with
    | nil => exact fun s _ horder => horder
    | cons x calls ih =>
      exact fun s hs horder => ih (s.call x) (hstep s x hs horder).1 (hstep s x hs horder).2
  exact hrun _ hdisabled rfl

end StreamViewState

/-! ## A walk -/

/-- A view with a client that walks through the pages of a query: where it goes on, unless it is done, and
what it has got. -/
structure Walk where
  view : StreamViewState
  cursor : Option ℕ
  rows : List StreamViewRow

inductive WalkStep where
  | call (x : ViewCall)
  | page

namespace Walk

/-- Before the first page. -/
def start (view : StreamViewState) : Walk := ⟨view, some 0, []⟩

/-- One step: something changes, or the client asks for its next page. -/
def step (query : StreamViewQuery) (w : Walk) : WalkStep → Walk
  | .call x => { w with view := w.view.call x }
  | .page =>
    match w.cursor with
    | none => w
    | some cursor =>
      let result := w.view.query { query with cursor }
      { w with cursor := result.next_cursor, rows := w.rows ++ result.rows }

/-- A walk, step by step. -/
def run (query : StreamViewQuery) (w : Walk) (steps : List WalkStep) : Walk :=
  steps.foldl (step query) w

/-- A page changes nothing in the view. -/
theorem step_page_view (query : StreamViewQuery) (w : Walk) : (step query w .page).view = w.view := by
  unfold step
  dsimp only
  split
  · rfl
  · rfl

/-- The call keeps the client's place: if it evicts a stream while the walk is on, then the stream that is
next in line does not match. -/
def KeepsPlace (query : StreamViewQuery) (w : Walk) (x : ViewCall) : Prop :=
  w.view.Evicts x → ∀ cursor, w.cursor = some cursor → 0 < cursor →
    ∀ id, w.view.stream_order[cursor]? = some id → w.view.live query id = false

variable {c : StreamViewConfig} {query : StreamViewQuery} {id : BitVec 64}

/-- The client has got the row of the stream. -/
def Got (w : Walk) (id : BitVec 64) : Prop := ∃ row ∈ w.rows, row.entry.stream_id = id

/-- The client will come to the stream. -/
def Ahead (w : Walk) (id : BitVec 64) : Prop :=
  ∃ cursor, w.cursor = some cursor ∧ id ∈ w.view.stream_order.drop cursor

/-- A call that keeps the client's place leaves a live stream ahead of it. -/
theorem Ahead.call {w : Walk} (h : w.Ahead id) (ha : w.view.Agrees c) {x : ViewCall}
    (hkeeps : KeepsPlace query w x) (hlive : w.view.live query id = true)
    (hlive' : (w.view.call x).live query id = true) : (w.step query (.call x)).Ahead id := by
  obtain ⟨cursor, hcursor, hmem⟩ := h
  refine ⟨cursor, hcursor, ?_⟩
  have htracked : id ∈ (w.view.call x).stream_order := ((ha.call x).streamRow_of_live hlive').1
  obtain ⟨new, heq | ⟨hevicts, heq⟩⟩ := ha.call_order x
  · show id ∈ (w.view.call x).stream_order.drop cursor
    rw [heq, List.drop_append]
    exact List.mem_append_left _ hmem
  · show id ∈ (w.view.call x).stream_order.drop cursor
    rcases Nat.eq_zero_or_pos cursor with rfl | hpos
    · exact htracked
    · -- the stream at the cursor is passed over, and this one is another
      rw [heq, List.drop_append]
      refine List.mem_append_left _ ?_
      obtain ⟨i, hi⟩ := List.mem_iff_getElem?.mp hmem
      rw [List.getElem?_drop] at hi
      rcases Nat.eq_zero_or_pos i with rfl | hi'
      · rw [hkeeps hevicts cursor hcursor hpos id hi] at hlive
        exact absurd hlive (by simp)
      · refine List.mem_iff_getElem?.mpr ⟨i - 1, ?_⟩
        rw [List.getElem?_drop, List.getElem?_tail, ← hi]
        congr 1
        omega

/-- After a page, a live stream that was ahead has been got or is still ahead. -/
theorem Ahead.page {w : Walk} (h : w.Ahead id) (ha : w.view.Agrees c) (henabled : c.enabled = true)
    (hlive : w.view.live query id = true) :
    (w.step query .page).Got id ∨ (w.step query .page).Ahead id := by
  obtain ⟨cursor, hcursor, hmem⟩ := h
  obtain ⟨hrows, hnext⟩ := w.view.query_eq { query with cursor }
    (by rw [ha.config, henabled])
  have hlives : w.view.live { query with cursor } = w.view.live query := rfl
  dsimp only at hrows hnext
  rw [hlives] at hrows hnext
  generalize w.view.pageLimit { query with cursor } = limit at hrows hnext
  have hfilter := Paging.takePage_filter (w.view.live query) limit (w.view.stream_order.drop cursor)
  have hsuffix := (Paging.takePage_suffix (w.view.live query) limit
    (w.view.stream_order.drop cursor)).trans (List.drop_suffix _ _)
  have hid : id ∈ (w.view.stream_order.drop cursor).filter (w.view.live query) :=
    List.mem_filter.mpr ⟨hmem, hlive⟩
  rw [← hfilter] at hid
  unfold step
  rw [hcursor]
  dsimp only
  rcases List.mem_append.mp hid with hid | hid
  · obtain ⟨-, row, hrow, hrowid⟩ := ha.streamRow_of_live hlive
    refine .inl ⟨row, List.mem_append_right _ ?_, hrowid⟩
    rw [hrows]
    exact List.mem_filterMap.mpr ⟨id, hid, hrow⟩
  · refine .inr ⟨_, hnext.trans (if_neg ?_), ?_⟩
    · exact List.ne_nil_of_mem (List.mem_of_mem_filter hid)
    · dsimp only
      rw [Paging.drop_of_suffix hsuffix]
      exact List.mem_of_mem_filter hid

/-- A stream that is live throughout has been got or is ahead. -/
theorem run_got_or_ahead (henabled : c.enabled = true) (steps : List WalkStep) : ∀ w : Walk,
    w.view.Agrees c → w.Got id ∨ w.Ahead id →
    (∀ before x after, steps = before ++ .call x :: after → KeepsPlace query (w.run query before) x) →
    (∀ before, before <+: steps → (w.run query before).view.live query id = true) →
    (w.run query steps).Got id ∨ (w.run query steps).Ahead id := by
  induction steps with
  | nil => exact fun w _ h _ _ => h
  | cons x steps ih =>
    intro w ha h hkeeps hlive
    have hnow : w.view.live query id = true := hlive [] List.nil_prefix
    have hrest : (∀ before y after, steps = before ++ .call y :: after →
        KeepsPlace query ((w.step query x).run query before) y) ∧
        (∀ before, before <+: steps → ((w.step query x).run query before).view.live query id = true) :=
      ⟨fun before y after heq => hkeeps (x :: before) y after (by rw [heq]; rfl),
        fun before hbefore => hlive (x :: before) (List.cons_prefix_cons.mpr ⟨rfl, hbefore⟩)⟩
    cases x with
    | call x =>
      have hnext : (w.view.call x).live query id = true := hlive [.call x] (by simp)
      refine ih (w.step query (.call x)) (ha.call x) ?_ hrest.1 hrest.2
      exact h.imp_right fun h => h.call ha (hkeeps [] x steps rfl) hnow hnext
    | page =>
      have hview : (w.step query .page).view = w.view := by
        unfold step
        rcases w.cursor with - | cursor <;> rfl
      refine ih (w.step query .page) (by rwa [hview]) ?_ hrest.1 hrest.2
      rcases h with ⟨row, hrow, hid⟩ | h
      · refine .inl ⟨row, ?_, hid⟩
        unfold step
        rcases w.cursor with - | cursor
        · exact hrow
        · exact List.mem_append_left _ hrow
      · exact h.page ha henabled hnow

/-- Pages of a view that does not change, from a cursor on: the client gets all live streams from there, and
is done after as many pages as there are streams left, and one more. -/
theorem run_pages {s : StreamViewState} (ha : s.Agrees c) (henabled : c.enabled = true) (n : ℕ) :
    ∀ (cursor : ℕ) (rows : List StreamViewRow), (s.stream_order.drop cursor).length < n →
    Walk.run query ⟨s, some cursor, rows⟩ (List.replicate n .page) =
      ⟨s, none, rows ++
        ((s.stream_order.drop cursor).filter (s.live query)).filterMap s.streamRow⟩ := by
  have hdone : ∀ (n : ℕ) (rows : List StreamViewRow),
      Walk.run query ⟨s, none, rows⟩ (List.replicate n .page) = ⟨s, none, rows⟩ := by
    intro n rows
    induction n with
    | zero => rfl
    | succ n ih => exact ih
  induction n with
  | zero => exact fun cursor rows h => absurd h (Nat.not_lt_zero _)
  | succ n ih =>
    intro cursor rows hlength
    obtain ⟨hrows, hnext⟩ := s.query_eq { query with cursor } (by rw [ha.config, henabled])
    have hlives : s.live { query with cursor } = s.live query := rfl
    dsimp only at hrows hnext
    rw [hlives] at hrows hnext
    generalize s.pageLimit { query with cursor } = limit at hrows hnext
    have hfilter := Paging.takePage_filter (s.live query) limit (s.stream_order.drop cursor)
    have hsuffix := Paging.takePage_suffix (s.live query) limit (s.stream_order.drop cursor)
    have hshorter := Paging.takePage_length (s.live query) limit (s.stream_order.drop cursor)
    generalize takePage (s.live query) limit (s.stream_order.drop cursor) = page at *
    have hrun : Walk.run query ⟨s, some cursor, rows⟩ (List.replicate (n + 1) .page) =
        Walk.run query ⟨s, (s.query { query with cursor }).next_cursor,
          rows ++ page.1.filterMap s.streamRow⟩ (List.replicate n .page) := by
      rw [← hrows]
      rfl
    rw [hrun, hnext, ← hfilter, List.filterMap_append, ← List.append_assoc]
    split_ifs with hlast
    · rw [hdone, hlast, List.filter_nil, List.filterMap_nil, List.append_nil]
    · have hne : s.stream_order.drop cursor ≠ [] := by
        intro hnil
        rw [hnil] at hsuffix
        exact hlast (List.suffix_nil.mp hsuffix)
      have hdrop := Paging.drop_of_suffix (hsuffix.trans (List.drop_suffix _ _))
      have := hshorter hne
      rw [ih _ _ (by rw [hdrop]; omega), hdrop]

/-- In every reachable view, under any configuration: in a walk through a query in which every call keeps the
client's place, each stream that is live throughout has been got when there is no next cursor; and as long
as nothing changes, the client gets the live streams in the order of the streams, each one once, and is done
after at most one page for each stream and one more. -/
theorem run_returns (config : StreamViewConfig) (calls : List ViewCall) (query : StreamViewQuery) :
    let view := (StreamViewState.new config).callAll calls
    (∀ steps : List WalkStep,
      (∀ before x after, steps = before ++ .call x :: after →
        KeepsPlace query (run query (start view) before) x) →
      (run query (start view) steps).cursor = none →
      ∀ id, (∀ before, before <+: steps →
        (run query (start view) before).view.live query id = true) →
      (run query (start view) steps).Got id) ∧
    (let w := run query (start view) (List.replicate (view.stream_order.length + 1) .page)
     w.cursor = none ∧
      w.rows.map (fun row => row.entry.stream_id) = view.stream_order.filter (view.live query) ∧
      (w.rows.map fun row => row.entry.stream_id).Nodup) := by
  intro view
  have ha : view.Agrees config := StreamViewState.callAll_agrees config calls
  refine ⟨fun steps hkeeps hdone id hlive => ?_, ?_⟩
  · have hfirst := (ha.streamRow_of_live (hlive [] List.nil_prefix)).1
    rcases henabled : config.enabled with - | -
    · rw [StreamViewState.callAll_disabled henabled] at hfirst
      exact absurd hfirst List.not_mem_nil
    · refine (run_got_or_ahead henabled steps (start view) ha (.inr ⟨0, rfl, hfirst⟩) hkeeps
        hlive).resolve_right ?_
      rintro ⟨cursor, hcursor, -⟩
      rw [hdone] at hcursor
      exact absurd hcursor (by simp)
  · have hrows : (∀ rows, rows = (view.stream_order.filter (view.live query)).filterMap
        view.streamRow → rows.map (fun row => row.entry.stream_id) =
          view.stream_order.filter (view.live query) ∧
        (rows.map fun row => row.entry.stream_id).Nodup) := by
      rintro rows rfl
      rw [ha.rows_of_live]
      exact ⟨rfl, ha.order_nodup.filter _⟩
    rcases henabled : config.enabled with - | -
    · have hnil : view.stream_order = [] := StreamViewState.callAll_disabled henabled calls
      have hquery : ∀ cursor, view.query { query with cursor } = ⟨[], none, 0⟩ := by
        intro cursor
        rw [StreamViewState.query, ha.config, henabled]
        rfl
      have hrun : run query (start view) (List.replicate (List.length ([] : List (BitVec 64)) + 1) .page) =
          ⟨view, none, []⟩ := by
        show step query (start view) .page = _
        unfold step start
        dsimp only
        rw [hquery]
        rfl
      dsimp only
      rw [hnil, hrun]
      exact ⟨rfl, rfl, List.nodup_nil⟩
    · have hrun : run query (start view) (List.replicate (view.stream_order.length + 1) .page) = _ :=
        run_pages ha henabled (view.stream_order.length + 1) 0 [] (by rw [List.drop_zero]; omega)
      rw [List.drop_zero, List.nil_append] at hrun
      dsimp only
      rw [hrun]
      exact ⟨rfl, hrows _ rfl⟩

/-- A view with room for two streams and pages of one row. -/
def smallView : StreamViewConfig := ⟨true, 2, 8, 1⟩

/-- The inventory events of the first packet of a flow, as calls on the view. -/
def opening (port : BitVec 16) : List ViewCall := (Inventory.sampleOpen port).map .event

/-- Three streams in a view that is full with them, of which the second one is hidden. -/
def threeStreams : List ViewCall :=
  opening 1000 ++ opening 1001 ++ opening 1002 ++ [.setHidden (Inventory.sampleKey 1001).stableId true]

/-- A fourth stream opens behind the first page. -/
def keepingWalk : List WalkStep := .page :: (opening 1003).map .call ++ [.page, .page]

/-- The first stream, got with the first page, is evicted for a fourth one. The stream that is next in line is the
hidden one, and the third stream is got. -/
theorem run_returns_two :
    let view := (StreamViewState.new { smallView with max_streams := 3 }).callAll threeStreams
    let w := run {} (start view) keepingWalk
    w.cursor = none ∧ (Inventory.sampleKey 1000).stableId ∉ w.view.stream_order ∧
      w.Got (Inventory.sampleKey 1002).stableId := by
  intro view
  have hfacts : (opening 1003).length = 1 ∧ (run {} (start view) keepingWalk).cursor = none ∧
      (Inventory.sampleKey 1000).stableId ∉ (run {} (start view) keepingWalk).view.stream_order ∧
      (∀ n < 5, (run {} (start view) (keepingWalk.take n)).view.live {}
        (Inventory.sampleKey 1002).stableId = true) ∧
      (run {} (start view) [.page]).cursor = some 1 ∧
      (run {} (start view) [.page]).view.stream_order[1]? = some (Inventory.sampleKey 1001).stableId ∧
      (run {} (start view) [.page]).view.live {} (Inventory.sampleKey 1001).stableId = false := by
    decide +kernel
  obtain ⟨hlength, hdone, hevicted, hlive, hcursor, hnext, hhidden⟩ := hfacts
  obtain ⟨opened, hopened⟩ := List.length_eq_one_iff.mp hlength
  have hsteps : keepingWalk = [.page, .call opened, .page, .page] := by
    unfold keepingWalk
    rw [hopened]
    rfl
  refine ⟨hdone, hevicted, (run_returns { smallView with max_streams := 3 } threeStreams {}).1 keepingWalk ?_ hdone _
    fun before hbefore => ?_⟩
  · intro before x after heq
    -- There is one call, behind the first page.
    have hbefore : before = [.page] := by
      rw [hsteps] at heq
      rcases before with - | ⟨a, - | ⟨b, - | ⟨c, - | ⟨d, rest⟩⟩⟩⟩ <;> simp_all
    rw [hbefore]
    intro _ cursor hplace _ id hid
    obtain rfl := Option.some.inj (hcursor.symm.trans hplace)
    obtain rfl := Option.some.inj (hnext.symm.trans hid)
    exact hhidden
  · rw [List.prefix_iff_eq_take.mp hbefore]
    have hlt : before.length < 5 := by
      have hle := hbefore.length_le
      rw [hsteps] at hle
      exact Nat.lt_succ_of_le hle
    exact hlive before.length hlt

/-- Between two pages a third stream opens. -/
def evictingWalk : List WalkStep := .page :: (opening 1002).map .call ++ [.page]

/-- Between the two pages a third stream arrives and the first one is evicted: the second stream, tracked all
the while, is not returned. -/
theorem run_misses : ¬ ∀ (config : StreamViewConfig) (calls : List ViewCall)
    (query : StreamViewQuery) (steps : List WalkStep),
    let view := (StreamViewState.new config).callAll calls
    (run query (start view) steps).cursor = none →
      ∀ id, (∀ before, before <+: steps →
        (run query (start view) before).view.live query id = true) →
      (run query (start view) steps).Got id := by
  intro h
  have hfacts : ∃ view, view = (StreamViewState.new smallView).callAll
      (opening 1000 ++ opening 1001) ∧ evictingWalk.length = 3 ∧
      (∀ n < 4, (run {} (start view) (evictingWalk.take n)).view.live {}
        (Inventory.sampleKey 1001).stableId = true) ∧
      (run {} (start view) evictingWalk).cursor = none ∧
      ∀ row ∈ (run {} (start view) evictingWalk).rows,
        row.entry.stream_id ≠ (Inventory.sampleKey 1001).stableId :=
    ⟨_, rfl, by decide +kernel⟩
  obtain ⟨_, rfl, hlength, hlive, hdone, hmissing⟩ := hfacts
  obtain ⟨row, hrow, hid⟩ := h smallView (opening 1000 ++ opening 1001) {} evictingWalk hdone
    (Inventory.sampleKey 1001).stableId fun before hbefore => by
      rw [List.prefix_iff_eq_take.mp hbefore]
      exact hlive before.length (by have := hbefore.length_le; omega)
  exact hmissing row hrow hid

end Walk

end Rustmate.View
