import Rustmate.View.Indexes

/-!
# The matches that the view retains

A row has a match only because an event of it was observed, and it is the row of the stream that the match
names. Rows come without matches, and nothing but such an event adds one. -/

namespace Rustmate.View

open Events

/-- What `observe_event` takes for a match. -/
def IsPatternMatch (event : Event) : Prop :=
  event.analyzer = "pattern".toList ∧ event.event_type = "pattern_match".toList

instance (event : Event) : Decidable (IsPatternMatch event) := inferInstanceAs (Decidable (_ ∧ _))

/-- The match that the view reads from an event, if it takes the event for one. -/
def matchOf (event : Event) : Option StreamPatternMatch :=
  if IsPatternMatch event then StreamPatternMatch.fromEvent event else none

namespace StreamViewState

variable {s : StreamViewState} {id : BitVec 64} {m : StreamPatternMatch}

/-- The row of a stream has the match. -/
def Retains (s : StreamViewState) (id : BitVec 64) (m : StreamPatternMatch) : Prop :=
  ∃ entry, s.streams.lookup id = some entry ∧ m ∈ entry.matches_

/-- Removing a stream only takes rows away. -/
theorem shrinks_removeStream (s : StreamViewState) (stream_id : BitVec 64) :
    Table.Shrinks s.streams (s.removeStream stream_id).1.streams := by
  unfold removeStream
  cases s.streams.lookup stream_id with
  | none => exact .refl _
  | some entry => exact Table.shrinks_erase s.streams stream_id

/-- So does removing the oldest that is still there. -/
theorem shrinks_evictLoop (order : List (BitVec 64)) (s : StreamViewState) :
    Table.Shrinks s.streams (s.evictLoop order).streams := by
  induction order generalizing s with
  | nil => exact .refl _
  | cons stream_id rest ih =>
    have hone := shrinks_removeStream { s with stream_order := rest } stream_id
    unfold evictLoop
    generalize ({ s with stream_order := rest } : StreamViewState).removeStream stream_id = removed at hone ⊢
    obtain ⟨next, found⟩ := removed
    cases found with
    | true => exact hone
    | false => exact hone.trans (ih next)

/-- What is retained after rows were taken away was retained before. -/
theorem Retains.of_shrinks {t : StreamViewState} (hshrinks : Table.Shrinks s.streams t.streams) (h : t.Retains id m) :
    s.Retains id m := by
  obtain ⟨entry, hentry, hm⟩ := h
  exact ⟨entry, hshrinks.lookup_some hentry, hm⟩

/-- A row in place of another, with the matches of the other, has no match more. -/
theorem Retains.of_replace {old entry : StreamViewEntry} {stream_id : BitVec 64}
    (hold : s.streams.lookup stream_id = some old) (hsame : entry.matches_ = old.matches_)
    (h : Retains { s with streams := s.streams.insert stream_id entry } id m) : s.Retains id m := by
  obtain ⟨row, hrow, hm⟩ := h
  dsimp only at hrow
  by_cases hid : id = stream_id
  · subst hid
    rw [AList.lookup_insert] at hrow
    rw [← Option.some.inj hrow, hsame] at hm
    exact ⟨old, hold, hm⟩
  · rw [AList.lookup_insert_ne hid] at hrow
    exact ⟨row, hrow, hm⟩

/-- An inventory event adds no match. -/
theorem Retains.of_upsertStream {entry : StreamViewEntry} (hfresh : entry.matches_ = [])
    (h : (s.upsertStream entry).Retains id m) : s.Retains id m := by
  rcases s.upsertStream_cases entry with ⟨old, hold, heq⟩ | ⟨-, t, ht, heq⟩
  · rw [heq] at h
    refine Retains.of_replace hold ?_ h
    rfl
  · have hshrinks : Table.Shrinks s.streams t.streams := by
      rcases ht with ⟨rfl, -⟩ | ⟨rfl, -⟩
      · exact .refl _
      · exact shrinks_evictLoop _ s
    rcases heq with ⟨-, heq⟩ | ⟨-, heq⟩
    · rw [heq] at h
      exact h.of_shrinks hshrinks
    · -- the new row has none
      rw [heq] at h
      obtain ⟨row, hrow, hm⟩ := h
      change (t.streams.insert entry.stream_id entry).lookup id = some row at hrow
      by_cases hid : id = entry.stream_id
      · subst hid
        rw [AList.lookup_insert] at hrow
        rw [← Option.some.inj hrow, hfresh] at hm
        exact absurd hm List.not_mem_nil
      · rw [AList.lookup_insert_ne hid] at hrow
        exact Retains.of_shrinks hshrinks ⟨row, hrow, hm⟩

/-- A match that is kept is the new one or one of those before. -/
theorem mem_keepMatch {max_matches : ℕ} {matches_ : List StreamPatternMatch} {new : StreamPatternMatch}
    (h : m ∈ keepMatch max_matches matches_ new) : m ∈ matches_ ∨ m = new := by
  unfold keepMatch at h
  split_ifs at h
  · exact .inl h
  · exact (List.mem_append.mp h).imp List.mem_of_mem_drop List.mem_singleton.mp
  · exact (List.mem_append.mp h).imp id List.mem_singleton.mp

/-- A match adds itself, to its own stream. -/
theorem Retains.of_observeMatch {new : StreamPatternMatch} (h : (s.observeMatch new).Retains id m) :
    s.Retains id m ∨ (new = m ∧ m.stream_id = id) := by
  rcases s.observeMatch_cases new with ⟨-, stats, -, heq⟩ | ⟨entry, stats, hentry, -, heq⟩
  · rw [heq] at h
    exact .inl h
  · rw [heq] at h
    obtain ⟨row, hrow, hm⟩ := h
    dsimp only at hrow
    by_cases hid : id = new.stream_id
    · subst hid
      rw [AList.lookup_insert] at hrow
      rw [← Option.some.inj hrow] at hm
      rcases mem_keepMatch hm with hm | rfl
      · exact .inl ⟨entry, hentry, hm⟩
      · exact .inr ⟨rfl, rfl⟩
    · rw [AList.lookup_insert_ne hid] at hrow
      exact .inl ⟨row, hrow, hm⟩

/-- An event adds the match that it is of. -/
theorem Retains.of_observeEvent {event : Event} (h : (s.observeEvent event).Retains id m) :
    s.Retains id m ∨ (matchOf event = some m ∧ m.stream_id = id) := by
  unfold StreamViewState.observeEvent at h
  split_ifs at h with hoff hinventory hpattern hmessage
  · exact .inl h
  · cases hentry : StreamViewEntry.fromStreamEvent event with
    | none =>
      rw [hentry] at h
      exact .inl h
    | some entry =>
      rw [hentry] at h
      exact .inl (Retains.of_upsertStream (fromStreamEvent_fresh hentry).1 h)
  · have hmatch : matchOf event = StreamPatternMatch.fromEvent event := if_pos hpattern
    rw [hmatch]
    cases hnew : StreamPatternMatch.fromEvent event with
    | none =>
      rw [hnew] at h
      exact .inl h
    | some new =>
      rw [hnew] at h
      exact (Retains.of_observeMatch h).imp_right fun hsame => ⟨congrArg some hsame.1, hsame.2⟩
  · rcases s.observeProtocolMessage_cases event with heq | ⟨message, entry, -, -, hentry, heq⟩
    · rw [heq] at h
      exact .inl h
    · rw [heq] at h
      refine .inl (Retains.of_replace hentry ?_ h)
      rfl
  · exact .inl h

/-- The events of a batch add the matches that they are of. -/
theorem Retains.of_observeEvents {events : List Event} (h : (s.observeEvents events).Retains id m) :
    s.Retains id m ∨ ((∃ event ∈ events, matchOf event = some m) ∧ m.stream_id = id) := by
  have hfold : ∀ s : StreamViewState, (events.foldl observeEvent s).Retains id m →
      s.Retains id m ∨ ((∃ event ∈ events, matchOf event = some m) ∧ m.stream_id = id) := by
    clear h
    induction events with
    | nil => exact fun s h => .inl h
    | cons event events ih =>
      intro s h
      rcases ih _ h with hfirst | ⟨⟨later, hlater, hmatch⟩, hid⟩
      · exact hfirst.of_observeEvent.imp_right fun hnew => ⟨⟨event, List.mem_cons_self, hnew.1⟩, hnew.2⟩
      · exact .inr ⟨⟨later, List.mem_cons_of_mem event hlater, hmatch⟩, hid⟩
  unfold StreamViewState.observeEvents at h
  split_ifs at h
  · exact .inl h
  · exact hfold s h

/-- What a user does adds no match. -/
theorem Retains.of_call {x : ViewCall} (hx : ∀ event, x ≠ .event event) (h : (s.call x).Retains id m) :
    s.Retains id m := by
  cases x with
  | event event => exact absurd rfl (hx event)
  | setFavorite stream_id favorite =>
    unfold StreamViewState.call setFavorite at h
    dsimp only at h
    split_ifs at h <;> exact h
  | setHidden stream_id hidden =>
    unfold StreamViewState.call setHidden at h
    dsimp only at h
    split_ifs at h <;> exact h
  | addHideRule rule =>
    unfold StreamViewState.call addHideRule at h
    dsimp only at h
    split_ifs at h <;> exact h
  | clearHideRules => exact h

end StreamViewState

end Rustmate.View
