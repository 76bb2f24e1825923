import Rustmate.View.State

/-!
# The view and its marks

The marks and rules of a view hide and highlight its rows. They change nothing else: the events find the same
streams, the same order and the same matches with them and without them, and so a stream goes when it would
have gone anyway.
-/

namespace Rustmate.View

open Events (Event messageFromEvent)

namespace StreamViewState

/-- The view without its marks and rules. -/
def unmarked (self : StreamViewState) : StreamViewState :=
  { self with favorites := ∅, manually_hidden := ∅, hide_rules := [] }

/-- No stream is a favorite or hidden by hand, and there is no rule. -/
def Unmarked (self : StreamViewState) : Prop :=
  self.favorites = ∅ ∧ self.manually_hidden = ∅ ∧ self.hide_rules = []

instance (self : StreamViewState) : Decidable self.Unmarked := inferInstanceAs (Decidable (_ ∧ _))

/-! ## The operations of a user -/

/-- A favorite is a mark. -/
@[simp]
theorem unmarked_setFavorite (self : StreamViewState) (stream_id : BitVec 64) (favorite : Bool) :
    (self.setFavorite stream_id favorite).1.unmarked = self.unmarked := by
  unfold setFavorite
  split_ifs <;> rfl

/-- As is a stream hidden by hand. -/
@[simp]
theorem unmarked_setHidden (self : StreamViewState) (stream_id : BitVec 64) (hidden : Bool) :
    (self.setHidden stream_id hidden).1.unmarked = self.unmarked := by
  unfold setHidden
  split_ifs <;> rfl

/-- One more rule. -/
@[simp]
theorem unmarked_addHideRule (self : StreamViewState) (rule : StreamHideRule) :
    (self.addHideRule rule).unmarked = self.unmarked := by
  simp only [addHideRule]
  split_ifs <;> rfl

/-- The rules of a profile. -/
@[simp]
theorem unmarked_foldl_addHideRule (rules : List StreamHideRule) (self : StreamViewState) :
    (rules.foldl addHideRule self).unmarked = self.unmarked := by
  induction rules generalizing self with
  | nil => rfl
  | cons rule rules ih => rw [List.foldl_cons, ih, unmarked_addHideRule]

/-- No rule any more. -/
@[simp]
theorem unmarked_clearHideRules (self : StreamViewState) : self.clearHideRules.unmarked = self.unmarked := rfl

/-! ## The events -/

/-- A stream goes, with its marks. -/
theorem unmarked_removeStream (self : StreamViewState) (stream_id : BitVec 64) :
    self.unmarked.removeStream stream_id =
      ((self.removeStream stream_id).1.unmarked, (self.removeStream stream_id).2) := by
  unfold removeStream
  have hlookup : self.unmarked.streams.lookup stream_id = self.streams.lookup stream_id := rfl
  rw [hlookup]
  cases self.streams.lookup stream_id with
  | none => rfl
  | some entry => simp only [unmarked, Finset.erase_empty]

/-- The first stream of the order that is still there goes. -/
theorem unmarked_evictLoop (order : List (BitVec 64)) (self : StreamViewState) :
    self.unmarked.evictLoop order = (self.evictLoop order).unmarked := by
  induction order generalizing self with
  | nil => rfl
  | cons stream_id rest ih =>
    have hrest : ({ self.unmarked with stream_order := rest } : StreamViewState) =
        ({ self with stream_order := rest } : StreamViewState).unmarked := rfl
    unfold evictLoop
    rw [hrest, unmarked_removeStream]
    obtain ⟨next, removed⟩ := ({ self with stream_order := rest } : StreamViewState).removeStream stream_id
    cases removed with
    | true => rfl
    | false => exact ih next

/-- A stream comes, or comes again. -/
theorem unmarked_upsertStream (self : StreamViewState) (entry : StreamViewEntry) :
    self.unmarked.upsertStream entry = (self.upsertStream entry).unmarked := by
  have hevict : self.unmarked.evictOldest = self.evictOldest.unmarked := unmarked_evictLoop _ self
  have hlookup : self.unmarked.streams.lookup entry.stream_id = self.streams.lookup entry.stream_id := rfl
  unfold upsertStream
  rw [hlookup, hevict]
  cases self.streams.lookup entry.stream_id with
  | some existing => rfl
  | none =>
    have hfull : (self.unmarked.view_config.max_streams ≤ self.unmarked.streams.size) =
        (self.view_config.max_streams ≤ self.streams.size) := rfl
    simp only [hfull, ← apply_ite unmarked]
    generalize (if self.view_config.max_streams ≤ self.streams.size then self.evictOldest else self) = room
    have hroom : (room.unmarked.view_config.max_streams ≤ room.unmarked.streams.size) =
        (room.view_config.max_streams ≤ room.streams.size) := rfl
    simp only [hroom]
    split_ifs <;> rfl

/-- A match. -/
theorem unmarked_observeMatch (self : StreamViewState) (pattern_match : StreamPatternMatch) :
    self.unmarked.observeMatch pattern_match = (self.observeMatch pattern_match).unmarked := by
  have hlookup : self.unmarked.streams.lookup pattern_match.stream_id =
      self.streams.lookup pattern_match.stream_id := rfl
  unfold observeMatch
  simp only [hlookup]
  cases self.streams.lookup pattern_match.stream_id with
  | none => rfl
  | some entry =>
    have hconfig : self.unmarked.view_config = self.view_config := rfl
    dsimp only
    rw [hconfig]
    by_cases hnone : self.view_config.max_matches_per_stream = 0
    · rw [if_pos hnone, if_pos hnone]
      rfl
    · rw [if_neg hnone, if_neg hnone]
      by_cases hfull : self.view_config.max_matches_per_stream ≤ entry.matches_.length
      · rw [if_pos hfull, if_pos hfull]
        rfl
      · rw [if_neg hfull, if_neg hfull]
        rfl

/-- A message. -/
theorem unmarked_observeProtocolMessage (self : StreamViewState) (event : Event) :
    self.unmarked.observeProtocolMessage event = (self.observeProtocolMessage event).unmarked := by
  unfold observeProtocolMessage
  cases messageFromEvent event with
  | none => rfl
  | some message =>
    have hlookup : self.unmarked.streams.lookup message.stream_id = self.streams.lookup message.stream_id := rfl
    simp only [hlookup]
    split_ifs
    · rfl
    · cases self.streams.lookup message.stream_id <;> rfl

/-- The marks make no difference to an event. -/
theorem unmarked_observeEvent (self : StreamViewState) (event : Event) :
    self.unmarked.observeEvent event = (self.observeEvent event).unmarked := by
  have henabled : self.unmarked.view_config.enabled = self.view_config.enabled := rfl
  unfold observeEvent
  rw [henabled, unmarked_observeProtocolMessage]
  split_ifs
  · rfl
  · cases StreamViewEntry.fromStreamEvent event with
    | none => rfl
    | some entry => exact unmarked_upsertStream self entry
  · cases StreamPatternMatch.fromEvent event with
    | none => rfl
    | some pattern_match => exact unmarked_observeMatch self pattern_match
  · rfl
  · rfl

/-- Nor to all of them. -/
theorem unmarked_observeEvents (self : StreamViewState) (events : List Event) :
    self.unmarked.observeEvents events = (self.observeEvents events).unmarked := by
  have hfold : ∀ view : StreamViewState,
      events.foldl observeEvent view.unmarked = (events.foldl observeEvent view).unmarked := by
    induction events with
    | nil => exact fun _ => rfl
    | cons event events ih =>
      intro view
      rw [List.foldl_cons, List.foldl_cons, unmarked_observeEvent, ih]
  have henabled : self.unmarked.view_config.enabled = self.view_config.enabled := rfl
  unfold observeEvents
  rw [henabled, hfold]
  split_ifs <;> rfl

/-! ## The statistics -/

/-- The statistics tell a marked view from one without marks. -/
theorem currentStats_unmarked (self : StreamViewState) :
    self.unmarked.currentStats = self.currentStats ↔ self.Unmarked := by
  unfold currentStats unmarked Unmarked
  simp only [StreamViewStats.mk.injEq, true_and, Finset.card_empty, List.length_nil]
  rw [eq_comm (a := 0), Finset.card_eq_zero, eq_comm (a := 0), Finset.card_eq_zero, eq_comm (a := 0),
    List.length_eq_zero_iff]

end StreamViewState

end Rustmate.View
