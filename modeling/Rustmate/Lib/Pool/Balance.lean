import Mathlib.Algebra.BigOperators.Group.Finset.Piecewise
import Mathlib.Algebra.BigOperators.Group.Finset.Sigma
import Mathlib.Algebra.GroupWithZero.Nat
import Rustmate.Lib.Pool.Keeps

/-!
# What goes in comes out

When a pool came to its end, the servers have taken from their channels as much as the dispatcher and the servers
put into them, whatever is counted of an item.
-/

namespace Rustmate.Pool

variable {ι : Type} {D : Design ι} [DecidableEq ι] [Fintype ι]

/-- The items that a server took are those of the dispatcher and those of the servers. -/
theorem sum_itemsOf {p : ι} (f : D.Parcel → ℕ) (commands : List (Command D p)) :
    ((itemsOf commands).map fun item => f ⟨p, item⟩).sum =
      ((parcelsFrom none commands).map f).sum + ∑ q, ((parcelsFrom (some q) commands).map f).sum := by
  induction commands with
  | nil => simp [itemsOf, parcelsFrom]
  | cons command commands ih =>
    cases command with
    | item source content =>
      cases source with
      | none =>
        have hitems : itemsOf (.item none content :: commands) = content :: itemsOf commands := rfl
        have hnone : parcelsFrom none (.item none content :: commands) = ⟨p, content⟩ :: parcelsFrom none commands :=
          rfl
        have hsome : ∀ q, parcelsFrom (some q) (.item none content :: commands) = parcelsFrom (some q) commands :=
          fun _ => rfl
        simp only [hitems, hnone, hsome, List.map_cons, List.sum_cons, ih]
        omega
      | some sender =>
        have hitems : itemsOf (.item (some sender) content :: commands) = content :: itemsOf commands := rfl
        have hnone : parcelsFrom none (.item (some sender) content :: commands) = parcelsFrom none commands := rfl
        have hsome : ∀ q, ((parcelsFrom (some q) (.item (some sender) content :: commands)).map f).sum =
            (if q = sender then f ⟨p, content⟩ else 0) + ((parcelsFrom (some q) commands).map f).sum := by
          intro q
          unfold parcelsFrom
          rw [List.filterMap_cons]
          by_cases hq : q = sender
          · subst hq
            simp [Command.parcelFrom]
          · simp [Command.parcelFrom, hq, Ne.symm hq]
        simp only [hitems, hnone, hsome, List.map_cons, List.sum_cons, ih, Finset.sum_add_distrib, Finset.sum_ite_eq',
          Finset.mem_univ, if_true]
        omega
    | query query => exact ih
    | shutdown => exact ih

omit [Fintype ι] in
/-- A server that gets items from the dispatcher alone has got all items that the dispatcher put for it, and no
others. -/
theorem System.Accounted.map_itemsOf {s : System D} (ha : s.Accounted) {p : ι}
    (hfirst : ∀ q, ∀ parcel ∈ (s.server q).sent, parcel.1 ≠ p) :
    parcelsTo p s.dispatcher.routed = (itemsOf (s.server p).entered).map (Sigma.mk p) := by
  unfold itemsOf
  rw [← ha.dispatched p, List.map_filterMap]
  refine List.filterMap_congr fun command hmem => ?_
  cases command with
  | item source content =>
    cases source with
    | none => rfl
    | some q =>
      -- an item of another server would be among those that this server handed on
      have hnil : parcelsFrom (some q) (s.server p).entered = [] := by
        rw [ha.handed q p]
        exact List.filter_eq_nil_iff.mpr fun parcel hparcel => by simpa using hfirst q parcel hparcel
      have hsome := List.filterMap_eq_nil_iff.mp hnil _ hmem
      simp [Command.parcelFrom] at hsome
  | query query => rfl
  | shutdown => rfl

/-- The items that were put are for somebody. -/
theorem sum_parcelsTo (f : D.Parcel → ℕ) (parcels : List D.Parcel) :
    ∑ q, ((parcelsTo q parcels).map f).sum = (parcels.map f).sum := by
  induction parcels with
  | nil => simp [parcelsTo]
  | cons parcel parcels ih =>
    have hcons : ∀ q, ((parcelsTo q (parcel :: parcels)).map f).sum =
        (if q = parcel.1 then f parcel else 0) + ((parcelsTo q parcels).map f).sum := by
      intro q
      unfold parcelsTo
      rw [List.filter_cons]
      by_cases hq : parcel.1 = q
      · subst hq
        simp
      · simp [hq, Ne.symm hq]
    simp only [hcons, Finset.sum_add_distrib, Finset.sum_ite_eq', Finset.mem_univ, if_true, ih, List.map_cons,
      List.sum_cons]

/-- The events in messages. -/
def eventsIn (wire : List D.Told) : List D.Event :=
  wire.flatMap fun
    | .events _ batch => batch
    | _ => []

/-- Every event is from some server. -/
theorem sum_length_eventsOf (wire : List D.Told) : ∑ p, (eventsOf p wire).length = (eventsIn wire).length := by
  induction wire with
  | nil => simp [eventsOf, eventsIn]
  | cons message wire ih =>
    have hcons : ∀ p, eventsOf p (message :: wire) = eventsOf p [message] ++ eventsOf p wire := fun p =>
      eventsOf_append p [message] wire
    have hone : ∑ p, (eventsOf p [message]).length = (eventsIn [message]).length := by
      cases message with
      | events q batch =>
        have hbatch : ∀ p, (eventsOf p [(.events q batch : D.Told)]).length = if q = p then batch.length else 0 := by
          intro p
          by_cases hp : q = p <;> simp [eventsOf, hp]
        simp [hbatch, eventsIn]
      | report q report => simp [eventsOf, eventsIn]
      | final q final => simp [eventsOf, eventsIn]
    have happend : eventsIn (message :: wire) = eventsIn [message] ++ eventsIn wire :=
      @List.flatMap_append _ _ [message] wire _
    simp only [hcons, List.length_append, Finset.sum_add_distrib, ih, hone, happend]

/-- All that was put into channels was taken from them. -/
theorem System.Complete.balance {s : System D} (h : s.Complete) (f : D.Parcel → ℕ) :
    ∑ p, ((itemsOf (s.server p).commands).map fun item => f ⟨p, item⟩).sum =
      (s.dispatcher.routed.map f).sum + ∑ p, ((s.server p).sent.map f).sum := by
  have htaken : ∀ p, ((itemsOf (s.server p).commands).map fun item => f ⟨p, item⟩).sum =
      ((parcelsTo p s.dispatcher.routed).map f).sum + ∑ q, ((parcelsTo p (s.server q).sent).map f).sum := by
    intro p
    rw [sum_itemsOf, h.dispatched p]
    simp only [h.handed]
  simp only [htaken, Finset.sum_add_distrib, sum_parcelsTo]
  rw [Finset.sum_comm]
  simp only [sum_parcelsTo]

end Rustmate.Pool
