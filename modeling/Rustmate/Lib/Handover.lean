import Mathlib.Data.Nat.Notation
import Mathlib.Logic.Function.Basic
import Mathlib.Logic.Relation

/-!
# Items that are handed to one of several servers

A producer hands its items to servers, one item at a time, and remembers the server that it gave the first
one to. An item may have to wait for room at one server, the remote one; then the producer waits too. The
memory alone makes all the items reach one server, in their order.
-/

namespace Rustmate

/-- The server that the producer remembers, what each server was given, the item that waits for room, and
all that was produced. -/
@[ext]
structure Handover (S α : Type) where
  placement : Option S
  given : S → List α
  waiting : List α
  sent : List α

namespace Handover

variable {S α : Type}

/-- Nothing was produced yet. -/
def empty : Handover S α := ⟨none, fun _ => [], [], []⟩

/-- The producer may hand an item to the server: it remembers that one, or none. -/
def Allows (h : Handover S α) (server : S) : Prop := h.placement = none ∨ h.placement = some server

/-- Whatever was produced is at one server, but for the item that waits for the remote one. -/
structure Settled (remote : S) (h : Handover S α) : Prop where
  fresh : h.placement = none → (∀ server, h.given server = []) ∧ h.waiting = h.sent
  placed : ∀ server, h.placement = some server →
    (∀ other, other ≠ server → h.given other = []) ∧ h.given server ++ h.waiting = h.sent
  waits : h.waiting ≠ [] → h.Allows remote

theorem settled_empty (remote : S) : Settled remote (empty : Handover S α) where
  fresh := fun _ => ⟨fun _ => rfl, rfl⟩
  placed := fun _ h => by cases h
  waits := fun h => absurd rfl h

/-- A server that an item may go to has all that was given, and no other server has any. -/
theorem Settled.of_allows {remote server : S} {h : Handover S α} (hs : Settled remote h)
    (hallows : h.Allows server) : (∀ other, other ≠ server → h.given other = []) ∧
      h.given server ++ h.waiting = h.sent := by
  rcases hallows with hnone | hsome
  · obtain ⟨hgiven, hsent⟩ := hs.fresh hnone
    exact ⟨fun other _ => hgiven other, by rw [hgiven, hsent, List.nil_append]⟩
  · exact hs.placed server hsome

/-- All that was produced is at one server, the remembered one or the remote one, and nothing is anywhere
else; what waits, waits for the remote one. -/
theorem Settled.one_server {remote : S} {h : Handover S α} (hs : Settled remote h) :
    ∃ server, (server = remote ∨ h.placement = some server) ∧
      (∀ other, other ≠ server → h.given other = []) ∧ h.given server ++ h.waiting = h.sent ∧
      (h.waiting ≠ [] → server = remote) := by
  by_cases hwaits : h.waiting = []
  · cases hplacement : h.placement with
    | none =>
      obtain ⟨hother, hsent⟩ := hs.of_allows (Or.inl hplacement : h.Allows remote)
      exact ⟨remote, .inl rfl, hother, hsent, fun _ => rfl⟩
    | some server =>
      obtain ⟨hother, hsent⟩ := hs.placed server hplacement
      exact ⟨server, .inr rfl, hother, hsent, fun hne => absurd hwaits hne⟩
  · obtain ⟨hother, hsent⟩ := hs.of_allows (hs.waits hwaits)
    exact ⟨remote, .inl rfl, hother, hsent, fun _ => rfl⟩

variable [DecidableEq S]

/-- What can happen to an item. -/
inductive Move (remote : S) (h : Handover S α) : Handover S α → Prop
  | deliver (server : S) (x : α) (hallows : h.Allows server) (hfree : h.waiting = []) :
    Move remote h ⟨some server, Function.update h.given server (h.given server ++ [x]), [], h.sent ++ [x]⟩
  | hold (x : α) (hallows : h.Allows remote) (hfree : h.waiting = []) :
    Move remote h ⟨h.placement, h.given, [x], h.sent ++ [x]⟩
  | release (x : α) (hwaits : h.waiting = [x]) :
    Move remote h ⟨some remote, Function.update h.given remote (h.given remote ++ [x]), [], h.sent⟩

/-- The state after an item reached a server that has all the others. -/
theorem settled_given {remote server : S} {given : S → List α} {sent : List α} {x : α}
    (hother : ∀ other, other ≠ server → given other = []) (hsent : given server ++ [x] = sent) :
    Settled remote ⟨some server, Function.update given server (given server ++ [x]), [], sent⟩ where
  fresh := fun h => by cases h
  placed := by
    intro server' h
    cases h
    refine ⟨fun other hne => ?_, ?_⟩
    · change Function.update given server _ other = []
      rw [Function.update_of_ne hne]
      exact hother other hne
    · change Function.update given server _ server ++ [] = sent
      rw [Function.update_self, List.append_nil, hsent]
  waits := fun h => absurd rfl h

/-- Every move keeps the items together. -/
theorem Move.settled {remote : S} {h h' : Handover S α} (hmove : Move remote h h')
    (hs : Settled remote h) : Settled remote h' := by
  cases hmove with
  | deliver server x hallows hfree =>
    obtain ⟨hother, hsent⟩ := hs.of_allows hallows
    rw [hfree, List.append_nil] at hsent
    exact settled_given hother (by rw [hsent])
  | hold x hallows hfree =>
    refine ⟨fun hnone => ?_, fun server hsome => ?_, fun _ => hallows⟩
    · obtain ⟨hgiven, hsent⟩ := hs.fresh hnone
      rw [hfree] at hsent
      exact ⟨hgiven, by rw [← hsent, List.nil_append]⟩
    · obtain ⟨hother, hsent⟩ := hs.placed server hsome
      rw [hfree, List.append_nil] at hsent
      exact ⟨hother, by rw [hsent]⟩
  | release x hwaits =>
    obtain ⟨hother, hsent⟩ := hs.of_allows (hs.waits (by rw [hwaits]; exact List.cons_ne_nil x []))
    rw [hwaits] at hsent
    exact settled_given hother hsent

end Handover

end Rustmate
