import Mathlib.Data.Finset.Card
import Rustmate.Lib.Table

/-!
# Tables with a queue of their keys

A table that forgets what it got first keeps its keys in a queue as well. As long as the queue holds each key
of the table once, the entry that goes is there, one is enough, and a table with a limit always finds room. -/

namespace Rustmate

namespace Table

variable {K V : Type} [DecidableEq K]

/-- The keys of a table. -/
def keySet (t : Table K V) : Finset K := t.keys.toFinset

/-- How many keys of a table another one did not have. -/
def added (before after : Finset K) : ℕ := (after \ before).card

variable {t t' : Table K V} {k : K}

/-- What the keys are. -/
@[simp]
theorem mem_keySet : k ∈ t.keySet ↔ k ∈ t := by
  unfold keySet
  rw [List.mem_toFinset]
  exact AList.mem_keys.symm

/-- There are as many keys as entries. -/
theorem card_keySet (t : Table K V) : t.keySet.card = t.size := by
  rw [size_eq]
  exact List.toFinset_card_of_nodup (AList.keys_nodup t)

/-- Nothing was added. -/
theorem added_self (keys : Finset K) : added keys keys = 0 := by
  unfold added
  rw [Finset.sdiff_self, Finset.card_empty]

/-- The new key was added, and no other. -/
theorem added_insert_new (hnew : k ∉ t) (hsub : ∀ other ∈ t', other ∈ t) (v : V) :
    added t.keySet (keySet (t'.insert k v)) = 1 := by
  have hkeys : keySet (t'.insert k v) \ t.keySet = {k} := by
    ext other
    rw [Finset.mem_sdiff, mem_keySet, mem_keySet, AList.mem_insert, Finset.mem_singleton]
    constructor
    · rintro ⟨rfl | hold, hout⟩
      · rfl
      · exact absurd (hsub other hold) hout
    · rintro rfl
      exact ⟨.inl rfl, hnew⟩
  unfold added
  rw [hkeys, Finset.card_singleton]

/-- Another value does not change the keys. -/
theorem keySet_insert_mem (hmem : k ∈ t) (v : V) : keySet (t.insert k v) = t.keySet := by
  ext other
  rw [mem_keySet, mem_keySet, AList.mem_insert]
  constructor
  · rintro (rfl | hold)
    · exact hmem
    · exact hold
  · exact .inr

end Table

/-- A table, and its keys in the order in which they came. -/
structure Fifo (K V : Type) where
  entries : Table K V
  order : List K

namespace Fifo

variable {K V : Type} {σ : Type*}

/-- Nothing came. -/
def empty : Fifo K V := ⟨∅, []⟩

/-- The queue holds each key of the table once, and no other. -/
structure Queued (fifo : Fifo K V) : Prop where
  nodup : fifo.order.Nodup
  mem_iff : ∀ k, k ∈ fifo.order ↔ k ∈ fifo.entries

/-- Nothing is queued. -/
theorem queued_empty : (empty : Fifo K V).Queued :=
  ⟨List.nodup_nil, fun _ => iff_of_false List.not_mem_nil (AList.notMem_empty _)⟩

variable [DecidableEq K]

/-- The loop that makes room: while the table is not below its limit and the queue not at its end, the first
key goes from both, with what that does to an account. -/
def evictLoop (account : σ → Option V → σ) (limit : ℕ) : List K → Table K V → σ → Fifo K V × σ
  | [], entries, s => (⟨entries, []⟩, s)
  | k :: order, entries, s =>
    if limit ≤ entries.size then evictLoop account limit order (entries.erase k) (account s (entries.lookup k))
    else (⟨entries, k :: order⟩, s)

/-- Make room for an entry. -/
def makeRoom (account : σ → Option V → σ) (limit : ℕ) (self : Fifo K V) (s : σ) : Fifo K V × σ :=
  evictLoop account limit self.order self.entries s

/-- A new entry, the last to go. -/
def push (self : Fifo K V) (k : K) (v : V) : Fifo K V := ⟨self.entries.insert k v, self.order ++ [k]⟩

/-- Another value for a key. -/
def replace (self : Fifo K V) (k : K) (v : V) : Fifo K V := { self with entries := self.entries.insert k v }

variable {self : Fifo K V} {k : K}

omit [DecidableEq K] in
/-- The queue is as long as the table is large. -/
theorem Queued.length_eq (h : self.Queued) : self.order.length = self.entries.size := by
  rw [Table.size_eq]
  refine List.Perm.length_eq ((List.perm_ext_iff_of_nodup h.nodup self.entries.keys_nodup).mpr fun k => ?_)
  rw [h.mem_iff k]
  exact AList.mem_keys

/-- A new key goes to the end of the queue. -/
theorem Queued.push (h : self.Queued) (hnew : k ∉ self.entries) (v : V) : (self.push k v).Queued := by
  refine ⟨?_, fun other => ?_⟩
  · have hout : k ∉ self.order := mt (h.mem_iff k).mp hnew
    exact List.nodup_append.mpr ⟨h.nodup, List.nodup_singleton k, by
      rintro a ha b hb rfl
      rw [List.mem_singleton.mp hb] at ha
      exact hout ha⟩
  · change other ∈ self.order ++ [k] ↔ other ∈ self.entries.insert k v
    rw [List.mem_append, List.mem_singleton, AList.mem_insert, h.mem_iff other]
    exact or_comm

/-- Another value does not change the keys. -/
theorem Queued.replace (h : self.Queued) (hmem : k ∈ self.entries) (v : V) : (self.replace k v).Queued := by
  refine ⟨h.nodup, fun other => ?_⟩
  change other ∈ self.order ↔ other ∈ self.entries.insert k v
  rw [AList.mem_insert, h.mem_iff other]
  constructor
  · exact .inr
  · rintro (rfl | hold)
    · exact hmem
    · exact hold

/-- The first key of the queue goes from both. -/
theorem Queued.erase_first {entries : Table K V} {order : List K} (h : (⟨entries, k :: order⟩ : Fifo K V).Queued) :
    k ∈ entries ∧ (⟨entries.erase k, order⟩ : Fifo K V).Queued := by
  obtain ⟨hnodup, hmem⟩ := h
  obtain ⟨hout, hrest⟩ := List.nodup_cons.mp hnodup
  refine ⟨(hmem k).mp List.mem_cons_self, hrest, fun other => ?_⟩
  rw [AList.mem_erase, ← hmem other, List.mem_cons]
  constructor
  · intro hother
    exact ⟨fun h => hout (h ▸ hother), .inr hother⟩
  · rintro ⟨hne, rfl | hother⟩
    · exact absurd rfl hne
    · exact hother

/-- What making room does: nothing where there is room, or the first entry goes and is accounted for. -/
theorem Queued.makeRoom_cases (h : self.Queued) {limit : ℕ} (hpos : 1 ≤ limit) (hle : self.entries.size ≤ limit)
    (account : σ → Option V → σ) (s : σ) :
    (self.makeRoom account limit s = (self, s) ∧ self.entries.size < limit) ∨
      ∃ k v order, self.order = k :: order ∧ self.entries.lookup k = some v ∧
        self.makeRoom account limit s = (⟨self.entries.erase k, order⟩, account s (some v)) ∧
        (⟨self.entries.erase k, order⟩ : Fifo K V).Queued ∧ Table.size (self.entries.erase k) < limit := by
  obtain ⟨entries, order⟩ := self
  have hlength := h.length_eq
  dsimp only at hlength hle
  unfold makeRoom
  cases order with
  | nil =>
    rw [List.length_nil] at hlength
    exact .inl ⟨rfl, by dsimp only; omega⟩
  | cons k order =>
    unfold evictLoop
    by_cases hfull : limit ≤ entries.size
    · obtain ⟨hmem, hqueued⟩ := h.erase_first
      obtain ⟨v, hlookup⟩ := Table.exists_lookup hmem
      have hsize := Table.size_erase hmem
      have hroom : ¬ limit ≤ Table.size (entries.erase k) := by omega
      refine .inr ⟨k, v, order, rfl, hlookup, ?_, hqueued, Nat.lt_of_not_le hroom⟩
      rw [if_pos hfull, hlookup]
      -- one is enough
      cases order with
      | nil => rfl
      | cons k' order =>
        unfold evictLoop
        rw [if_neg hroom]
    · exact .inl ⟨if_neg hfull, Nat.lt_of_not_le hfull⟩

/-- After making room there is room. -/
theorem Queued.makeRoom (h : self.Queued) {limit : ℕ} (hpos : 1 ≤ limit) (hle : self.entries.size ≤ limit)
    (account : σ → Option V → σ) (s : σ) :
    (self.makeRoom account limit s).1.Queued ∧ (self.makeRoom account limit s).1.entries.size < limit := by
  rcases h.makeRoom_cases hpos hle account s with ⟨heq, hlt⟩ | ⟨first, old, order, -, -, heq, hqueued, hlt⟩
  · rw [heq]
    exact ⟨h, hlt⟩
  · rw [heq]
    exact ⟨hqueued, hlt⟩

/-- An entry stays when room is made, unless the table is full and the entry the first one. -/
theorem Queued.lookup_makeRoom (h : self.Queued) {limit : ℕ} (hpos : 1 ≤ limit) (hle : self.entries.size ≤ limit)
    (account : σ → Option V → σ) (s : σ) {v : V} (hlookup : self.entries.lookup k = some v) :
    (limit ≤ self.entries.size ∧ self.order.head? = some k) ∨
      (self.makeRoom account limit s).1.entries.lookup k = some v := by
  by_cases hroom : self.entries.size < limit
  · rcases h.makeRoom_cases hpos hle account s with ⟨heq, -⟩ | ⟨first, old, order, horder, -, -, -, -⟩
    · rw [heq]
      exact .inr hlookup
    · -- the loop does not even begin
      have heq : self.makeRoom account limit s = (self, s) := by
        unfold Fifo.makeRoom
        rw [horder]
        exact (if_neg (Nat.not_le_of_lt hroom)).trans (by rw [← horder])
      rw [heq]
      exact .inr hlookup
  · have hfull := Nat.le_of_not_lt hroom
    rcases h.makeRoom_cases hpos hle account s with ⟨-, hlt⟩ | ⟨first, old, order, horder, -, heq, -, -⟩
    · exact absurd hlt hroom
    · by_cases hfirst : k = first
      · subst hfirst
        exact .inl ⟨hfull, by rw [horder]; rfl⟩
      · rw [heq]
        refine .inr ?_
        change (self.entries.erase first).lookup k = some v
        rw [AList.lookup_erase_ne hfirst]
        exact hlookup

/-- What is there after making room was there before. -/
theorem lookup_of_makeRoom {account : σ → Option V → σ} {limit : ℕ} {s : σ} {v : V}
    (h : (self.makeRoom account limit s).1.entries.lookup k = some v) : self.entries.lookup k = some v := by
  obtain ⟨entries, order⟩ := self
  unfold makeRoom at h
  dsimp only at h ⊢
  induction order generalizing entries s with
  | nil => exact h
  | cons first order ih =>
    unfold evictLoop at h
    by_cases hfull : limit ≤ entries.size
    · rw [if_pos hfull] at h
      have hrest := ih _ h
      by_cases hkey : k = first
      · rw [hkey, AList.lookup_erase] at hrest
        exact nomatch hrest
      · rw [AList.lookup_erase_ne hkey] at hrest
        exact hrest
    · rw [if_neg hfull] at h
      exact h

end Fifo

end Rustmate
