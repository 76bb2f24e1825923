import Mathlib.Data.List.Nodup
import Mathlib.Data.List.Range
import Mathlib.Data.Nat.Notation

/-!
# Numbers from several counters

Counters hand out numbers, each under a name; several counters may share a name, and a counter may be lost and
begin at zero again. The numbers under each name are all different if and only if no counter hands out its
first number under a name that has numbers already. -/

namespace Rustmate

/-- A draw: a counter hands out `count` numbers, from `start` on. -/
structure Draw (C : Type) where
  counter : C
  start : ℕ
  count : ℕ

namespace Draw

variable {C N : Type} [DecidableEq C] [DecidableEq N]

/-- Where a counter stands, after draws of which the last comes first. -/
def value : List (Draw C) → C → ℕ
  | [], _ => 0
  | draw :: before, c => if draw.counter = c then draw.start + draw.count else value before c

/-- Each draw starts at zero or where its counter stands. -/
def Lawful : List (Draw C) → Prop
  | [] => True
  | draw :: before => (draw.start = 0 ∨ draw.start = value before draw.counter) ∧ Lawful before

variable (name : C → N)

/-- How many numbers there are under a name. -/
def total : List (Draw C) → N → ℕ
  | [], _ => 0
  | draw :: before, n => (if name draw.counter = n then draw.count else 0) + total before n

/-- The numbers, each with its name. -/
def numbers : List (Draw C) → List (N × ℕ)
  | [] => []
  | draw :: before =>
    ((List.range draw.count).map fun i => (name draw.counter, draw.start + i)) ++ numbers before

/-- No counter hands out its first number under a name that has numbers already. -/
def Fresh : List (Draw C) → Prop
  | [] => True
  | draw :: before =>
    (draw.start = 0 → draw.count ≠ 0 → total name before (name draw.counter) = 0) ∧ Fresh before

/-- While no counter begins under a name with numbers, a name has its first numbers, and they are of one
counter. -/
structure Orderly (draws : List (Draw C)) : Prop where
  mem_iff : ∀ n x, (n, x) ∈ numbers name draws ↔ x < total name draws n
  value_eq : ∀ c, value draws c = 0 ∨ value draws c = total name draws (name c)
  single : ∀ c c', name c = name c' → value draws c ≠ 0 → value draws c' ≠ 0 → c = c'

variable {name} {draw : Draw C} {before : List (Draw C)}

/-- Where the counters stand after one more draw. -/
theorem value_cons (c : C) :
    value (draw :: before) c = if draw.counter = c then draw.start + draw.count else value before c := rfl

omit [DecidableEq C] in
/-- How many numbers there are after one more draw. -/
theorem total_cons (n : N) :
    total name (draw :: before) n = (if name draw.counter = n then draw.count else 0) + total name before n := rfl

omit [DecidableEq C] [DecidableEq N] in
/-- The numbers after one more draw. -/
theorem mem_numbers_cons {n : N} {x : ℕ} :
    (n, x) ∈ numbers name (draw :: before) ↔
      (name draw.counter = n ∧ draw.start ≤ x ∧ x < draw.start + draw.count) ∨ (n, x) ∈ numbers name before := by
  change (n, x) ∈ _ ++ numbers name before ↔ _
  rw [List.mem_append, List.mem_map]
  refine or_congr_left ⟨?_, ?_⟩
  · rintro ⟨i, hi, heq⟩
    obtain ⟨rfl, rfl⟩ := Prod.mk.inj heq
    have := List.mem_range.mp hi
    exact ⟨rfl, Nat.le_add_right _ _, by omega⟩
  · rintro ⟨rfl, hle, hlt⟩
    exact ⟨x - draw.start, List.mem_range.mpr (by omega), by rw [Nat.add_sub_cancel' hle]⟩

/-- Before any draw. -/
theorem orderly_nil : Orderly name ([] : List (Draw C)) :=
  ⟨fun _ _ => iff_of_false List.not_mem_nil (Nat.not_lt_zero _), fun _ => .inl rfl, fun _ _ _ h => absurd rfl h⟩

/-- A draw that goes on where the numbers of its name end. -/
theorem Orderly.start_eq (h : Orderly name before) (hlawful : draw.start = 0 ∨ draw.start = value before draw.counter)
    (hfresh : draw.start = 0 → draw.count ≠ 0 → total name before (name draw.counter) = 0) (hcount : draw.count ≠ 0) :
    draw.start = total name before (name draw.counter) := by
  by_cases hzero : draw.start = 0
  · rw [hzero, hfresh hzero hcount]
  · have hvalue := hlawful.resolve_left hzero
    rw [hvalue] at hzero ⊢
    exact (h.value_eq draw.counter).resolve_left hzero

/-- Where the counter of a draw stands behind zero, no other counter under its name does. -/
theorem Orderly.counter_eq (h : Orderly name before)
    (hlawful : draw.start = 0 ∨ draw.start = value before draw.counter)
    (hfresh : draw.start = 0 → draw.count ≠ 0 → total name before (name draw.counter) = 0)
    (hpos : draw.start + draw.count ≠ 0) {c : C} (hname : name draw.counter = name c) (hc : value before c ≠ 0) :
    draw.counter = c := by
  by_cases hzero : draw.start = 0
  · -- the name has numbers of the other counter already
    have htotal := (h.value_eq c).resolve_left hc
    have hnone := hfresh hzero (by omega)
    rw [hname] at hnone
    exact absurd (htotal.trans hnone) hc
  · refine h.single draw.counter c hname ?_ hc
    rw [← hlawful.resolve_left hzero]
    exact hzero

/-- One more draw. -/
theorem Orderly.cons (h : Orderly name before) (hlawful : draw.start = 0 ∨ draw.start = value before draw.counter)
    (hfresh : draw.start = 0 → draw.count ≠ 0 → total name before (name draw.counter) = 0) :
    Orderly name (draw :: before) := by
  have hstart := h.start_eq hlawful hfresh
  have hother : ∀ c, name draw.counter = name c → draw.start + draw.count ≠ 0 → value before c ≠ 0 → draw.counter = c :=
    fun c hname hpos => h.counter_eq hlawful hfresh hpos hname
  refine ⟨fun n x => ?_, fun c => ?_, fun c c' hname hc hc' => ?_⟩
  · rw [mem_numbers_cons, h.mem_iff, total_cons]
    by_cases hn : name draw.counter = n
    · subst hn
      rw [if_pos rfl, eq_self, true_and]
      by_cases hcount : draw.count = 0
      · omega
      · have := hstart hcount
        omega
    · rw [if_neg hn, Nat.zero_add]
      exact or_iff_right fun hin => hn hin.1
  · rw [value_cons, total_cons]
    have hold := h.value_eq c
    by_cases hc : draw.counter = c
    · subst hc
      rw [if_pos rfl, if_pos rfl]
      by_cases hcount : draw.count = 0
      · omega
      · have := hstart hcount
        omega
    · rw [if_neg hc]
      by_cases hname : name draw.counter = name c
      · rw [if_pos hname]
        by_cases hpos : draw.start + draw.count = 0
        · omega
        · exact .inl (by_contra fun hne => hc (hother c hname hpos hne))
      · rw [if_neg hname, Nat.zero_add]
        exact hold
  · rw [value_cons] at hc hc'
    by_cases hdraw : draw.counter = c
    · by_cases hdraw' : draw.counter = c'
      · exact hdraw.symm.trans hdraw'
      · rw [if_pos hdraw] at hc
        rw [if_neg hdraw'] at hc'
        rw [← hdraw] at hname ⊢
        exact hother c' hname hc hc'
    · rw [if_neg hdraw] at hc
      by_cases hdraw' : draw.counter = c'
      · rw [if_pos hdraw'] at hc'
        rw [← hdraw'] at hname ⊢
        exact (hother c hname.symm hc' hc).symm
      · rw [if_neg hdraw'] at hc'
        exact h.single c c' hname hc hc'

/-- While no counter begins under a name with numbers, the draws are orderly, and the numbers are all different. -/
theorem Fresh.orderly {draws : List (Draw C)} (hlawful : Lawful draws) (h : Fresh name draws) :
    Orderly name draws ∧ (numbers name draws).Nodup := by
  induction draws with
  | nil => exact ⟨orderly_nil, List.nodup_nil⟩
  | cons draw before ih =>
    obtain ⟨hdraw, hbefore⟩ := hlawful
    obtain ⟨hfresh, hrest⟩ := h
    obtain ⟨horderly, hnodup⟩ := ih hbefore hrest
    refine ⟨horderly.cons hdraw hfresh, List.nodup_append.mpr ⟨?_, hnodup, ?_⟩⟩
    · refine List.Nodup.map (fun i j hij => ?_) List.nodup_range
      have := (Prod.mk.inj hij).2
      omega
    · rintro ⟨n, x⟩ hnew other hold rfl
      obtain ⟨i, hi, heq⟩ := List.mem_map.mp hnew
      obtain ⟨rfl, rfl⟩ := Prod.mk.inj heq
      have hlt := (horderly.mem_iff _ _).mp hold
      have hcount : draw.count ≠ 0 := by
        have := List.mem_range.mp hi
        omega
      have := horderly.start_eq hdraw hfresh hcount
      omega

/-- The numbers under each name are all different if and only if no counter hands out its first number under a
name that has numbers already. -/
theorem nodup_numbers_iff {draws : List (Draw C)} (hlawful : Lawful draws) :
    (numbers name draws).Nodup ↔ Fresh name draws := by
  refine ⟨fun h => ?_, fun h => (h.orderly hlawful).2⟩
  induction draws with
  | nil => trivial
  | cons draw before ih =>
    obtain ⟨-, hrest, hdisjoint⟩ := List.nodup_append.mp h
    have hbefore := ih hlawful.2 hrest
    refine ⟨fun hstart hcount => ?_, hbefore⟩
    by_contra htotal
    -- zero is handed out again
    have hold : (name draw.counter, 0) ∈ numbers name before :=
      ((hbefore.orderly hlawful.2).1.mem_iff _ _).mpr (Nat.pos_of_ne_zero htotal)
    have hnew : (name draw.counter, 0) ∈ (List.range draw.count).map fun i => (name draw.counter, draw.start + i) :=
      List.mem_map.mpr ⟨0, List.mem_range.mpr (Nat.pos_of_ne_zero hcount), by rw [hstart]⟩
    exact hdisjoint _ hnew _ hold rfl

omit [DecidableEq C] [DecidableEq N] in
/-- The numbers of draws behind draws. -/
theorem numbers_append (draws before : List (Draw C)) :
    numbers name (draws ++ before) = numbers name draws ++ numbers name before := by
  induction draws with
  | nil => rfl
  | cons draw draws ih =>
    change _ ++ numbers name (draws ++ before) = (_ ++ numbers name draws) ++ numbers name before
    rw [ih, List.append_assoc]

omit [DecidableEq C] [DecidableEq N] in
/-- How many numbers there are after one more draw. -/
theorem length_numbers_cons :
    (numbers name (draw :: before)).length = draw.count + (numbers name before).length := by
  change (_ ++ numbers name before).length = _
  rw [List.length_append, List.length_map, List.length_range]

omit [DecidableEq N] in
/-- A counter stands no higher than numbers were handed out. -/
theorem value_le (name : C → N) {draws : List (Draw C)} (h : Lawful draws) (c : C) :
    value draws c ≤ (numbers name draws).length := by
  induction draws generalizing c with
  | nil => exact Nat.zero_le _
  | cons draw before ih =>
    have hbefore := ih h.2 c
    have hcounter := ih h.2 draw.counter
    have hstart := h.1
    rw [value_cons, length_numbers_cons]
    split_ifs
    · omega
    · omega

omit [DecidableEq N] in
/-- A number is below how many were handed out. -/
theorem lt_length_of_mem {draws : List (Draw C)} (h : Lawful draws) {n : N} {x : ℕ} (hmem : (n, x) ∈ numbers name draws) :
    x < (numbers name draws).length := by
  induction draws with
  | nil => exact absurd hmem List.not_mem_nil
  | cons draw before ih =>
    have hvalue := value_le name h draw.counter
    rw [value_cons, if_pos rfl] at hvalue
    rcases mem_numbers_cons.mp hmem with ⟨-, -, hlt⟩ | hold
    · omega
    · have := ih h.2 hold
      rw [length_numbers_cons]
      omega

end Draw

end Rustmate
