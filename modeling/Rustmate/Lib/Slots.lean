import Mathlib.Data.Nat.Notation
import Mathlib.Data.List.Basic

/-!
# A slot for each source

Sources send values again and again, and a slot keeps what its source sent last. Sending the same again
changes nothing, and what different sources send may come in any order. -/

namespace Rustmate.Slots

variable {V : Type*} (source : V → ℕ)

/-- What a source sent last. -/
def latest (sent : List V) (i : ℕ) : Option V := (sent.filter fun v => source v = i).getLast?

/-- What each of the first sources that sent anything sent last, in the order of the sources. -/
def latestAll (n : ℕ) (sent : List V) : List V := (List.range n).filterMap (latest source sent)

/-- A value comes into the slot of its source. -/
def put (slots : List (Option V)) (v : V) : List (Option V) := slots.set (source v) (some v)

/-- A value that may not be there comes into its slot. -/
def put? (slots : List (Option V)) (v : Option V) : List (Option V) := v.elim slots (put source slots)

/-- No slot more or less. -/
@[simp]
theorem length_put (slots : List (Option V)) (v : V) : (put source slots v).length = slots.length :=
  List.length_set

/-- The same value again. -/
theorem put_put (slots : List (Option V)) (v : V) : put source (put source slots v) v = put source slots v :=
  List.set_set _

/-- Values of different sources. -/
theorem put_comm (slots : List (Option V)) {v w : V} (h : source v ≠ source w) :
    put source (put source slots v) w = put source (put source slots w) v :=
  List.set_comm _ _ h

/-- No slot more or less. -/
@[simp]
theorem length_put? (slots : List (Option V)) (v : Option V) : (put? source slots v).length = slots.length := by
  cases v with
  | none => rfl
  | some v => exact length_put source slots v

/-- The same value again, if it is there. -/
theorem put?_put? (slots : List (Option V)) (v : Option V) :
    put? source (put? source slots v) v = put? source slots v := by
  cases v with
  | none => rfl
  | some v => exact put_put source slots v

/-- Values of different sources, if they are there. -/
theorem put?_comm (slots : List (Option V)) {v w : Option V} (h : ∀ a ∈ v, ∀ b ∈ w, source a ≠ source b) :
    put? source (put? source slots v) w = put? source (put? source slots w) v := by
  cases v with
  | none => rfl
  | some v =>
    cases w with
    | none => rfl
    | some w => exact put_comm source slots (h v rfl w rfl)

/-- One more value is the last one of its source, and of no other. -/
theorem latest_append (sent : List V) (v : V) (i : ℕ) :
    latest source (sent ++ [v]) i = if source v = i then some v else latest source sent i := by
  unfold latest
  rw [List.filter_append]
  by_cases hi : source v = i
  · rw [if_pos hi, List.filter_cons_of_pos (by simpa using hi), List.filter_nil, List.getLast?_concat]
  · rw [if_neg hi, List.filter_cons_of_neg (by simpa using hi), List.filter_nil, List.append_nil]

/-- A value with none of its source after it is the last one. -/
theorem latest_of_last {before after : List V} {v : V} {i : ℕ} (hv : source v = i)
    (hafter : ∀ w ∈ after, source w ≠ i) : latest source (before ++ v :: after) i = some v := by
  unfold latest
  have hnil : after.filter (fun w => source w = i) = [] :=
    List.filter_eq_nil_iff.mpr fun w hw => by simpa using hafter w hw
  rw [List.filter_append, List.filter_cons_of_pos (by simpa using hv), hnil, List.getLast?_concat]

/-- When each of the first sources has sent something, these are their last values. -/
theorem latestAll_eq_map {n : ℕ} {sent : List V} {f : Fin n → V}
    (h : ∀ i : Fin n, latest source sent i = some (f i)) : latestAll source n sent = (List.finRange n).map f := by
  unfold latestAll
  rw [← List.map_coe_finRange_eq_range, List.filterMap_map, ← List.filterMap_eq_map]
  exact List.filterMap_congr fun i _ => h i

/-- The slots hold what each source sent last. -/
def Holds (n : ℕ) (sent : List V) (slots : List (Option V)) : Prop :=
  slots = (List.range n).map (latest source sent)

/-- Empty slots. -/
theorem holds_replicate (n : ℕ) : Holds source n [] (List.replicate n none) := by
  unfold Holds latest
  simp

/-- One more value. -/
theorem Holds.put {n : ℕ} {sent : List V} {slots : List (Option V)} (h : Holds source n sent slots) (v : V) :
    Holds source n (sent ++ [v]) (Slots.put source slots v) := by
  unfold Holds Slots.put at *
  rw [h]
  refine List.ext_getElem? fun i => ?_
  rw [List.getElem?_set, List.getElem?_map, List.getElem?_map, List.length_map, List.length_range]
  by_cases hi : source v = i
  · subst hi
    rw [if_pos rfl]
    by_cases hn : source v < n
    · rw [if_pos hn, List.getElem?_range hn, Option.map_some, latest_append, if_pos rfl]
    · rw [if_neg hn, List.getElem?_eq_none (by simpa using hn)]
      rfl
  · rw [if_neg hi]
    by_cases hn : i < n
    · rw [List.getElem?_range hn, Option.map_some, Option.map_some, latest_append, if_neg hi]
    · rw [List.getElem?_eq_none (by simpa using hn)]
      rfl

/-- One more value, if it is there. -/
theorem Holds.put? {n : ℕ} {sent : List V} {slots : List (Option V)} (h : Holds source n sent slots) (v : Option V) :
    Holds source n (sent ++ v.toList) (Slots.put? source slots v) := by
  cases v with
  | none => rw [Option.toList_none, List.append_nil]; exact h
  | some v => exact h.put source v

/-- What is in the slots. -/
theorem Holds.reduce {n : ℕ} {sent : List V} {slots : List (Option V)} (h : Holds source n sent slots) :
    slots.reduceOption = latestAll source n sent := by
  rw [h]
  unfold List.reduceOption latestAll
  rw [List.filterMap_map]
  rfl

end Rustmate.Slots
