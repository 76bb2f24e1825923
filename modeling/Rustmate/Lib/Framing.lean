import Mathlib.Data.Nat.Notation
import Mathlib.Data.List.Basic
import Mathlib.Tactic.Common

/-!
# Framing a stream that arrives in pieces

A framing looks at the bytes from where a frame begins and decides: to wait for more, to skip a byte, or that
a frame begins there. It is asked again each time a piece arrives, so that what it makes of a stream may
depend on where the pieces end. This module says exactly when it does not.
-/

namespace Rustmate

variable {α M : Type*}

/-- What a framing decides: a frame has a head, which is there, and a body, of which less may be there. -/
inductive Verdict (M : Type*) where
  | wait
  | skip
  | frame (message : M) (head body : ℕ)

/-- A framing, each of whose frames takes something of the bytes at hand. -/
structure Framing (α M : Type*) where
  verdict : List α → Verdict M
  head_pos : ∀ {bytes m head body}, verdict bytes = .frame m head body →
    0 < head ∧ head ≤ bytes.length

/-- Between two pieces: the bytes kept from where a frame may begin, or what is left of the body of a frame
that began at `pos` and is followed by what begins at `next`. -/
inductive FrameState (α M : Type*) where
  | start (pos : ℕ) (buffer : List α)
  | body (pos : ℕ) (message : M) (next remaining : ℕ)

namespace Framing

variable (F : Framing α M)

/-- Frame the bytes that begin at `pos` as far as they go. -/
def drain (pos : ℕ) (buffer : List α) : List (ℕ × M) × FrameState α M :=
  if hbuffer : buffer = [] then ([], .start pos [])
  else
    match hverdict : F.verdict buffer with
    | .wait => ([], .start pos buffer)
    | .skip => drain (pos + 1) buffer.tail
    | .frame m head body =>
      if head + body ≤ buffer.length then
        ((pos, m) :: (drain (pos + (head + body)) (buffer.drop (head + body))).1,
          (drain (pos + (head + body)) (buffer.drop (head + body))).2)
      else ([], .body pos m (pos + (head + body)) (head + body - buffer.length))
termination_by buffer.length
decreasing_by
  · have := List.length_pos_iff.mpr hbuffer
    rw [List.length_tail]
    omega
  · have := F.head_pos hverdict
    rw [List.length_drop]
    omega

/-- Another piece arrives. -/
def feed : FrameState α M → List α → List (ℕ × M) × FrameState α M
  | .start pos buffer, piece => F.drain pos (buffer ++ piece)
  | .body pos m next remaining, piece =>
    if remaining ≤ piece.length then
      ((pos, m) :: (F.drain next (piece.drop remaining)).1, (F.drain next (piece.drop remaining)).2)
    else ([], .body pos m next (remaining - piece.length))

/-- What the pieces make, one after the other. -/
def framesFrom : FrameState α M → List (List α) → List (ℕ × M)
  | _, [] => []
  | state, piece :: pieces => (F.feed state piece).1 ++ framesFrom (F.feed state piece).2 pieces

/-- What the pieces make from the beginning. -/
def frames (pieces : List (List α)) : List (ℕ × M) := F.framesFrom (.start 0 []) pieces

/-! ## One step of draining -/

@[simp]
theorem drain_nil (pos : ℕ) : F.drain pos [] = ([], .start pos []) := by
  rw [Framing.drain, dif_pos rfl]

variable {F} {buffer : List α}

theorem drain_wait (pos : ℕ) (h : F.verdict buffer = .wait) :
    F.drain pos buffer = ([], .start pos buffer) := by
  rw [Framing.drain]
  split_ifs with hnil
  · rw [hnil]
  · split <;> simp_all

theorem drain_skip (pos : ℕ) (hne : buffer ≠ []) (h : F.verdict buffer = .skip) :
    F.drain pos buffer = F.drain (pos + 1) buffer.tail := by
  rw [Framing.drain, dif_neg hne]
  split <;> simp_all

theorem drain_frame (pos : ℕ) {m : M} {head body : ℕ} (h : F.verdict buffer = .frame m head body)
    (hfits : head + body ≤ buffer.length) :
    F.drain pos buffer = ((pos, m) :: (F.drain (pos + (head + body)) (buffer.drop (head + body))).1,
      (F.drain (pos + (head + body)) (buffer.drop (head + body))).2) := by
  have hpos := F.head_pos h
  have hne : buffer ≠ [] := by
    rintro rfl
    rw [List.length_nil] at hpos
    omega
  rw [Framing.drain, dif_neg hne]
  split
  · simp_all
  · simp_all
  · rename_i h'
    rw [h] at h'
    injection h' with h₁ h₂ h₃
    subst h₁ h₂ h₃
    rw [if_pos hfits]

theorem drain_body (pos : ℕ) {m : M} {head body : ℕ} (h : F.verdict buffer = .frame m head body)
    (hlong : buffer.length < head + body) :
    F.drain pos buffer =
      ([], .body pos m (pos + (head + body)) (head + body - buffer.length)) := by
  have hpos := F.head_pos h
  have hne : buffer ≠ [] := by
    rintro rfl
    rw [List.length_nil] at hpos
    omega
  rw [Framing.drain, dif_neg hne]
  split
  · simp_all
  · simp_all
  · rename_i h'
    rw [h] at h'
    injection h' with h₁ h₂ h₃
    subst h₁ h₂ h₃
    rw [if_neg (by omega)]

/-! ## When pieces do not matter -/

variable (F)

/-- What a verdict comes to in the end. -/
inductive Outcome (M : Type*) where
  | skip
  | stop
  | frame (message : M) (size : ℕ)

/-- What the verdict on the first `n` bytes comes to, when all bytes will be `rest`: a frame that they do not
complete is never reported. -/
def outcomeAt (rest : List α) (n : ℕ) : Option (Outcome M) :=
  match F.verdict (rest.take n) with
  | .wait => none
  | .skip => some .skip
  | .frame m head body =>
    some (if head + body ≤ rest.length then .frame m (head + body) else .stop)

/-- What the verdict on all bytes comes to. -/
def outcome (rest : List α) : Outcome M := (F.outcomeAt rest rest.length).getD .stop

/-- No beginning of the bytes leads to another outcome than all of them. -/
def Agrees (rest : List α) : Prop :=
  ∀ n, 0 < n → n ≤ rest.length → ∀ o, F.outcomeAt rest n = some o → o = F.outcome rest

/-- Only all of the bytes lead to an outcome. -/
def NeedsAll (rest : List α) : Prop := ∀ n, 0 < n → n < rest.length → F.outcomeAt rest n = none

/-- At each frame start of the bytes, as they are framed when they come as a whole, no beginning of what
remains leads to another outcome than all of it. This ends where all of the bytes are needed: what is after
that is only ever seen as a whole. -/
inductive Steady : List α → Prop where
  | nil : Steady []
  | needsAll {rest : List α} : rest ≠ [] → F.NeedsAll rest → Steady rest
  | stop {rest : List α} : rest ≠ [] → F.Agrees rest → F.outcome rest = .stop → Steady rest
  | skip {rest : List α} : rest ≠ [] → F.Agrees rest → F.outcome rest = .skip →
      Steady rest.tail → Steady rest
  | frame {rest : List α} {m : M} {size : ℕ} : rest ≠ [] → F.Agrees rest →
      F.outcome rest = .frame m size → Steady (rest.drop size) → Steady rest

variable {F}

theorem outcomeAt_wait {rest : List α} {n : ℕ} :
    F.outcomeAt rest n = none ↔ F.verdict (rest.take n) = .wait := by
  unfold outcomeAt
  split <;> simp_all

variable (F) in
/-- Draining all bytes, by the outcome. -/
theorem drain_of_outcome (pos : ℕ) {rest : List α} (hne : rest ≠ []) :
    match F.outcome rest with
    | .stop => (F.drain pos rest).1 = []
    | .skip => F.drain pos rest = F.drain (pos + 1) rest.tail
    | .frame m size => 0 < size ∧ size ≤ rest.length ∧ (F.drain pos rest).1 =
        (pos, m) :: (F.drain (pos + size) (rest.drop size)).1 := by
  unfold outcome outcomeAt
  rw [List.take_length]
  cases h : F.verdict rest with
  | wait =>
    simp only [Option.getD_none]
    rw [drain_wait pos h]
  | skip =>
    simp only [Option.getD_some]
    exact drain_skip pos hne h
  | frame m head body =>
    have hpos := F.head_pos h
    simp only [Option.getD_some]
    by_cases hfits : head + body ≤ rest.length
    · rw [if_pos hfits]
      simp only
      exact ⟨by omega, hfits, by rw [drain_frame pos h hfits]⟩
    · rw [if_neg hfits]
      simp only
      rw [drain_body pos h (by omega)]

/-- What is still to come of a steady stream: the state is in line with the bytes that will arrive. -/
def Expects : FrameState α M → List α → List (ℕ × M) → Prop
  | .start pos buffer, rest, expected =>
    if rest = [] then expected = []
    else F.Steady (buffer ++ rest) ∧ expected = (F.drain pos (buffer ++ rest)).1
  | .body pos m next remaining, rest, expected =>
    0 < remaining ∧
      if remaining ≤ rest.length then
        F.Steady (rest.drop remaining) ∧
          expected = (pos, m) :: (F.drain next (rest.drop remaining)).1
      else expected = []

/-- What is to come of bytes that are kept, when more arrive. -/
theorem expects_start {pos : ℕ} {buffer rest : List α} {expected : List (ℕ × M)} (hrest : rest ≠ []) :
    F.Expects (.start pos buffer) rest expected ↔
      F.Steady (buffer ++ rest) ∧ expected = (F.drain pos (buffer ++ rest)).1 := by
  simp [Expects, hrest]

/-- When no bytes are left, no frames are. -/
theorem expects_nil (pos : ℕ) (buffer : List α) : F.Expects (F.drain pos buffer).2 [] [] := by
  induction hlen : buffer.length using Nat.strongRecOn generalizing pos buffer with
  | ind len ih =>
    by_cases hnil : buffer = []
    · subst hnil
      rw [drain_nil]
      rfl
    cases hverdict : F.verdict buffer with
    | wait =>
      rw [drain_wait pos hverdict]
      rfl
    | skip =>
      have hpos := List.length_pos_iff.mpr hnil
      rw [drain_skip pos hnil hverdict]
      exact ih _ (by rw [List.length_tail]; omega) _ _ rfl
    | frame m head body =>
      have hhead := F.head_pos hverdict
      by_cases hfits : head + body ≤ buffer.length
      · rw [drain_frame pos hverdict hfits]
        exact ih _ (by rw [List.length_drop]; omega) _ _ rfl
      · rw [drain_body pos hverdict (by omega)]
        refine ⟨by omega, ?_⟩
        rw [if_neg (by rw [List.length_nil]; omega)]

/-- The verdict on a beginning comes to what the whole comes to. -/
theorem Agrees.outcome_eq {buffer rest : List α} (h : F.Agrees (buffer ++ rest)) (hne : buffer ≠ []) :
    match F.verdict buffer with
    | .wait => True
    | .skip => F.outcome (buffer ++ rest) = .skip
    | .frame m head body => F.outcome (buffer ++ rest) =
        if head + body ≤ buffer.length + rest.length then .frame m (head + body) else .stop := by
  have hagrees := h buffer.length (List.length_pos_iff.mpr hne) (by simp)
  unfold outcomeAt at hagrees
  rw [List.take_left, List.length_append] at hagrees
  cases hverdict : F.verdict buffer with
  | wait => trivial
  | skip =>
    simp only [hverdict] at hagrees
    exact (hagrees _ rfl).symm
  | frame m head body =>
    simp only [hverdict] at hagrees
    exact (hagrees _ rfl).symm

/-- What steadiness says of the first frame: a part of the bytes waits, or all is in line with the whole. -/
theorem Steady.cases_append {buffer rest : List α} (h : F.Steady (buffer ++ rest)) (hne : buffer ≠ [])
    (hrest : rest ≠ []) :
    F.verdict buffer = .wait ∨ (F.Agrees (buffer ++ rest) ∧
      match F.outcome (buffer ++ rest) with
      | .stop => True
      | .skip => F.Steady (buffer ++ rest).tail
      | .frame _ size => F.Steady ((buffer ++ rest).drop size)) := by
  generalize hwhole : buffer ++ rest = whole at h ⊢
  cases h with
  | nil => exact absurd hwhole (by simp [hne])
  | needsAll _ hall =>
    left
    have hlength := congrArg List.length hwhole
    rw [List.length_append] at hlength
    have hpos := List.length_pos_iff.mpr hne
    have hpos' := List.length_pos_iff.mpr hrest
    have hwait := outcomeAt_wait.mp (hall buffer.length hpos (by omega))
    rwa [← hwhole, List.take_left] at hwait
  | stop _ hagrees ho => exact .inr ⟨hagrees, by simp [ho]⟩
  | skip _ hagrees ho htail => exact .inr ⟨hagrees, by simpa [ho] using htail⟩
  | frame _ hagrees ho hdrop => exact .inr ⟨hagrees, by simpa [ho] using hdrop⟩

/-- Draining the beginning of a steady stream makes the first of its frames. -/
theorem drain_expects (pos : ℕ) (buffer rest : List α) (h : F.Steady (buffer ++ rest)) :
    ∃ expected, (F.drain pos (buffer ++ rest)).1 = (F.drain pos buffer).1 ++ expected ∧
      F.Expects (F.drain pos buffer).2 rest expected := by
  by_cases hrest : rest = []
  · subst hrest
    refine ⟨[], by rw [List.append_nil, List.append_nil], ?_⟩
    exact expects_nil pos buffer
  induction hlen : buffer.length using Nat.strongRecOn generalizing pos buffer with
  | ind len ih =>
    by_cases hnil : buffer = []
    · subst hnil
      rw [drain_nil]
      exact ⟨(F.drain pos rest).1, rfl, (expects_start hrest).mpr ⟨h, rfl⟩⟩
    have hne : buffer ++ rest ≠ [] := by simp [hnil]
    have hpos := List.length_pos_iff.mpr hnil
    have hwait : F.verdict buffer = .wait → ∃ expected,
        (F.drain pos (buffer ++ rest)).1 = (F.drain pos buffer).1 ++ expected ∧
          F.Expects (F.drain pos buffer).2 rest expected := by
      intro hwait
      rw [drain_wait pos hwait]
      exact ⟨_, rfl, (expects_start hrest).mpr ⟨h, rfl⟩⟩
    rcases h.cases_append hnil hrest with hverdict | ⟨hagrees, hnext⟩
    · exact hwait hverdict
    have houtcome := hagrees.outcome_eq hnil
    have hwhole := drain_of_outcome F pos hne
    cases hverdict : F.verdict buffer with
    | wait => exact hwait hverdict
    | skip =>
      simp only [hverdict] at houtcome
      simp only [houtcome] at hwhole hnext
      rw [List.tail_append_of_ne_nil hnil] at hwhole hnext
      rw [hwhole, drain_skip pos hnil hverdict]
      exact ih _ (by rw [List.length_tail]; omega) (pos + 1) buffer.tail hnext rfl
    | frame m head body =>
      have hhead := F.head_pos hverdict
      simp only [hverdict] at houtcome
      by_cases hfits : head + body ≤ buffer.length
      · rw [if_pos (by omega)] at houtcome
        simp only [houtcome] at hwhole hnext
        obtain ⟨-, -, hdrain⟩ := hwhole
        rw [List.drop_append_of_le_length hfits] at hdrain hnext
        rw [hdrain, drain_frame pos hverdict hfits]
        obtain ⟨expected, heq, hexpects⟩ := ih _ (by rw [List.length_drop]; omega)
          (pos + (head + body)) (buffer.drop (head + body)) hnext rfl
        refine ⟨expected, ?_, hexpects⟩
        rw [heq, List.cons_append]
      · rw [drain_body pos hverdict (by omega)]
        by_cases hall : head + body ≤ buffer.length + rest.length
        · rw [if_pos hall] at houtcome
          simp only [houtcome] at hwhole hnext
          obtain ⟨-, -, hdrain⟩ := hwhole
          rw [List.drop_append, List.drop_eq_nil_of_le (by omega), List.nil_append] at hdrain hnext
          refine ⟨_, hdrain, by omega, ?_⟩
          rw [if_pos (by omega)]
          exact ⟨hnext, rfl⟩
        · rw [if_neg hall] at houtcome
          simp only [houtcome] at hwhole
          refine ⟨[], hwhole, by omega, ?_⟩
          rw [if_neg (by omega)]

/-- A piece makes the next of the frames expected. -/
theorem feed_expects {state : FrameState α M} {piece rest : List α} {expected : List (ℕ × M)}
    (hpiece : piece ≠ []) (h : F.Expects state (piece ++ rest) expected) :
    ∃ expected', expected = (F.feed state piece).1 ++ expected' ∧
      F.Expects (F.feed state piece).2 rest expected' := by
  cases state with
  | start pos buffer =>
    obtain ⟨hsteady, rfl⟩ := (expects_start (by simp [hpiece])).mp h
    simp only [feed]
    rw [← List.append_assoc] at hsteady ⊢
    exact drain_expects pos (buffer ++ piece) rest hsteady
  | body pos m next remaining =>
    obtain ⟨hpos, hbody⟩ := h
    rw [List.length_append] at hbody
    simp only [feed]
    by_cases hdone : remaining ≤ piece.length
    · rw [if_pos (by omega), List.drop_append_of_le_length hdone] at hbody
      obtain ⟨hsteady, rfl⟩ := hbody
      obtain ⟨expected', heq, hexpects⟩ := drain_expects next (piece.drop remaining) rest hsteady
      rw [if_pos hdone]
      exact ⟨expected', by rw [heq, List.cons_append], hexpects⟩
    · rw [if_neg hdone]
      refine ⟨expected, rfl, by omega, ?_⟩
      by_cases hall : remaining ≤ piece.length + rest.length
      · rw [if_pos hall, List.drop_append, List.drop_eq_nil_of_le (by omega),
          List.nil_append] at hbody
        rw [if_pos (by omega)]
        exact hbody
      · rw [if_neg hall] at hbody
        rw [if_neg (by omega)]
        exact hbody

/-- The pieces of a steady stream make the frames expected. -/
theorem framesFrom_of_expects {state : FrameState α M} {pieces : List (List α)}
    {expected : List (ℕ × M)} (hpieces : ∀ p ∈ pieces, p ≠ [])
    (h : F.Expects state pieces.flatten expected) : F.framesFrom state pieces = expected := by
  induction pieces generalizing state expected with
  | nil =>
    cases state with
    | start pos buffer => exact h.symm
    | body pos m next remaining =>
      obtain ⟨hpos, hbody⟩ := h
      rw [if_neg (by rw [List.flatten_nil, List.length_nil]; omega)] at hbody
      exact hbody.symm
  | cons piece pieces ih =>
    rw [List.flatten_cons] at h
    obtain ⟨expected', rfl, hexpects⟩ := feed_expects (hpieces piece List.mem_cons_self) h
    unfold framesFrom
    rw [ih (fun p hp => hpieces p (List.mem_cons_of_mem piece hp)) hexpects]

/-- However a steady stream is cut, it is framed as when it comes as a whole. -/
theorem frames_of_steady {S : List α} (h : F.Steady S) {pieces : List (List α)}
    (hpieces : ∀ p ∈ pieces, p ≠ []) (hflatten : pieces.flatten = S) :
    F.frames pieces = (F.drain 0 S).1 := by
  refine framesFrom_of_expects hpieces ?_
  rw [hflatten]
  by_cases hS : S = []
  · rw [hS, drain_nil]
    rfl
  · exact (expects_start hS).mpr ⟨h, rfl⟩

/-! ## When they do -/

/-- The laws under which a stream that is not steady can be cut so that it is framed otherwise. Skipping is
final, and bytes that wait although all of them would be skipped hold no frame; a frame that is there with its
body is seen without what follows, unless its message tells that all bytes were seen; and a message tells the
size of its frame. -/
structure Lawful (F : Framing α M) : Prop where
  skip_append : ∀ {b c : List α}, b ≠ [] → F.verdict b = .skip → F.verdict (b ++ c) = .skip
  of_skip_append : ∀ {b c : List α}, b ≠ [] → F.verdict (b ++ c) = .skip →
    F.verdict b = .skip ∨ ∀ j < b.length, F.verdict (b.drop j) = .wait ∨ F.verdict (b.drop j) = .skip
  settled : ∀ {b c : List α} {m : M} {head body : ℕ}, F.verdict (b ++ c) = .frame m head body →
    head + body ≤ b.length → F.verdict b ≠ .wait ∨
      ∀ (b' c' : List α) {head' body' : ℕ}, b' ++ c' = b ++ c → c' ≠ [] →
        F.verdict b' ≠ .frame m head' body'
  size_eq : ∀ {b c : List α} {m : M} {head body head' body' : ℕ}, F.verdict b = .frame m head body →
    F.verdict (b ++ c) = .frame m head' body' → head + body = head' + body'

/-- Two pieces. -/
theorem framesFrom_pair (pos : ℕ) (b c : List α) :
    F.framesFrom (.start pos []) [b, c] =
      (F.drain pos b).1 ++ (F.feed (F.drain pos b).2 c).1 := by
  simp [framesFrom, feed]

/-- A piece without a frame in it changes nothing. -/
theorem framesFrom_quiet (hlawful : F.Lawful) (pos : ℕ) {b : List α} (c : List α)
    (hquiet : ∀ j < b.length, F.verdict (b.drop j) = .wait ∨ F.verdict (b.drop j) = .skip) :
    F.framesFrom (.start pos []) [b, c] = (F.drain pos (b ++ c)).1 := by
  rw [framesFrom_pair]
  induction b generalizing pos with
  | nil =>
    rw [drain_nil]
    simp [feed]
  | cons x b ih =>
    rcases hquiet 0 (by simp) with hwait | hskip
    · rw [List.drop_zero] at hwait
      rw [drain_wait pos hwait]
      simp [feed]
    · rw [List.drop_zero] at hskip
      have hall : F.verdict (x :: b ++ c) = .skip :=
        hlawful.skip_append (List.cons_ne_nil x b) hskip
      rw [drain_skip pos (List.cons_ne_nil x b) hskip, drain_skip pos (by simp) hall]
      refine ih (pos + 1) fun j hj => ?_
      have := hquiet (j + 1) (by rw [List.length_cons]; omega)
      rwa [List.drop_succ_cons] at this

/-- A beginning that leads to another outcome makes other frames when it comes first. -/
theorem framesFrom_of_outcomeAt (hlawful : F.Lawful) (pos : ℕ) {b c : List α} (hne : b ≠ [])
    {o : Outcome M} (hat : F.outcomeAt (b ++ c) b.length = some o) (ho : o ≠ F.outcome (b ++ c)) :
    F.framesFrom (.start pos []) [b, c] ≠ (F.drain pos (b ++ c)).1 := by
  have hall : b ++ c ≠ [] := by simp [hne]
  have hwhole := drain_of_outcome F pos hall
  have houtcome : F.outcome (b ++ c) = (F.outcomeAt (b ++ c) (b ++ c).length).getD .stop := rfl
  unfold outcomeAt at hat houtcome
  rw [List.take_left] at hat
  rw [List.take_length] at houtcome
  rw [framesFrom_pair]
  cases hverdict : F.verdict b with
  | wait => simp [hverdict] at hat
  | skip =>
    simp only [hverdict, Option.some.injEq] at hat
    simp only [hlawful.skip_append hne hverdict, Option.getD_some] at houtcome
    exact absurd (hat.symm.trans houtcome.symm) ho
  | frame m head body =>
    simp only [hverdict, Option.some.injEq] at hat
    have hnoskip : F.verdict (b ++ c) ≠ .skip := by
      intro hskip
      rcases hlawful.of_skip_append hne hskip with h | h
      · simp [hverdict] at h
      · have := h 0 (List.length_pos_iff.mpr hne)
        simp [hverdict] at this
    by_cases hfits : head + body ≤ (b ++ c).length
    · rw [if_pos hfits] at hat
      rw [List.length_append] at hfits
      -- The two pieces report this frame first.
      have hfirst : ∃ more, (F.drain pos b).1 ++ (F.feed (F.drain pos b).2 c).1 = (pos, m) :: more := by
        by_cases hhere : head + body ≤ b.length
        · rw [drain_frame pos hverdict hhere]
          exact ⟨_, rfl⟩
        · rw [drain_body pos hverdict (by omega)]
          simp only [feed]
          rw [if_pos (by omega)]
          exact ⟨_, rfl⟩
      obtain ⟨more, hmore⟩ := hfirst
      rw [hmore]
      cases hw : F.verdict (b ++ c) with
      | wait =>
        simp only [hw, Option.getD_none] at houtcome
        simp only [houtcome] at hwhole
        rw [hwhole]
        exact List.cons_ne_nil _ _
      | skip => exact absurd hw hnoskip
      | frame m' head' body' =>
        simp only [hw, Option.getD_some] at houtcome
        intro heq
        rw [← heq] at hwhole
        split_ifs at houtcome with hfits'
        · simp only [houtcome] at hwhole
          obtain ⟨-, -, hcons⟩ := hwhole
          injection hcons with hcons _
          injection hcons with _ hm
          subst hm
          rw [houtcome, ← hat, hlawful.size_eq hverdict hw] at ho
          exact ho rfl
        · simp only [houtcome] at hwhole
          exact absurd hwhole (List.cons_ne_nil _ _)
    · rw [if_neg hfits] at hat
      rw [List.length_append] at hfits
      rw [drain_body pos hverdict (by omega)]
      simp only [feed]
      rw [if_neg (by omega), List.append_nil]
      intro heq
      rw [← heq] at hwhole
      cases hw : F.outcome (b ++ c) with
      | stop => exact ho (hat.symm.trans hw.symm)
      | skip =>
        cases hv : F.verdict (b ++ c) with
        | wait => simp [hv, hw] at houtcome
        | skip => exact hnoskip hv
        | frame m' head' body' =>
          simp only [hv, hw, Option.getD_some] at houtcome
          split_ifs at houtcome
      | frame m' size =>
        simp only [hw] at hwhole
        exact absurd hwhole.2.2.symm (List.cons_ne_nil _ _)

/-- A stream that is not steady is framed otherwise when it is cut at some place. -/
theorem exists_cut (hlawful : F.Lawful) (pos : ℕ) {rest : List α} (h : ¬ F.Steady rest) :
    ∃ b c, b ≠ [] ∧ c ≠ [] ∧ b ++ c = rest ∧
      F.framesFrom (.start pos []) [b, c] ≠ (F.drain pos rest).1 := by
  induction hlen : rest.length using Nat.strongRecOn generalizing pos rest with
  | ind len ih =>
    have hne : rest ≠ [] := by
      rintro rfl
      exact h .nil
    by_cases hagrees : F.Agrees rest
    · have hpart : ∃ n, 0 < n ∧ n < rest.length ∧ F.outcomeAt rest n ≠ none := by
        by_contra hall
        push Not at hall
        exact h (.needsAll hne hall)
      have hwhole := drain_of_outcome F pos hne
      have houtcome : F.outcome rest = (F.outcomeAt rest rest.length).getD .stop := rfl
      unfold outcomeAt at houtcome
      rw [List.take_length] at houtcome
      cases ho : F.outcome rest with
      | stop => exact absurd (.stop hne hagrees ho) h
      | skip =>
        have hverdict : F.verdict rest = .skip := by
          cases hv : F.verdict rest with
          | wait => simp [hv, ho] at houtcome
          | skip => rfl
          | frame m head body =>
            simp only [hv, ho, Option.getD_some] at houtcome
            split_ifs at houtcome
        simp only [ho] at hwhole
        obtain ⟨x, tail, rfl⟩ := List.exists_cons_of_ne_nil hne
        rw [List.tail_cons] at hwhole
        rw [List.length_cons] at hlen
        obtain ⟨b, c, hb, hc, rfl, hcut⟩ := ih tail.length (by omega) (pos + 1)
          (fun htail => h (.skip hne hagrees ho htail)) rfl
        refine ⟨x :: b, c, by simp, hc, rfl, ?_⟩
        rw [hwhole]
        have hpiece : x :: b ≠ [] := List.cons_ne_nil x b
        rcases hlawful.of_skip_append hpiece hverdict with hskip | hquiet
        · rw [framesFrom_pair, drain_skip pos (by simp) hskip, List.tail_cons, ← framesFrom_pair]
          exact hcut
        · refine absurd (framesFrom_quiet hlawful (pos + 1) c fun j hj => ?_) hcut
          have := hquiet (j + 1) (by rw [List.length_cons]; omega)
          rwa [List.drop_succ_cons] at this
      | frame m size =>
        simp only [ho] at hwhole
        obtain ⟨hpos, hsize, hdrain⟩ := hwhole
        obtain ⟨b, c, hb, hc, hsplit, hcut⟩ := ih (rest.drop size).length
          (by rw [List.length_drop]; omega) (pos + size)
          (fun hdrop => h (.frame hne hagrees ho hdrop)) rfl
        have hrest : (rest.take size ++ b) ++ c = rest := by
          rw [List.append_assoc, hsplit, List.take_append_drop]
        have hlength : (rest.take size ++ b).length = size + b.length := by
          rw [List.length_append, List.length_take, Nat.min_eq_left hsize]
        refine ⟨rest.take size ++ b, c, by simp [hb], hc, hrest, ?_⟩
        have hle : size + b.length ≤ rest.length := by
          have := congrArg List.length hrest
          rw [List.length_append, hlength] at this
          omega
        have htake : rest.take (size + b.length) = rest.take size ++ b := by
          have htake : ((rest.take size ++ b) ++ c).take (rest.take size ++ b).length =
              rest.take size ++ b := List.take_left
          rwa [hrest, hlength] at htake
        have hat := hagrees (size + b.length) (by omega) hle
        unfold outcomeAt at hat
        rw [htake, ho] at hat
        -- The first piece holds this frame, and the verdict on it is the same.
        have hfirst : F.framesFrom (.start pos []) [rest.take size ++ b, c] =
            (pos, m) :: F.framesFrom (.start (pos + size) []) [b, c] := by
          rw [framesFrom_pair, framesFrom_pair]
          cases hv : F.verdict (rest.take size ++ b) with
          | wait =>
            exfalso
            cases hvr : F.verdict rest with
            | wait => simp [hvr, ho] at houtcome
            | skip => simp [hvr, ho] at houtcome
            | frame m' head body =>
              simp only [hvr, ho, Option.getD_some] at houtcome
              split_ifs at houtcome
              injection houtcome with hm hs
              subst hm
              have hvr' := hvr
              rw [← hrest] at hvr'
              rcases hlawful.settled hvr' (by rw [hlength]; omega) with hseen | hnever
              · exact hseen hv
              · -- Some part of the bytes leads to the same message.
                obtain ⟨n, hn, hnlt, hsome⟩ := hpart
                have hsame := hagrees n hn (Nat.le_of_lt hnlt)
                unfold outcomeAt at hsome hsame
                cases hvn : F.verdict (rest.take n) with
                | wait => simp [hvn] at hsome
                | skip =>
                  simp only [hvn] at hsame
                  have := hsame _ rfl
                  simp [ho] at this
                | frame m' head' body' =>
                  simp only [hvn] at hsame
                  have heq := hsame _ rfl
                  rw [ho] at heq
                  split_ifs at heq
                  injection heq with hm' _
                  subst hm'
                  refine hnever (rest.take n) (rest.drop n) (by rw [List.take_append_drop, hrest]) ?_ hvn
                  rw [← List.length_pos_iff, List.length_drop]
                  omega
          | skip =>
            simp only [hv] at hat
            exact absurd (hat _ rfl) (by simp)
          | frame m' head body =>
            simp only [hv] at hat
            have heq := hat _ rfl
            split_ifs at heq with hfits
            injection heq with hm hs
            subst hm
            rw [drain_frame pos hv (by omega), hs, List.drop_left' (by
              rw [List.length_take, Nat.min_eq_left hsize])]
            rfl
        rw [hfirst, hdrain, ← hsplit]
        intro heq
        injection heq with _ heq
        rw [hsplit] at heq
        exact hcut heq
    · unfold Agrees at hagrees
      push Not at hagrees
      obtain ⟨n, hpos, hle, o, hat, ho⟩ := hagrees
      have hlt : n ≠ rest.length := by
        rintro rfl
        unfold outcome at ho
        rw [hat] at ho
        exact ho rfl
      have hlength : (rest.take n).length = n := by rw [List.length_take, Nat.min_eq_left hle]
      obtain ⟨b, c, rfl, hb⟩ : ∃ b c, rest = b ++ c ∧ b.length = n :=
        ⟨rest.take n, rest.drop n, (List.take_append_drop n rest).symm, hlength⟩
      subst hb
      rw [List.length_append] at hlt
      exact ⟨b, c, List.length_pos_iff.mp hpos, List.length_pos_iff.mp (by omega), rfl,
        framesFrom_of_outcomeAt hlawful pos (List.length_pos_iff.mp hpos) hat ho⟩

/-- The pieces never matter exactly for the steady streams. -/
theorem frames_eq_iff_steady (hlawful : F.Lawful) (S : List α) :
    (∀ pieces pieces' : List (List α), (∀ p ∈ pieces, p ≠ []) → (∀ p ∈ pieces', p ≠ []) →
      pieces.flatten = S → pieces'.flatten = S → F.frames pieces = F.frames pieces') ↔
        F.Steady S := by
  constructor
  · intro h
    by_contra hsteady
    obtain ⟨b, c, hb, hc, rfl, hcut⟩ := exists_cut hlawful 0 hsteady
    have hone := h [b, c] [b ++ c] (by simp [hb, hc]) (by simp [hb]) (by simp) (by simp)
    have hwhole : F.frames [b ++ c] = (F.drain 0 (b ++ c)).1 := by
      simp [frames, framesFrom, feed]
    exact hcut (hone.trans hwhole)
  · intro h pieces pieces' hne hne' hpieces hpieces'
    rw [frames_of_steady h hne hpieces, frames_of_steady h hne' hpieces']

end Framing

end Rustmate
