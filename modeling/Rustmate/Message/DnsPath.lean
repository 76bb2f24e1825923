import Rustmate.Message.Dns

/-!
# The path of a DNS name

What it means to follow a name from some place of a message: label after label, and from a pointer on at the
place it points to, up to the root. `read_dns_name` returns a name exactly when there is such a path with no
more than `maxDnsNameJumps` pointers on it, and the path says what it returns. -/

namespace Rustmate.Message

/-- A name can be followed from an offset: the bytes of its labels, how many pointers are on the way, and the
offset behind the first pointer, or behind the root if there is none. -/
inductive NamePath (message : List UInt8) : ℕ → List (List UInt8) → ℕ → ℕ → Prop
  | root {offset : ℕ} (hbyte : message[offset]? = some 0) : NamePath message offset [] 0 (offset + 1)
  | label {offset jumps finish : ℕ} {len : UInt8} {labels : List (List UInt8)}
      (hbyte : message[offset]? = some len) (hpos : 1 ≤ len.toNat) (hle : len.toNat ≤ 63)
      (hinside : offset + 1 + len.toNat ≤ message.length)
      (hrest : NamePath message (offset + 1 + len.toNat) labels jumps finish) :
      NamePath message offset ((message.drop (offset + 1)).take len.toNat :: labels) jumps finish
  | pointer {offset jumps finish : ℕ} {high low : UInt8} {labels : List (List UInt8)}
      (hbyte : message[offset]? = some high) (hhigh : 192 ≤ high.toNat) (hbyte' : message[offset + 1]? = some low)
      (htarget : high.toNat % 64 * 256 + low.toNat < message.length)
      (hrest : NamePath message (high.toNat % 64 * 256 + low.toNat) labels jumps finish) :
      NamePath message offset labels (jumps + 1) (offset + 2)

/-- The text of a path: its labels with dots between, and one dot when there are none. -/
def pathText (labels : List (List UInt8)) : Text := joinLabels (labels.map fromUtf8Lossy)

/-- The two high bits of a byte tell a length from a pointer. -/
theorem length_form (len : UInt8) :
    (len &&& 0xc0 = 0xc0 ↔ 192 ≤ len.toNat) ∧ (len &&& 0xc0 = 0 ↔ len.toNat ≤ 63) := by
  have hall : ∀ n < 256, (UInt8.ofNat n &&& 0xc0 = 0xc0 ↔ 192 ≤ n) ∧ (UInt8.ofNat n &&& 0xc0 = 0 ↔ n ≤ 63) := by
    decide +kernel
  have hbyte := hall len.toNat len.toNat_lt
  rwa [UInt8.ofNat_toNat] at hbyte

/-- The number that the two bytes of a pointer make. -/
theorem pointer_target (high low : UInt8) :
    ((high &&& 0x3f).toNat <<< 8) ||| low.toNat = high.toNat % 64 * 256 + low.toNat := by
  have hmask : (high &&& 0x3f).toNat = high.toNat % 64 := by
    rw [UInt8.toNat_and]
    exact Nat.and_two_pow_sub_one_eq_mod high.toNat 6
  have hlow : low.toNat < 2^8 := low.toNat_lt
  rw [hmask, ← Nat.shiftLeft_add_eq_or_of_lt hlow, Nat.shiftLeft_eq]

variable {message : List UInt8} {offset jumps finish : ℕ} {labels : List (List UInt8)}

/-- What is read next stands behind the offset, and no further than the end of the message. -/
theorem NamePath.finish_bounds (h : NamePath message offset labels jumps finish) :
    offset < finish ∧ finish ≤ message.length := by
  induction h with
  | root hbyte =>
    have hinside := (List.getElem?_eq_some_iff.mp hbyte).1
    constructor
    · omega
    · omega
  | label hbyte hpos hle hinside hrest ih =>
    obtain ⟨hbehind, hend⟩ := ih
    constructor
    · omega
    · exact hend
  | pointer hbyte hhigh hbyte' htarget hrest ih =>
    have hinside := (List.getElem?_eq_some_iff.mp hbyte').1
    constructor
    · omega
    · omega

/-! ## The loop -/

/-- One turn of the loop at a zero byte. -/
theorem readNameLoop_root (hbyte : message[offset]? = some 0) (fuel : ℕ) (before : List Text)
    (next_offset : Option ℕ) (taken : ℕ) :
    readNameLoop message (fuel + 1) offset before next_offset taken =
      .ok (joinLabels before, next_offset.getD (offset + 1)) := by
  have hlow : (0 : UInt8) &&& 0xc0 = 0 := by decide
  have hnot : (0 : UInt8) ≠ 0xc0 := by decide
  unfold readNameLoop
  rw [hbyte]
  simp only [hlow, hnot, if_false, ne_eq, not_true_eq_false, if_true]

/-- One turn of the loop at a label. -/
theorem readNameLoop_label {len : UInt8} (hbyte : message[offset]? = some len) (hpos : 1 ≤ len.toNat)
    (hle : len.toNat ≤ 63) (fuel : ℕ) (before : List Text) (next_offset : Option ℕ) (taken : ℕ) :
    readNameLoop message (fuel + 1) offset before next_offset taken =
      if message.length < offset + 1 + len.toNat then .error "dns label is truncated".toList
      else
        readNameLoop message fuel (offset + 1 + len.toNat)
          (before ++ [fromUtf8Lossy ((message.drop (offset + 1)).take len.toNat)]) next_offset taken := by
  have hlow : len &&& 0xc0 = 0 := (length_form len).2.mpr hle
  have hnot : (0 : UInt8) ≠ 0xc0 := by decide
  have hzero : len ≠ 0 := by
    rintro rfl
    exact absurd hpos (by decide)
  have hshort : ¬ 63 < len.toNat := by omega
  conv_lhs => unfold readNameLoop
  rw [hbyte]
  simp only [hlow, hnot, if_false, ne_eq, not_true_eq_false, hzero, hshort, decide_false, Bool.false_or,
    decide_eq_true_eq]

/-- One turn of the loop at a pointer. -/
theorem readNameLoop_pointer {high low : UInt8} (hbyte : message[offset]? = some high) (hhigh : 192 ≤ high.toNat)
    (hbyte' : message[offset + 1]? = some low) (fuel : ℕ) (before : List Text) (next_offset : Option ℕ) (taken : ℕ) :
    readNameLoop message (fuel + 1) offset before next_offset taken =
      if message.length ≤ high.toNat % 64 * 256 + low.toNat then
        .error "dns compression pointer is out of range".toList
      else if maxDnsNameJumps < taken + 1 then .error "dns compression pointer loop".toList
      else
        readNameLoop message fuel (high.toNat % 64 * 256 + low.toNat) before
          (some (next_offset.getD (offset + 2))) (taken + 1) := by
  have hform : high &&& 0xc0 = 0xc0 := (length_form high).1.mpr hhigh
  conv_lhs => unfold readNameLoop
  rw [hbyte]
  simp only [hform, if_true, hbyte', pointer_target]

/-- A byte is the root, a label's length, a pointer's first byte or of a reserved form. -/
theorem byte_forms (len : UInt8) :
    len = 0 ∨ (1 ≤ len.toNat ∧ len.toNat ≤ 63) ∨ 192 ≤ len.toNat ∨ (63 < len.toNat ∧ len.toNat < 192) := by
  by_cases hzero : len.toNat = 0
  · exact .inl (UInt8.toNat_inj.mp hzero)
  · right
    omega

/-- The fuel that the loop still needs: a walk through the message for every jump that may come, and what is
left of the present one. -/
def NeedsFuel (message : List UInt8) (offset taken fuel : ℕ) : Prop :=
  (maxDnsNameJumps - taken) * (message.length + 2) + (message.length - offset) < fuel

/-- A label is paid for by the bytes that it takes. -/
theorem NeedsFuel.label {taken fuel len : ℕ} (h : NeedsFuel message offset taken (fuel + 1))
    (hinside : offset + 1 + len ≤ message.length) : NeedsFuel message (offset + 1 + len) taken fuel := by
  unfold NeedsFuel at h ⊢
  omega

/-- A jump is paid for by one walk through the message. -/
theorem NeedsFuel.jump {taken fuel target : ℕ} (h : NeedsFuel message offset taken (fuel + 1))
    (hjumps : taken + 1 ≤ maxDnsNameJumps) : NeedsFuel message target (taken + 1) fuel := by
  unfold NeedsFuel at h ⊢
  have hwalk : (maxDnsNameJumps - taken) * (message.length + 2) =
      (maxDnsNameJumps - (taken + 1)) * (message.length + 2) + (message.length + 2) := by
    rw [← Nat.succ_mul]
    congr 1
    omega
  omega

/-- The fuel of `read_dns_name` is enough at its beginning. -/
theorem needsFuel_nameFuel (message : List UInt8) (offset : ℕ) :
    NeedsFuel message offset 0 (nameFuel message) := by
  unfold NeedsFuel nameFuel
  rw [Nat.sub_zero, Nat.succ_mul]
  omega

/-- The loop follows a path to its end. -/
theorem readNameLoop_of_path (h : NamePath message offset labels jumps finish) {fuel taken : ℕ}
    (hjumps : taken + jumps ≤ maxDnsNameJumps) (hfuel : NeedsFuel message offset taken fuel)
    (before : List Text) (next_offset : Option ℕ) :
    readNameLoop message fuel offset before next_offset taken =
      .ok (joinLabels (before ++ labels.map fromUtf8Lossy), next_offset.getD finish) := by
  induction h generalizing fuel taken before next_offset with
  | root hbyte =>
    obtain ⟨fuel, rfl⟩ := Nat.exists_eq_succ_of_ne_zero (Nat.ne_zero_of_lt hfuel)
    rw [readNameLoop_root hbyte, List.map_nil, List.append_nil]
  | label hbyte hpos hle hinside hrest ih =>
    obtain ⟨fuel, rfl⟩ := Nat.exists_eq_succ_of_ne_zero (Nat.ne_zero_of_lt hfuel)
    rw [readNameLoop_label hbyte hpos hle, if_neg (by omega), ih hjumps (hfuel.label hinside), List.map_cons,
      List.append_assoc, List.singleton_append]
  | pointer hbyte hhigh hbyte' htarget hrest ih =>
    obtain ⟨fuel, rfl⟩ := Nat.exists_eq_succ_of_ne_zero (Nat.ne_zero_of_lt hfuel)
    rw [readNameLoop_pointer hbyte hhigh hbyte', if_neg (by omega), if_neg (by omega),
      ih (by omega) (hfuel.jump (by omega))]
    rfl

/-- What the loop returns it has found at the end of a path. -/
theorem path_of_readNameLoop {fuel taken : ℕ} {before : List Text} {next_offset : Option ℕ} {result : Text × ℕ}
    (htaken : taken ≤ maxDnsNameJumps)
    (h : readNameLoop message fuel offset before next_offset taken = .ok result) :
    ∃ labels jumps finish, NamePath message offset labels jumps finish ∧ taken + jumps ≤ maxDnsNameJumps ∧
      result = (joinLabels (before ++ labels.map fromUtf8Lossy), next_offset.getD finish) := by
  induction fuel generalizing offset before next_offset taken with
  | zero => cases h
  | succ fuel ih =>
    cases hbyte : message[offset]? with
    | none =>
      unfold readNameLoop at h
      rw [hbyte] at h
      cases h
    | some len =>
      rcases byte_forms len with rfl | ⟨hpos, hle⟩ | hhigh | ⟨hlong, hshort⟩
      · rw [readNameLoop_root hbyte] at h
        refine ⟨[], 0, offset + 1, .root hbyte, htaken, ?_⟩
        rw [List.map_nil, List.append_nil]
        exact (Except.ok.inj h).symm
      · rw [readNameLoop_label hbyte hpos hle] at h
        by_cases hinside : message.length < offset + 1 + len.toNat
        · rw [if_pos hinside] at h
          cases h
        · rw [if_neg hinside] at h
          obtain ⟨labels, jumps, finish, hpath, hjumps, hresult⟩ := ih htaken h
          refine ⟨_, jumps, finish, .label hbyte hpos hle (by omega) hpath, hjumps, ?_⟩
          rw [hresult, List.map_cons, List.append_assoc, List.singleton_append]
      · cases hbyte' : message[offset + 1]? with
        | none =>
          have hform : len &&& 0xc0 = 0xc0 := (length_form len).1.mpr hhigh
          unfold readNameLoop at h
          rw [hbyte] at h
          simp only [hform, if_true, hbyte'] at h
          cases h
        | some low =>
          rw [readNameLoop_pointer hbyte hhigh hbyte'] at h
          by_cases htarget : message.length ≤ len.toNat % 64 * 256 + low.toNat
          · rw [if_pos htarget] at h
            cases h
          by_cases hloop : maxDnsNameJumps < taken + 1
          · rw [if_neg htarget, if_pos hloop] at h
            cases h
          rw [if_neg htarget, if_neg hloop] at h
          obtain ⟨labels, jumps, finish, hpath, hjumps, hresult⟩ := ih (by omega) h
          refine ⟨labels, jumps + 1, offset + 2, .pointer hbyte hhigh hbyte' (by omega) hpath, by omega, ?_⟩
          rw [hresult]
          rfl
      · have hnot : ¬ len &&& 0xc0 = 0xc0 := fun hform => by
          have := (length_form len).1.mp hform
          omega
        have hreserved : len &&& 0xc0 ≠ 0 := fun hform => by
          have := (length_form len).2.mp hform
          omega
        unfold readNameLoop at h
        rw [hbyte] at h
        simp only [hnot, if_false, hreserved, ne_eq, not_false_eq_true, if_true] at h
        cases h

/-- `read_dns_name` returns a name exactly when there is a path to it with so many pointers at most. -/
theorem readDnsName_eq_ok_iff {name : Text} :
    readDnsName message offset = .ok (name, finish) ↔
      ∃ labels jumps, NamePath message offset labels jumps finish ∧ jumps ≤ maxDnsNameJumps ∧
        name = pathText labels := by
  unfold readDnsName
  constructor
  · intro h
    obtain ⟨labels, jumps, finish', hpath, hjumps, hresult⟩ := path_of_readNameLoop (Nat.zero_le _) h
    obtain ⟨rfl, rfl⟩ := Prod.mk.inj hresult
    exact ⟨labels, jumps, hpath, by omega, rfl⟩
  · rintro ⟨labels, jumps, hpath, hjumps, rfl⟩
    exact readNameLoop_of_path hpath (by omega) (needsFuel_nameFuel message offset) [] none

end Rustmate.Message
