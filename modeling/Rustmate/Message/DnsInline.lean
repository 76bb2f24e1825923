import Rustmate.Message.DnsPath

/-!
# The part of a DNS name at its own place

A name stands in the message as labels up to a root or a pointer, and a pointer leads to bytes elsewhere. Two
messages that agree on the first part, and wherever its pointer leads, give the same name. -/

namespace Rustmate.Message

/-- The labels of a name up to its root or its pointer, which stands at `stop`; the next thing begins at
`finish`. -/
inductive InlinePart (message : List UInt8) : ℕ → ℕ → ℕ → Prop
  | root {offset : ℕ} (hbyte : message[offset]? = some 0) : InlinePart message offset offset (offset + 1)
  | pointer {offset : ℕ} {high : UInt8} (hbyte : message[offset]? = some high) (hhigh : 192 ≤ high.toNat) :
      InlinePart message offset offset (offset + 2)
  | label {offset stop finish : ℕ} {len : UInt8} (hbyte : message[offset]? = some len) (hpos : 1 ≤ len.toNat)
      (hle : len.toNat ≤ 63) (hrest : InlinePart message (offset + 1 + len.toNat) stop finish) :
      InlinePart message offset stop finish

/-- The bytes that are read on the way of a name. -/
inductive NameReads (message : List UInt8) : ℕ → ℕ → Prop
  | here {offset : ℕ} : NameReads message offset offset
  | within {offset i : ℕ} {len : UInt8} (hbyte : message[offset]? = some len) (hpos : 1 ≤ len.toNat)
      (hle : len.toNat ≤ 63) (hbehind : offset < i) (hinside : i < offset + 1 + len.toNat) :
      NameReads message offset i
  | label {offset i : ℕ} {len : UInt8} (hbyte : message[offset]? = some len) (hpos : 1 ≤ len.toNat)
      (hle : len.toNat ≤ 63) (hrest : NameReads message (offset + 1 + len.toNat) i) : NameReads message offset i
  | second {offset : ℕ} {high : UInt8} (hbyte : message[offset]? = some high) (hhigh : 192 ≤ high.toNat) :
      NameReads message offset (offset + 1)
  | pointer {offset i : ℕ} {high low : UInt8} (hbyte : message[offset]? = some high) (hhigh : 192 ≤ high.toNat)
      (hbyte' : message[offset + 1]? = some low)
      (hrest : NameReads message (high.toNat % 64 * 256 + low.toNat) i) : NameReads message offset i

/-- Another message has the same bytes up to some place, and wherever a pointer of this name before that place
leads. -/
structure Agree (message message' : List UInt8) (place bound : ℕ) : Prop where
  length_eq : message.length = message'.length
  below : ∀ i < bound, message[i]? = message'[i]?
  led : ∀ {stop : ℕ} {high low : UInt8}, InlinePart message place stop (stop + 2) → stop + 2 ≤ bound →
    message[stop]? = some high → 192 ≤ high.toNat → message[stop + 1]? = some low →
    ∀ i, NameReads message (high.toNat % 64 * 256 + low.toNat) i → message[i]? = message'[i]?

variable {message message' : List UInt8} {place bound offset stop finish : ℕ}

/-- The inline part ends behind the place where it begins. -/
theorem InlinePart.lt (h : InlinePart message offset stop finish) : offset < finish := by
  induction h with
  | root hbyte => omega
  | pointer hbyte hhigh => omega
  | label hbyte hpos hle hrest ih => omega

/-- A name has one inline part. -/
theorem InlinePart.unique {stop' finish' : ℕ} (h : InlinePart message offset stop finish)
    (h' : InlinePart message offset stop' finish') : stop = stop' ∧ finish = finish' := by
  induction h with
  | root hbyte =>
    cases h' with
    | root hbyte' => exact ⟨rfl, rfl⟩
    | pointer hbyte' hhigh =>
      obtain rfl := Option.some.inj (hbyte.symm.trans hbyte')
      exact absurd hhigh (by decide)
    | label hbyte' hpos hle hrest =>
      obtain rfl := Option.some.inj (hbyte.symm.trans hbyte')
      exact absurd hpos (by decide)
  | pointer hbyte hhigh =>
    cases h' with
    | root hbyte' =>
      obtain rfl := Option.some.inj (hbyte.symm.trans hbyte')
      exact absurd hhigh (by decide)
    | pointer hbyte' hhigh' => exact ⟨rfl, rfl⟩
    | label hbyte' hpos hle hrest =>
      obtain rfl := Option.some.inj (hbyte.symm.trans hbyte')
      omega
  | label hbyte hpos hle hrest ih =>
    cases h' with
    | root hbyte' =>
      obtain rfl := Option.some.inj (hbyte.symm.trans hbyte')
      exact absurd hpos (by decide)
    | pointer hbyte' hhigh =>
      obtain rfl := Option.some.inj (hbyte.symm.trans hbyte')
      omega
    | label hbyte' hpos' hle' hrest' =>
      obtain rfl := Option.some.inj (hbyte.symm.trans hbyte')
      exact ih hrest'

/-- A name that can be followed has an inline part, behind which the next thing begins. -/
theorem NamePath.inline {jumps : ℕ} {labels : List (List UInt8)}
    (h : NamePath message offset labels jumps finish) : ∃ stop, InlinePart message offset stop finish := by
  induction h with
  | root hbyte => exact ⟨_, .root hbyte⟩
  | label hbyte hpos hle hinside hrest ih =>
    obtain ⟨stop, hpart⟩ := ih
    exact ⟨stop, .label hbyte hpos hle hpart⟩
  | pointer hbyte hhigh hbyte' htarget hrest ih => exact ⟨_, .pointer hbyte hhigh⟩

/-- Two messages with the same bytes on a stretch have the same slice there. -/
theorem drop_take_congr {start len : ℕ} (h : ∀ i, start ≤ i → i < start + len → message[i]? = message'[i]?) :
    (message.drop start).take len = (message'.drop start).take len := by
  apply List.ext_getElem?
  intro i
  rw [List.getElem?_take, List.getElem?_take]
  by_cases hi : i < len
  · rw [if_pos hi, if_pos hi, List.getElem?_drop, List.getElem?_drop]
    exact h _ (by omega) (by omega)
  · rw [if_neg hi, if_neg hi]

/-- Where two messages agree on all that the way of a name reads, the same way leads through the other. -/
theorem NamePath.congr {jumps : ℕ} {labels : List (List UInt8)} (h : NamePath message offset labels jumps finish)
    (hlen : message.length = message'.length)
    (hagree : ∀ i, NameReads message offset i → message[i]? = message'[i]?) :
    NamePath message' offset labels jumps finish := by
  induction h with
  | root hbyte => exact .root ((hagree _ .here).symm.trans hbyte)
  | label hbyte hpos hle hinside hrest ih =>
    rw [drop_take_congr fun i hfrom hto => hagree i (.within hbyte hpos hle (by omega) hto)]
    apply NamePath.label ((hagree _ .here).symm.trans hbyte) hpos hle (by omega)
    exact ih fun i hi => hagree i (.label hbyte hpos hle hi)
  | pointer hbyte hhigh hbyte' htarget hrest ih =>
    apply NamePath.pointer ((hagree _ .here).symm.trans hbyte) hhigh
      ((hagree _ (.second hbyte hhigh)).symm.trans hbyte') (by omega)
    exact ih fun i hi => hagree i (.pointer hbyte hhigh hbyte' hi)

/-- Where two messages agree on all that the way of a name reads, nothing else is read in the other. -/
theorem NameReads.of_agree {i : ℕ} (h : NameReads message' offset i)
    (hagree : ∀ i, NameReads message offset i → message[i]? = message'[i]?) : NameReads message offset i := by
  induction h with
  | here => exact .here
  | within hbyte hpos hle hbehind hinside =>
    exact .within ((hagree _ .here).trans hbyte) hpos hle hbehind hinside
  | label hbyte hpos hle hrest ih =>
    have hsame := (hagree _ .here).trans hbyte
    exact .label hsame hpos hle (ih fun i hi => hagree i (.label hsame hpos hle hi))
  | second hbyte hhigh => exact .second ((hagree _ .here).trans hbyte) hhigh
  | pointer hbyte hhigh hbyte' hrest ih =>
    have hsame := (hagree _ .here).trans hbyte
    have hsame' := (hagree _ (.second hsame hhigh)).trans hbyte'
    exact .pointer hsame hhigh hsame' (ih fun i hi => hagree i (.pointer hsame hhigh hsame' hi))

/-- An inline part stands wherever its bytes do. -/
theorem InlinePart.congr (h : InlinePart message offset stop finish)
    (hbelow : ∀ i < bound, message[i]? = message'[i]?) (hfinish : finish ≤ bound) :
    InlinePart message' offset stop finish := by
  induction h with
  | root hbyte => exact .root ((hbelow _ (by omega)).symm.trans hbyte)
  | pointer hbyte hhigh => exact .pointer ((hbelow _ (by omega)).symm.trans hbyte) hhigh
  | label hbyte hpos hle hrest ih =>
    have hbehind := hrest.lt
    exact .label ((hbelow _ (by omega)).symm.trans hbyte) hpos hle (ih hfinish)

/-- Agreement goes both ways. -/
theorem Agree.symm (h : Agree message message' place bound) : Agree message' message place bound where
  length_eq := h.length_eq.symm
  below := fun i hi => (h.below i hi).symm
  led := by
    intro stop high low hpart hstop hbyte hhigh hbyte' i hreads
    have hpart' := hpart.congr (fun i hi => (h.below i hi).symm) hstop
    have hled := h.led hpart' hstop ((h.below _ (by omega)).trans hbyte) hhigh
      ((h.below _ (by omega)).trans hbyte')
    exact (hled i (hreads.of_agree hled)).symm

/-- A name whose inline part is before the bound is the same in both messages. -/
theorem NamePath.agree {jumps : ℕ} {labels : List (List UInt8)} (h : NamePath message place labels jumps finish)
    (hagree : Agree message message' place bound) (hfinish : finish ≤ bound) :
    NamePath message' place labels jumps finish := by
  induction h with
  | root hbyte => exact .root ((hagree.below _ (by omega)).symm.trans hbyte)
  | label hbyte hpos hle hinside hrest ih =>
    have hbehind := hrest.finish_bounds.1
    rw [drop_take_congr fun i hfrom hto => hagree.below i (by omega)]
    apply NamePath.label ((hagree.below _ (by omega)).symm.trans hbyte) hpos hle (by
      have := hagree.length_eq
      omega)
    refine ih ⟨hagree.length_eq, hagree.below, ?_⟩ hfinish
    exact fun hpart hstop => hagree.led (.label hbyte hpos hle hpart) hstop
  | pointer hbyte hhigh hbyte' htarget hrest ih =>
    have hled := hagree.led (.pointer hbyte hhigh) hfinish hbyte hhigh hbyte'
    apply NamePath.pointer ((hagree.below _ (by omega)).symm.trans hbyte) hhigh
      ((hagree.below _ (by omega)).symm.trans hbyte') (by
        have := hagree.length_eq
        omega)
    exact hrest.congr hagree.length_eq hled

/-- What `read_dns_name` returns for a name with its inline part before the bound, if it returns one. -/
theorem readDnsName_agree (hagree : Agree message message' place bound)
    (hpart : InlinePart message place stop finish) (hfinish : finish ≤ bound) :
    (readDnsName message place).toOption = (readDnsName message' place).toOption := by
  -- each message returns what the other does
  have hone : ∀ {one two : List UInt8}, Agree one two place bound → InlinePart one place stop finish →
      ∀ result, readDnsName one place = .ok result → readDnsName two place = .ok result := by
    rintro one two hagree hpart ⟨name, next_offset⟩ hok
    obtain ⟨labels, jumps, hpath, hjumps, rfl⟩ := readDnsName_eq_ok_iff.mp hok
    obtain ⟨stop', hpart'⟩ := hpath.inline
    obtain ⟨-, rfl⟩ := hpart.unique hpart'
    exact readDnsName_eq_ok_iff.mpr ⟨labels, jumps, hpath.agree hagree hfinish, hjumps, rfl⟩
  have hpart' := hpart.congr hagree.below hfinish
  cases hread : readDnsName message place with
  | ok result => rw [hone hagree hpart result hread]
  | error error =>
    cases hread' : readDnsName message' place with
    | error error' => rfl
    | ok result =>
      have hback := hone hagree.symm hpart' result hread'
      rw [hread] at hback
      cases hback

end Rustmate.Message
