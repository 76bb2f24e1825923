import Rustmate.Transform.Cap

/-!
# URL decoding

`url_decode_transform` undoes percent-encoding, in whichever of its many ways some bytes are encoded, and
leaves the percent signs that begin no escape where they are. -/

namespace Rustmate.Transform

/-- What the bytes begin with, if it is an escape. -/
def escapeAt : List UInt8 → Option UInt8
  | a :: b :: c :: _ => percentEscape a b c
  | _ => none

namespace UrlDecode

/-- A byte that begins no escape: a `+` becomes a blank. -/
def kept (byte : UInt8) : UInt8 := if byte = 43 then 32 else byte

/-- What the loop makes of some bytes. -/
def decoded (input : List UInt8) : List UInt8 := (loop input {}).output

/-- Whether it changes one of them. -/
def changes (input : List UInt8) : Bool := (loop input {}).changed

/-- One turn of the loop. -/
theorem loop_cons (a : UInt8) (rest : List UInt8) (self : UrlDecode) :
    loop (a :: rest) self =
      (escapeAt (a :: rest)).elim (loop rest (self.keep a)) fun byte => loop (rest.drop 2) (self.escape byte) := by
  cases rest with
  | nil => rfl
  | cons b rest =>
    cases rest with
    | nil => rfl
    | cons c rest =>
      have hescape : escapeAt (a :: b :: c :: rest) = percentEscape a b c := rfl
      rw [hescape, loop]
      cases percentEscape a b c <;> rfl

/-- The loop goes on from what it has. -/
theorem loop_eq (input : List UInt8) (self : UrlDecode) :
    (loop input self).output = self.output ++ decoded input ∧
      (loop input self).changed = (self.changed || changes input) := by
  unfold decoded changes
  induction hn : input.length using Nat.strong_induction_on generalizing input self with
  | _ n ih =>
    cases input with
    | nil => simp [loop]
    | cons a rest =>
      rw [List.length_cons] at hn
      rw [loop_cons, loop_cons]
      cases escapeAt (a :: rest) with
      | none =>
        obtain ⟨ho, hc⟩ := ih rest.length (by omega) rest (self.keep a) rfl
        obtain ⟨ho', hc'⟩ := ih rest.length (by omega) rest (keep {} a) rfl
        simp only [Option.elim_none]
        rw [ho, hc, ho', hc']
        unfold keep
        split_ifs <;> simp
      | some byte =>
        have hlen : (rest.drop 2).length < n := by
          rw [List.length_drop]
          omega
        obtain ⟨ho, hc⟩ := ih _ hlen (rest.drop 2) (self.escape byte) rfl
        obtain ⟨ho', hc'⟩ := ih _ hlen (rest.drop 2) (escape {} byte) rfl
        simp only [Option.elim_some]
        rw [ho, hc, ho', hc']
        simp [escape]

/-- An escape is one byte. -/
theorem decoded_escape {a byte : UInt8} {rest : List UInt8} (h : escapeAt (a :: rest) = some byte) :
    decoded (a :: rest) = byte :: decoded (rest.drop 2) ∧ changes (a :: rest) = true := by
  have hturn := loop_cons a rest {}
  rw [h, Option.elim_some] at hturn
  obtain ⟨ho, hc⟩ := loop_eq (rest.drop 2) (escape {} byte)
  constructor
  · rw [decoded, hturn, ho]
    rfl
  · rw [changes, hturn, hc]
    rfl

/-- Another byte is kept. -/
theorem decoded_kept {a : UInt8} {rest : List UInt8} (h : escapeAt (a :: rest) = none) :
    decoded (a :: rest) = kept a :: decoded rest ∧ changes (a :: rest) = (a = 43 || changes rest) := by
  have hturn := loop_cons a rest {}
  rw [h, Option.elim_none] at hturn
  obtain ⟨ho, hc⟩ := loop_eq rest (keep {} a)
  rw [decoded, changes, hturn, ho, hc]
  unfold keep kept
  by_cases hpercent : a = 37
  · subst hpercent
    simp
  · by_cases hplus : a = 43 <;> simp [hpercent, hplus]

/-- Decoding makes nothing longer. -/
theorem length_decoded (input : List UInt8) : (decoded input).length ≤ input.length := by
  have hlength := length_loop input {}
  rw [List.length_nil, Nat.zero_add] at hlength
  unfold decoded
  omega

/-- Where nothing is changed, the bytes stay as they are. -/
theorem decoded_of_not_changes {input : List UInt8} (h : changes input = false) : decoded input = input := by
  induction input with
  | nil => rfl
  | cons a rest ih =>
    cases hescape : escapeAt (a :: rest) with
    | none =>
      obtain ⟨hd, hc⟩ := decoded_kept hescape
      rw [hc, Bool.or_eq_false_iff] at h
      rw [hd, ih h.2, kept, if_neg (of_decide_eq_false h.1)]
    | some byte =>
      rw [(decoded_escape hescape).2] at h
      cases h

/-! ## Percent signs -/

/-- A percent sign is no digit, so it is no part of an escape that begins before it. -/
theorem escapeAt_append_percent (a : UInt8) (rest after : List UInt8) :
    escapeAt (a :: rest ++ 37 :: after) = escapeAt (a :: rest) := by
  have hpercent : hexValue 37 = none := by decide
  cases rest with
  | nil =>
    cases after with
    | nil => rfl
    | cons b after =>
      change percentEscape a 37 b = none
      simp only [percentEscape, hpercent, ite_self]
  | cons b rest =>
    cases rest with
    | nil =>
      change percentEscape a b 37 = none
      unfold percentEscape
      rw [hpercent]
      cases hexValue b <;> exact ite_self _
    | cons c rest => rfl

/-- An escape has its three bytes. -/
theorem two_le_of_escapeAt {a byte : UInt8} {rest : List UInt8} (h : escapeAt (a :: rest) = some byte) :
    2 ≤ rest.length := by
  cases rest with
  | nil => cases h
  | cons b rest =>
    cases rest with
    | nil => cases h
    | cons c rest =>
      simp only [List.length_cons]
      omega

/-- What comes before a percent sign is decoded by itself. -/
theorem decoded_append_percent (before after : List UInt8) :
    decoded (before ++ 37 :: after) = decoded before ++ decoded (37 :: after) := by
  induction hn : before.length using Nat.strong_induction_on generalizing before with
  | _ n ih =>
    cases before with
    | nil => rfl
    | cons a rest =>
      rw [List.length_cons] at hn
      have hsame := escapeAt_append_percent a rest after
      rw [List.cons_append] at hsame
      cases h : escapeAt (a :: rest) with
      | none =>
        rw [h] at hsame
        have hkept := (decoded_kept hsame).1
        rw [(decoded_kept h).1, List.cons_append, List.cons_append, hkept, ih rest.length (by omega) rest rfl]
      | some byte =>
        rw [h] at hsame
        have hlen := two_le_of_escapeAt h
        have hdrop : (rest ++ 37 :: after).drop 2 = rest.drop 2 ++ 37 :: after := List.drop_append_of_le_length hlen
        have hshort : (rest.drop 2).length < n := by
          rw [List.length_drop]
          omega
        have hescape := (decoded_escape hsame).1
        rw [(decoded_escape h).1, List.cons_append, List.cons_append, hescape, hdrop, ih _ hshort _ rfl]

/-- Bytes that begin with a percent sign that is no escape keep it. -/
theorem decoded_percent {after : List UInt8} (h : escapeAt (37 :: after) = none) :
    decoded (37 :: after) = 37 :: decoded after := (decoded_kept h).1

end UrlDecode

/-! ## Encodings -/

/-- The hexadecimal digits of either case. -/
def IsHexDigit (n : Fin 16) (digit : UInt8) : Prop :=
  digit = [48, 49, 50, 51, 52, 53, 54, 55, 56, 57, 97, 98, 99, 100, 101, 102][n] ∨
    digit = [48, 49, 50, 51, 52, 53, 54, 55, 56, 57, 65, 66, 67, 68, 69, 70][n]

instance (n : Fin 16) (digit : UInt8) : Decidable (IsHexDigit n digit) := inferInstanceAs (Decidable (_ ∨ _))

/-- The encodings of some bytes: a byte as itself, as an escape, or as a `+`. -/
inductive UrlEncodes : List UInt8 → List UInt8 → Prop
  | nil : UrlEncodes [] []
  | itself {byte : UInt8} {xs es : List UInt8} (hpercent : byte ≠ 37) (hplus : byte ≠ 43) (h : UrlEncodes xs es) :
    UrlEncodes (byte :: xs) (byte :: es)
  | escape {high low : Fin 16} {first second : UInt8} {xs es : List UInt8} (hfirst : IsHexDigit high first)
    (hsecond : IsHexDigit low second) (h : UrlEncodes xs es) :
    UrlEncodes (UInt8.ofNat (16 * high.val + low.val) :: xs) (37 :: first :: second :: es)
  | plus {xs es : List UInt8} (h : UrlEncodes xs es) : UrlEncodes (32 :: xs) (43 :: es)

/-- The value of a digit. -/
theorem hexValue_of_isHexDigit {n : Fin 16} {digit : UInt8} (h : IsHexDigit n digit) :
    hexValue digit = some (UInt8.ofNat n.val) := by
  have hdigits : ∀ n : Fin 16,
      hexValue [48, 49, 50, 51, 52, 53, 54, 55, 56, 57, 97, 98, 99, 100, 101, 102][n] = some (UInt8.ofNat n.val) ∧
        hexValue [48, 49, 50, 51, 52, 53, 54, 55, 56, 57, 65, 66, 67, 68, 69, 70][n] = some (UInt8.ofNat n.val) := by
    decide
  rcases h with rfl | rfl
  · exact (hdigits n).1
  · exact (hdigits n).2

/-- Only a digit has a value. -/
theorem exists_isHexDigit {digit byte : UInt8} (h : hexValue digit = some byte) : ∃ n, IsHexDigit n digit := by
  have hall : ∀ n : Fin 256, (hexValue (UInt8.ofNat n.val)).isSome = true →
      ∃ m : Fin 16, IsHexDigit m (UInt8.ofNat n.val) := by
    decide +kernel
  have hdigit : UInt8.ofNat digit.toNat = digit := UInt8.ofNat_toNat
  obtain ⟨n, hn⟩ := hall ⟨digit.toNat, digit.toNat_lt⟩ (by
    dsimp only
    rw [hdigit, h]
    rfl)
  exact ⟨n, hdigit ▸ hn⟩

/-- The byte of two digits. -/
theorem percentEscape_of_isHexDigit {high low : Fin 16} {first second : UInt8} (hfirst : IsHexDigit high first)
    (hsecond : IsHexDigit low second) :
    percentEscape 37 first second = some (UInt8.ofNat (16 * high.val + low.val)) := by
  have hbyte : ∀ high low : Fin 16,
      (UInt8.ofNat high.val <<< 4) ||| UInt8.ofNat low.val = UInt8.ofNat (16 * high.val + low.val) := by
    decide +kernel
  unfold percentEscape
  rw [if_pos rfl, hexValue_of_isHexDigit hfirst, hexValue_of_isHexDigit hsecond]
  exact congrArg some (hbyte high low)

/-- Two digits follow. -/
def TwoDigitsFollow (after : List UInt8) : Prop :=
  ∃ high low first second rest, IsHexDigit high first ∧ IsHexDigit low second ∧ after = first :: second :: rest

/-- A percent sign begins an escape exactly when two digits follow. -/
theorem escapeAt_percent_eq_none_iff (after : List UInt8) :
    escapeAt (37 :: after) = none ↔ ¬ TwoDigitsFollow after := by
  constructor
  · rintro h ⟨high, low, first, second, rest, hfirst, hsecond, rfl⟩
    exact nomatch h.symm.trans (percentEscape_of_isHexDigit hfirst hsecond)
  · intro h
    cases after with
    | nil => rfl
    | cons first rest =>
      cases rest with
      | nil => rfl
      | cons second rest =>
        change percentEscape 37 first second = none
        unfold percentEscape
        rw [if_pos rfl]
        cases hfirst : hexValue first with
        | none => rfl
        | some hi =>
          cases hsecond : hexValue second with
          | none => rfl
          | some lo =>
            obtain ⟨high, hhigh⟩ := exists_isHexDigit hfirst
            obtain ⟨low, hlow⟩ := exists_isHexDigit hsecond
            exact absurd ⟨high, low, first, second, rest, hhigh, hlow, rfl⟩ h

/-- A byte that is no percent sign begins no escape. -/
theorem escapeAt_of_ne {byte : UInt8} {rest : List UInt8} (h : byte ≠ 37) : escapeAt (byte :: rest) = none := by
  cases rest with
  | nil => rfl
  | cons b rest =>
    cases rest with
    | nil => rfl
    | cons c rest => exact if_neg h

open UrlDecode

/-- An encoding is decoded, and is changed by it if there is anything in it that stands for something else. -/
theorem UrlEncodes.decoded {xs es : List UInt8} (h : UrlEncodes xs es) :
    UrlDecode.decoded es = xs ∧ (changes es = true ↔ 37 ∈ es ∨ 43 ∈ es) := by
  induction h with
  | nil => exact ⟨rfl, by decide⟩
  | @itself byte xs es hpercent hplus _ ih =>
    have hnone : escapeAt (byte :: es) = none := escapeAt_of_ne hpercent
    obtain ⟨hd, hc⟩ := decoded_kept hnone
    rw [hd, hc, ih.1, kept, if_neg hplus, decide_eq_false hplus, Bool.false_or, ih.2, List.mem_cons, List.mem_cons]
    exact ⟨rfl, by simp [Ne.symm hpercent, Ne.symm hplus]⟩
  | @escape high low first second xs es hfirst hsecond _ ih =>
    have hescape : escapeAt (37 :: first :: second :: es) = some (UInt8.ofNat (16 * high.val + low.val)) :=
      percentEscape_of_isHexDigit hfirst hsecond
    obtain ⟨hd, hc⟩ := decoded_escape hescape
    rw [hd, hc]
    exact ⟨congrArg _ ih.1, by simp⟩
  | @plus xs es _ ih =>
    have hnone : escapeAt (43 :: es) = none := escapeAt_of_ne (by decide)
    obtain ⟨hd, hc⟩ := decoded_kept hnone
    rw [hd, hc, ih.1]
    exact ⟨rfl, by simp⟩

/-- The outcome: what the loop makes of the bytes, if it changes one of them. -/
theorem urlDecodeTransform_outcome (input : List UInt8) :
    (changes input = true ∧ (urlDecodeTransform input).status = .applied ∧
        (urlDecodeTransform input).applied = .urlDecode ∧ (urlDecodeTransform input).bytes = UrlDecode.decoded input) ∨
      (changes input = false ∧ (urlDecodeTransform input).status = .noop ∧ (urlDecodeTransform input).bytes = []) := by
  unfold urlDecodeTransform changes UrlDecode.decoded
  dsimp only
  cases (UrlDecode.loop input {}).changed with
  | true =>
    left
    simp only [Bool.not_true, Bool.false_eq_true, if_false, and_self]
  | false =>
    right
    simp only [Bool.not_false, if_true, TransformOutcome.noop, and_self]

/-- URL decoding gives back what was encoded, in whatever way, and is idle only where the encoding is the
bytes themselves. Whatever the bytes are, it makes them no longer, and a percent sign that no two digits follow is
still there, between what comes before it and after it. -/
theorem urlDecodeTransform_inverse (input : List UInt8) :
    (∀ xs, UrlEncodes xs input →
        if 37 ∈ input ∨ 43 ∈ input then
          (urlDecodeTransform input).status = .applied ∧ (urlDecodeTransform input).bytes = xs
        else (urlDecodeTransform input).status = .noop ∧ input = xs) ∧
      (urlDecodeTransform input).bytes.length ≤ input.length ∧
      ∀ before after, input = before ++ 37 :: after → ¬ TwoDigitsFollow after →
        (urlDecodeTransform input).status = .applied →
        (urlDecodeTransform input).bytes = UrlDecode.decoded before ++ 37 :: UrlDecode.decoded after := by
  have houtcome := urlDecodeTransform_outcome input
  refine ⟨fun xs h => ?_, ?_, fun before after hinput hdigits happlied => ?_⟩
  · obtain ⟨hdecoded, hchanges⟩ := h.decoded
    rcases houtcome with ⟨hc, hstatus, -, hbytes⟩ | ⟨hc, hstatus, -⟩
    · rw [if_pos (hchanges.mp hc)]
      exact ⟨hstatus, hbytes.trans hdecoded⟩
    · have hplain : ¬ (37 ∈ input ∨ 43 ∈ input) := by
        rw [← hchanges, hc]
        exact Bool.false_ne_true
      rw [if_neg hplain]
      exact ⟨hstatus, (decoded_of_not_changes hc).symm.trans hdecoded⟩
  · rcases houtcome with ⟨-, -, -, hbytes⟩ | ⟨-, -, hbytes⟩
    · rw [hbytes]
      exact length_decoded input
    · rw [hbytes]
      exact Nat.zero_le _
  · rcases houtcome with ⟨-, -, -, hbytes⟩ | ⟨-, hstatus, -⟩
    · have hescape := (escapeAt_percent_eq_none_iff after).mpr hdigits
      rw [hbytes, hinput, decoded_append_percent, decoded_percent hescape]
    · rw [hstatus] at happlied
      cases happlied

end Rustmate.Transform
