import Rustmate.Message.Text

/-!
# Writing and reading text

What the operations on texts make of a text that was put together from parts: its bytes decode to it, its lines
and words are found again, blanks around them are taken off, and numbers are read as they are written.
-/

namespace Rustmate.Message

variable {text a b : Text} {c : Char}

/-! ## UTF-8 -/

/-- The bytes of two texts. -/
theorem utf8_append (a b : Text) : utf8 (a ++ b) = utf8 a ++ utf8 b := List.flatMap_append

/-- Decoding reads one character after the other. -/
theorem decodeLoop_utf8 {fuel : ℕ} (h : (utf8 text).length ≤ fuel) :
    decodeLoop fuel (utf8 text) = text.map some := by
  induction text generalizing fuel with
  | nil =>
    cases fuel with
    | zero => rfl
    | succ fuel => rfl
  | cons c text ih =>
    have hcons : utf8 (c :: text) = String.utf8EncodeChar c ++ utf8 text := List.flatMap_cons
    have hlength : (String.utf8EncodeChar c).length = c.utf8Size := String.length_utf8EncodeChar c
    have hpos := c.utf8Size_pos
    rw [hcons, List.length_append, hlength] at h
    obtain ⟨fuel, rfl⟩ : ∃ n, fuel = n + 1 := ⟨fuel - 1, by omega⟩
    have hne : (String.utf8EncodeChar c ++ utf8 text).isEmpty = false := by
      rw [List.isEmpty_eq_false_iff, ← List.length_pos_iff, List.length_append]
      omega
    -- Four bytes are enough to see the character.
    have htake : (String.utf8EncodeChar c ++ utf8 text).take 4 =
        String.utf8EncodeChar c ++ (utf8 text).take (4 - c.utf8Size) := by
      rw [List.take_append, hlength, List.take_of_length_le (by rw [hlength]; exact c.utf8Size_le_four)]
    unfold decodeLoop
    rw [hcons, hne, htake, List.toByteArray_append, ByteArray.utf8DecodeChar?_utf8EncodeChar_append]
    simp only [Bool.false_eq_true, if_false, List.map_cons]
    rw [← hlength, List.drop_left, ih (by omega)]

/-- Bytes of a text are read as the text. -/
theorem fromUtf8Lossy_utf8 (text : Text) : fromUtf8Lossy (utf8 text) = text := by
  unfold fromUtf8Lossy decode
  rw [decodeLoop_utf8 (le_refl _), List.map_map]
  exact List.map_id text

/-- A text is read back from its bytes. -/
theorem fromUtf8_utf8 (text : Text) : fromUtf8 (utf8 text) = some text := by
  unfold fromUtf8 decode
  rw [decodeLoop_utf8 (le_refl _)]
  induction text with
  | nil => rfl
  | cons c text ih => 
    rw [List.map_cons, List.mapM_cons, ih]
    rfl

/-- Only a line feed has the byte of one. -/
theorem lf_mem_utf8EncodeChar : (10 : UInt8) ∈ String.utf8EncodeChar c ↔ c = '\n' := by
  constructor
  · intro h
    have hbyte : ∀ n : ℕ, (10 : UInt8) = UInt8.ofNat n → n % 256 = 10 := by
      intro n heq
      simpa using (congrArg UInt8.toNat heq).symm
    unfold String.utf8EncodeChar at h
    have hval : c.val.toNat = 10 := by
      dsimp only at h
      generalize c.val.toNat = v at h ⊢
      split_ifs at h <;> simp only [List.mem_cons, List.not_mem_nil, or_false] at h
      · have := hbyte _ h
        omega
      · rcases h with h | h <;> have := hbyte _ h <;> omega
      · rcases h with h | h | h <;> have := hbyte _ h <;> omega
      · rcases h with h | h | h | h <;> have := hbyte _ h <;> omega
    exact Char.ext (UInt32.toNat.inj hval)
  · rintro rfl
    decide

/-- The line feeds of a text are those of its bytes. -/
theorem lf_mem_utf8 : (10 : UInt8) ∈ utf8 text ↔ '\n' ∈ text := by
  unfold utf8
  rw [List.mem_flatMap]
  constructor
  · rintro ⟨c, hc, hlf⟩
    rwa [lf_mem_utf8EncodeChar.mp hlf] at hc
  · exact fun h => ⟨'\n', h, lf_mem_utf8EncodeChar.mpr rfl⟩

/-! ## Blanks -/

/-- Neither the first nor the last character is blank. -/
def NoBlanks (text : Text) : Prop :=
  (∀ c ∈ text.head?, isWhitespace c = false) ∧ ∀ c ∈ text.getLast?, isWhitespace c = false

/-- What is blank in ASCII is blank. -/
theorem isWhitespace_of_isAsciiWhitespace (h : isAsciiWhitespace c = true) : isWhitespace c = true := by
  unfold isAsciiWhitespace at h
  unfold isWhitespace
  simp only [Bool.or_eq_true, decide_eq_true_eq] at h
  rcases h with (((rfl | rfl) | rfl) | h) | rfl
  · decide
  · decide
  · decide
  · simp [h]
  · decide

/-- What is kept of the end of a text, from a character on that is kept. -/
theorem trimEnd_append_cons {p : Char → Bool} (a b : Text) (h : p c = false) :
    trimEnd p (a ++ c :: b) = a ++ c :: trimEnd p b := by
  unfold trimEnd List.rdropWhile
  rw [List.reverse_append, List.reverse_cons, List.append_assoc, List.dropWhile_append]
  split_ifs with hempty
  · rw [List.isEmpty_iff.mp hempty]
    simp [h]
  · rw [List.reverse_append]
    simp

/-- A text that ends in a character that is kept. -/
theorem trimEnd_eq_self {p : Char → Bool} (h : ∀ c ∈ text.getLast?, p c = false) :
    trimEnd p text = text := by
  unfold trimEnd
  refine List.rdropWhile_eq_self_iff.mpr fun hne => ?_
  rw [h _ (List.getLast?_eq_some_getLast hne)]
  simp

/-- Characters that are not kept, at the end. -/
theorem trimEnd_append_of_pos {p : Char → Bool} (a : Text) (h : ∀ c ∈ b, p c = true) :
    trimEnd p (a ++ b) = trimEnd p a := by
  unfold trimEnd List.rdropWhile
  rw [List.reverse_append, List.dropWhile_append_of_pos (by simpa using h)]

/-- A blank at the end is taken off. -/
theorem trim_concat (text : Text) (h : isWhitespace c = true) : trim (text ++ [c]) = trim text := by
  unfold trim
  rw [List.dropWhile_append]
  split_ifs with hempty
  · rw [List.isEmpty_iff.mp hempty, List.dropWhile_cons_of_pos h, List.dropWhile_nil]
  · exact trimEnd_append_of_pos _ (by simpa using h)

/-- A text without blanks around it. -/
theorem trim_eq_self (h : NoBlanks text) : trim text = text := by
  unfold trim
  have hfront : text.dropWhile isWhitespace = text := by
    cases text with
    | nil => rfl
    | cons c text => exact List.dropWhile_cons_of_neg (by simp [h.1 c rfl])
  rw [hfront, trimEnd_eq_self h.2]

/-- Blanks in front are taken off. -/
theorem trim_append (b : Text) (h : ∀ c ∈ a, isWhitespace c = true) : trim (a ++ b) = trim b := by
  unfold trim
  rw [List.dropWhile_append_of_pos h]

/-- Blanks at the end are taken off once. -/
theorem trim_trimEnd (text : Text) : trim (trimEnd isWhitespace text) = trim text := by
  conv_rhs => rw [← List.rdropWhile_append_rtakeWhile (p := isWhitespace) (l := text)]
  have hblanks : ∀ c ∈ text.rtakeWhile isWhitespace, isWhitespace c = true := by
    intro c hc
    unfold List.rtakeWhile at hc
    exact List.mem_takeWhile_imp (List.mem_reverse.mp hc)
  generalize text.rtakeWhile isWhitespace = blanks at hblanks ⊢
  unfold trimEnd
  induction blanks using List.reverseRecOn with
  | nil => rw [List.append_nil]
  | append_singleton blanks c ih =>
    rw [← List.append_assoc, trim_concat _ (hblanks c (by simp))]
    exact ih fun d hd => hblanks d (by simp [hd])

/-- A text is kept up to a character that is not blank, when it does not begin with a blank. -/
theorem trim_append_cons (a b : Text) (hfront : ∀ d ∈ (a ++ [c]).head?, isWhitespace d = false)
    (h : isWhitespace c = false) : trim (a ++ c :: b) = a ++ c :: trimEnd isWhitespace b := by
  unfold trim
  have hkeep : (a ++ c :: b).dropWhile isWhitespace = a ++ c :: b := by
    cases a with
    | nil => exact List.dropWhile_cons_of_neg (by simp [h])
    | cons d a => exact List.dropWhile_cons_of_neg (by simp [hfront d rfl])
  rw [hkeep, trimEnd_append_cons a b h]

/-! ## Parts -/

/-- A text is split at the first of the characters. -/
theorem splitOnce_append (b : Text) (h : c ∉ a) : splitOnce c (a ++ c :: b) = some (a, b) := by
  unfold splitOnce
  have hall : ∀ d ∈ a, decide (d ≠ c) = true := fun d hd => by
    simpa using fun heq : d = c => h (heq ▸ hd)
  rw [if_pos (by simp), List.takeWhile_append_of_pos hall, List.dropWhile_append_of_pos hall]
  simp

/-- A text without the character is not split. -/
theorem splitOnce_eq_none (h : c ∉ a) : splitOnce c a = none := if_neg h

/-- The first of several words. -/
theorem splitAsciiWhitespace_append (b : Text) (hne : a ≠ []) (h : ∀ d ∈ a, isAsciiWhitespace d = false)
    (hc : isAsciiWhitespace c = true) :
    splitAsciiWhitespace (a ++ c :: b) = a :: splitAsciiWhitespace b := by
  unfold splitAsciiWhitespace
  rw [List.splitOnP_append_cons_of_forall_mem h c hc, List.filter_cons_of_pos (by simpa using hne)]

/-- A single word. -/
theorem splitAsciiWhitespace_eq_singleton (hne : a ≠ []) (h : ∀ d ∈ a, isAsciiWhitespace d = false) :
    splitAsciiWhitespace a = [a] := by
  unfold splitAsciiWhitespace
  rw [List.splitOnP_eq_singleton h, List.filter_cons_of_pos (by simpa using hne), List.filter_nil]

/-! ## Numbers -/

/-- The digits of a number in decimal, of which there may be too many. -/
def IsDecimal (text : Text) (value : ℕ) : Prop :=
  text ≠ [] ∧ (∀ c ∈ text, c.isDigit = true) ∧ Nat.ofDigitChars 10 text 0 = value

/-- A decimal digit. -/
theorem toDigit_of_isDigit (h : c.isDigit = true) : toDigit 10 c = some (c.toNat - '0'.toNat) := by
  unfold toDigit
  have hrange : '0' ≤ c ∧ c ≤ '9' := by
    simpa [Char.isDigit, Char.le_def] using h
  have hbound : c.toNat - '0'.toNat < 10 := by
    have h₁ : '0'.toNat ≤ c.toNat := hrange.1
    have h₂ : c.toNat ≤ '9'.toNat := hrange.2
    have : '0'.toNat = 48 := rfl
    have : '9'.toNat = 57 := rfl
    omega
  rw [if_pos (by simp [hrange])]
  simp only [Option.filter, hbound, decide_true, if_true]

/-- No digit is blank. -/
theorem isWhitespace_of_isDigit (h : c.isDigit = true) : isWhitespace c = false := by
  simp only [Char.isDigit, Bool.and_eq_true, decide_eq_true_eq, ge_iff_le, UInt32.le_iff_toNat_le] at h
  have h₁ : 48 ≤ c.toNat := h.1
  have h₂ : c.toNat ≤ 57 := h.2
  unfold isWhitespace
  simp
  omega

/-- Decimal digits are read as the number that they are. -/
theorem foldlM_toDigit {init : ℕ} (h : ∀ c ∈ text, c.isDigit = true) :
    (text.foldlM (fun value c => (toDigit 10 c).map fun d => 10 * value + d) init : Option ℕ) =
      some (Nat.ofDigitChars 10 text init) := by
  induction text generalizing init with
  | nil => rfl
  | cons c text ih =>
    rw [List.foldlM_cons, toDigit_of_isDigit (h c List.mem_cons_self), Nat.ofDigitChars_cons]
    exact ih fun d hd => h d (List.mem_cons_of_mem c hd)

/-- A number that is small enough is read. -/
theorem fromStrRadix_of_isDecimal {value max : ℕ} (h : IsDecimal text value) (hmax : value ≤ max) :
    fromStrRadix 10 max text = some value := by
  obtain ⟨hne, hdigits, hvalue⟩ := h
  unfold fromStrRadix
  have hplus : text.head? ≠ some '+' := by
    intro hplus
    have := hdigits '+' (List.mem_of_mem_head? hplus)
    exact absurd this (by decide)
  rw [if_neg hplus]
  dsimp only
  rw [if_neg (by simpa using hne), foldlM_toDigit hdigits, hvalue]
  simp [Option.filter, hmax]

/-- The digit of a number is read as the number. -/
theorem toDigit_digitChar {radix d : ℕ} (hradix : radix ≤ 16) (hd : d < radix) :
    toDigit radix d.digitChar = some d := by
  have hall : ∀ d < 16, ((if '0' ≤ d.digitChar && d.digitChar ≤ '9' then
        some (d.digitChar.toNat - '0'.toNat)
      else if 'a' ≤ d.digitChar && d.digitChar ≤ 'f' then some (d.digitChar.toNat - 'a'.toNat + 10)
      else if 'A' ≤ d.digitChar && d.digitChar ≤ 'F' then some (d.digitChar.toNat - 'A'.toNat + 10)
      else none) : Option ℕ) = some d := by decide
  unfold toDigit
  rw [hall d (by omega)]
  simpa using hd

/-- The digits of a number are read as the number. -/
theorem foldlM_toDigits {radix : ℕ} (hone : 1 < radix) (hradix : radix ≤ 16) (n : ℕ) :
    ((Nat.toDigits radix n).foldlM (fun value c => (toDigit radix c).map fun d => radix * value + d) 0 :
      Option ℕ) = some n := by
  induction n using Nat.strongRecOn with
  | ind n ih =>
    rw [Nat.toDigits_eq_if hone]
    split_ifs with hsmall
    · rw [List.foldlM_cons, toDigit_digitChar hradix hsmall]
      simp
    · have hless : n / radix < n := Nat.div_lt_self (by omega) hone
      rw [List.foldlM_append, ih _ hless]
      rw [Option.bind_eq_bind, Option.bind_some, List.foldlM_cons,
        toDigit_digitChar hradix (Nat.mod_lt n (by omega))]
      simp [Nat.div_add_mod]

/-- Every character of the digits of a number is a digit. -/
theorem mem_toDigits {radix n : ℕ} (hone : 1 < radix) {c : Char} (hc : c ∈ Nat.toDigits radix n) :
    ∃ d < radix, c = d.digitChar := by
  induction n using Nat.strongRecOn with
  | ind n ih =>
    rw [Nat.toDigits_eq_if hone] at hc
    split_ifs at hc with hsmall
    · exact ⟨n, hsmall, List.mem_singleton.mp hc⟩
    · rcases List.mem_append.mp hc with hfront | hlast
      · exact ih _ (Nat.div_lt_self (by omega) hone) hfront
      · exact ⟨n % radix, Nat.mod_lt n (by omega), List.mem_singleton.mp hlast⟩

/-- A number that is small enough is read from its digits. -/
theorem fromStrRadix_toDigits {radix n max : ℕ} (hone : 1 < radix) (hradix : radix ≤ 16) (hmax : n ≤ max) :
    fromStrRadix radix max (Nat.toDigits radix n) = some n := by
  have hplus : (Nat.toDigits radix n).head? ≠ some '+' := by
    intro hplus
    obtain ⟨d, hd, heq⟩ := mem_toDigits hone (List.mem_of_mem_head? hplus)
    have hall : ∀ d < 16, '+' ≠ d.digitChar := by decide
    exact hall d (by omega) heq
  unfold fromStrRadix
  rw [if_neg hplus]
  dsimp only
  rw [if_neg (by simp), foldlM_toDigits hone hradix]
  simp [Option.filter, hmax]

end Rustmate.Message
