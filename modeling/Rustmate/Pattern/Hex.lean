import Rustmate.Message.Text
import Rustmate.Pattern.Engine

/-!
# Binary patterns

`parse_hex_pattern` of `src/pattern.rs`. The parser takes two bytes of the text at a time, and leaves them to
the number parser of Rust. Slicing a string off a character boundary is `none`. -/

namespace Rustmate.Pattern

open Message (Text fromStrRadix toDigit isAsciiWhitespace)

/-- `str::len`. -/
def byteLen (text : Text) : ℕ := (text.map Char.utf8Size).sum

/-- A text cut after so many bytes, if that is a character boundary. -/
def splitAtByte : Text → ℕ → Option (Text × Text)
  | text, 0 => some ([], text)
  | [], _ + 1 => none
  | c :: text, n + 1 =>
    if c.utf8Size ≤ n + 1 then
      (splitAtByte text (n + 1 - c.utf8Size)).map fun (part, rest) => (c :: part, rest)
    else none

/-- `&text[start..finish]`. -/
def sliceBytes (text : Text) (start finish : ℕ) : Option Text :=
  (splitAtByte text start).bind fun (_, rest) => (splitAtByte rest (finish - start)).map Prod.fst

/-- The digits of a pattern without their separators. -/
def withoutSeparators (value : Text) : Text :=
  value.filter fun c => !isAsciiWhitespace c && !(c = ':' || c = '_' || c = '-')

/-- The digits without the mark that may come before them. -/
def withoutMark : Text → Text
  | '0' :: 'x' :: digits => digits
  | '0' :: 'X' :: digits => digits
  | digits => digits

/-- The text that is parsed. -/
def patternDigits (value : Text) : Text := withoutMark (withoutSeparators value)

/-- The loop of `parse_hex_pattern`, over the indexes of the pairs. -/
def parsePairs (digits : Text) : List ℕ → List UInt8 → Option (Except Text (List UInt8))
  | [], bytes => some (.ok bytes)
  | index :: indexes, bytes =>
    match sliceBytes digits index (index + 2) with
    | none => none
    | some pair =>
      match fromStrRadix 16 255 pair with
      | none => some (.error ("invalid hex byte '".toList ++ pair ++ "'".toList))
      | some byte => parsePairs digits indexes (bytes ++ [UInt8.ofNat byte])

/-- `parse_hex_pattern`. -/
def parseHexPattern (value : Text) : Option (Except Text (List UInt8)) :=
  let digits := patternDigits value
  if digits.isEmpty then some (.error "binary pattern is empty".toList)
  else if byteLen digits % 2 ≠ 0 then some (.error "binary pattern has an odd number of hex digits".toList)
  else parsePairs digits (List.range' 0 ((byteLen digits + 1) / 2) 2) []

/-- `PatternDefinition::binary_hex`. -/
def PatternDefinition.binaryHex (id value : String) : Option (Except Text PatternDefinition) :=
  (parseHexPattern value.toList).map fun parsed => parsed.map fun bytes => ⟨id, value, .binary bytes⟩

/-! ## The grammar -/

/-- Pairs of hexadecimal digits, and the bytes that they denote. -/
inductive HexPairs : Text → List UInt8 → Prop
  | nil : HexPairs [] []
  | cons {a b : Char} {x y : ℕ} {digits : Text} {bytes : List UInt8} (ha : toDigit 16 a = some x)
    (hb : toDigit 16 b = some y) (h : HexPairs digits bytes) :
    HexPairs (a :: b :: digits) (UInt8.ofNat (16 * x + y) :: bytes)

/-- What is left after the pairs that the number parser takes. -/
def afterPairs : Text → Text
  | a :: b :: digits => if (fromStrRadix 16 255 [a, b]).isSome then afterPairs digits else a :: b :: digits
  | digits => digits

/-- The bytes of the pairs that the number parser takes. -/
def pairBytes : Text → List UInt8
  | a :: b :: digits =>
    (fromStrRadix 16 255 [a, b]).elim [] fun byte => UInt8.ofNat byte :: pairBytes digits
  | _ => []

/-! ## Digits -/

/-- A digit is an ASCII character. -/
theorem utf8Size_of_toDigit {c : Char} {d : ℕ} (h : toDigit 16 c = some d) : c.utf8Size = 1 ∧ d < 16 := by
  unfold toDigit at h
  obtain ⟨hdigit, hd⟩ := Option.filter_eq_some_iff.mp h
  refine ⟨?_, of_decide_eq_true hd⟩
  have hle : c.val ≤ 0x7f := by
    split_ifs at hdigit with h1 h2 h3
    · simp only [Bool.and_eq_true, decide_eq_true_eq, Char.le_def] at h1
      exact UInt32.le_trans h1.2 (by decide)
    · simp only [Bool.and_eq_true, decide_eq_true_eq, Char.le_def] at h2
      exact UInt32.le_trans h2.2 (by decide)
    · simp only [Bool.and_eq_true, decide_eq_true_eq, Char.le_def] at h3
      exact UInt32.le_trans h3.2 (by decide)
  unfold Char.utf8Size
  exact if_pos hle

/-- What the number parser makes of two characters: two digits, or a sign and a digit. -/
theorem fromStrRadix_pair (a b : Char) :
    fromStrRadix 16 255 [a, b] =
      if a = '+' then toDigit 16 b else (toDigit 16 a).bind fun x => (toDigit 16 b).map fun y => 16 * x + y := by
  unfold fromStrRadix
  by_cases ha : a = '+'
  · subst ha
    simp only [List.head?_cons, if_true, List.tail_cons, List.isEmpty_cons, Bool.false_eq_true, if_false,
      List.foldlM_cons, List.foldlM_nil]
    cases hb : toDigit 16 b with
    | none => rfl
    | some y =>
      have hy := (utf8Size_of_toDigit hb).2
      simp
      omega
  · rw [if_neg ha]
    simp only [List.head?_cons, Option.some.injEq, ha, if_false, List.isEmpty_cons, Bool.false_eq_true,
      List.foldlM_cons, List.foldlM_nil]
    cases hx : toDigit 16 a with
    | none => rfl
    | some x =>
      have hx := (utf8Size_of_toDigit hx).2
      cases hb : toDigit 16 b with
      | none => rfl
      | some y =>
        have hy := (utf8Size_of_toDigit hb).2
        simp
        omega

/-- One character that is not ASCII is no number. -/
theorem fromStrRadix_single {a : Char} (ha : a.utf8Size ≠ 1) : fromStrRadix 16 255 [a] = none := by
  have hplus : a ≠ '+' := by
    rintro rfl
    exact ha rfl
  have hdigit : toDigit 16 a = none := by
    cases h : toDigit 16 a with
    | none => rfl
    | some d => exact absurd (utf8Size_of_toDigit h).1 ha
  unfold fromStrRadix
  simp [hplus, hdigit]

/-- Two characters that are taken are ASCII. -/
theorem utf8Size_of_pair {a b : Char} {byte : ℕ} (h : fromStrRadix 16 255 [a, b] = some byte) :
    a.utf8Size = 1 ∧ b.utf8Size = 1 := by
  rw [fromStrRadix_pair] at h
  split_ifs at h with ha
  · subst ha
    exact ⟨rfl, (utf8Size_of_toDigit h).1⟩
  · obtain ⟨x, hx, hrest⟩ := Option.bind_eq_some_iff.mp h
    obtain ⟨y, hy, -⟩ := Option.map_eq_some_iff.mp hrest
    exact ⟨(utf8Size_of_toDigit hx).1, (utf8Size_of_toDigit hy).1⟩

/-! ## Slices -/

/-- The length of two texts. -/
theorem byteLen_append (done rest : Text) : byteLen (done ++ rest) = byteLen done + byteLen rest := by
  unfold byteLen
  rw [List.map_append, List.sum_append]

/-- One more character. -/
theorem byteLen_cons (c : Char) (rest : Text) : byteLen (c :: rest) = c.utf8Size + byteLen rest := by
  unfold byteLen
  rw [List.map_cons, List.sum_cons]

/-- The end of a text is a character boundary. -/
theorem splitAtByte_append (done rest : Text) : splitAtByte (done ++ rest) (byteLen done) = some (done, rest) := by
  induction done with
  | nil =>
    unfold byteLen splitAtByte
    cases rest <;> rfl
  | cons c done ih =>
    have hpos := c.utf8Size_pos
    obtain ⟨n, hn⟩ : ∃ n, byteLen (c :: done) = n + 1 := ⟨byteLen (c :: done) - 1, by rw [byteLen_cons]; omega⟩
    have hrest : n + 1 - c.utf8Size = byteLen done := by
      rw [← hn, byteLen_cons]
      omega
    rw [hn, List.cons_append, splitAtByte, hrest, ih, if_pos (by rw [← hn, byteLen_cons]; omega)]
    rfl

/-- A pair after some characters. -/
theorem sliceBytes_append (done rest : Text) :
    sliceBytes (done ++ rest) (byteLen done) (byteLen done + 2) = (splitAtByte rest 2).map Prod.fst := by
  unfold sliceBytes
  rw [splitAtByte_append, Option.bind_some, Nat.add_sub_cancel_left]

/-- Two bytes are two characters or one. -/
theorem splitAtByte_two {text pair rest : Text} (h : splitAtByte text 2 = some (pair, rest)) :
    (∃ a b, text = a :: b :: rest ∧ pair = [a, b]) ∨ ∃ a, text = a :: rest ∧ pair = [a] ∧ a.utf8Size ≠ 1 := by
  cases text with
  | nil => cases h
  | cons a text =>
    unfold splitAtByte at h
    have hpos := a.utf8Size_pos
    split_ifs at h with hfits
    obtain ⟨⟨part, left⟩, hpart, heq⟩ := Option.map_eq_some_iff.mp h
    obtain ⟨rfl, rfl⟩ := Prod.mk.inj heq
    change a.utf8Size ≤ 2 at hfits
    rcases (by omega : a.utf8Size = 1 ∨ a.utf8Size = 2) with hone | htwo
    · left
      rw [hone] at hpart
      cases text with
      | nil => cases hpart
      | cons b text =>
        change splitAtByte (b :: text) (0 + 1) = some (part, left) at hpart
        rw [splitAtByte] at hpart
        have hposb := b.utf8Size_pos
        split_ifs at hpart with hfitsb
        have hb : 0 + 1 - b.utf8Size = 0 := by omega
        rw [hb] at hpart
        unfold splitAtByte at hpart
        cases text with
        | nil =>
          obtain ⟨rfl, rfl⟩ := Prod.mk.inj (Option.some.inj hpart)
          exact ⟨a, b, rfl, rfl⟩
        | cons c text =>
          obtain ⟨rfl, rfl⟩ := Prod.mk.inj (Option.some.inj hpart)
          exact ⟨a, b, rfl, rfl⟩
    · right
      rw [htwo] at hpart
      change splitAtByte text 0 = some (part, left) at hpart
      unfold splitAtByte at hpart
      cases text with
      | nil =>
        obtain ⟨rfl, rfl⟩ := Prod.mk.inj (Option.some.inj hpart)
        exact ⟨a, rfl, rfl, by omega⟩
      | cons c text =>
        obtain ⟨rfl, rfl⟩ := Prod.mk.inj (Option.some.inj hpart)
        exact ⟨a, rfl, rfl, by omega⟩

/-! ## What is parsed -/

/-- A pair that the number parser does not take stops the loop: with an error, or with a panic if it ends inside a
character. -/
theorem parsePairs_stop {done text : Text} {n : ℕ} {bytes : List UInt8}
    (h : ∀ a b rest, text = a :: b :: rest → fromStrRadix 16 255 [a, b] = none) :
    parsePairs (done ++ text) (byteLen done :: List.range' (byteLen done + 2) n 2) bytes =
      (splitAtByte text 2).map fun split => .error ("invalid hex byte '".toList ++ split.1 ++ "'".toList) := by
  unfold parsePairs
  rw [sliceBytes_append]
  cases hsplit : splitAtByte text 2 with
  | none => rfl
  | some split =>
    obtain ⟨pair, rest⟩ := split
    have hpair : fromStrRadix 16 255 pair = none := by
      rcases splitAtByte_two hsplit with ⟨a, b, htext, rfl⟩ | ⟨a, -, rfl, ha⟩
      · exact h a b rest htext
      · exact fromStrRadix_single ha
    simp only [Option.map_some, hpair]

/-- The loop: it takes the pairs that the number parser takes, and what is left decides how it ends. -/
theorem parsePairs_eq (text done : Text) (bytes : List UInt8) (heven : byteLen text % 2 = 0) :
    parsePairs (done ++ text) (List.range' (byteLen done) (byteLen text / 2) 2) bytes =
      if afterPairs text = [] then some (.ok (bytes ++ pairBytes text))
      else (splitAtByte (afterPairs text) 2).map fun split =>
        .error ("invalid hex byte '".toList ++ split.1 ++ "'".toList) := by
  induction text using afterPairs.induct generalizing done bytes with
  | case1 a b digits htaken ih =>
    obtain ⟨byte, hbyte⟩ := Option.isSome_iff_exists.mp htaken
    obtain ⟨ha, hb⟩ := utf8Size_of_pair hbyte
    have hlen : byteLen (a :: b :: digits) = byteLen digits + 2 := by
      rw [byteLen_cons, byteLen_cons]
      omega
    have hpair : byteLen [a, b] = 2 := by
      rw [byteLen_cons, byteLen_cons, ha, hb]
      rfl
    have hsplit : splitAtByte (a :: b :: digits) 2 = some ([a, b], digits) := by
      rw [← hpair]
      exact splitAtByte_append [a, b] digits
    have hslice := sliceBytes_append done (a :: b :: digits)
    rw [hsplit] at hslice
    have hrest := ih (done ++ [a, b]) (bytes ++ [UInt8.ofNat byte]) (by omega)
    rw [List.append_assoc, byteLen_append, hpair] at hrest
    have hcount : byteLen (a :: b :: digits) / 2 = byteLen digits / 2 + 1 := by omega
    rw [hcount, List.range'_succ, parsePairs, hslice, afterPairs, if_pos htaken, pairBytes, hbyte]
    simp only [Option.map_some, hbyte]
    refine hrest.trans ?_
    rw [List.append_assoc]
    rfl
  | case2 a b digits hnot =>
    have hpos := a.utf8Size_pos
    obtain ⟨n, hn⟩ : ∃ n, byteLen (a :: b :: digits) / 2 = n + 1 := by
      have hlen : 2 ≤ byteLen (a :: b :: digits) := by
        have hposb := b.utf8Size_pos
        rw [byteLen_cons, byteLen_cons]
        omega
      exact ⟨byteLen (a :: b :: digits) / 2 - 1, by omega⟩
    rw [hn, List.range'_succ, afterPairs, if_neg hnot, if_neg (List.cons_ne_nil _ _)]
    refine parsePairs_stop fun a' b' rest htext => ?_
    obtain ⟨rfl, hrest⟩ := List.cons.inj htext
    obtain ⟨rfl, -⟩ := List.cons.inj hrest
    exact Option.not_isSome_iff_eq_none.mp hnot
  | case3 digits hshort =>
    have hafter : afterPairs digits = digits := by
      unfold afterPairs
      split
      · exact absurd rfl (hshort _ _ _)
      · rfl
    rw [hafter]
    cases digits with
    | nil =>
      rw [if_pos rfl]
      exact congrArg (fun b => some (Except.ok b)) (List.append_nil bytes).symm
    | cons a digits =>
      cases digits with
      | cons b digits => exact absurd rfl (hshort a b digits)
      | nil =>
        have hpos := a.utf8Size_pos
        obtain ⟨n, hn⟩ : ∃ n, byteLen [a] / 2 = n + 1 := by
          rw [byteLen_cons] at heven ⊢
          have hnil : byteLen [] = 0 := rfl
          exact ⟨(a.utf8Size + byteLen []) / 2 - 1, by omega⟩
        rw [hn, List.range'_succ, if_neg (List.cons_ne_nil _ _)]
        refine parsePairs_stop fun a' b' rest htext => ?_
        cases htext

/-- A sign is no digit. -/
theorem ne_plus_of_toDigit {c : Char} {d : ℕ} (h : toDigit 16 c = some d) : c ≠ '+' := by
  rintro rfl
  cases h

/-- The grammar: the number parser takes all pairs, and there is no sign among them. -/
theorem hexPairs_iff (digits : Text) (bytes : List UInt8) :
    HexPairs digits bytes ↔ afterPairs digits = [] ∧ '+' ∉ digits ∧ bytes = pairBytes digits := by
  constructor
  · intro h
    induction h with
    | nil => exact ⟨rfl, List.not_mem_nil, rfl⟩
    | @cons a b x y digits bytes ha hb _ ih =>
      have hpair : fromStrRadix 16 255 [a, b] = some (16 * x + y) := by
        rw [fromStrRadix_pair, if_neg (ne_plus_of_toDigit ha), ha, hb]
        rfl
      obtain ⟨hafter, hsign, hbytes⟩ := ih
      refine ⟨?_, ?_, ?_⟩
      · rw [afterPairs, hpair, if_pos Option.isSome_some]
        exact hafter
      · simp only [List.mem_cons, not_or]
        exact ⟨(ne_plus_of_toDigit ha).symm, (ne_plus_of_toDigit hb).symm, hsign⟩
      · rw [pairBytes, hpair, hbytes]
        rfl
  · rintro ⟨hafter, hsign, rfl⟩
    induction digits using afterPairs.induct with
    | case1 a b digits htaken ih =>
      obtain ⟨byte, hbyte⟩ := Option.isSome_iff_exists.mp htaken
      simp only [List.mem_cons, not_or] at hsign
      rw [afterPairs, if_pos htaken] at hafter
      have hpair := hbyte
      rw [fromStrRadix_pair, if_neg (Ne.symm hsign.1)] at hpair
      obtain ⟨x, hx, hrest⟩ := Option.bind_eq_some_iff.mp hpair
      obtain ⟨y, hy, rfl⟩ := Option.map_eq_some_iff.mp hrest
      rw [pairBytes, hbyte]
      exact .cons hx hy (ih hafter hsign.2.2)
    | case2 a b digits hnot =>
      rw [afterPairs, if_neg hnot] at hafter
      cases hafter
    | case3 digits hshort =>
      cases digits with
      | nil => exact .nil
      | cons a digits =>
        cases digits with
        | nil => cases hafter
        | cons b digits => exact absurd rfl (hshort a b digits)

/-! ## The patterns that are parsed by the grammar -/

/-- The digits of a pattern: some pairs of hexadecimal digits, which denote these bytes. -/
def Denotes (value : Text) (bytes : List UInt8) : Prop :=
  patternDigits value ≠ [] ∧ HexPairs (patternDigits value) bytes

/-- A parser of patterns keeps to the grammar: it gives what the bytes denote, or an error where there are none. -/
def ByGrammar {A : Type} (parsed : Option (Except Text A)) (value : Text) (made : List UInt8 → A) : Prop :=
  (∃ bytes, Denotes value bytes ∧ parsed = some (.ok (made bytes))) ∨
    (¬ (∃ bytes, Denotes value bytes) ∧ ∃ error, parsed = some (.error error))

/-- No digits, an odd number of bytes, only pairs without a sign, or a first pair that is no number and ends at a
character boundary. -/
def Regular (digits : Text) : Prop :=
  digits = [] ∨ byteLen digits % 2 = 1 ∨
    if afterPairs digits = [] then '+' ∉ digits else (splitAtByte (afterPairs digits) 2).isSome

/-- Digits of the grammar are an even number of bytes. -/
theorem byteLen_of_hexPairs {digits : Text} {bytes : List UInt8} (h : HexPairs digits bytes) :
    byteLen digits % 2 = 0 := by
  induction h with
  | nil => rfl
  | @cons a b x y digits bytes ha hb _ ih =>
    rw [byteLen_cons, byteLen_cons, (utf8Size_of_toDigit ha).1, (utf8Size_of_toDigit hb).1]
    omega

/-- What is not denoted by the grammar should be an error. -/
theorem byGrammar_error {A : Type} {parsed : Option (Except Text A)} {value : Text} {made : List UInt8 → A}
    (h : ∀ bytes, ¬ Denotes value bytes) : ByGrammar parsed value made ↔ ∃ error, parsed = some (.error error) := by
  constructor
  · rintro (⟨bytes, hd, -⟩ | ⟨-, herror⟩)
    · exact absurd hd (h bytes)
    · exact herror
  · exact fun herror => .inr ⟨fun ⟨bytes, hd⟩ => h bytes hd, herror⟩

/-- `parse_hex_pattern` keeps to the grammar exactly on the regular patterns. -/
theorem byGrammar_parseHexPattern (value : Text) :
    ByGrammar (parseHexPattern value) value id ↔ Regular (patternDigits value) := by
  unfold parseHexPattern Regular
  dsimp only
  generalize hdigits : patternDigits value = digits
  by_cases hempty : digits = []
  · have hnone : ∀ bytes, ¬ Denotes value bytes := fun bytes hd => hd.1 (hdigits.trans hempty)
    rw [byGrammar_error hnone, hempty]
    exact iff_of_true ⟨_, rfl⟩ (.inl rfl)
  · rw [if_neg (by simpa using hempty)]
    by_cases hodd : byteLen digits % 2 = 1
    · have hnone : ∀ bytes, ¬ Denotes value bytes := by
        intro bytes hd
        have heven := byteLen_of_hexPairs hd.2
        rw [hdigits] at heven
        omega
      rw [byGrammar_error hnone, if_pos (by omega)]
      exact iff_of_true ⟨_, rfl⟩ (.inr (.inl hodd))
    · have hloop := parsePairs_eq digits [] [] (by omega)
      have hcount : (byteLen digits + 1) / 2 = byteLen digits / 2 := by omega
      rw [if_neg (by omega), hcount]
      rw [List.nil_append, List.nil_append] at hloop
      have hrange : byteLen ([] : Text) = 0 := rfl
      rw [hrange] at hloop
      rw [hloop]
      simp only [hempty, hodd, false_or]
      by_cases hafter : afterPairs digits = []
      · rw [if_pos hafter, if_pos hafter]
        constructor
        · rintro (⟨bytes, hd, -⟩ | ⟨-, error, herror⟩)
          · exact ((hexPairs_iff digits bytes).mp (hdigits ▸ hd.2)).2.1
          · cases herror
        · intro hsign
          have hpairs := (hexPairs_iff digits (pairBytes digits)).mpr ⟨hafter, hsign, rfl⟩
          exact .inl ⟨pairBytes digits, ⟨by rw [hdigits]; exact hempty, by rw [hdigits]; exact hpairs⟩, rfl⟩
      · rw [if_neg hafter, if_neg hafter]
        have hnone : ∀ bytes, ¬ Denotes value bytes := by
          intro bytes hd
          have hpairs := hd.2
          rw [hdigits] at hpairs
          exact hafter ((hexPairs_iff digits bytes).mp hpairs).1
        rw [byGrammar_error hnone]
        cases splitAtByte (afterPairs digits) 2 with
        | none => simp
        | some split => simp

/-- And so does `PatternDefinition::binary_hex`. -/
theorem byGrammar_binaryHex (id_ value : String) :
    ByGrammar (PatternDefinition.binaryHex id_ value) value.toList (fun bytes => ⟨id_, value, .binary bytes⟩) ↔
      ByGrammar (parseHexPattern value.toList) value.toList id := by
  unfold ByGrammar PatternDefinition.binaryHex
  cases parseHexPattern value.toList with
  | none => simp
  | some parsed =>
    cases parsed with
    | error error => simp [Except.map]
    | ok bytes => simp [Except.map]

/-- Binary patterns are parsed by their grammar exactly if they are regular: where a pair that the number
parser does not take ends inside a character the parser panics, and a pair of a sign and a digit is taken for
a byte. -/
theorem parseHexPattern_byGrammar_iff (id_ value : String) :
    (ByGrammar (parseHexPattern value.toList) value.toList id ↔ Regular (patternDigits value.toList)) ∧
      (ByGrammar (PatternDefinition.binaryHex id_ value) value.toList (fun bytes => ⟨id_, value, .binary bytes⟩) ↔
        Regular (patternDigits value.toList)) :=
  ⟨byGrammar_parseHexPattern _, (byGrammar_binaryHex id_ value).trans (byGrammar_parseHexPattern _)⟩

/-- A sign and a digit denote nothing but are taken for a byte, and two bytes that end inside a character are
a panic. -/
theorem parseHexPattern_byGrammar_failing :
    ¬ ByGrammar (parseHexPattern "+f".toList) "+f".toList id ∧ parseHexPattern "+f".toList = some (.ok [15]) ∧
      parseHexPattern "aéb".toList = none := by
  have hsign : parseHexPattern "+f".toList = some (.ok [15]) := by decide +kernel
  refine ⟨?_, hsign, by decide +kernel⟩
  rw [byGrammar_parseHexPattern]
  unfold Regular
  decide +kernel

end Rustmate.Pattern
