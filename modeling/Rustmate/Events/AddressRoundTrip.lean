import Rustmate.Events.Address
import Rustmate.Events.Encode
import Rustmate.Events.Hex

/-!
# Addresses are read back

What `IpAddr::fmt` writes, `IpAddr::from_str` reads as the address that was written: four octets, or the groups of an
IPv6 address, with the longest run of zeros left out or with an IPv4 address at the end.
-/

namespace Rustmate.Events

open Digits (digits value)
open Message (Text toDigit)

variable {radix max_digits max limit : ℕ} {text rest : Text}

/-! ## Numbers -/

/-- No digit comes first. -/
def NoDigitFirst (radix : ℕ) (text : Text) : Prop := ∀ c ∈ text.head?, toDigit radix c = none

/-- Digits are read up to what is none. -/
theorem readDigits_append (hrest : NoDigitFirst radix rest) {ds : List ℕ} (hlt : ∀ d ∈ ds, d < 16 ∧ d < radix)
    {fuel : ℕ} (v : ℕ) (hfuel : ds.length < fuel) : readDigits radix fuel v (ds.map hexDigit ++ rest) =
      (ds.length, ds.foldl (fun v d => radix * v + d) v, rest) := by
  induction ds generalizing fuel v with
  | nil =>
    obtain ⟨fuel, rfl⟩ := Nat.exists_eq_succ_of_ne_zero (Nat.ne_zero_of_lt hfuel)
    cases rest with
    | nil => rfl
    | cons c rest =>
      have hnone : toDigit radix c = none := hrest c rfl
      simp only [List.map_nil, List.nil_append, readDigits, hnone, List.length_nil, List.foldl_nil]
  | cons d ds ih =>
    obtain ⟨fuel, rfl⟩ := Nat.exists_eq_succ_of_ne_zero (Nat.ne_zero_of_lt hfuel)
    have hd := hlt d List.mem_cons_self
    have hrec := ih (fun e he => hlt e (List.mem_cons_of_mem d he)) (radix * v + d) (Nat.lt_of_succ_lt_succ hfuel)
    simp only [List.map_cons, List.cons_append, readDigits, toDigit_hexDigit hd.1 hd.2, hrec, List.length_cons,
      List.foldl_cons]

/-- A number is read from its digits, unless a zero comes first that must not. -/
theorem readNumber_digits (hrest : NoDigitFirst radix rest) {ds : List ℕ} (hlt : ∀ d ∈ ds, d < 16 ∧ d < radix)
    (hne : ds ≠ []) (hlength : ds.length ≤ max_digits) (hmax : value radix ds ≤ max) { allow_zero_prefix : Bool}
    (hzero : allow_zero_prefix = true ∨ ds.length = 1 ∨ (ds.map hexDigit).head? ≠ some '0') :
    readNumber radix max_digits max allow_zero_prefix (ds.map hexDigit ++ rest) = some (value radix ds, rest) := by
  have hpos : 0 < ds.length := List.length_pos_of_ne_nil hne
  have hhead : (ds.map hexDigit ++ rest).head? = (ds.map hexDigit).head? := by
    cases ds with
    | nil => exact absurd rfl hne
    | cons d ds => rfl
  have hread : readDigits radix (max_digits + 1) 0 (ds.map hexDigit ++ rest) = (ds.length, value radix ds, rest) :=
    readDigits_append hrest hlt 0 (Nat.lt_succ_of_le hlength)
  unfold readNumber
  rw [hread, hhead]
  dsimp only
  rw [if_neg (by omega), if_neg]
  intro h
  -- A zero that must not come first does not.
  simp only [Bool.and_eq_true, Bool.not_eq_true', decide_eq_true_eq] at h
  rcases hzero with hallow | hone | hfirst
  · exact absurd (hallow.symm.trans h.1.1) (by decide)
  · omega
  · exact hfirst h.1.2

/-- Without a digit there is no number. -/
theorem readNumber_eq_none (h : NoDigitFirst radix text) ( allow_zero_prefix : Bool) :
    readNumber radix max_digits max allow_zero_prefix text = none := by
  have hread : readDigits radix (max_digits + 1) 0 ([].map hexDigit ++ text) = (0, 0, text) :=
    readDigits_append h (fun d hd => absurd hd List.not_mem_nil) 0 (Nat.succ_pos _)
  rw [List.map_nil, List.nil_append] at hread
  unfold readNumber
  rw [hread]
  rfl

/-- What is left of a number is the end of the text. -/
theorem readDigits_suffix (radix fuel v : ℕ) (text : Text) : (readDigits radix fuel v text).2.2 <:+ text := by
  induction fuel generalizing v text with
  | zero => exact List.suffix_rfl
  | succ fuel ih =>
    cases text with
    | nil => exact List.suffix_rfl
    | cons c text =>
      simp only [readDigits]
      cases toDigit radix c with
      | none => exact List.suffix_rfl
      | some d => exact (ih _ text).trans (List.suffix_cons c text)

theorem readNumber_suffix { allow_zero_prefix : Bool} {n : ℕ}
    (h : readNumber radix max_digits max allow_zero_prefix text = some (n, rest)) : rest <:+ text := by
  have hsuffix := readDigits_suffix radix (max_digits + 1) 0 text
  unfold readNumber at h
  dsimp only at h
  split_ifs at h
  obtain rfl := (Prod.mk.inj (Option.some.inj h)).2
  exact hsuffix

/-! ## Four octets -/

/-- The decimal digits of an octet. -/
def octetDigits (n : ℕ) : List ℕ :=
  if n < 10 then [n] else if n < 100 then [n / 10, n % 10] else [n / 100, n / 10 % 10, n % 10]

/-- They are its text. -/
theorem toDigits_octet : ∀ n < 256, Nat.toDigits 10 n = (octetDigits n).map hexDigit ∧
    value 10 (octetDigits n) = n ∧ octetDigits n ≠ [] ∧ (octetDigits n).length ≤ 3 ∧
    (∀ d ∈ octetDigits n, d < 16 ∧ d < 10) ∧
    ((octetDigits n).length = 1 ∨ ((octetDigits n).map hexDigit).head? ≠ some '0') := by
  decide +kernel

/-- An octet is read back. -/
theorem readNumber_octet (octet : UInt8) (hrest : NoDigitFirst 10 rest) :
    readNumber 10 3 255 false ((Nat.repr octet.toNat).toList ++ rest) = some (octet.toNat, rest) := by
  have hlt : octet.toNat < 256 := octet.toNat_lt
  obtain ⟨hdigits, hvalue, hne, hlength, hsmall, hzero⟩ := toDigits_octet octet.toNat hlt
  have htext : (Nat.repr octet.toNat).toList = (octetDigits octet.toNat).map hexDigit := by
    rw [← hdigits]
    simp [Nat.repr]
  have hread : readNumber 10 3 255 false ((octetDigits octet.toNat).map hexDigit ++ rest) =
      some (value 10 (octetDigits octet.toNat), rest) :=
    readNumber_digits hrest hsmall hne hlength (by omega) (.inr hzero)
  rw [htext, hread, hvalue]

/-- An IPv4 address is read back. -/
theorem readIpv4Addr_showIpv4 (a b c d : UInt8) (hrest : NoDigitFirst 10 rest) :
    readIpv4Addr (showIpv4 [a, b, c, d] ++ rest) = some ([a, b, c, d], rest) := by
  have hdot : ∀ text : Text, NoDigitFirst 10 ('.' :: text) := by
    rintro text c ⟨⟩
    rfl
  have htext : showIpv4 [a, b, c, d] ++ rest = (Nat.repr a.toNat).toList ++ '.' :: ((Nat.repr b.toNat).toList ++
      '.' :: ((Nat.repr c.toNat).toList ++ '.' :: ((Nat.repr d.toNat).toList ++ rest))) := by
    simp [showIpv4, List.intercalate]
  have hrange : List.range 4 = [0, 1, 2, 3] := rfl
  have hgiven : ∀ text : Text, readGivenChar '.' ('.' :: text) = some text := fun text => rfl
  rw [htext]
  simp only [readIpv4Addr, hrange, List.foldlM_cons, List.foldlM_nil, readSeparator, Nat.reduceLT, if_true, if_false,
    hgiven, readNumber_octet _ (hdot _), readNumber_octet d hrest, UInt8.ofNat_toNat, Option.bind_eq_bind,
    Option.bind_some, Option.pure_def, List.nil_append, List.cons_append]

/-- Without a dot there is no IPv4 address. -/
theorem readIpv4Addr_eq_none (h : '.' ∉ text) : readIpv4Addr text = none := by
  have hrange : List.range 4 = [0, 1, 2, 3] := rfl
  unfold readIpv4Addr
  rw [hrange, List.foldlM_cons]
  cases hread : readNumber 10 3 255 false text with
  | none => simp [readSeparator, hread]
  | some read =>
    obtain ⟨n, rest⟩ := read
    have hnone : readGivenChar '.' rest = none := by
      refine if_neg fun hhead => h ((readNumber_suffix hread).subset ?_)
      exact List.mem_of_mem_head? hhead
    simp [readSeparator, hread, hnone]

/-! ## Groups -/

/-- Zeros in front add nothing to a number. -/
theorem value_dropWhile (base : ℕ) (ds : List ℕ) : value base (ds.dropWhile fun d => d = 0) = value base ds := by
  induction ds with
  | nil => rfl
  | cons d ds ih =>
    by_cases hzero : d = 0
    · rw [List.dropWhile_cons, if_pos (decide_eq_true hzero), ih, hzero]
      unfold value
      rw [List.foldl_cons, Nat.mul_zero, Nat.add_zero]
    · rw [List.dropWhile_cons, if_neg (by simpa using hzero)]

/-- The digits of a group are those of its number. -/
theorem hexGroup_eq {group : ℕ} (h : group < 65536) : ∃ ds, hexGroup group = ds.map hexDigit ∧ ds ≠ [] ∧
    ds.length ≤ 4 ∧ (∀ d ∈ ds, d < 16) ∧ value 16 ds = group := by
  have hdigits : (List.range 4).map (fun i => group / 16^(3 - i) % 16) = digits 16 4 group := rfl
  have hvalue : value 16 ((digits 16 4 group).dropWhile fun d => d = 0) = group := by
    rw [value_dropWhile, Digits.value_digits]
    exact Nat.mod_eq_of_lt h
  unfold hexGroup
  dsimp only
  rw [hdigits]
  by_cases hempty : ((digits 16 4 group).dropWhile fun d => d = 0).isEmpty = true
  · rw [if_pos hempty]
    rw [List.isEmpty_iff.mp hempty] at hvalue
    exact ⟨[0], rfl, nofun, by decide, by simp, hvalue⟩
  · rw [if_neg hempty]
    refine ⟨_, rfl, fun hnil => hempty (by rw [hnil]; rfl), ?_, fun d hd => ?_, hvalue⟩
    · exact (List.dropWhile_suffix _).length_le.trans (Digits.length_digits 16 4 group).le
    · exact Digits.digits_lt (by decide) ((List.dropWhile_suffix _).subset hd)

/-- A group is read back. -/
theorem readNumber_hexGroup {group : ℕ} (h : group < 65536) (hrest : NoDigitFirst 16 rest) :
    readNumber 16 4 0xFFFF true (hexGroup group ++ rest) = some (group, rest) := by
  obtain ⟨ds, htext, hne, hlength, hlt, hvalue⟩ := hexGroup_eq h
  rw [htext, readNumber_digits hrest (fun d hd => ⟨hlt d hd, hlt d hd⟩) hne hlength (by omega) (.inl rfl), hvalue]

/-- There is no dot in a group. -/
theorem dot_not_mem_hexGroup {group : ℕ} (h : group < 65536) : '.' ∉ hexGroup group := by
  have hdigit : ∀ d < 16, hexDigit d ≠ '.' := by decide
  obtain ⟨ds, htext, -, -, hlt, -⟩ := hexGroup_eq h
  rw [htext]
  intro hmem
  obtain ⟨d, hd, heq⟩ := List.mem_map.mp hmem
  exact hdigit d (hlt d hd) heq

/-- Groups behind another one. -/
def moreGroups (groups : List ℕ) : Text := groups.flatMap fun group => ':' :: hexGroup group

/-- The first group, and those behind it. -/
theorem showGroups_cons (group : ℕ) (groups : List ℕ) :
    showGroups (group :: groups) = hexGroup group ++ moreGroups groups := by
  induction groups generalizing group with
  | nil => simp [showGroups, moreGroups, List.intercalate]
  | cons next groups ih =>
    have hnext := ih next
    unfold showGroups at hnext ⊢
    unfold moreGroups at hnext ⊢
    rw [List.map_cons, List.map_cons, List.intercalate_cons_cons, ← List.map_cons, hnext]
    simp

theorem dot_not_mem_moreGroups {groups : List ℕ} (h : ∀ group ∈ groups, group < 65536) :
    '.' ∉ moreGroups groups := by
  intro hmem
  obtain ⟨group, hgroup, hin⟩ := List.mem_flatMap.mp hmem
  rcases List.mem_cons.mp hin with heq | hin
  · exact absurd heq (by decide)
  · exact dot_not_mem_hexGroup (h group hgroup) hin

theorem dot_not_mem_showGroups {groups : List ℕ} (h : ∀ group ∈ groups, group < 65536) :
    '.' ∉ showGroups groups := by
  cases groups with
  | nil => exact List.not_mem_nil
  | cons group groups =>
    rw [showGroups_cons]
    intro hmem
    rcases List.mem_append.mp hmem with hmem | hmem
    · exact dot_not_mem_hexGroup (h group List.mem_cons_self) hmem
    · exact dot_not_mem_moreGroups (fun g hg => h g (List.mem_cons_of_mem _ hg)) hmem

/-- What follows some groups and is none. -/
structure Follows (rest : Text) : Prop where
  dot : '.' ∉ rest
  digit : NoDigitFirst 16 rest
  stops : ∀ text, readGivenChar ':' rest = some text → NoDigitFirst 16 text

/-- Behind groups stands no digit. -/
theorem noDigitFirst_moreGroups (groups : List ℕ) (hrest : Follows rest) :
    NoDigitFirst 16 (moreGroups groups ++ rest) := by
  cases groups with
  | nil => exact hrest.digit
  | cons group groups =>
    rintro c ⟨⟩
    rfl

/-- Nothing stands in front of the first group. -/
theorem readSeparator_zero {α : Type} (separator : Char) (inner : Text → Option (α × Text)) (text : Text) :
    readSeparator separator 0 inner text = inner text := if_neg (Nat.lt_irrefl 0)

/-- In front of the others stands the separator. -/
theorem readSeparator_pos {α : Type} {index : ℕ} (h : 0 < index) (separator : Char)
    (inner : Text → Option (α × Text)) (text : Text) :
    readSeparator separator index inner text = (readGivenChar separator text).bind inner := if_pos h

/-- What is read first of the rest is no group, and no IPv4 address. -/
theorem readSeparator_follows (hrest : Follows rest) (index : ℕ) :
    readSeparator ':' index readIpv4Addr rest = none ∧
      readSeparator ':' index (readNumber 16 4 0xFFFF true) rest = none := by
  have hdot : ∀ text, readGivenChar ':' rest = some text → '.' ∉ text := by
    intro text htext hmem
    unfold readGivenChar at htext
    split_ifs at htext
    obtain rfl := Option.some.inj htext
    exact hrest.dot (List.mem_of_mem_tail hmem)
  unfold readSeparator
  split_ifs
  · cases hgiven : readGivenChar ':' rest with
    | none => exact ⟨rfl, rfl⟩
    | some text =>
      rw [Option.bind_some, Option.bind_some]
      exact ⟨readIpv4Addr_eq_none (hdot text hgiven), readNumber_eq_none (hrest.stops text hgiven) true⟩
  · exact ⟨readIpv4Addr_eq_none hrest.dot, readNumber_eq_none hrest.digit true⟩

/-- `readGroups` ends where there is neither an IPv4 address nor a group. -/
theorem readGroups_stop {fuel index : ℕ} (hipv4 : readSeparator ':' index readIpv4Addr text = none)
    (hgroup : readSeparator ':' index (readNumber 16 4 0xFFFF true) text = none) :
    readGroups limit (fuel + 1) index text = ([], false, text) := by
  simp only [readGroups, hipv4, hgroup, ite_self]

/-- `readGroups` goes on behind a group. -/
theorem readGroups_group {fuel index group : ℕ} {next : Text} {groups : List UInt8} {has_ipv4 : Bool}
    (hipv4 : readSeparator ':' index readIpv4Addr text = none)
    (hgroup : readSeparator ':' index (readNumber 16 4 0xFFFF true) text = some (group, next))
    (hmore : readGroups limit fuel (index + 1) next = (groups, has_ipv4, rest)) :
    readGroups limit (fuel + 1) index text = (groupBytes group ++ groups, has_ipv4, rest) := by
  simp only [readGroups, hipv4, hgroup, hmore, ite_self]

/-- Groups behind another one are read back. -/
theorem readGroups_moreGroups (hrest : Follows rest) {groups : List ℕ} (h : ∀ group ∈ groups, group < 65536)
    {fuel index : ℕ} (hindex : 0 < index) (hfuel : groups.length ≤ fuel) :
    readGroups limit fuel index (moreGroups groups ++ rest) = (groups.flatMap groupBytes, false, rest) := by
  induction groups generalizing fuel index with
  | nil =>
    cases fuel with
    | zero => rfl
    | succ fuel =>
      obtain ⟨hipv4, hgroup⟩ := readSeparator_follows hrest index
      exact readGroups_stop hipv4 hgroup
  | cons group groups ih =>
    obtain ⟨fuel, rfl⟩ := Nat.exists_eq_succ_of_ne_zero (Nat.ne_zero_of_lt hfuel)
    have hgroups : ∀ g ∈ groups, g < 65536 := fun g hg => h g (List.mem_cons_of_mem _ hg)
    have htext : moreGroups (group :: groups) ++ rest = ':' :: (hexGroup group ++ (moreGroups groups ++ rest)) := by
      simp [moreGroups]
    have hdot : '.' ∉ hexGroup group ++ (moreGroups groups ++ rest) := by
      simp only [List.mem_append, not_or]
      exact ⟨dot_not_mem_hexGroup (h group List.mem_cons_self), dot_not_mem_moreGroups hgroups, hrest.dot⟩
    have hipv4 : readSeparator ':' index readIpv4Addr (moreGroups (group :: groups) ++ rest) = none := by
      rw [htext, readSeparator_pos hindex]
      exact readIpv4Addr_eq_none hdot
    have hgroup : readSeparator ':' index (readNumber 16 4 0xFFFF true) (moreGroups (group :: groups) ++ rest) =
        some (group, moreGroups groups ++ rest) := by
      rw [htext, readSeparator_pos hindex]
      exact readNumber_hexGroup (h group List.mem_cons_self) (noDigitFirst_moreGroups groups hrest)
    exact readGroups_group hipv4 hgroup (ih hgroups (Nat.succ_pos index) (Nat.le_of_succ_le_succ hfuel))

/-- Groups are read back. -/
theorem readGroups_showGroups (hrest : Follows rest) {groups : List ℕ} (h : ∀ group ∈ groups, group < 65536)
    {fuel : ℕ} (hfuel : groups.length ≤ fuel) :
    readGroups limit fuel 0 (showGroups groups ++ rest) = (groups.flatMap groupBytes, false, rest) := by
  cases groups with
  | nil =>
    cases fuel with
    | zero => rfl
    | succ fuel =>
      obtain ⟨hipv4, hgroup⟩ := readSeparator_follows hrest 0
      exact readGroups_stop hipv4 hgroup
  | cons group groups =>
    obtain ⟨fuel, rfl⟩ := Nat.exists_eq_succ_of_ne_zero (Nat.ne_zero_of_lt hfuel)
    have hgroups : ∀ g ∈ groups, g < 65536 := fun g hg => h g (List.mem_cons_of_mem _ hg)
    have hdot : '.' ∉ showGroups (group :: groups) ++ rest := by
      simp only [List.mem_append, not_or]
      exact ⟨dot_not_mem_showGroups h, hrest.dot⟩
    have hgroup : readSeparator ':' 0 (readNumber 16 4 0xFFFF true) (showGroups (group :: groups) ++ rest) =
        some (group, moreGroups groups ++ rest) := by
      rw [showGroups_cons, List.append_assoc]
      exact readNumber_hexGroup (h group List.mem_cons_self) (noDigitFirst_moreGroups groups hrest)
    have hipv4 : readSeparator ':' 0 readIpv4Addr (showGroups (group :: groups) ++ rest) = none :=
      readIpv4Addr_eq_none hdot
    exact readGroups_group hipv4 hgroup
      (readGroups_moreGroups hrest hgroups Nat.one_pos (Nat.le_of_succ_le_succ hfuel))

/-! ## Sixteen octets -/

/-- The groups of some octets make the octets. -/
theorem flatMap_ipv6Groups (octets : List UInt8) (heven : octets.length % 2 = 0) :
    (ipv6Groups octets).flatMap groupBytes = octets ∧ (∀ group ∈ ipv6Groups octets, group < 65536) ∧
      2 * (ipv6Groups octets).length = octets.length := by
  induction octets using ipv6Groups.induct with
  | case1 high low rest ih =>
    obtain ⟨hbytes, hlt, hlength⟩ := ih (by simp only [List.length_cons] at heven; omega)
    have hhigh : high.toNat < 256 := high.toNat_lt
    have hlow : low.toNat < 256 := low.toNat_lt
    have hgroup : groupBytes (high.toNat * 256 + low.toNat) = [high, low] := by
      unfold groupBytes
      rw [show (high.toNat * 256 + low.toNat) / 256 = high.toNat by omega,
        show (high.toNat * 256 + low.toNat) % 256 = low.toNat by omega, UInt8.ofNat_toNat, UInt8.ofNat_toNat]
    refine ⟨?_, ?_, ?_⟩
    · rw [ipv6Groups, List.flatMap_cons, hgroup, hbytes]
      rfl
    · rw [ipv6Groups, List.forall_mem_cons]
      exact ⟨by omega, hlt⟩
    · rw [ipv6Groups, List.length_cons, List.length_cons, List.length_cons]
      omega
  | case2 octets hshort =>
    rcases octets with - | ⟨high, - | ⟨low, rest⟩⟩
    · exact ⟨rfl, nofun, rfl⟩
    · simp at heven
    · exact absurd rfl (hshort high low rest)

/-- At a zero the run goes on, or begins. -/
theorem zerosStep_zero (longest : ℕ × ℕ) (start length k : ℕ) : zerosStep (longest, start, length) (0, k) =
    (if longest.2 < length + 1 then (if length = 0 then k else start, length + 1) else longest,
      if length = 0 then k else start, length + 1) := rfl

/-- At another group it ends. -/
theorem zerosStep_of_ne {group : ℕ} (h : group ≠ 0) (longest current : ℕ × ℕ) (k : ℕ) :
    zerosStep (longest, current) (group, k) = (longest, 0, 0) := if_neg h

/-- So many groups from one on are zero. -/
def ZerosAt (groups : List ℕ) (run : ℕ × ℕ) : Prop :=
  run.1 + run.2 ≤ groups.length ∧ ∀ i, run.1 ≤ i → i < run.1 + run.2 → groups[i]? = some 0

/-- What the search for the longest run has found, and the run that it is in, are zeros. -/
theorem zerosAt_foldl (groups : List ℕ) (rest : List ℕ) (k : ℕ) (state : (ℕ × ℕ) × (ℕ × ℕ))
    (hrest : groups.drop k = rest) (hlongest : ZerosAt groups state.1) (hcurrent : ZerosAt groups state.2)
    (hend : state.2.2 = 0 ∨ state.2.1 + state.2.2 = k) :
    ZerosAt groups ((rest.zipIdx k).foldl zerosStep state).1 := by
  induction rest generalizing k state with
  | nil => exact hlongest
  | cons group rest ih =>
    obtain ⟨longest, start, length⟩ := state
    have hget : groups[k]? = some group := by
      rw [← List.head?_drop, hrest]
      rfl
    have hk : k < groups.length := (List.getElem?_eq_some_iff.mp hget).1
    have hnext : groups.drop (k + 1) = rest := by
      rw [← List.tail_drop, hrest]
      rfl
    rw [List.zipIdx_cons, List.foldl_cons]
    by_cases hzero : group = 0
    · -- the run goes on, or begins here
      obtain ⟨hle, hzeros⟩ := hcurrent
      dsimp only at hle hzeros hend
      have hrun : ZerosAt groups (if length = 0 then k else start, length + 1) ∧
          (if length = 0 then k else start) + (length + 1) = k + 1 := by
        split_ifs with hfirst
        · refine ⟨⟨by dsimp only; omega, fun i hi hlt => ?_⟩, by omega⟩
          dsimp only at hi hlt
          rw [show i = k by omega, hget, hzero]
        · have hstart : start + length = k := by omega
          refine ⟨⟨by dsimp only; omega, fun i hi hlt => ?_⟩, by omega⟩
          dsimp only at hi hlt
          rcases Nat.lt_or_ge i k with hbefore | hat
          · exact hzeros i hi (by omega)
          · rw [show i = k by omega, hget, hzero]
      rw [hzero, zerosStep_zero]
      generalize (if length = 0 then k else start) = begun at hrun ⊢
      refine ih (k + 1) _ hnext ?_ hrun.1 (.inr hrun.2)
      dsimp only
      split_ifs
      · exact hrun.1
      · exact hlongest
    · rw [zerosStep_of_ne hzero]
      exact ih (k + 1) _ hnext hlongest ⟨Nat.zero_le _, fun i _ hi => absurd hi (by simp)⟩ (.inl rfl)

/-- The longest run of zeros is one. -/
theorem zerosAt_longestZeros (groups : List ℕ) : ZerosAt groups (longestZeros groups) :=
  zerosAt_foldl groups groups 0 ((0, 0), (0, 0)) rfl ⟨Nat.zero_le _, fun i _ hi => absurd hi (by simp)⟩
    ⟨Nat.zero_le _, fun i _ hi => absurd hi (by simp)⟩ (.inl rfl)

/-- The groups around a run of zeros. -/
theorem ZerosAt.split {groups : List ℕ} {start length : ℕ} (h : ZerosAt groups (start, length)) :
    groups = groups.take start ++ (List.replicate length 0 ++ groups.drop (start + length)) := by
  have hmiddle : (groups.drop start).take length = List.replicate length 0 := by
    refine List.ext_getElem? fun i => ?_
    rw [List.getElem?_take, List.getElem?_replicate, List.getElem?_drop]
    split_ifs with hi
    · exact h.2 (start + i) (Nat.le_add_right _ _) (by dsimp only; omega)
    · rfl
  rw [← hmiddle, ← List.drop_drop, List.take_append_drop, List.take_append_drop]

/-- The octets of groups are twice as many. -/
theorem length_flatMap_groupBytes (groups : List ℕ) : (groups.flatMap groupBytes).length = 2 * groups.length := by
  induction groups with
  | nil => rfl
  | cons group groups ih =>
    rw [List.flatMap_cons, List.length_append, ih, List.length_cons]
    simp only [groupBytes, List.length_cons, List.length_nil]
    omega

/-- The octets of zeros are zeros. -/
theorem flatMap_replicate_zero (length : ℕ) :
    (List.replicate length 0).flatMap groupBytes = List.replicate (2 * length) 0 := by
  induction length with
  | zero => rfl
  | succ length ih =>
    rw [List.replicate_succ, List.flatMap_cons, ih, Nat.mul_succ]
    rfl

/-- The octets around a run of zeros. -/
theorem ZerosAt.flatMap_groupBytes {groups : List ℕ} {start length : ℕ} (h : ZerosAt groups (start, length)) :
    groups.flatMap groupBytes = (groups.take start).flatMap groupBytes ++ List.replicate (2 * length) 0 ++
      (groups.drop (start + length)).flatMap groupBytes := by
  calc groups.flatMap groupBytes
      = (groups.take start ++ (List.replicate length 0 ++ groups.drop (start + length))).flatMap groupBytes :=
        congrArg (List.flatMap groupBytes) h.split
    _ = (groups.take start).flatMap groupBytes ++ ((List.replicate length 0).flatMap groupBytes ++
          (groups.drop (start + length)).flatMap groupBytes) := by
        rw [List.flatMap_append, List.flatMap_append]
    _ = _ := by rw [flatMap_replicate_zero, List.append_assoc]

/-- Nothing follows. -/
theorem follows_nil : Follows [] := ⟨List.not_mem_nil, nofun, nofun⟩

/-- Two colons follow, and groups behind them. -/
theorem follows_colons {groups : List ℕ} (h : ∀ group ∈ groups, group < 65536) :
    Follows (':' :: ':' :: showGroups groups) := by
  refine ⟨?_, ?_, ?_⟩
  · simp only [List.mem_cons, not_or]
    exact ⟨by decide, by decide, dot_not_mem_showGroups h⟩
  · rintro c ⟨⟩
    rfl
  · rintro text ⟨⟩ c ⟨⟩
    rfl

/-- The groups of an address are read back. -/
theorem readIpv6Addr_groups {groups : List ℕ} (h : ∀ group ∈ groups, group < 65536) (hlength : groups.length = 8) :
    readIpv6Addr (showGroups groups) = some (groups.flatMap groupBytes, []) := by
  have hread : readGroups 8 8 0 (showGroups groups ++ []) = (groups.flatMap groupBytes, false, []) :=
    readGroups_showGroups follows_nil h hlength.le
  rw [List.append_nil] at hread
  have hfull : (groups.flatMap groupBytes).length = 16 := by
    rw [length_flatMap_groupBytes, hlength]
  unfold readIpv6Addr
  rw [hread]
  dsimp only
  rw [if_pos hfull]
  rfl

/-- They are read back when a run of zeros is left out. -/
theorem readIpv6Addr_zeros {groups : List ℕ} (h : ∀ group ∈ groups, group < 65536) (hlength : groups.length = 8)
    {start length : ℕ} (hzeros : ZerosAt groups (start, length)) (hlong : 1 < length) :
    readIpv6Addr (showGroups (groups.take start) ++ ':' :: ':' :: showGroups (groups.drop (start + length))) =
      some (groups.flatMap groupBytes, []) := by
  have hle : start + length ≤ 8 := hzeros.1.trans hlength.le
  have hfront : ∀ group ∈ groups.take start, group < 65536 := fun g hg => h g (List.mem_of_mem_take hg)
  have hback : ∀ group ∈ groups.drop (start + length), group < 65536 := fun g hg => h g (List.mem_of_mem_drop hg)
  have hfrontLength : (groups.take start).length = start := by
    rw [List.length_take]
    omega
  have hbackLength : (groups.drop (start + length)).length = 8 - (start + length) := by
    rw [List.length_drop, hlength]
  have hhead : readGroups 8 8 0
      (showGroups (groups.take start) ++ ':' :: ':' :: showGroups (groups.drop (start + length))) =
        ((groups.take start).flatMap groupBytes, false, ':' :: ':' :: showGroups (groups.drop (start + length))) :=
    readGroups_showGroups (follows_colons hback) hfront (by omega)
  have hlimit : 8 - (((groups.take start).flatMap groupBytes).length / 2 + 1) = 7 - start := by
    rw [length_flatMap_groupBytes, hfrontLength]
    omega
  have htail : readGroups (7 - start) (7 - start) 0 (showGroups (groups.drop (start + length)) ++ []) =
      ((groups.drop (start + length)).flatMap groupBytes, false, []) :=
    readGroups_showGroups follows_nil hback (by omega)
  rw [List.append_nil] at htail
  have hshort : ((groups.take start).flatMap groupBytes).length ≠ 16 := by
    rw [length_flatMap_groupBytes, hfrontLength]
    omega
  -- The octets that are left out are those of the run.
  have hzero : 16 - ((groups.take start).flatMap groupBytes).length -
      ((groups.drop (start + length)).flatMap groupBytes).length = 2 * length := by
    rw [length_flatMap_groupBytes, length_flatMap_groupBytes, hfrontLength, hbackLength]
    omega
  unfold readIpv6Addr
  rw [hhead]
  dsimp only
  rw [if_neg hshort, hlimit]
  simp only [readGivenChar, List.head?_cons, List.tail_cons, if_true, Bool.false_eq_true, if_false,
    Option.bind_eq_bind, Option.bind_some, htail, hzero, hzeros.flatMap_groupBytes]
  rfl

/-- Without a decimal digit there is no IPv4 address. -/
theorem readIpv4Addr_eq_none_of_digit (h : NoDigitFirst 10 text) : readIpv4Addr text = none := by
  have hrange : List.range 4 = [0, 1, 2, 3] := rfl
  unfold readIpv4Addr
  rw [hrange, List.foldlM_cons]
  simp [readSeparator, readNumber_eq_none h]

/-- An IPv4 address at the end is read back. -/
theorem readIpv6Addr_mapped (a b c d : UInt8) :
    readIpv6Addr ("::ffff:".toList ++ showIpv4 [a, b, c, d]) =
      some (List.replicate 10 0 ++ [0xFF, 0xFF, a, b, c, d], []) := by
  have hcolon : ∀ radix, radix = 10 ∨ radix = 16 → ∀ text : Text, NoDigitFirst radix (':' :: text) := by
    rintro radix (rfl | rfl) text c ⟨⟩
    · rfl
    · rfl
  have htext : "::ffff:".toList ++ showIpv4 [a, b, c, d] =
      ':' :: ':' :: (hexGroup 0xFFFF ++ ':' :: showIpv4 [a, b, c, d]) := by
    have hlead : "::ffff:".toList = ':' :: ':' :: (hexGroup 0xFFFF ++ [':']) := by decide
    rw [hlead]
    simp
  have hletter : NoDigitFirst 10 (hexGroup 0xFFFF ++ ':' :: showIpv4 [a, b, c, d]) := by
    have hfirst : (hexGroup 0xFFFF ++ ':' :: showIpv4 [a, b, c, d]).head? = some 'f' := rfl
    intro c hc
    rw [hfirst] at hc
    obtain rfl := Option.mem_some_iff.mp hc
    rfl
  -- The two colons come first.
  have hhead : readGroups 8 8 0 (':' :: ':' :: (hexGroup 0xFFFF ++ ':' :: showIpv4 [a, b, c, d])) =
      ([], false, ':' :: ':' :: (hexGroup 0xFFFF ++ ':' :: showIpv4 [a, b, c, d])) := by
    have hgroup : readSeparator ':' 0 (readNumber 16 4 0xFFFF true)
        (':' :: ':' :: (hexGroup 0xFFFF ++ ':' :: showIpv4 [a, b, c, d])) = none := by
      rw [readSeparator_zero]
      exact readNumber_eq_none (hcolon 16 (.inr rfl) _) true
    have hnone : readSeparator ':' 0 readIpv4Addr
        (':' :: ':' :: (hexGroup 0xFFFF ++ ':' :: showIpv4 [a, b, c, d])) = none := by
      rw [readSeparator_zero]
      exact readIpv4Addr_eq_none_of_digit (hcolon 10 (.inl rfl) _)
    exact readGroups_stop hnone hgroup
  -- Behind the group stands the IPv4 address.
  have hipv4 : readGroups 7 6 1 (':' :: showIpv4 [a, b, c, d]) = ([a, b, c, d], true, []) := by
    have hread : readIpv4Addr (showIpv4 [a, b, c, d] ++ []) = some ([a, b, c, d], []) :=
      readIpv4Addr_showIpv4 a b c d nofun
    rw [List.append_nil] at hread
    have hseparator : readSeparator ':' 1 readIpv4Addr (':' :: showIpv4 [a, b, c, d]) = some ([a, b, c, d], []) :=
      hread
    unfold readGroups
    rw [if_pos (by decide), hseparator]
  have htail : readGroups 7 7 0 (hexGroup 0xFFFF ++ ':' :: showIpv4 [a, b, c, d]) =
      ([0xFF, 0xFF, a, b, c, d], true, []) := by
    have hgroup : readSeparator ':' 0 (readNumber 16 4 0xFFFF true)
        (hexGroup 0xFFFF ++ ':' :: showIpv4 [a, b, c, d]) = some (0xFFFF, ':' :: showIpv4 [a, b, c, d]) := by
      rw [readSeparator_zero]
      exact readNumber_hexGroup (by decide) (hcolon 16 (.inr rfl) _)
    have hnone : readSeparator ':' 0 readIpv4Addr (hexGroup 0xFFFF ++ ':' :: showIpv4 [a, b, c, d]) = none := by
      rw [readSeparator_zero]
      exact readIpv4Addr_eq_none_of_digit hletter
    exact readGroups_group hnone hgroup hipv4
  rw [htext]
  unfold readIpv6Addr
  rw [hhead]
  simp only [readGivenChar, List.head?_cons, List.tail_cons, if_true, Bool.false_eq_true, if_false, List.length_nil,
    Option.bind_eq_bind, Option.bind_some, Nat.zero_div, Nat.zero_add]
  rw [htail]
  rfl

/-! ## Addresses -/

/-- Four octets are four. -/
theorem exists_of_length_four (octets : List UInt8) (h : octets.length = 4) : ∃ a b c d, octets = [a, b, c, d] := by
  rcases octets with - | ⟨a, - | ⟨b, - | ⟨c, - | ⟨d, - | ⟨e, octets⟩⟩⟩⟩⟩ <;> simp at h
  exact ⟨a, b, c, d, rfl⟩

/-- An IPv6 address is read back, and no IPv4 address is read instead. -/
theorem readIpv6Addr_showIpv6 (octets : List UInt8) (hlength : octets.length = 16) :
    readIpv4Addr (showIpv6 octets) = none ∧ readIpv6Addr (showIpv6 octets) = some (octets, []) := by
  unfold showIpv6
  by_cases hmapped : octets.take 12 = List.replicate 10 0 ++ [0xFF, 0xFF]
  · rw [if_pos hmapped]
    obtain ⟨a, b, c, d, hlast⟩ : ∃ a b c d, octets.drop 12 = [a, b, c, d] :=
      exists_of_length_four _ (by rw [List.length_drop, hlength])
    have hoctets : octets = List.replicate 10 0 ++ [0xFF, 0xFF, a, b, c, d] := by
      rw [← List.take_append_drop 12 octets, hmapped, hlast]
      rfl
    rw [hlast]
    refine ⟨readIpv4Addr_eq_none_of_digit ?_, ?_⟩
    · rintro c ⟨⟩
      rfl
    · rw [readIpv6Addr_mapped, ← hoctets]
  · rw [if_neg hmapped]
    obtain ⟨hbytes, hgroups, height⟩ := flatMap_ipv6Groups octets (by omega)
    have hcount : (ipv6Groups octets).length = 8 := by omega
    have hzeros := zerosAt_longestZeros (ipv6Groups octets)
    dsimp only
    generalize longestZeros (ipv6Groups octets) = run at hzeros ⊢
    obtain ⟨start, length⟩ := run
    dsimp only
    split_ifs with hlong
    · have htext : showGroups ((ipv6Groups octets).take start) ++ "::".toList ++
          showGroups ((ipv6Groups octets).drop (start + length)) = showGroups ((ipv6Groups octets).take start) ++
            ':' :: ':' :: showGroups ((ipv6Groups octets).drop (start + length)) := List.append_assoc ..
      have hfollows := follows_colons fun g hg => hgroups g (List.mem_of_mem_drop (i := start + length) hg)
      have hdot : '.' ∉ showGroups ((ipv6Groups octets).take start) :=
        dot_not_mem_showGroups fun g hg => hgroups g (List.mem_of_mem_take hg)
      rw [htext]
      refine ⟨readIpv4Addr_eq_none ?_, ?_⟩
      · simp only [List.mem_append, not_or]
        exact ⟨hdot, hfollows.dot⟩
      · rw [readIpv6Addr_zeros hgroups hcount hzeros hlong, hbytes]
    · refine ⟨readIpv4Addr_eq_none (dot_not_mem_showGroups hgroups), ?_⟩
      rw [readIpv6Addr_groups hgroups hcount, hbytes]

/-- The octets of a vector are as many. -/
theorem octets?_toList {n : ℕ} (octets : Vector UInt8 n) : octets? n octets.toList = some octets := by
  unfold octets?
  rw [dif_pos (by simp)]
  rfl

/-- Every address is read back. -/
theorem parseIpAddr_showIpAddr (addr : IpAddr) : parseIpAddr (showIpAddr addr) = some addr := by
  cases addr with
  | v4 octets =>
    obtain ⟨a, b, c, d, hoctets⟩ := exists_of_length_four octets.toList (by simp)
    have hread : readIpv4Addr (showIpv4 octets.toList ++ []) = some (octets.toList, []) := by
      rw [hoctets]
      exact readIpv4Addr_showIpv4 a b c d nofun
    rw [List.append_nil] at hread
    unfold parseIpAddr showIpAddr
    simp only [hread, Option.bind_some, octets?_toList, Option.map_some, Option.some_or]
    rfl
  | v6 octets =>
    obtain ⟨hnone, hread⟩ := readIpv6Addr_showIpv6 octets.toList (by simp)
    unfold parseIpAddr showIpAddr
    simp only [hnone, hread, Option.bind_none, Option.bind_some, octets?_toList, Option.map_some, Option.none_or]
    rfl

end Rustmate.Events
