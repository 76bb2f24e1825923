import Rustmate.Api.ProfileSet
import Rustmate.Message.Lines

/-!
# Hide rules as text

A rule is written in a profile file, sent in a request, and shown by the API. `HideRuleConfig` of
`src/service_profile.rs` and `HideRuleRequest` of `src/api.rs` read it, each with its own functions, and the
`Serialize` of `StreamHideRule` writes it. The two readers accept the same rules, and what is accepted is read back
from what is shown.
-/

namespace Rustmate.Api

open Message (Text trim isWhitespace toAsciiLowercase fromStrRadix toDigit mem_toDigits fromStrRadix_toDigits)
open Events (Value)
open View (StreamHideRule StreamViewContentKind StreamViewStatus)

/-! ## In a request -/

/-- `ApiError::bad_request`. -/
def ApiError.badRequest (message : Text) : ApiError := ⟨400, message⟩

/-- The parameter with one of these names, or the error that shows it as it was sent. -/
def parseToken {α : Type} (what : String) (names : List (String × α)) (raw : Text) : Except ApiError α :=
  ((named names raw).map .ok).getD (.error (.badRequest ("invalid ".toList ++ what.toList ++ ": ".toList ++ raw)))

/-- `parse_protocol` of `src/api.rs`. -/
def parseProtocol : Text → Except ApiError TransportProtocol :=
  parseToken "protocol" [("tcp", .tcp), ("udp", .udp), ("icmpv4", .icmpv4), ("icmp_v4", .icmpv4), ("icmpv6", .icmpv6),
    ("icmp_v6", .icmpv6)]

/-- `parse_content_kind`. -/
def parseContentKind : Text → Except ApiError StreamViewContentKind :=
  parseToken "content_kind" [("unknown", .unknown), ("text", .text), ("binary", .binary), ("mixed", .mixed)]

/-- `parse_status`. -/
def parseStatus : Text → Except ApiError StreamViewStatus :=
  parseToken "status" [("open", .open_), ("closing", .closing), ("closed", .closed), ("unknown", .unknown)]

/-- `json_scalar_to_string` of `src/api.rs`. Only a text is looked at for being empty. -/
def jsonScalarToString : Value → Except ApiError Text
  | .text text =>
    let text := trim text
    if text.isEmpty then .error (.badRequest "hide rule value is empty".toList) else .ok text
  | .number n => .ok (Nat.repr n).toList
  | .negative n => .ok ('-' :: (Nat.repr n).toList)
  | .bool b => .ok (toString b).toList
  | .null | .array _ | .object _ => .error (.badRequest "hide rule value must be a string, number, or boolean".toList)

/-- The error of `parse_stream_id`. -/
def streamIdError (raw : Text) : ApiError :=
  .badRequest (if (trim raw).isEmpty then "stream id is empty".toList else "invalid stream id: ".toList ++ raw)

structure HideRuleRequest where
  kind : Text
  value : Value

/-- `HideRuleRequest::into_rule`. -/
def HideRuleRequest.intoRule (self : HideRuleRequest) : Except ApiError StreamHideRule := do
  let kind := normalizedToken self.kind
  let value ← jsonScalarToString self.value
  let rule ←
    if kind = "stream".toList ∨ kind = "stream_id".toList then
      match parseStreamId value with
      | some stream_id => .ok (.streamId stream_id)
      | none => .error (streamIdError value)
    else if kind = "service".toList then .ok (.service value)
    else if kind = "protocol".toList then StreamHideRule.protocol <$> parseProtocol value
    else if kind = "port".toList then
      match fromStrRadix 10 65535 value with
      | some port => .ok (.port (BitVec.ofNat 16 port))
      | none => .error (.badRequest ("invalid hide rule port: ".toList ++ value))
    else if kind = "content_kind".toList ∨ kind = "kind".toList then
      StreamHideRule.contentKind <$> parseContentKind value
    else if kind = "status".toList then StreamHideRule.status <$> parseStatus value
    else if kind = "pattern".toList ∨ kind = "pattern_id".toList then .ok (.patternId value)
    else .error (.badRequest ("invalid hide rule kind: ".toList ++ self.kind))
  return rule.normalized

/-- `Serialize` of `StreamHideRule`: its kind, and its value. -/
def shownRule : StreamHideRule → HideRuleRequest
  | .streamId stream_id => ⟨"stream_id".toList, .number stream_id.toNat⟩
  | .service name => ⟨"service".toList, .text name⟩
  | .protocol p => ⟨"protocol".toList, .text (StreamHideRule.protocolName p).toList⟩
  | .port p => ⟨"port".toList, .number p.toNat⟩
  | .contentKind kind => ⟨"content_kind".toList, .text (StreamHideRule.contentKindName kind).toList⟩
  | .status s => ⟨"status".toList, .text (StreamHideRule.statusName s).toList⟩
  | .patternId pattern_id => ⟨"pattern_id".toList, .text pattern_id⟩

/-! ## One identifier for both -/

/-- What is no letter is the same digit in both bases. -/
theorem toDigit_of_not_isHexLetter {c : Char} (h : isHexLetter c = false) : toDigit 16 c = toDigit 10 c := by
  unfold isHexLetter at h
  unfold toDigit
  have hlower : ('a' ≤ c && c ≤ 'f') = false := by
    simp only [Bool.or_eq_false_iff] at h
    exact h.1
  have hupper : ('A' ≤ c && c ≤ 'F') = false := by
    simp only [Bool.or_eq_false_iff] at h
    exact h.2
  simp only [hlower, hupper, Bool.false_eq_true, if_false]
  split_ifs with hdigit
  · have hle : c.toNat ≤ 57 := by
      simp only [Bool.and_eq_true, decide_eq_true_eq] at hdigit
      exact hdigit.2
    have hten : c.toNat - '0'.toNat < 10 := by
      have hzero : '0'.toNat = 48 := rfl
      omega
    rw [Option.filter_some, Option.filter_some, if_pos (by simpa using hten.trans (by decide)),
      if_pos (by simpa using hten)]
  · rfl

/-- A text without letters that makes a number to the base 16 makes one to the base 10, and no larger one. -/
theorem foldlM_decimal {text : Text} (h : ∀ c ∈ text, isHexLetter c = false) {a b n : ℕ} (hle : a ≤ b)
    (hfold : (text.foldlM (fun value c => (toDigit 16 c).map fun d => 16 * value + d) b : Option ℕ) = some n) :
    ∃ m ≤ n, (text.foldlM (fun value c => (toDigit 10 c).map fun d => 10 * value + d) a : Option ℕ) = some m := by
  induction text generalizing a b with
  | nil =>
    obtain rfl : b = n := by simpa using hfold
    exact ⟨a, hle, rfl⟩
  | cons c text ih =>
    rw [List.foldlM_cons, toDigit_of_not_isHexLetter (h c List.mem_cons_self)] at hfold
    rw [List.foldlM_cons]
    cases hdigit : toDigit 10 c with
    | none =>
      rw [hdigit] at hfold
      cases hfold
    | some d =>
      rw [hdigit] at hfold
      exact ih (fun c' hc' => h c' (List.mem_cons_of_mem c hc')) (by omega : 10 * a + d ≤ 16 * b + d) hfold

/-- A text without letters that is a number to the base 16 is one to the base 10. -/
theorem fromStrRadix_decimal {text : Text} (h : text.any isHexLetter = false) {max : ℕ}
    (hten : fromStrRadix 10 max text = none) : fromStrRadix 16 max text = none := by
  have hletters : ∀ c ∈ (if text.head? = some '+' then text.tail else text), isHexLetter c = false := by
    intro c hc
    have hmem : c ∈ text := by
      split_ifs at hc
      · exact List.mem_of_mem_tail hc
      · exact hc
    simpa using List.any_eq_false.mp h c hmem
  unfold fromStrRadix at hten ⊢
  dsimp only at hten ⊢
  generalize (if text.head? = some '+' then text.tail else text) = digits at hletters hten ⊢
  split_ifs with hempty
  · rfl
  · rw [if_neg hempty] at hten
    rw [Option.filter_eq_none_iff] at hten ⊢
    intro n hn hmax
    obtain ⟨m, hm, hfold⟩ := foldlM_decimal hletters (Nat.le_refl 0) hn
    exact hten m hfold (by simpa using hm.trans (by simpa using hmax))

/-- An identifier in a file is one in a request: the second attempt that the API makes at a text without letters
finds nothing. -/
theorem toOption_parseStreamId (raw : Text) :
    (ServiceProfileConfig.parseStreamId raw).toOption = parseStreamId raw := by
  have htoOption : ∀ (parsed : Option ℕ) (kind : IntErrorKind),
      ((parsed.map fun id => Except.ok (BitVec.ofNat 64 id)).getD
        (.error (ConfigError.parseInt kind))).toOption = parsed.map (BitVec.ofNat 64) := by
    rintro (_ | id) kind <;> rfl
  unfold ServiceProfileConfig.parseStreamId parseStreamId
  dsimp only
  rw [htoOption]
  generalize trim raw = value
  rcases hstripped : (stripStart ['0', 'x'] value).or (stripStart ['0', 'X'] value) with - | hex
  · simp only [Option.isSome_none, Option.getD_none, Bool.false_or]
    rcases value with - | ⟨c, rest⟩
    · rfl
    · rw [if_neg (by simp : ¬(c :: rest).isEmpty = true)]
      split_ifs with hletter
      · rfl
      · cases hten : fromStrRadix 10 u64Max (c :: rest) with
        | none => rw [fromStrRadix_decimal (by simpa using hletter) hten, Option.none_or]
        | some id => rw [Option.some_or]
  · have hne : value.isEmpty = false := by
      cases value with
      | nil => cases hstripped
      | cons c rest => rfl
    rw [hne]
    rfl

/-! ## One grammar for both -/

/-- The text of a value, if it has one that is not empty. -/
def scalarText : Value → Option Text
  | .text text => if (trim text).isEmpty then none else some (trim text)
  | .number n => some (Nat.repr n).toList
  | .negative n => some ('-' :: (Nat.repr n).toList)
  | .bool b => some (toString b).toList
  | .null | .array _ | .object _ => none

/-- The rule of a kind and a text. -/
def readRule (kind value : Text) : Option StreamHideRule :=
  if kind = "stream".toList ∨ kind = "stream_id".toList then (parseStreamId value).map .streamId
  else if kind = "service".toList then some (.service value)
  else if kind = "protocol".toList then (parseProtocol value).toOption.map .protocol
  else if kind = "port".toList then (fromStrRadix 10 65535 value).map fun port => .port (BitVec.ofNat 16 port)
  else if kind = "content_kind".toList ∨ kind = "kind".toList then (parseContentKind value).toOption.map .contentKind
  else if kind = "status".toList then (parseStatus value).toOption.map .status
  else if kind = "pattern".toList ∨ kind = "pattern_id".toList then some (.patternId value)
  else none

section Except

variable {ε α β : Type}

theorem toOption_bind (x : Except ε α) (f : α → Except ε β) :
    (x >>= f).toOption = x.toOption.bind fun a => (f a).toOption := by
  cases x <;> rfl

theorem toOption_map (x : Except ε α) (f : α → β) : (f <$> x).toOption = x.toOption.map f := by
  cases x <;> rfl

theorem toOption_named (names : List (String × α)) (raw : Text) (e : ε) :
    (((named names raw).map Except.ok).getD (.error e)).toOption = named names raw := by
  cases named names raw <;> rfl

theorem ok_iff_toOption {x : Except ε α} {a : α} : x = .ok a ↔ x.toOption = some a := by
  cases x <;> simp [Except.toOption]

end Except

/-- Decimal digits are no empty text. -/
theorem repr_ne_nil (n : ℕ) : (Nat.repr n).toList.isEmpty = false := by
  simp [Nat.repr]

/-- The two take the same text from a value. -/
theorem toOption_jsonScalarToString (value : Value) :
    (jsonScalarToString value).toOption = scalarText value ∧
      (ServiceProfileConfig.jsonScalarToString value).toOption = scalarText value := by
  cases value with
  | text text =>
    unfold jsonScalarToString ServiceProfileConfig.jsonScalarToString scalarText
    dsimp only
    split_ifs <;> exact ⟨rfl, rfl⟩
  | number n =>
    refine ⟨rfl, ?_⟩
    unfold ServiceProfileConfig.jsonScalarToString
    dsimp only
    rw [repr_ne_nil]
    rfl
  | negative n => exact ⟨rfl, rfl⟩
  | bool b => cases b <;> exact ⟨rfl, rfl⟩
  | null | array _ | object _ => exact ⟨rfl, rfl⟩

/-- What a request is read as. -/
theorem HideRuleRequest.toOption_intoRule (request : HideRuleRequest) :
    request.intoRule.toOption = (scalarText request.value).bind fun value =>
      (readRule (normalizedToken request.kind) value).map StreamHideRule.normalized := by
  unfold intoRule readRule
  dsimp only
  rw [toOption_bind, (toOption_jsonScalarToString request.value).1]
  congr 1
  funext value
  split_ifs
  · cases parseStreamId value <;> rfl
  · rfl
  · cases parseProtocol value <;> rfl
  · cases fromStrRadix 10 65535 value <;> rfl
  · cases parseContentKind value <;> rfl
  · cases parseStatus value <;> rfl
  · rfl
  · rfl

/-- What a rule of a file is read as. -/
theorem HideRuleConfig.toOption_intoRule (config : HideRuleConfig) :
    config.intoRule.toOption = (scalarText config.value).bind fun value =>
      (readRule (normalizedToken config.kind) value).map StreamHideRule.normalized := by
  have hprotocol : ∀ value, (ServiceProfileConfig.parseProtocol value).toOption = (parseProtocol value).toOption :=
    fun value => (toOption_named _ value _).trans (toOption_named _ value _).symm
  have hkind : ∀ value, (ServiceProfileConfig.parseContentKind value).toOption = (parseContentKind value).toOption :=
    fun value => (toOption_named _ value _).trans (toOption_named _ value _).symm
  have hstatus : ∀ value, (ServiceProfileConfig.parseStatus value).toOption = (parseStatus value).toOption :=
    fun value => (toOption_named _ value _).trans (toOption_named _ value _).symm
  unfold intoRule readRule
  dsimp only
  rw [toOption_bind, (toOption_jsonScalarToString config.value).2]
  congr 1
  funext value
  split_ifs
  · rw [toOption_bind, toOption_map, toOption_parseStreamId]
    cases parseStreamId value <;> rfl
  · rfl
  · rw [toOption_bind, toOption_map, hprotocol]
    cases parseProtocol value <;> rfl
  · cases fromStrRadix 10 65535 value <;> rfl
  · rw [toOption_bind, toOption_map, hkind]
    cases parseContentKind value <;> rfl
  · rw [toOption_bind, toOption_map, hstatus]
    cases parseStatus value <;> rfl
  · rfl
  · rfl

/-! ## What is shown is read back -/

/-- The text of a rule is trimmed and not empty, and that of a service is in lower case. -/
def Sound : StreamHideRule → Prop
  | .service name => name ≠ [] ∧ trim name = name ∧ toAsciiLowercase name = name
  | .patternId pattern_id => pattern_id ≠ [] ∧ trim pattern_id = pattern_id
  | _ => True

/-- The digits of a number are trimmed, and none of them is a letter or a sign. -/
theorem repr_facts (n : ℕ) : trim (Nat.repr n).toList = (Nat.repr n).toList ∧
    (Nat.repr n).toList.any isHexLetter = false ∧ 'x' ∉ (Nat.repr n).toList ∧ 'X' ∉ (Nat.repr n).toList := by
  have hall : ∀ d < 10, isWhitespace d.digitChar = false ∧ isHexLetter d.digitChar = false ∧ d.digitChar ≠ 'x' ∧
      d.digitChar ≠ 'X' := by decide
  have hdigits : ∀ c ∈ (Nat.repr n).toList, isWhitespace c = false ∧ isHexLetter c = false ∧ c ≠ 'x' ∧ c ≠ 'X' := by
    intro c hc
    obtain ⟨d, hd, rfl⟩ := mem_toDigits (by decide : 1 < 10) (by simpa [Nat.repr] using hc)
    exact hall d hd
  refine ⟨trim_eq_self_iff.mpr ⟨fun hne => (hdigits _ (List.head_mem hne)).1,
    fun hne => (hdigits _ (List.getLast_mem hne)).1⟩, ?_, fun hx => (hdigits _ hx).2.2.1 rfl,
    fun hx => (hdigits _ hx).2.2.2 rfl⟩
  rw [List.any_eq_false]
  intro c hc
  simpa using (hdigits c hc).2.1

/-- A number is read from its digits. -/
theorem fromStrRadix_repr {n max : ℕ} (h : n ≤ max) : fromStrRadix 10 max (Nat.repr n).toList = some n := by
  have hdigits := fromStrRadix_toDigits (by decide : 1 < 10) (by decide) h
  simpa [Nat.repr] using hdigits

/-- The decimal digits of an identifier are read as the identifier. -/
theorem parseStreamId_repr (stream_id : BitVec 64) :
    parseStreamId (Nat.repr stream_id.toNat).toList = some stream_id := by
  obtain ⟨htrim, hletters, hx, hX⟩ := repr_facts stream_id.toNat
  have hle : stream_id.toNat ≤ u64Max := by
    have := stream_id.isLt
    unfold u64Max
    omega
  have hstrip : ∀ x ∈ ['x', 'X'], stripStart ['0', x] (Nat.repr stream_id.toNat).toList = none := by
    intro x hmem
    unfold stripStart
    rw [if_neg]
    intro hprefix
    have hin : x ∈ (Nat.repr stream_id.toNat).toList :=
      (List.isPrefixOf_iff_prefix.mp hprefix).subset (by simp)
    rcases List.mem_pair.mp hmem with rfl | rfl
    · exact hx hin
    · exact hX hin
  unfold parseStreamId
  dsimp only
  rw [htrim, repr_ne_nil, hstrip 'x' (by simp), hstrip 'X' (by simp)]
  simp only [Option.or_none, Option.isSome_none, Option.getD_none, hletters, fromStrRadix_repr hle]
  simp

/-- The text of a value is trimmed and not empty. -/
theorem scalarText_trimmed {value : Value} {text : Text} (h : scalarText value = some text) :
    text ≠ [] ∧ trim text = text := by
  cases value with
  | text raw =>
    unfold scalarText at h
    dsimp only at h
    split_ifs at h with hempty
    obtain rfl := Option.some.inj h
    exact ⟨by simpa using hempty, trim_trim raw⟩
  | number n =>
    obtain rfl := Option.some.inj h
    exact ⟨by simp, (repr_facts n).1⟩
  | negative n =>
    obtain rfl := Option.some.inj h
    have htrim := trim_eq_self_iff.mp (repr_facts n).1
    have hne : (Nat.repr n).toList ≠ [] := by simp
    refine ⟨nofun, trim_eq_self_iff.mpr ⟨fun _ => (by decide : isWhitespace '-' = false), fun _ => ?_⟩⟩
    rw [List.getLast_cons hne]
    exact htrim.2 hne
  | bool b =>
    obtain rfl := Option.some.inj h
    cases b <;> exact ⟨by decide, by decide⟩
  | null | array _ | object _ => cases h

/-- What is read of a trimmed text is sound, once it is normalized. -/
theorem sound_of_readRule {kind text : Text} {rule : StreamHideRule} (hne : text ≠ []) (htrim : trim text = text)
    (h : readRule kind text = some rule) : Sound rule.normalized := by
  unfold readRule at h
  split_ifs at h
  · obtain ⟨_, -, rfl⟩ := Option.map_eq_some_iff.mp h
    trivial
  · obtain rfl := Option.some.inj h
    exact ⟨by simpa [toAsciiLowercase] using hne, trim_toAsciiLowercase htrim, toAsciiLowercase_toAsciiLowercase text⟩
  · obtain ⟨_, -, rfl⟩ := Option.map_eq_some_iff.mp h
    trivial
  · obtain ⟨_, -, rfl⟩ := Option.map_eq_some_iff.mp h
    trivial
  · obtain ⟨_, -, rfl⟩ := Option.map_eq_some_iff.mp h
    trivial
  · obtain ⟨_, -, rfl⟩ := Option.map_eq_some_iff.mp h
    trivial
  · obtain rfl := Option.some.inj h
    change Sound (.patternId (trim text))
    rw [htrim]
    exact ⟨hne, htrim⟩

/-- An accepted rule is sound. -/
theorem sound_of_intoRule {request : HideRuleRequest} {rule : StreamHideRule} (h : request.intoRule = .ok rule) :
    Sound rule := by
  rw [ok_iff_toOption, request.toOption_intoRule] at h
  obtain ⟨text, htext, h⟩ := Option.bind_eq_some_iff.mp h
  obtain ⟨raw, hraw, rfl⟩ := Option.map_eq_some_iff.mp h
  obtain ⟨hne, htrim⟩ := scalarText_trimmed htext
  exact sound_of_readRule hne htrim hraw

/-- A sound text is what it is read as. -/
theorem scalarText_sound {text : Text} (hne : text ≠ []) (htrim : trim text = text) :
    scalarText (.text text) = some text := by
  rw [scalarText, htrim, if_neg (by simpa using hne)]

/-- A request is read as the rule of its kind and its text. -/
theorem intoRule_of_readRule {kind text : Text} {value : Value} {rule : StreamHideRule}
    (htext : scalarText value = some text) (hrule : readRule (normalizedToken kind) text = some rule) :
    HideRuleRequest.intoRule ⟨kind, value⟩ = .ok rule.normalized := by
  rw [ok_iff_toOption, HideRuleRequest.toOption_intoRule, htext, Option.bind_some, hrule, Option.map_some]

/-- The kinds are their own names. -/
theorem normalizedToken_kinds : ∀ kind ∈ ["stream_id", "service", "protocol", "port", "content_kind", "status",
    "pattern_id"], normalizedToken kind.toList = kind.toList := by
  decide +kernel

/-- The names under which a protocol, a kind of content and a status are shown are among those that are read. -/
theorem parse_shown (protocol : TransportProtocol) (kind : StreamViewContentKind) (status : StreamViewStatus) :
    parseProtocol (StreamHideRule.protocolName protocol).toList = .ok protocol ∧
      parseContentKind (StreamHideRule.contentKindName kind).toList = .ok kind ∧
      parseStatus (StreamHideRule.statusName status).toList = .ok status := by
  simp only [ok_iff_toOption]
  refine ⟨?_, ?_, ?_⟩
  · cases protocol <;> decide +kernel
  · cases kind <;> decide +kernel
  · cases status <;> decide +kernel

/-- A sound rule is read back from what is shown of it. -/
theorem intoRule_shownRule {rule : StreamHideRule} (h : Sound rule) : (shownRule rule).intoRule = .ok rule := by
  have hkind := normalizedToken_kinds
  simp only [List.forall_mem_cons] at hkind
  obtain ⟨hstream, hservice, hprotocol, hport, hcontent, hstatus, hpattern, -⟩ := hkind
  cases rule with
  | streamId stream_id =>
    have htext : scalarText (.number stream_id.toNat) = some (Nat.repr stream_id.toNat).toList := rfl
    have hread : readRule (normalizedToken "stream_id".toList) (Nat.repr stream_id.toNat).toList =
        some (.streamId stream_id) := by
      rw [hstream]
      simpa [readRule] using parseStreamId_repr stream_id
    exact intoRule_of_readRule htext hread
  | service name =>
    obtain ⟨hne, htrim, hlower⟩ := h
    have hread := intoRule_of_readRule (scalarText_sound hne htrim)
      (by rw [hservice]; simp [readRule] : readRule (normalizedToken "service".toList) name = some (.service name))
    rwa [StreamHideRule.normalized, hlower] at hread
  | protocol p =>
    have htext : scalarText (.text (StreamHideRule.protocolName p).toList) =
        some (StreamHideRule.protocolName p).toList := by
      cases p <;> decide +kernel
    have hread : readRule (normalizedToken "protocol".toList) (StreamHideRule.protocolName p).toList =
        some (.protocol p) := by
      rw [hprotocol]
      simp [readRule, (parse_shown p .unknown .unknown).1, Except.toOption]
    exact intoRule_of_readRule htext hread
  | port p =>
    have htext : scalarText (.number p.toNat) = some (Nat.repr p.toNat).toList := rfl
    have hdigits : fromStrRadix 10 65535 (Nat.repr p.toNat).toList = some p.toNat :=
      fromStrRadix_repr (by have := p.isLt; omega)
    have hread : readRule (normalizedToken "port".toList) (Nat.repr p.toNat).toList = some (.port p) := by
      rw [hport]
      simpa [readRule] using ⟨p.toNat, by simpa using hdigits, by simp⟩
    exact intoRule_of_readRule htext hread
  | contentKind kind =>
    have htext : scalarText (.text (StreamHideRule.contentKindName kind).toList) =
        some (StreamHideRule.contentKindName kind).toList := by
      cases kind <;> decide +kernel
    have hread : readRule (normalizedToken "content_kind".toList) (StreamHideRule.contentKindName kind).toList =
        some (.contentKind kind) := by
      rw [hcontent]
      simp [readRule, (parse_shown .tcp kind .unknown).2.1, Except.toOption]
    exact intoRule_of_readRule htext hread
  | status s =>
    have htext : scalarText (.text (StreamHideRule.statusName s).toList) =
        some (StreamHideRule.statusName s).toList := by
      cases s <;> decide +kernel
    have hread : readRule (normalizedToken "status".toList) (StreamHideRule.statusName s).toList =
        some (.status s) := by
      rw [hstatus]
      simp [readRule, (parse_shown .tcp .unknown s).2.2, Except.toOption]
    exact intoRule_of_readRule htext hread
  | patternId pattern_id =>
    obtain ⟨hne, htrim⟩ := h
    have hread := intoRule_of_readRule (scalarText_sound hne htrim) (by rw [hpattern]; simp [readRule] :
      readRule (normalizedToken "pattern_id".toList) pattern_id = some (.patternId pattern_id))
    rwa [StreamHideRule.normalized, htrim] at hread

/-- A file and a request accept the same rules, for every kind and value. What is accepted is accepted again, and as
the same rule, in the form in which the API shows it; and that form is read back for exactly the sound rules. -/
theorem hideRules_readBack (kind : Text) (value : Value) (rule : StreamHideRule) :
    (HideRuleConfig.intoRule ⟨kind, value⟩ = .ok rule ↔ HideRuleRequest.intoRule ⟨kind, value⟩ = .ok rule) ∧
      (HideRuleRequest.intoRule ⟨kind, value⟩ = .ok rule → (shownRule rule).intoRule = .ok rule) ∧
      ((shownRule rule).intoRule = .ok rule ↔ Sound rule) := by
  refine ⟨?_, fun h => intoRule_shownRule (sound_of_intoRule h), sound_of_intoRule, intoRule_shownRule⟩
  rw [ok_iff_toOption, ok_iff_toOption, HideRuleConfig.toOption_intoRule, HideRuleRequest.toOption_intoRule]

/-- A kind and a value with blanks around them. -/
theorem hideRules_readBack_sample : (shownRule (.service "http".toList)).intoRule = .ok (.service "http".toList) :=
  (hideRules_readBack " Service".toList (.text "HTTP ".toList) (.service "http".toList)).2.1
    (ok_iff_toOption.mpr (by decide +kernel))

end Rustmate.Api
