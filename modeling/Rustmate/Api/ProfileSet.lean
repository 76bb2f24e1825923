import Mathlib.Data.List.Destutter
import Rustmate.Api.Core
import Rustmate.Lib.Keyed
import Rustmate.Message.Dns
import Rustmate.Slice.Reader
import Rustmate.Transform.Outcome

/-!
# The set of service profiles

`ServiceProfileSet` of `src/service_profile.rs`: the profiles of a file, each in its normal form, over the built-in
ones. The set is a list under keys: whatever the file says, there is one profile under each identifier, the last one
that the file gives, and the profiles stand in the order of their priorities. The reading of JSON itself is left out.
-/

namespace Rustmate.Api

open Message (Text trim trimEnd isWhitespace toAsciiLowercase fromStrRadix toDigit bind_eq_ok)
open Events (Value)
open Slice (StreamSliceMode)
open Transform (StreamTransformMode)
open View (StreamHideRule StreamViewContentKind StreamViewState StreamViewStatus matchesProfile)

/-! ## Texts that are trimmed and in lower case -/

/-- A character that has a lower case is one of the 26 letters. -/
theorem toLower_cases (c : Char) : c.toLower = c ∨ ∃ n < 26, c = Char.ofNat (65 + n) := by
  unfold Char.toLower
  split_ifs with h
  · have hrange : 65 ≤ c.toNat ∧ c.toNat ≤ 90 := h
    refine .inr ⟨c.toNat - 65, by omega, ?_⟩
    rw [Nat.add_sub_cancel' hrange.1, Char.ofNat_toNat]
  · exact .inl rfl

/-- A character in lower case is a blank if it is one. -/
theorem isWhitespace_toLower (c : Char) : isWhitespace c.toLower = isWhitespace c := by
  have hletters : ∀ n < 26, isWhitespace (Char.ofNat (65 + n)).toLower = isWhitespace (Char.ofNat (65 + n)) := by decide
  rcases toLower_cases c with h | ⟨n, hn, rfl⟩
  · rw [h]
  · exact hletters n hn

/-- A character is put in lower case once. -/
theorem toLower_toLower (c : Char) : c.toLower.toLower = c.toLower := by
  have hletters : ∀ n < 26, (Char.ofNat (65 + n)).toLower.toLower = (Char.ofNat (65 + n)).toLower := by decide
  rcases toLower_cases c with h | ⟨n, hn, rfl⟩
  · rw [h, h]
  · exact hletters n hn

/-- A text is trimmed if it begins and ends with characters that are not blank. -/
theorem trim_eq_self_iff {text : Text} : trim text = text ↔
    (∀ h : text ≠ [], isWhitespace (text.head h) = false) ∧ ∀ h : text ≠ [], isWhitespace (text.getLast h) = false := by
  unfold trim trimEnd
  constructor
  · intro h
    have hsuffix : text.dropWhile isWhitespace = text := by
      have hlength := ((List.rdropWhile_prefix isWhitespace (text.dropWhile isWhitespace)).length_le)
      rw [h] at hlength
      exact (List.dropWhile_suffix isWhitespace).eq_of_length_le hlength
    rw [hsuffix] at h
    refine ⟨fun hne => ?_, fun hne => ?_⟩
    · have hhead := List.dropWhile_eq_self_iff.mp hsuffix (List.length_pos_of_ne_nil hne)
      rw [List.head_eq_getElem]
      simpa using hhead
    · simpa using List.rdropWhile_eq_self_iff.mp h hne
  · rintro ⟨hhead, hlast⟩
    have hsuffix : text.dropWhile isWhitespace = text := by
      rw [List.dropWhile_eq_self_iff]
      intro hlength
      have := hhead (List.ne_nil_of_length_pos hlength)
      rw [List.head_eq_getElem] at this
      simpa using this
    rw [hsuffix, List.rdropWhile_eq_self_iff]
    intro hne
    simpa using hlast hne

/-- What `trim` left is trimmed. -/
theorem trim_trim (text : Text) : trim (trim text) = trim text := by
  rw [trim_eq_self_iff]
  unfold trim trimEnd
  refine ⟨fun hne => ?_, fun hne => ?_⟩
  · have hprefix := List.rdropWhile_prefix isWhitespace (text.dropWhile isWhitespace)
    have hlength := List.length_pos_of_ne_nil hne
    have hhead := List.dropWhile_get_zero_not isWhitespace text (hlength.trans_le hprefix.length_le)
    rw [List.head_eq_getElem, hprefix.getElem hlength]
    simpa using hhead
  · simpa using List.rdropWhile_last_not isWhitespace (text.dropWhile isWhitespace) hne

/-- A trimmed text stays trimmed where its characters are replaced by others, none of them a blank for one that is
not. -/
theorem trim_map {f : Char → Char} (hf : ∀ c, isWhitespace c = false → isWhitespace (f c) = false) {text : Text}
    (h : trim text = text) : trim (text.map f) = text.map f := by
  rw [trim_eq_self_iff] at h ⊢
  refine ⟨fun hne => ?_, fun hne => ?_⟩
  · rw [List.head_map]
    exact hf _ (h.1 _)
  · rw [List.getLast_map]
    exact hf _ (h.2 _)

/-- What is trimmed and then in lower case is both. -/
theorem trim_toAsciiLowercase {text : Text} (h : trim text = text) :
    trim (toAsciiLowercase text) = toAsciiLowercase text :=
  trim_map (fun c hc => (isWhitespace_toLower c).trans hc) h

@[simp]
theorem toAsciiLowercase_toAsciiLowercase (text : Text) :
    toAsciiLowercase (toAsciiLowercase text) = toAsciiLowercase text := by
  simp [toAsciiLowercase, toLower_toLower]

/-- An identifier is normalized once. -/
theorem normalizedId_normalizedId (id : Text) : normalizedId (normalizedId id) = normalizedId id := by
  have hunderscore : ∀ c : Char, isWhitespace c = false →
      isWhitespace (if c = ' ' ∨ c = '-' then '_' else c) = false := by
    intro c hc
    split_ifs
    · decide
    · exact hc
  have htrimmed : trim (normalizedId id) = normalizedId id :=
    trim_map hunderscore (trim_toAsciiLowercase (trim_trim id))
  have hlower : toAsciiLowercase (normalizedId id) = normalizedId id := by
    unfold normalizedId toAsciiLowercase
    rw [List.map_map, List.map_map, List.map_map]
    congr 1
    funext c
    simp only [Function.comp_apply]
    split_ifs
    · decide
    · exact toLower_toLower c
  conv_lhs => rw [normalizedId, htrimmed, hlower]
  unfold normalizedId
  rw [List.map_map]
  congr 1
  funext c
  simp only [Function.comp_apply]
  split_ifs with h h'
  · rcases h' with h' | h' <;> exact absurd h' (by decide)
  · rfl
  · rfl

/-! ## Profiles -/

/-- `ServiceProfile`, with all its fields. -/
structure LoadedProfile extends HidingProfile where
  name : Text
  description : Text
  priority : ℕ
  default_direction : Option FlowDirection
  default_mode : Option StreamSliceMode
  default_transform : Option StreamTransformMode
  default_transforms : List StreamTransformMode

/-- `ServiceProfile::normalized`. -/
def LoadedProfile.normalized (self : LoadedProfile) : LoadedProfile :=
  let default_transform := self.default_transform.or self.default_transforms.head?
  { self with
    id := normalizedId self.id
    services :=
      (self.services.map fun service => toAsciiLowercase (trim service)).filter fun service => !service.isEmpty
    pattern_ids := (self.pattern_ids.map trim).filter fun pattern_id => !pattern_id.isEmpty
    ports := (self.ports.insertionSort fun a b => a.toNat ≤ b.toNat).destutter (· ≠ ·)
    hide_rules := self.hide_rules.map StreamHideRule.normalized
    default_transform
    default_transforms :=
      if self.default_transforms.isEmpty then default_transform.toList else self.default_transforms }

/-- A profile in normal form. -/
structure LoadedProfile.Normal (p : LoadedProfile) : Prop where
  id : normalizedId p.id = p.id
  services : ∀ service ∈ p.services, service ≠ [] ∧ trim service = service ∧ toAsciiLowercase service = service
  pattern_ids : ∀ pattern_id ∈ p.pattern_ids, pattern_id ≠ [] ∧ trim pattern_id = pattern_id
  ports : p.ports.Pairwise fun a b => a.toNat < b.toNat
  hide_rules : ∀ rule ∈ p.hide_rules, rule.normalized = rule
  default_transform : p.default_transform = none ↔ p.default_transforms = []

/-- A rule is normalized once. -/
theorem normalized_normalized (rule : StreamHideRule) : rule.normalized.normalized = rule.normalized := by
  cases rule with
  | service name => simp [StreamHideRule.normalized]
  | patternId pattern_id => simp [StreamHideRule.normalized, trim_trim]
  | _ => rfl

/-- `normalized` brings a profile to its normal form. -/
theorem LoadedProfile.normal_normalized (p : LoadedProfile) : p.normalized.Normal where
  id := normalizedId_normalizedId p.id
  services service h := by
    obtain ⟨hmem, hne⟩ := List.mem_filter.mp h
    obtain ⟨raw, -, rfl⟩ := List.mem_map.mp hmem
    exact ⟨by simpa using hne, trim_toAsciiLowercase (trim_trim raw), toAsciiLowercase_toAsciiLowercase _⟩
  pattern_ids pattern_id h := by
    obtain ⟨hmem, hne⟩ := List.mem_filter.mp h
    obtain ⟨raw, -, rfl⟩ := List.mem_map.mp hmem
    exact ⟨by simpa using hne, trim_trim raw⟩
  ports := by
    have hsorted := List.pairwise_insertionSort (fun a b : BitVec 16 => a.toNat ≤ b.toNat) p.ports
    have hle := hsorted.sublist (List.destutter_sublist (· ≠ ·) (p.ports.insertionSort fun a b => a.toNat ≤ b.toNat))
    have hne := List.isChain_destutter (· ≠ ·) (p.ports.insertionSort fun a b => a.toNat ≤ b.toNat)
    -- neighbours are in order and differ
    have hlt : ((p.ports.insertionSort fun a b => a.toNat ≤ b.toNat).destutter (· ≠ ·)).IsChain
        fun a b => a.toNat < b.toNat := by
      rw [List.isChain_iff_getElem] at hne ⊢
      intro i hi
      exact lt_of_le_of_ne (List.pairwise_iff_getElem.mp hle i (i + 1) (by omega) hi (Nat.lt_succ_self i))
        fun heq => hne i hi (BitVec.eq_of_toNat_eq heq)
    exact hlt.pairwise
  hide_rules rule h := by
    obtain ⟨raw, -, rfl⟩ := List.mem_map.mp h
    exact normalized_normalized raw
  default_transform := by
    unfold normalized
    cases p.default_transform <;> cases p.default_transforms <;> simp

/-! ## The set -/

/-- `ServiceProfileSet`. -/
abbrev ServiceProfileSet := List LoadedProfile

namespace ServiceProfileSet

/-- `ServiceProfileSet::get`. -/
def get (self : ServiceProfileSet) (id : Text) : Option LoadedProfile :=
  self.find? fun profile => profile.id = normalizedId id

/-- `upsert`. -/
def upsert (self : ServiceProfileSet) (profile : LoadedProfile) : ServiceProfileSet :=
  let profile := profile.normalized
  self.filter (fun existing => existing.id ≠ profile.id) ++ [profile]

/-- `sort`. -/
def sort (self : ServiceProfileSet) : ServiceProfileSet := self.insertionSort fun a b => b.priority ≤ a.priority

/-- The profiles that `builtin` lists. -/
def builtinProfiles : List LoadedProfile := [
  { id := "http".toList
    name := "HTTP".toList
    description := "Plain HTTP and common web challenge ports".toList
    priority := 100
    enabled := true
    protocol := some .tcp
    services := ["http".toList, "http2".toList]
    ports := [80, 8000, 8008, 8080, 8081, 8888]
    content_kind := none
    pattern_ids := []
    default_direction := some .aToB
    default_mode := some .text
    default_transform := some .auto
    default_transforms := [.httpChunked, .httpGzip, .urlDecode]
    hide_rules := [.service "http".toList] },
  { id := "https".toList
    name := "HTTPS".toList
    description := "HTTP over TLS on HTTPS ports or HTTP ALPN".toList
    priority := 97
    enabled := true
    protocol := some .tcp
    services := ["https".toList]
    ports := [443, 8443]
    content_kind := none
    pattern_ids := []
    default_direction := some .aToB
    default_mode := some .hex
    default_transform := none
    default_transforms := []
    hide_rules := [.service "https".toList] },
  { id := "tls".toList
    name := "TLS".toList
    description := "Generic TLS streams without HTTP evidence".toList
    priority := 95
    enabled := true
    protocol := some .tcp
    services := ["tls".toList]
    ports := []
    content_kind := none
    pattern_ids := []
    default_direction := some .aToB
    default_mode := some .hex
    default_transform := none
    default_transforms := []
    hide_rules := [.service "tls".toList] },
  { id := "dns".toList
    name := "DNS".toList
    description := "DNS traffic on classic and multicast resolver ports".toList
    priority := 90
    enabled := true
    protocol := none
    services := ["dns".toList, "mdns".toList, "llmnr".toList]
    ports := [53, 5353, 5355]
    content_kind := none
    pattern_ids := []
    default_direction := some .aToB
    default_mode := some .hex
    default_transform := none
    default_transforms := []
    hide_rules := [.service "dns".toList] },
  { id := "websocket".toList
    name := "WebSocket".toList
    description := "WebSocket-heavy app streams and common upgrade ports".toList
    priority := 80
    enabled := true
    protocol := some .tcp
    services := ["websocket".toList, "http".toList]
    ports := [80, 8000, 8008, 8080, 8081, 8888]
    content_kind := none
    pattern_ids := []
    default_direction := some .aToB
    default_mode := some .text
    default_transform := some .webSocketDeflate
    default_transforms := [.webSocketDeflate, .urlDecode]
    hide_rules := [] },
  { id := "binary".toList
    name := "Binary".toList
    description := "Unknown or custom binary protocols".toList
    priority := 20
    enabled := true
    protocol := none
    services := []
    ports := []
    content_kind := some .binary
    pattern_ids := []
    default_direction := some .aToB
    default_mode := some .hex
    default_transform := none
    default_transforms := []
    hide_rules := [.contentKind .binary] },
  { id := "matched".toList
    name := "Matched".toList
    description := "Streams with retained pattern matches".toList
    priority := 10
    enabled := true
    protocol := none
    services := []
    ports := []
    content_kind := none
    pattern_ids := []
    default_direction := some .aToB
    default_mode := some .text
    default_transform := some .auto
    default_transforms := [.auto]
    hide_rules := [] }]

/-- `builtin`. -/
def builtin : ServiceProfileSet := sort (builtinProfiles.map LoadedProfile.normalized)

end ServiceProfileSet

/-! ## What a file says -/

/-- `IntErrorKind`, as far as unsigned numbers can have it. -/
inductive IntErrorKind where
  | empty
  | invalidDigit
  | posOverflow
  deriving DecidableEq

/-- The first thing that is wrong with some digits, behind those that make a number. -/
def digitsError (radix max : ℕ) : ℕ → Text → IntErrorKind
  | _, [] => .posOverflow
  | value, c :: digits =>
    match toDigit radix c with
    | none => .invalidDigit
    | some d => if max < radix * value + d then .posOverflow else digitsError radix max (radix * value + d) digits

/-- The kind of the `ParseIntError` for a text that `from_str_radix` does not read. -/
def intErrorKind (radix max : ℕ) (text : Text) : IntErrorKind :=
  if text.isEmpty then .empty
  else
    let digits := if text.head? = some '+' then text.tail else text
    if digits.isEmpty then .invalidDigit else digitsError radix max 0 digits

/-- An error of the file: one with a text, or a number that could not be read. -/
inductive ConfigError where
  | message (text : Text)
  | parseInt (kind : IntErrorKind)
  deriving DecidableEq

/-- `normalized_token`: what `normalized_id` does. -/
def normalizedToken (raw : Text) : Text := normalizedId raw

/-- The value with one of these names. -/
def named {α : Type} (names : List (String × α)) (raw : Text) : Option α :=
  (names.find? fun name => name.1.toList = normalizedToken raw).map Prod.snd

namespace ServiceProfileConfig

/-- The value with one of these names, or the error that shows it as it is written. -/
def parseToken {α : Type} (what : String) (names : List (String × α)) (raw : Text) : Except ConfigError α :=
  ((named names raw).map .ok).getD (.error (.message ("invalid ".toList ++ what.toList ++ ": ".toList ++ raw)))

/-- `parse_protocol` of `src/service_profile.rs`. -/
def parseProtocol : Text → Except ConfigError TransportProtocol :=
  parseToken "protocol" [("tcp", .tcp), ("udp", .udp), ("icmpv4", .icmpv4), ("icmp_v4", .icmpv4), ("icmpv6", .icmpv6),
    ("icmp_v6", .icmpv6)]

/-- `parse_content_kind`. -/
def parseContentKind : Text → Except ConfigError StreamViewContentKind :=
  parseToken "content_kind" [("unknown", .unknown), ("text", .text), ("binary", .binary), ("mixed", .mixed)]

/-- `parse_status`. -/
def parseStatus : Text → Except ConfigError StreamViewStatus :=
  parseToken "status" [("open", .open_), ("closing", .closing), ("closed", .closed), ("unknown", .unknown)]

/-- `parse_direction`. -/
def parseDirection : Text → Except ConfigError FlowDirection :=
  parseToken "direction" [("a_to_b", .aToB), ("atob", .aToB), ("a_b", .aToB), ("b_to_a", .bToA), ("btoa", .bToA),
    ("b_a", .bToA)]

/-- `parse_mode`. -/
def parseMode : Text → Except ConfigError StreamSliceMode :=
  parseToken "mode" [("raw", .raw), ("text", .text), ("hex", .hex)]

/-- `parse_transform`. -/
def parseTransform : Text → Except ConfigError StreamTransformMode :=
  parseToken "transform" [("auto", .auto), ("url", .urlDecode), ("url_decode", .urlDecode), ("urldecode", .urlDecode),
    ("gzip", .gzip), ("http_chunked", .httpChunked), ("chunked", .httpChunked), ("http_gzip", .httpGzip),
    ("websocket_deflate", .webSocketDeflate), ("ws_deflate", .webSocketDeflate)]

/-- `parse_stream_id`. -/
def parseStreamId (raw : Text) : Except ConfigError (BitVec 64) :=
  let value := trim raw
  let stripped := (stripStart ['0', 'x'] value).or (stripStart ['0', 'X'] value)
  let hex := stripped.getD value
  let looks_hex := stripped.isSome || hex.any isHexLetter
  let parsed := if looks_hex then fromStrRadix 16 u64Max hex else fromStrRadix 10 u64Max value
  let kind := if looks_hex then intErrorKind 16 u64Max hex else intErrorKind 10 u64Max value
  (parsed.map fun id => .ok (BitVec.ofNat 64 id)).getD (.error (.parseInt kind))

/-- `json_scalar_to_string`. -/
def jsonScalarToString (value : Value) : Except ConfigError Text :=
  let text : Option Text :=
    match value with
    | .text text => some (trim text)
    | .number n => some (Nat.repr n).toList
    | .negative n => some ('-' :: (Nat.repr n).toList)
    | .bool b => some (toString b).toList
    | .null | .array _ | .object _ => none
  match text with
  | none => .error (.message "hide rule value must be a scalar".toList)
  | some text => if text.isEmpty then .error (.message "hide rule value is empty".toList) else .ok text

end ServiceProfileConfig

structure HideRuleConfig where
  kind : Text
  value : Value

open ServiceProfileConfig in
/-- `HideRuleConfig::into_rule`. -/
def HideRuleConfig.intoRule (self : HideRuleConfig) : Except ConfigError StreamHideRule := do
  let value ← jsonScalarToString self.value
  let kind := normalizedToken self.kind
  let rule ←
    if kind = "stream".toList ∨ kind = "stream_id".toList then
      StreamHideRule.streamId <$> ServiceProfileConfig.parseStreamId value
    else if kind = "service".toList then .ok (.service value)
    else if kind = "protocol".toList then StreamHideRule.protocol <$> parseProtocol value
    else if kind = "port".toList then
      match fromStrRadix 10 65535 value with
      | some port => .ok (.port (BitVec.ofNat 16 port))
      | none => .error (.parseInt (intErrorKind 10 65535 value))
    else if kind = "content_kind".toList ∨ kind = "kind".toList then
      StreamHideRule.contentKind <$> parseContentKind value
    else if kind = "status".toList then StreamHideRule.status <$> parseStatus value
    else if kind = "pattern".toList ∨ kind = "pattern_id".toList then .ok (.patternId value)
    else .error (.message ("invalid hide rule kind: ".toList ++ kind))
  return rule.normalized

structure ServiceProfileConfig where
  id : Text
  name : Option Text := none
  description : Option Text := none
  priority : Option ℕ := none
  enabled : Option Bool := none
  protocol : Option Text := none
  services : List Text := []
  ports : List (BitVec 16) := []
  content_kind : Option Text := none
  pattern_ids : List Text := []
  default_direction : Option Text := none
  default_mode : Option Text := none
  default_transform : Option Text := none
  default_transforms : List Text := []
  hide_rules : List HideRuleConfig := []

structure ServiceProfileFile where
  include_builtins : Option Bool := none
  profiles : List ServiceProfileConfig := []

/-- `into_profile`. -/
def ServiceProfileConfig.intoProfile (self : ServiceProfileConfig) : Except ConfigError LoadedProfile := do
  let id := normalizedId self.id
  if id.isEmpty then throw (.message "service profile id is empty".toList)
  let default_transform ← self.default_transform.mapM parseTransform
  let default_transforms ← self.default_transforms.mapM parseTransform
  let protocol ← self.protocol.mapM parseProtocol
  let content_kind ← self.content_kind.mapM parseContentKind
  let default_direction ← self.default_direction.mapM parseDirection
  let default_mode ← self.default_mode.mapM parseMode
  let hide_rules ← self.hide_rules.mapM HideRuleConfig.intoRule
  return {
    name := self.name.getD id
    description := self.description.getD []
    priority := self.priority.getD 50
    enabled := self.enabled.getD true
    protocol
    services := self.services
    ports := self.ports
    content_kind
    pattern_ids := self.pattern_ids
    default_direction
    default_mode
    default_transform
    default_transforms
    hide_rules
    id }

/-- `from_json_str`, after the JSON is read. -/
def ServiceProfileSet.ofFile (file : ServiceProfileFile) : Except ConfigError ServiceProfileSet := do
  let set := if file.include_builtins.getD true then builtin else []
  let set ← file.profiles.foldlM (fun set profile => set.upsert <$> profile.intoProfile) set
  return set.sort

namespace ServiceProfileSet

/-- The profile of a file is under the identifier that the file gives, normalized and not empty. -/
theorem id_intoProfile {config : ServiceProfileConfig} {p : LoadedProfile} (h : config.intoProfile = .ok p) :
    p.id = normalizedId config.id ∧ p.id ≠ [] := by
  unfold ServiceProfileConfig.intoProfile at h
  dsimp only at h
  split_ifs at h with hempty
  · cases h
  · -- each part that is parsed was parsed
    obtain ⟨_, -, h⟩ := bind_eq_ok h
    obtain ⟨_, -, h⟩ := bind_eq_ok h
    obtain ⟨_, -, h⟩ := bind_eq_ok h
    obtain ⟨_, -, h⟩ := bind_eq_ok h
    obtain ⟨_, -, h⟩ := bind_eq_ok h
    obtain ⟨_, -, h⟩ := bind_eq_ok h
    obtain ⟨_, -, h⟩ := bind_eq_ok h
    cases h
    exact ⟨rfl, by simpa using hempty⟩

/-- What is read of a list is read of an element of it. -/
theorem exists_of_mem_mapM {configs : List ServiceProfileConfig} {given : List LoadedProfile}
    (h : configs.mapM ServiceProfileConfig.intoProfile = .ok given) {p : LoadedProfile} (hp : p ∈ given) :
    ∃ config ∈ configs, config.intoProfile = .ok p := by
  induction configs generalizing given with
  | nil =>
    cases h
    cases hp
  | cons config configs ih =>
    rw [List.mapM_cons] at h
    obtain ⟨first, hfirst, h⟩ := bind_eq_ok h
    obtain ⟨rest, hrest, h⟩ := bind_eq_ok h
    cases h
    rcases List.mem_cons.mp hp with rfl | hp
    · exact ⟨config, List.mem_cons_self, hfirst⟩
    · obtain ⟨config', hmem, hconfig'⟩ := ih hrest hp
      exact ⟨config', List.mem_cons_of_mem _ hmem, hconfig'⟩

/-- A profile replaces those under its identifier. -/
theorem upsert_eq (set : ServiceProfileSet) (p : LoadedProfile) :
    set.upsert p = Keyed.upsert (fun q : LoadedProfile => q.id) set p.normalized := rfl

/-- The profiles of a file are all read, or the first error is the error of the whole; those that are read replace one
another. -/
theorem foldlM_upsert (configs : List ServiceProfileConfig) (set : ServiceProfileSet) :
    configs.foldlM (fun (set : ServiceProfileSet) profile => set.upsert <$> profile.intoProfile) set =
      (fun given : List LoadedProfile => (given.map LoadedProfile.normalized).foldl
        (Keyed.upsert fun q : LoadedProfile => q.id) set) <$> configs.mapM ServiceProfileConfig.intoProfile := by
  induction configs generalizing set with
  | nil => rfl
  | cons config configs ih =>
    rw [List.foldlM_cons, List.mapM_cons]
    rcases hconfig : config.intoProfile with e | p
    · rfl
    · have hrest := ih (set.upsert p)
      rw [upsert_eq] at hrest
      change List.foldlM _ (set.upsert p) configs = _
      rw [upsert_eq, hrest]
      rcases configs.mapM ServiceProfileConfig.intoProfile with e | given <;> rfl

/-- The built-in profiles are under distinct identifiers, none of them empty. -/
theorem builtinProfiles_ids : ((builtinProfiles.map LoadedProfile.normalized).map fun p => p.id).Nodup ∧
    ∀ p ∈ builtinProfiles.map LoadedProfile.normalized, p.id ≠ [] := by
  decide +kernel

/-- Sorting reorders. -/
theorem perm_sort (set : ServiceProfileSet) : set.sort.Perm set := List.perm_insertionSort _ set

/-- Where the identifiers are distinct, sorting changes nothing in what is found. -/
theorem get_sort {set : ServiceProfileSet} (hids : (set.map fun p => p.id).Nodup) (id : Text) :
    set.sort.get id = set.get id :=
  (Keyed.find_perm set.perm_sort.symm hids (normalizedId id)).symm

/-- `primary_profile`. -/
def primaryProfile (self : ServiceProfileSet) (view : StreamViewState) (stream_id : BitVec 64) : Option LoadedProfile :=
  (view.streams.lookup stream_id).bind fun entry =>
    self.find? fun profile => matchesProfile entry profile.toServiceProfile

/-- Whether a profile is one of a tracked stream. -/
def Suits (view : StreamViewState) (stream_id : BitVec 64) (profile : LoadedProfile) : Prop :=
  ∃ entry, view.streams.lookup stream_id = some entry ∧ matchesProfile entry profile.toServiceProfile = true

/-- In a set in the order of the priorities, the primary profile of a stream is one of the highest priority among
those that suit it. -/
theorem primaryProfile_spec {set : ServiceProfileSet} (horder : set.Pairwise fun p q => q.priority ≤ p.priority)
    {view : StreamViewState} {stream_id : BitVec 64} {p : LoadedProfile}
    (h : set.primaryProfile view stream_id = some p) :
    p ∈ set ∧ Suits view stream_id p ∧ ∀ q ∈ set, Suits view stream_id q → q.priority ≤ p.priority := by
  obtain ⟨entry, hentry, hfind⟩ := Option.bind_eq_some_iff.mp h
  obtain ⟨hmatch, before, after, rfl, hbefore⟩ := List.find?_eq_some_iff_append.mp hfind
  refine ⟨by simp, ⟨entry, hentry, hmatch⟩, ?_⟩
  rintro q hq ⟨entry', hentry', hq'⟩
  obtain rfl : entry = entry' := Option.some.inj (hentry.symm.trans hentry')
  rcases List.mem_append.mp hq with hq | hq
  · -- those before it do not suit
    have := hbefore q hq
    rw [hq'] at this
    exact absurd this (by decide)
  · rcases List.mem_cons.mp hq with rfl | hq
    · exact Nat.le_refl _
    · exact (List.pairwise_cons.mp (List.pairwise_append.mp horder).2.1).1 q hq

/-- The API finds the profiles that the set has. -/
theorem getProfile_map (set : ServiceProfileSet) (id : Text) :
    getProfile (set.map LoadedProfile.toHidingProfile) id = (set.get id).map LoadedProfile.toHidingProfile := by
  unfold getProfile get
  rw [List.find?_map]
  rfl

/-- For every file: if a profile of it cannot be read, its error is that of the file. Otherwise the set has one
profile under each identifier, in normal form: the last one that the file gives under it, or else the built-in one,
unless the file leaves these out. The API finds the same. The profile whose transforms a stream gets is one of the
highest priority among those that suit the stream. -/
theorem ofFile_spec (file : ServiceProfileFile) :
    (∀ e, file.profiles.mapM ServiceProfileConfig.intoProfile = .error e → ofFile file = .error e) ∧
    ∀ given, file.profiles.mapM ServiceProfileConfig.intoProfile = .ok given → ∃ set, ofFile file = .ok set ∧
      (set.map fun p => p.id).Nodup ∧ (∀ p ∈ set, p.Normal ∧ p.id ≠ []) ∧
      (∀ id, set.get id = (get (given.map LoadedProfile.normalized).reverse id).or
        (if file.include_builtins.getD true then builtin.get id else none)) ∧
      (∀ id, getProfile (set.map LoadedProfile.toHidingProfile) id = (set.get id).map LoadedProfile.toHidingProfile) ∧
      ∀ view stream_id p, set.primaryProfile view stream_id = some p →
        p ∈ set ∧ Suits view stream_id p ∧ ∀ q ∈ set, Suits view stream_id q → q.priority ≤ p.priority := by
  have hfile : ofFile file = (fun given : List LoadedProfile => sort ((given.map LoadedProfile.normalized).foldl
      (Keyed.upsert fun p : LoadedProfile => p.id) (if file.include_builtins.getD true then builtin else []))) <$>
        file.profiles.mapM ServiceProfileConfig.intoProfile := by
    unfold ofFile
    dsimp only
    rw [foldlM_upsert]
    rcases file.profiles.mapM ServiceProfileConfig.intoProfile with e | given <;> rfl
  refine ⟨fun e he => by rw [hfile, he]; rfl, fun given hgiven => ?_⟩
  rw [hgiven] at hfile
  refine ⟨_, hfile, ?_⟩
  have hbuiltin : (builtin.map fun p => p.id).Nodup :=
    (builtinProfiles_ids.1).perm ((perm_sort _).symm.map _)
  have hstart : ((if file.include_builtins.getD true then builtin else []).map fun p => p.id).Nodup := by
    split_ifs
    · exact hbuiltin
    · exact List.nodup_nil
  have hids := Keyed.nodup_foldl_upsert hstart (given.map LoadedProfile.normalized)
  refine ⟨hids.perm ((perm_sort _).symm.map _), ?_, ?_, getProfile_map _, ?_⟩
  · intro p hp
    rcases Keyed.mem_foldl_upsert ((perm_sort _).mem_iff.mp hp) with hp | hp
    · split_ifs at hp
      · have hlisted := (perm_sort _).mem_iff.mp hp
        obtain ⟨raw, -, rfl⟩ := List.mem_map.mp hlisted
        exact ⟨raw.normal_normalized, builtinProfiles_ids.2 _ hlisted⟩
      · cases hp
    · obtain ⟨raw, hraw, rfl⟩ := List.mem_map.mp hp
      refine ⟨raw.normal_normalized, ?_⟩
      obtain ⟨config, -, hconfig⟩ := exists_of_mem_mapM hgiven hraw
      obtain ⟨hid, hne⟩ := id_intoProfile hconfig
      change normalizedId raw.id ≠ []
      rwa [hid, normalizedId_normalizedId, ← hid]
  · intro id
    rw [get_sort hids]
    refine (Keyed.find_foldl_upsert _ _ (normalizedId id)).trans ?_
    split_ifs <;> rfl
  · intro view stream_id p hp
    refine primaryProfile_spec ?_ hp
    exact List.pairwise_insertionSort _ _

/-- A file that gives the profile of HTTP another port. -/
def sampleFile : ServiceProfileFile where
  profiles := [{ id := "HTTP".toList, priority := some 200, ports := [18080] }]

/-- The profile of the file is in the place of the built-in one. -/
theorem ofFile_spec_sample : ∃ set, ofFile sampleFile = .ok set ∧ (set.map fun p => p.id).Nodup ∧
    (set.get "http".toList).map (fun p => (p.priority, p.ports)) = some (200, [18080]) := by
  obtain ⟨given, hgiven⟩ : ∃ given, sampleFile.profiles.mapM ServiceProfileConfig.intoProfile = .ok given := ⟨_, rfl⟩
  obtain ⟨set, hset, hids, -, hget, -⟩ := (ofFile_spec sampleFile).2 given hgiven
  refine ⟨set, hset, hids, ?_⟩
  obtain rfl := Except.ok.inj hgiven
  rw [hget]
  decide +kernel

end ServiceProfileSet

end Rustmate.Api
