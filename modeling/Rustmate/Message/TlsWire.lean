import Rustmate.Message.Lines
import Rustmate.Message.TlsTotal

/-!
# TLS ClientHello messages, written and read

A ClientHello as its sender writes it into one record, and what `parse_tls_record` reads of it: the first
message of a client names the host, the protocols and the versions that it wants. -/

namespace Rustmate.Message

open Digits (fromBeBytes toBeBytes fromBeBytes_toBeBytes length_toBeBytes)

/-! ## Extensions as they are written -/

/-- `tls_sni_extension`: a list of one host name. -/
def tlsSniExtension (host : Text) : List UInt8 :=
  let list := 0 :: (toBeBytes 2 (utf8 host).length ++ utf8 host)
  toBeBytes 2 list.length ++ list

/-- The names of a list of protocols, each behind its length. -/
def alpnBytes (protocols : List Text) : List UInt8 :=
  protocols.flatMap fun protocol => UInt8.ofNat (utf8 protocol).length :: utf8 protocol

/-- `tls_alpn_extension`. -/
def tlsAlpnExtension (protocols : List Text) : List UInt8 :=
  toBeBytes 2 (alpnBytes protocols).length ++ alpnBytes protocols

/-- The bytes of some versions. -/
def versionBytes (versions : List (UInt8 × UInt8)) : List UInt8 := versions.flatMap fun version => [version.1, version.2]

/-- The versions that a client offers. -/
def tlsVersionsExtension (versions : List (UInt8 × UInt8)) : List UInt8 :=
  UInt8.ofNat (2 * versions.length) :: versionBytes versions

/-- An extension of a ClientHello. -/
inductive ClientExtension where
  | serverName (host : Text)
  | alpn (protocols : List Text)
  | supportedVersions (versions : List (UInt8 × UInt8))
  | other (ext_type : BitVec 16) (data : List UInt8)
  deriving DecidableEq, Repr

namespace ClientExtension

/-- The type of an extension. -/
def extType : ClientExtension → ℕ
  | serverName _ => 0
  | alpn _ => 16
  | supportedVersions _ => 43
  | other ext_type _ => ext_type.toNat

/-- The data of an extension. -/
def data : ClientExtension → List UInt8
  | serverName host => tlsSniExtension host
  | alpn protocols => tlsAlpnExtension protocols
  | supportedVersions versions => tlsVersionsExtension versions
  | other _ data => data

/-- `push_tls_extension`. -/
def bytes (self : ClientExtension) : List UInt8 :=
  toBeBytes 2 self.extType ++ (toBeBytes 2 self.data.length ++ self.data)

/-- An extension has no more names and versions than are read of it, and the other extensions are of other
types. -/
def Legal : ClientExtension → Prop
  | serverName _ => True
  | alpn protocols => protocols.length ≤ maxTlsAlpnProtocols ∧ ∀ protocol ∈ protocols, (utf8 protocol).length ≤ 255
  | supportedVersions versions => versions.length ≤ 127
  | other ext_type _ => ext_type ≠ 0 ∧ ext_type ≠ 16 ∧ ext_type ≠ 43

instance : (e : ClientExtension) → Decidable e.Legal
  | serverName _ => isTrue trivial
  | alpn protocols => inferInstanceAs (Decidable (_ ∧ ∀ protocol ∈ protocols, (utf8 protocol).length ≤ 255))
  | supportedVersions versions => inferInstanceAs (Decidable (versions.length ≤ 127))
  | other ext_type _ => inferInstanceAs (Decidable (ext_type ≠ 0 ∧ ext_type ≠ 16 ∧ ext_type ≠ 43))

/-- The host that an extension names. -/
def hostOf : ClientExtension → Option Text
  | serverName host => some host
  | _ => none

/-- The protocols that an extension lists. -/
def protocolsOf : ClientExtension → Option (List Text)
  | alpn protocols => some protocols
  | _ => none

/-- The versions that an extension lists. -/
def versionsOf : ClientExtension → Option (List (UInt8 × UInt8))
  | supportedVersions versions => some versions
  | _ => none

end ClientExtension

/-! ## The message -/

/-- What a ClientHello says. -/
structure ClientHello where
  version : UInt8 × UInt8
  random : Vector UInt8 32
  session_id : List UInt8
  cipher_suites : List (BitVec 16)
  compression_methods : List UInt8
  extensions : List ClientExtension
  deriving Repr

namespace ClientHello

/-- The extensions, one behind the other. -/
def extensionBytes (self : ClientHello) : List UInt8 := self.extensions.flatMap ClientExtension.bytes

/-- The cipher suites, one behind the other. -/
def cipherBytes (self : ClientHello) : List UInt8 := self.cipher_suites.flatMap fun cipher => toBeBytes 2 cipher.toNat

/-- What stands behind the session identifier. -/
def bodyEnd (self : ClientHello) : List UInt8 :=
  toBeBytes 2 self.cipherBytes.length ++ (self.cipherBytes ++
    (UInt8.ofNat self.compression_methods.length :: (self.compression_methods ++
      (toBeBytes 2 self.extensionBytes.length ++ self.extensionBytes))))

/-- The body of the message. -/
def body (self : ClientHello) : List UInt8 :=
  [self.version.1, self.version.2] ++ (self.random.toList ++
    (UInt8.ofNat self.session_id.length :: (self.session_id ++ self.bodyEnd)))

/-- The message with its header. -/
def handshake (self : ClientHello) : List UInt8 := 1 :: (toBeBytes 3 self.body.length ++ self.body)

/-- `tls_client_hello_record`. -/
def record (self : ClientHello) : List UInt8 :=
  [22, 0x03, 0x01] ++ (toBeBytes 2 self.handshake.length ++ self.handshake)

/-- The host that is named. -/
def host (self : ClientHello) : Option Text := (self.extensions.filterMap ClientExtension.hostOf).head?

/-- The protocols that are listed. -/
def protocols (self : ClientHello) : List Text := (self.extensions.filterMap ClientExtension.protocolsOf).head?.getD []

/-- The versions that are listed. -/
def versions (self : ClientHello) : List (UInt8 × UInt8) :=
  (self.extensions.filterMap ClientExtension.versionsOf).head?.getD []

end ClientHello

/-- A version as a number: a greater one is a higher version. -/
def versionNumber (version : UInt8 × UInt8) : ℕ := 256 * version.1.toNat + version.2.toNat

/-- A version that has a name. -/
def Known (version : UInt8 × UInt8) : Prop := (knownTlsVersionName version.1 version.2).isSome = true

/-- The name of the highest known one of some versions, or of the legacy version where none is known. -/
def NamesHighest (versions : List (UInt8 × UInt8)) (legacy : UInt8 × UInt8) (name : Text) : Prop :=
  (∃ version ∈ versions, knownTlsVersionName version.1 version.2 = some name ∧
      ∀ other ∈ versions, Known other → versionNumber other ≤ versionNumber version) ∨
    ((∀ version ∈ versions, ¬ Known version) ∧ name = tlsVersionName legacy.1 legacy.2)

/-- A ClientHello that can be written into one record. No extension that is read comes twice. -/
structure LegalClientHello extends ClientHello where
  session_id_le : session_id.length ≤ 255
  compression_methods_le : compression_methods.length ≤ 255
  extensions_le : extensions.length ≤ maxTlsExtensions
  extensions_legal : ∀ e ∈ extensions, e.Legal
  one_host : (extensions.filterMap ClientExtension.hostOf).length ≤ 1
  one_alpn : (extensions.filterMap ClientExtension.protocolsOf).length ≤ 1
  one_versions : (extensions.filterMap ClientExtension.versionsOf).length ≤ 1
  fits : toClientHello.handshake.length < 2^16

/-! ## Numbers and lists -/

/-- The number of sixteen bits at an offset. -/
theorem u16At_remains {bytes rest : List UInt8} {offset n : ℕ} (h : Remains bytes offset (toBeBytes 2 n ++ rest))
    (hn : n < 2^16) : u16At bytes offset = n := by
  have htake := h.take_eq
  rw [length_toBeBytes] at htake
  unfold u16At
  rw [htake, fromBeBytes_toBeBytes hn]

/-- Behind such a number the rest is left. -/
theorem Remains.skip_u16 {bytes rest : List UInt8} {offset n : ℕ} (h : Remains bytes offset (toBeBytes 2 n ++ rest)) :
    Remains bytes (offset + 2) rest := by
  have hskip := h.skip
  rwa [length_toBeBytes] at hskip

/-- A small number in a byte. -/
theorem toNat_ofNat_byte {n : ℕ} (h : n ≤ 255) : (UInt8.ofNat n).toNat = n :=
  UInt8.toNat_ofNat_of_lt (Nat.lt_succ_of_le h)

/-- What each step may set is what the last step that does so has set. -/
theorem foldl_field {σ β ε : Type*} {step : σ → ε → σ} (field : σ → β) (f : ε → Option β) {xs : List ε}
    (h : ∀ e ∈ xs, ∀ s, field (step s e) = (f e).getD (field s)) (s : σ) :
    field (xs.foldl step s) = (xs.filterMap f).getLast?.getD (field s) := by
  induction xs using List.reverseRecOn with
  | nil => rfl
  | append_singleton xs x ih =>
    rw [List.foldl_append, List.filterMap_append, List.foldl_cons, List.foldl_nil,
      h x (List.mem_append_right _ List.mem_cons_self), ih fun e he => h e (List.mem_append_left _ he)]
    cases hx : f x with
    | none => rw [List.filterMap_cons_none hx, List.filterMap_nil, List.append_nil, Option.getD_none]
    | some b =>
      rw [List.filterMap_cons_some hx, List.filterMap_nil, List.getLast?_concat, Option.getD_some, Option.getD_some]

/-- The last of at most one is the first. -/
theorem getLast?_eq_head? {β : Type*} {xs : List β} (h : xs.length ≤ 1) : xs.getLast? = xs.head? := by
  match xs, h with
  | [], _ => rfl
  | [x], _ => rfl
  | _ :: _ :: _, h =>
    simp only [List.length_cons] at h
    omega

/-! ## The host -/

/-- The host name is read. -/
theorem parseTlsSni_extension {host : Text} (h : (tlsSniExtension host).length < 2^16) :
    parseTlsSni (tlsSniExtension host) = some host := by
  have hlist : (0 :: (toBeBytes 2 (utf8 host).length ++ utf8 host)).length = (utf8 host).length + 3 := by
    rw [List.length_cons, List.length_append, length_toBeBytes]
    omega
  have hlength : (tlsSniExtension host).length = (utf8 host).length + 5 := by
    unfold tlsSniExtension
    rw [List.length_append, length_toBeBytes, hlist]
    omega
  -- the list behind its length, then the type of the name, its length and the name
  have hlen : Remains (tlsSniExtension host) 0
      (toBeBytes 2 ((utf8 host).length + 3) ++ 0 :: (toBeBytes 2 (utf8 host).length ++ utf8 host)) := by
    rw [← hlist]
    exact remains_zero _
  generalize tlsSniExtension host = data at h hlength hlen ⊢
  have htype := hlen.skip_u16
  have hname := htype.tail
  have hhost := hname.skip_u16
  rw [← List.append_nil (utf8 host)] at hhost
  have hlistLen := u16At_remains hlen (by omega)
  have hnameLen := u16At_remains hname (by omega)
  have htake := hhost.take_eq
  unfold parseTlsSni
  rw [if_neg (by omega)]
  dsimp only
  rw [hlistLen, saturatingAdd_eq (by omega), show min (2 + ((utf8 host).length + 3)) data.length = data.length by omega]
  unfold parseTlsSniLoop
  have hcursor : saturatingAdd 2 3 = 5 := rfl
  rw [if_pos (by rw [hcursor]; omega)]
  dsimp only
  rw [hcursor, hnameLen, saturatingAdd_eq (by omega), if_neg (by omega), htype.getD_eq, if_pos rfl, htake,
    fromUtf8_utf8]

/-! ## The protocols -/

/-- The list of protocols is read from where it stands. -/
theorem parseTlsAlpnLoop_alpnBytes {data : List UInt8} (hdata : data.length < 2^17) {protocols : List Text}
    (hprotocols : ∀ protocol ∈ protocols, (utf8 protocol).length ≤ 255) {fuel cursor : ℕ}
    (hrest : Remains data cursor (alpnBytes protocols)) (hfuel : protocols.length ≤ fuel) (before : List Text)
    (hroom : before.length + protocols.length ≤ maxTlsAlpnProtocols) :
    parseTlsAlpnLoop data data.length fuel cursor before = before ++ protocols := by
  induction protocols generalizing fuel cursor before with
  | nil =>
    have hend := hrest.length_eq
    rw [List.append_nil]
    cases fuel with
    | zero => rfl
    | succ fuel =>
      unfold parseTlsAlpnLoop
      rw [if_neg]
      intro hmore
      have hnil : (alpnBytes []).length = 0 := rfl
      omega
  | cons protocol protocols ih =>
    have hlen := toNat_ofNat_byte (hprotocols protocol List.mem_cons_self)
    have hsplit : alpnBytes (protocol :: protocols) =
        UInt8.ofNat (utf8 protocol).length :: (utf8 protocol ++ alpnBytes protocols) := List.flatMap_cons
    rw [hsplit] at hrest
    rw [List.length_cons] at hfuel hroom
    have hend := hrest.length_eq
    have hname := hrest.tail
    have hnext := hname.skip
    rw [List.length_cons, List.length_append] at hend
    obtain ⟨fuel, rfl⟩ : ∃ n, fuel = n + 1 := ⟨fuel - 1, by omega⟩
    have hcursor : saturatingAdd cursor 1 = cursor + 1 := saturatingAdd_eq (by omega)
    have hafter : saturatingAdd (cursor + 1) (utf8 protocol).length = cursor + 1 + (utf8 protocol).length :=
      saturatingAdd_eq (by omega)
    unfold parseTlsAlpnLoop
    rw [if_pos ⟨by omega, by omega⟩]
    dsimp only
    rw [hrest.getD_eq, hlen, hcursor, hafter, if_neg (by omega), hname.take_eq, fromUtf8_utf8]
    dsimp only
    rw [ih (fun other hother => hprotocols other (List.mem_cons_of_mem _ hother)) hnext (by omega) _
      (by rw [List.length_append, List.length_singleton]; omega), List.append_assoc]
    rfl

/-- The protocols are read. -/
theorem parseTlsAlpn_extension {protocols : List Text} (h : (tlsAlpnExtension protocols).length < 2^16)
    (hlegal : (ClientExtension.alpn protocols).Legal) : parseTlsAlpn (tlsAlpnExtension protocols) = protocols := by
  obtain ⟨hcount, hprotocols⟩ := hlegal
  have hlength : (tlsAlpnExtension protocols).length = (alpnBytes protocols).length + 2 := by
    unfold tlsAlpnExtension
    rw [List.length_append, length_toBeBytes]
    omega
  have hstart := remains_zero (tlsAlpnExtension protocols)
  have hlen : Remains (tlsAlpnExtension protocols) 0 (toBeBytes 2 (alpnBytes protocols).length ++ alpnBytes protocols) :=
    hstart
  have hnames := hlen.skip_u16
  have hlistLen := u16At_remains hlen (by omega)
  -- each name takes a byte or more
  have hfuel : protocols.length ≤ (alpnBytes protocols).length := by
    unfold alpnBytes
    clear * -
    induction protocols with
    | nil => exact Nat.le_refl _
    | cons protocol protocols ih =>
      rw [List.flatMap_cons, List.length_append, List.length_cons, List.length_cons]
      omega
  unfold parseTlsAlpn
  rw [if_neg (by omega)]
  dsimp only
  rw [hlistLen, saturatingAdd_eq (by omega),
    show min (2 + (alpnBytes protocols).length) (tlsAlpnExtension protocols).length =
      (tlsAlpnExtension protocols).length by omega]
  exact parseTlsAlpnLoop_alpnBytes (by omega) hprotocols hnames (by omega) [] (by rw [List.length_nil]; omega)

/-! ## The versions -/

/-- The better one of the best version so far and another one. -/
def betterVersion (best : Option (UInt8 × UInt8)) (version : UInt8 × UInt8) : Option (UInt8 × UInt8) :=
  if (knownTlsVersionName version.1 version.2).isSome then
    match best with
    | none => some version
    | some current => some (maxVersion current version)
  else best

/-- The highest known version. -/
def bestVersion (versions : List (UInt8 × UInt8)) : Option (UInt8 × UInt8) := versions.foldl betterVersion none

/-- The greater one of two versions is one of them, and not below the other. -/
theorem maxVersion_cases (current version : UInt8 × UInt8) :
    (maxVersion current version = current ∧ versionNumber version ≤ versionNumber current) ∨
      (maxVersion current version = version ∧ versionNumber current ≤ versionNumber version) := by
  have hcurrent := current.2.toNat_lt
  have hversion := version.2.toNat_lt
  unfold maxVersion versionNumber
  by_cases hless : version.1 < current.1 ∨ (version.1 = current.1 ∧ version.2 < current.2)
  · refine .inl ⟨if_pos hless, ?_⟩
    rcases hless with hmajor | ⟨hmajor, hminor⟩
    · have := UInt8.lt_iff_toNat_lt.mp hmajor
      omega
    · have := UInt8.lt_iff_toNat_lt.mp hminor
      rw [hmajor]
      omega
  · refine .inr ⟨if_neg hless, ?_⟩
    obtain ⟨hmajor, hminor⟩ := not_or.mp hless
    have hle := mt UInt8.lt_iff_toNat_lt.mpr hmajor
    by_cases hsame : version.1 = current.1
    · have hle' := mt UInt8.lt_iff_toNat_lt.mpr (fun h => hminor ⟨hsame, h⟩)
      rw [hsame]
      omega
    · have hne : version.1.toNat ≠ current.1.toNat := fun h => hsame (UInt8.toNat_inj.mp h)
      omega

/-- The best version is the highest known one, if there is one. -/
theorem bestVersion_spec (versions : List (UInt8 × UInt8)) :
    (bestVersion versions = none ∧ ∀ version ∈ versions, ¬ Known version) ∨
      ∃ best ∈ versions, bestVersion versions = some best ∧ Known best ∧
        ∀ other ∈ versions, Known other → versionNumber other ≤ versionNumber best := by
  induction versions using List.reverseRecOn with
  | nil => exact .inl ⟨rfl, fun version hmem => absurd hmem List.not_mem_nil⟩
  | append_singleton versions version ih =>
    have hstep : bestVersion (versions ++ [version]) = betterVersion (bestVersion versions) version := by
      unfold bestVersion
      rw [List.foldl_append]
      rfl
    have hmem : ∀ {other}, other ∈ versions ++ [version] → other ∈ versions ∨ other = version := by
      intro other h
      rcases List.mem_append.mp h with h | h
      · exact .inl h
      · exact .inr (List.mem_singleton.mp h)
    have hlast : version ∈ versions ++ [version] := List.mem_append_right _ List.mem_cons_self
    rw [hstep]
    unfold betterVersion
    by_cases hknown : (knownTlsVersionName version.1 version.2).isSome = true
    · rw [if_pos hknown]
      rcases ih with ⟨hbest, hnone⟩ | ⟨best, hbestMem, hbest, hbestKnown, hmax⟩
      · rw [hbest]
        refine .inr ⟨version, hlast, rfl, hknown, fun other hother hotherKnown => ?_⟩
        rcases hmem hother with hold | rfl
        · exact absurd hotherKnown (hnone other hold)
        · exact Nat.le_refl _
      · rw [hbest]
        dsimp only
        rcases maxVersion_cases best version with ⟨heq, hle⟩ | ⟨heq, hle⟩
        · rw [heq]
          refine .inr ⟨best, List.mem_append_left _ hbestMem, rfl, hbestKnown, fun other hother hotherKnown => ?_⟩
          rcases hmem hother with hold | rfl
          · exact hmax other hold hotherKnown
          · exact hle
        · rw [heq]
          refine .inr ⟨version, hlast, rfl, hknown, fun other hother hotherKnown => ?_⟩
          rcases hmem hother with hold | rfl
          · exact Nat.le_trans (hmax other hold hotherKnown) hle
          · exact Nat.le_refl _
    · rw [if_neg hknown]
      rcases ih with ⟨hbest, hnone⟩ | ⟨best, hbestMem, hbest, hbestKnown, hmax⟩
      · refine .inl ⟨hbest, fun other hother => ?_⟩
        rcases hmem hother with hold | rfl
        · exact hnone other hold
        · exact hknown
      · refine .inr ⟨best, List.mem_append_left _ hbestMem, hbest, hbestKnown, fun other hother hotherKnown => ?_⟩
        rcases hmem hother with hold | rfl
        · exact hmax other hold hotherKnown
        · exact absurd hotherKnown hknown

/-- The versions are read from where they stand. -/
theorem bestVersionLoop_versionBytes {data : List UInt8} (hdata : data.length < 2^17)
    {versions : List (UInt8 × UInt8)} {fuel cursor : ℕ} (hrest : Remains data cursor (versionBytes versions))
    (hfuel : versions.length ≤ fuel) (best : Option (UInt8 × UInt8)) :
    bestVersionLoop data data.length fuel cursor best = versions.foldl betterVersion best := by
  induction versions generalizing fuel cursor best with
  | nil =>
    have hend := hrest.length_eq
    cases fuel with
    | zero => rfl
    | succ fuel =>
      have hnil : (versionBytes []).length = 0 := rfl
      unfold bestVersionLoop
      rw [if_neg (by unfold saturatingAdd u64Max; omega)]
      rfl
  | cons version versions ih =>
    have hsplit : versionBytes (version :: versions) = version.1 :: version.2 :: versionBytes versions :=
      List.flatMap_cons
    rw [hsplit] at hrest
    rw [List.length_cons] at hfuel
    have hend := hrest.length_eq
    have hminor := hrest.tail
    have hnext := hminor.tail
    rw [List.length_cons, List.length_cons] at hend
    obtain ⟨fuel, rfl⟩ : ∃ n, fuel = n + 1 := ⟨fuel - 1, by omega⟩
    have hcursor : saturatingAdd cursor 2 = cursor + 2 := saturatingAdd_eq (by omega)
    unfold bestVersionLoop
    rw [if_pos (by rw [hcursor]; omega), hcursor]
    dsimp only
    rw [hrest.getD_eq, hminor.getD_eq, List.foldl_cons]
    exact ih hnext (by omega) _

/-- The name of the best version is read. -/
theorem parseTlsSupportedVersion_extension {versions : List (UInt8 × UInt8)}
    (hlegal : (ClientExtension.supportedVersions versions).Legal) :
    parseTlsSupportedVersion (tlsVersionsExtension versions) false =
      (bestVersion versions).bind fun version => knownTlsVersionName version.1 version.2 := by
  have hcount : versions.length ≤ 127 := hlegal
  have hlength : (versionBytes versions).length = 2 * versions.length := by
    clear hlegal hcount
    induction versions with
    | nil => rfl
    | cons version versions ih =>
      have hsplit : versionBytes (version :: versions) = version.1 :: version.2 :: versionBytes versions :=
        List.flatMap_cons
      rw [hsplit, List.length_cons, List.length_cons, List.length_cons, ih]
      omega
  have hbyte := toNat_ofNat_byte (show 2 * versions.length ≤ 255 by omega)
  have hloop := bestVersionLoop_versionBytes (by omega) (remains_zero (versionBytes versions))
    (show versions.length ≤ (versionBytes versions).length + 1 by omega) none
  unfold parseTlsSupportedVersion tlsVersionsExtension
  rw [if_neg (by decide)]
  dsimp only
  rw [hbyte, show min (2 * versions.length) (versionBytes versions).length = (versionBytes versions).length by omega, hloop]
  rfl

/-! ## The extensions -/

namespace ClientExtension

/-- The name of the highest known version that an extension lists. -/
def versionName (self : ClientExtension) : Option Text :=
  self.versionsOf.bind fun versions =>
    (bestVersion versions).bind fun version => knownTlsVersionName version.1 version.2

/-- What an extension adds to what is known of the message. -/
def add (info : TlsMessageInfo) (self : ClientExtension) : TlsMessageInfo :=
  tlsExtension self.extType self.data false info

/-- What the extensions of each type add. -/
theorem add_eq {self : ClientExtension} (hlegal : self.Legal) (hdata : self.data.length < 2^16)
    (info : TlsMessageInfo) :
    self.add info =
      { info with
        sni := (self.hostOf.map some).getD info.sni
        alpn := self.protocolsOf.getD info.alpn
        handshake_version := (self.versionName.map some).getD info.handshake_version } := by
  unfold add
  cases self with
  | serverName host =>
    have hsni : parseTlsSni (tlsSniExtension host) = some host := parseTlsSni_extension hdata
    have hadd : tlsExtension 0 (tlsSniExtension host) false info = { info with sni := some host } := by
      rw [← hsni]
      rfl
    exact hadd
  | alpn protocols =>
    have halpn : parseTlsAlpn (tlsAlpnExtension protocols) = protocols := parseTlsAlpn_extension hdata hlegal
    have hadd : tlsExtension 16 (tlsAlpnExtension protocols) false info = { info with alpn := protocols } := by
      unfold tlsExtension
      rw [halpn]
      rfl
    exact hadd
  | supportedVersions versions =>
    have hname := parseTlsSupportedVersion_extension hlegal
    change tlsExtension 43 (tlsVersionsExtension versions) false info = { info with
      handshake_version := ((Option.bind (bestVersion versions) fun version =>
        knownTlsVersionName version.1 version.2).map some).getD info.handshake_version }
    unfold tlsExtension
    rw [hname]
    cases (bestVersion versions).bind fun version => knownTlsVersionName version.1 version.2 with
    | none => rfl
    | some name => rfl
  | other ext_type data =>
    obtain ⟨hsni, halpn, hversions⟩ := hlegal
    exact tlsExtension_other (fun h => hsni (BitVec.eq_of_toNat_eq h)) (fun h => halpn (BitVec.eq_of_toNat_eq h))
      (fun h => hversions (BitVec.eq_of_toNat_eq h)) data false info

/-- The type of an extension has sixteen bits. -/
theorem extType_lt (self : ClientExtension) : self.extType < 2^16 := by
  cases self with
  | serverName host => exact (by decide : 0 < 2^16)
  | alpn protocols => exact (by decide : 16 < 2^16)
  | supportedVersions versions => exact (by decide : 43 < 2^16)
  | other ext_type data => exact ext_type.isLt

end ClientExtension

/-- The extensions are read from where they stand. -/
theorem parseTlsExtensionsLoop_bytes {body : List UInt8} (hbody : body.length < 2^16)
    {extensions : List ClientExtension} {fuel cursor : ℕ}
    (hrest : Remains body cursor (extensions.flatMap ClientExtension.bytes)) (hfuel : extensions.length ≤ fuel)
    {count : ℕ} (hcount : count + extensions.length ≤ maxTlsExtensions) (info : TlsMessageInfo) :
    parseTlsExtensionsLoop body false body.length fuel cursor count info =
      (extensions.foldl (fun info e => e.add info) info, count + extensions.length) := by
  induction extensions generalizing fuel cursor count info with
  | nil =>
    have hend := hrest.length_eq
    rw [List.flatMap_nil, List.length_nil] at hend
    cases fuel with
    | zero => rfl
    | succ fuel =>
      unfold parseTlsExtensionsLoop
      rw [if_neg]
      · rfl
      · intro hmore
        have hle := hmore.1
        unfold saturatingAdd u64Max at hle
        omega
  | cons e extensions ih =>
    rw [List.flatMap_cons] at hrest
    unfold ClientExtension.bytes at hrest
    rw [List.append_assoc, List.append_assoc] at hrest
    rw [List.length_cons] at hfuel hcount
    have hend := hrest.length_eq
    have hlen := hrest.skip_u16
    have hdata := hlen.skip_u16
    have hnext := hdata.skip
    simp only [List.length_append, length_toBeBytes] at hend
    have htypeEq := u16At_remains hrest e.extType_lt
    have hlenEq := u16At_remains hlen (by omega)
    have hdataEq := hdata.take_eq
    obtain ⟨fuel, rfl⟩ : ∃ n, fuel = n + 1 := ⟨fuel - 1, by omega⟩
    have hcursor : saturatingAdd cursor 4 = cursor + 2 + 2 := saturatingAdd_eq (by omega)
    have hafter : saturatingAdd (cursor + 2 + 2) e.data.length = cursor + 2 + 2 + e.data.length :=
      saturatingAdd_eq (by omega)
    unfold parseTlsExtensionsLoop
    rw [if_pos ⟨by omega, by omega⟩]
    dsimp only
    rw [htypeEq, hlenEq, hcursor, hafter, if_neg (by omega), hdataEq, List.foldl_cons, List.length_cons]
    rw [ih hnext (by omega) (by omega), Nat.add_right_comm, Nat.add_assoc count]
    rfl

/-- Each extension takes four bytes or more, and its data is within the bytes of all. -/
theorem length_extensionBytes (extensions : List ClientExtension) :
    extensions.length ≤ (extensions.flatMap ClientExtension.bytes).length ∧
      ∀ e ∈ extensions, e.data.length ≤ (extensions.flatMap ClientExtension.bytes).length := by
  induction extensions with
  | nil => exact ⟨Nat.le_refl _, fun e he => absurd he List.not_mem_nil⟩
  | cons e extensions ih =>
    obtain ⟨hcount, hdata⟩ := ih
    have hlength : e.bytes.length = e.data.length + 4 := by
      unfold ClientExtension.bytes
      rw [List.length_append, List.length_append, length_toBeBytes, length_toBeBytes]
      omega
    rw [List.flatMap_cons, List.length_append, List.length_cons]
    refine ⟨by omega, fun other hother => ?_⟩
    rcases List.mem_cons.mp hother with rfl | hother
    · omega
    · have := hdata other hother
      omega

/-- The extensions are read behind their length, at the end of a body. -/
theorem parseTlsExtensions_bytes {body : List UInt8} (hbody : body.length < 2^16) {extensions : List ClientExtension}
    {offset : ℕ}
    (hlen : Remains body offset (toBeBytes 2 (extensions.flatMap ClientExtension.bytes).length ++
      extensions.flatMap ClientExtension.bytes))
    (hcount : extensions.length ≤ maxTlsExtensions) (info : TlsMessageInfo) :
    parseTlsExtensions body offset info false =
      { extensions.foldl (fun info e => e.add info) info with extensions := some extensions.length } := by
  have hrest := hlen.skip_u16
  have hend := hrest.length_eq
  have hlenEq := u16At_remains hlen (by omega)
  have hfuel := (length_extensionBytes extensions).1
  have hcursor : saturatingAdd offset 2 = offset + 2 := saturatingAdd_eq (by omega)
  have hfinish : min (saturatingAdd (offset + 2) (extensions.flatMap ClientExtension.bytes).length) body.length =
      body.length := by
    rw [saturatingAdd_eq (by omega)]
    omega
  have hloop := parseTlsExtensionsLoop_bytes hbody hrest (show extensions.length ≤ body.length + 1 by omega)
    (show 0 + extensions.length ≤ maxTlsExtensions by omega) info
  unfold parseTlsExtensions
  rw [hcursor, if_neg (by omega), hlenEq]
  dsimp only
  rw [hfinish, hloop, Nat.zero_add]

/-! ## The message -/

/-- The message so far, before its extensions are read. -/
def ClientHello.infoBefore (self : ClientHello) (info : TlsMessageInfo) : TlsMessageInfo :=
  { info with
    handshake_version := some (tlsVersionName self.version.1 self.version.2)
    cipher_suites := some self.cipher_suites.length }

/-- Each cipher suite takes two bytes. -/
theorem ClientHello.length_cipherBytes (self : ClientHello) : self.cipherBytes.length = 2 * self.cipher_suites.length := by
  unfold cipherBytes
  induction self.cipher_suites with
  | nil => rfl
  | cons cipher ciphers ih =>
    rw [List.flatMap_cons, List.length_append, length_toBeBytes, ih, List.length_cons]
    omega

namespace LegalClientHello

variable (self : LegalClientHello)

/-- The lengths of the parts, which all fit. -/
theorem lengths :
    self.body.length + 4 = self.handshake.length ∧
      self.body.length = 40 + self.session_id.length + self.cipherBytes.length + self.compression_methods.length +
        self.extensionBytes.length := by
  constructor
  · unfold ClientHello.handshake
    rw [List.length_cons, List.length_append, length_toBeBytes]
    omega
  · unfold ClientHello.body ClientHello.bodyEnd
    simp only [List.length_append, List.length_cons, List.length_nil, length_toBeBytes, Vector.length_toList]
    omega

/-- `parse_tls_client_hello` reads the body. -/
theorem parseTlsClientHello_body (info : TlsMessageInfo) :
    parseTlsClientHello self.body info =
      { self.extensions.foldl (fun info e => e.add info) (self.infoBefore info) with
        extensions := some self.extensions.length } := by
  obtain ⟨hhandshake, hlength⟩ := self.lengths
  have hfits := self.fits
  have hsession := toNat_ofNat_byte self.session_id_le
  have hmethods := toNat_ofNat_byte self.compression_methods_le
  have hciphers := self.length_cipherBytes
  -- the body, part by part
  have hversion : Remains self.body 0 (self.version.1 :: self.version.2 :: (self.random.toList ++
      (UInt8.ofNat self.session_id.length :: (self.session_id ++ self.bodyEnd)))) := remains_zero _
  have hrandom := hversion.tail.tail
  have hsessionLen := hrandom.skip
  rw [Vector.length_toList] at hsessionLen
  have hcipherLen := hsessionLen.tail.skip
  unfold ClientHello.bodyEnd at hcipherLen
  have hmethodsLen := hcipherLen.skip_u16.skip
  have hextensionsLen := hmethodsLen.tail.skip
  have hcipherEq := u16At_remains hcipherLen (by omega)
  have hmajor := hversion.getD_eq
  have hminor := hversion.tail.getD_eq
  generalize self.body = body at *
  unfold parseTlsClientHello
  rw [if_neg (by omega), hmajor, hminor, hsessionLen.byte_eq]
  dsimp only
  rw [hsession]
  -- the offsets, as the source adds them up
  have hsessionEnd : saturatingAdd (saturatingAdd 34 1) self.session_id.length =
      0 + 1 + 1 + 32 + 1 + self.session_id.length := by
    unfold saturatingAdd u64Max
    omega
  rw [hsessionEnd]
  generalize 0 + 1 + 1 + 32 + 1 + self.session_id.length = offset at *
  have hbody : body.length < 2^16 := by omega
  have hend := hcipherLen.length_eq
  simp only [List.length_append, List.length_cons, length_toBeBytes] at hend
  have hciphersStart : saturatingAdd offset 2 = offset + 2 := saturatingAdd_eq (by omega)
  have hciphersEnd : saturatingAdd (offset + 2) self.cipherBytes.length = offset + 2 + self.cipherBytes.length :=
    saturatingAdd_eq (by omega)
  rw [hciphersStart, if_neg (by omega), hcipherEq, hciphersEnd, if_neg (by omega), hmethodsLen.getD_eq, hmethods]
  have hmethodsStart : saturatingAdd (offset + 2 + self.cipherBytes.length) 1 =
      offset + 2 + self.cipherBytes.length + 1 := saturatingAdd_eq (by omega)
  have hmethodsEnd : saturatingAdd (offset + 2 + self.cipherBytes.length + 1) self.compression_methods.length =
      offset + 2 + self.cipherBytes.length + 1 + self.compression_methods.length := saturatingAdd_eq (by omega)
  rw [hmethodsStart, hmethodsEnd, show min (self.cipherBytes.length / 2) 65535 = self.cipher_suites.length by omega]
  exact parseTlsExtensions_bytes hbody hextensionsLen self.extensions_le _

/-- What the extensions say is found. -/
theorem foldl_add (info : TlsMessageInfo) (hsni : info.sni = none) (halpn : info.alpn = []) :
    let after := self.extensions.foldl (fun info e => e.add info) info
    after.sni = self.host ∧ after.alpn = self.protocols ∧ after.cipher_suites = info.cipher_suites ∧
      after.handshake_version =
        ((self.extensions.filterMap ClientExtension.versionName).getLast?.map some).getD info.handshake_version := by
  obtain ⟨hhandshake, hlength⟩ := self.lengths
  have hfits := self.fits
  have hdata := (length_extensionBytes self.extensions).2
  change ∀ e ∈ self.extensions, e.data.length ≤ self.extensionBytes.length at hdata
  have hadd : ∀ e ∈ self.extensions, ∀ info, e.add info = _ := fun e he info =>
    ClientExtension.add_eq (self.extensions_legal e he) (by have := hdata e he; omega) info
  dsimp only
  refine ⟨?_, ?_, ?_, ?_⟩
  · rw [foldl_field TlsMessageInfo.sni (fun e => e.hostOf.map some) fun e he info => by rw [hadd e he], hsni,
      ← List.map_filterMap, List.getLast?_map, getLast?_eq_head? self.one_host]
    change ((self.host).map some).getD none = self.host
    cases self.host with
    | none => rfl
    | some host => rfl
  · rw [foldl_field TlsMessageInfo.alpn ClientExtension.protocolsOf fun e he info => by rw [hadd e he], halpn,
      getLast?_eq_head? self.one_alpn]
    rfl
  · rw [foldl_field TlsMessageInfo.cipher_suites (fun _ => none) fun e he info => by rw [hadd e he]; rfl,
      List.filterMap_none]
    rfl
  · rw [foldl_field TlsMessageInfo.handshake_version (fun e => e.versionName.map some) fun e he info => by
      rw [hadd e he], ← List.map_filterMap, List.getLast?_map]

/-- The name that is found is that of the highest known version. -/
theorem versionName_namesHighest :
    NamesHighest self.versions self.version
      ((self.extensions.filterMap ClientExtension.versionName).getLast?.getD
        (tlsVersionName self.version.1 self.version.2)) := by
  have hnames : self.extensions.filterMap ClientExtension.versionName =
      (self.extensions.filterMap ClientExtension.versionsOf).filterMap fun versions =>
        (bestVersion versions).bind fun version => knownTlsVersionName version.1 version.2 := by
    rw [List.filterMap_filterMap]
    rfl
  have hone := self.one_versions
  rw [hnames]
  unfold ClientHello.versions
  match self.extensions.filterMap ClientExtension.versionsOf, hone with
  | [], _ => exact .inr ⟨fun version hmem => absurd hmem List.not_mem_nil, rfl⟩
  | [versions], _ =>
    change NamesHighest versions self.version _
    rcases bestVersion_spec versions with ⟨hbest, hnone⟩ | ⟨best, hmem, hbest, hknown, hmax⟩
    · rw [List.filterMap_cons_none (by rw [hbest]; rfl)]
      exact .inr ⟨hnone, rfl⟩
    · obtain ⟨name, hname⟩ := Option.isSome_iff_exists.mp hknown
      rw [List.filterMap_cons_some (by rw [hbest]; exact hname)]
      exact .inl ⟨best, hmem, hname, hmax⟩
  | _ :: _ :: _, hone =>
    simp only [List.length_cons] at hone
    omega

end LegalClientHello

/-- `parse_tls_handshake` reads the message behind its header. -/
theorem LegalClientHello.parseTlsHandshake_handshake (self : LegalClientHello) (info : TlsMessageInfo) :
    parseTlsHandshake self.handshake info =
      parseTlsClientHello self.body { info with handshake_type := some (tlsHandshakeTypeName 1) } := by
  obtain ⟨hlength, -⟩ := self.lengths
  have hfits := self.fits
  have htype : Remains self.handshake 0 (1 :: (toBeBytes 3 self.body.length ++ (self.body ++ []))) :=
    ⟨[], by unfold ClientHello.handshake; rw [List.append_nil]; rfl, rfl⟩
  have hlen := htype.tail
  have hbody := hlen.skip
  rw [length_toBeBytes] at hbody
  have hlenTake := hlen.take_eq
  rw [length_toBeBytes] at hlenTake
  have hread : readU24 self.handshake 1 = some self.body.length := by
    unfold readU24
    rw [if_neg (by omega), hlenTake, fromBeBytes_toBeBytes (by omega)]
  have hbodyEnd : min (saturatingAdd 4 self.body.length) self.handshake.length - 4 = self.body.length := by
    rw [saturatingAdd_eq (by omega)]
    omega
  unfold parseTlsHandshake
  rw [htype.getD_eq, hread, Option.getD_some]
  dsimp only
  rw [hbodyEnd, hbody.take_eq]
  rfl

/-- What is known of a record before its handshake is read. -/
def ClientHello.recordInfo (self : ClientHello) : TlsMessageInfo where
  content_type := tlsContentTypeName 22
  record_version := tlsVersionName 0x03 0x01
  record_len := self.handshake.length

/-- `parse_tls_record` reads the handshake of the record. -/
theorem LegalClientHello.parseTlsRecord_record (self : LegalClientHello) (more : List UInt8) :
    parseTlsRecord (self.record ++ more) =
      .complete { total_len := self.record.length, info := parseTlsHandshake self.handshake self.recordInfo } := by
  obtain ⟨hlength, -⟩ := self.lengths
  have hfits := self.fits
  have hrecord : self.record.length = 5 + self.handshake.length := by
    unfold ClientHello.record
    simp only [List.length_append, List.length_cons, List.length_nil, length_toBeBytes]
    omega
  -- the record, part by part
  have htype : Remains (self.record ++ more) 0
      (22 :: 0x03 :: 0x01 :: (toBeBytes 2 self.handshake.length ++ (self.handshake ++ more))) :=
    ⟨[], by unfold ClientHello.record; simp only [List.append_assoc, List.cons_append, List.nil_append], rfl⟩
  have hmajor := htype.tail
  have hminor := hmajor.tail
  have hlen := hminor.tail
  have hpayload := hlen.skip_u16
  have hend := hpayload.length_eq
  have hlenEq := u16At_remains hlen hfits
  have htake := hpayload.take_eq
  have htotal : saturatingAdd 5 self.handshake.length = 5 + self.handshake.length := saturatingAdd_eq (by omega)
  rw [List.length_append] at hend
  rw [hrecord]
  generalize self.record ++ more = bytes at *
  unfold parseTlsRecord
  rw [if_neg (by omega), htype.getD_eq, hmajor.getD_eq, hminor.getD_eq, hlenEq]
  dsimp only
  rw [htotal, if_neg (by decide), if_neg (by decide), if_neg (by omega), Nat.add_sub_cancel_left, htake,
    if_pos ⟨rfl, by omega⟩]
  rfl

/-- What `parse_tls_record` reads of the record of a ClientHello, with any bytes behind it, is what the
message says; and for every byte string it comes to its end, without an index out of range. -/
theorem parseTlsRecord_clientHello :
    (∀ (hello : LegalClientHello) (more : List UInt8), ∃ info name,
      parseTlsRecord (hello.record ++ more) = .complete { total_len := hello.record.length, info } ∧
      info.sni = hello.host ∧ info.alpn = hello.protocols ∧ info.cipher_suites = some hello.cipher_suites.length ∧
      info.extensions = some hello.extensions.length ∧ info.handshake_version = some name ∧
      NamesHighest hello.versions hello.version name) ∧
    ∀ bytes, parseTlsRecordChecked bytes = some (parseTlsRecord bytes) := by
  refine ⟨?_, parseTlsRecordChecked_eq⟩
  intro hello more
  have hparse := hello.parseTlsRecord_record more
  rw [hello.parseTlsHandshake_handshake, hello.parseTlsClientHello_body] at hparse
  obtain ⟨hsni, halpn, hsuites, hversion⟩ := hello.foldl_add
    (hello.infoBefore { hello.recordInfo with handshake_type := some (tlsHandshakeTypeName 1) }) rfl rfl
  refine ⟨_, _, hparse, hsni, halpn, hsuites, rfl, ?_, hello.versionName_namesHighest⟩
  refine hversion.trans ?_
  cases (hello.extensions.filterMap ClientExtension.versionName).getLast? with
  | none => rfl
  | some name => rfl

/-- A ClientHello with an unknown version among those it lists. -/
def sampleClientHello : LegalClientHello where
  version := (3, 3)
  random := .replicate 32 0x11
  session_id := []
  cipher_suites := [0x1301, 0x1302]
  compression_methods := [0]
  extensions := [.serverName ['h', 'i'], .alpn [['h', '2']], .supportedVersions [(0x7a, 0x7a), (3, 4), (3, 3)]]
  session_id_le := by decide
  compression_methods_le := by decide
  extensions_le := by decide
  extensions_legal := by decide
  one_host := by decide
  one_alpn := by decide
  one_versions := by decide
  fits := by decide +kernel

example : bestVersion sampleClientHello.versions = some (3, 4) := by decide

end Rustmate.Message
