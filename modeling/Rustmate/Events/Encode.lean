import Rustmate.Lib.Sextets
import Rustmate.Packet
import Rustmate.Message.Text

/-!
# Values as text

How identifiers, addresses and bytes are written in the fields of events.
-/

namespace Rustmate.Events

open Message (Text)

/-- A hexadecimal digit in lower case. -/
def hexDigit (d : ℕ) : Char :=
  if d < 10 then Char.ofNat ('0'.toNat + d) else Char.ofNat ('a'.toNat + (d - 10))

/-- `format!(":016x")` of an identifier: sixteen digits, the most significant first. -/
def hexText (id : BitVec 64) : Text :=
  (List.range 16).map fun i => hexDigit (id.toNat / 16^(15 - i) % 16)

/-- `format!(":x")` of a group of an IPv6 address: up to four digits, without zeros in front. -/
def hexGroup (group : ℕ) : Text :=
  let digits := (List.range 4).map fun i => group / 16^(3 - i) % 16
  let digits := digits.dropWhile fun d => d = 0
  if digits.isEmpty then ['0'] else digits.map hexDigit

/-! ## Addresses -/

/-- `Ipv4Addr::fmt`. -/
def showIpv4 (octets : List UInt8) : Text :=
  ['.'].intercalate (octets.map fun octet => (Nat.repr octet.toNat).toList)

/-- The groups of an IPv6 address. -/
def ipv6Groups : List UInt8 → List ℕ
  | high :: low :: rest => (high.toNat * 256 + low.toNat) :: ipv6Groups rest
  | _ => []

/-- The longest run of zero groups so far and the current one, at the next group. -/
def zerosStep (state : (ℕ × ℕ) × (ℕ × ℕ)) (x : ℕ × ℕ) : (ℕ × ℕ) × (ℕ × ℕ) :=
  let (longest, current) := state
  if x.1 = 0 then
    let start := if current.2 = 0 then x.2 else current.1
    let current := (start, current.2 + 1)
    (if longest.2 < current.2 then current else longest, current)
  else (longest, (0, 0))

/-- The longest run of zero groups, the first one of several: its start and its length. -/
def longestZeros (groups : List ℕ) : ℕ × ℕ := (groups.zipIdx.foldl zerosStep ((0, 0), (0, 0))).1

/-- `fmt_subslice`. -/
def showGroups (groups : List ℕ) : Text := [':'].intercalate (groups.map hexGroup)

/-- `Ipv6Addr::fmt`. -/
def showIpv6 (octets : List UInt8) : Text :=
  if octets.take 12 = List.replicate 10 0 ++ [0xFF, 0xFF] then
    "::ffff:".toList ++ showIpv4 (octets.drop 12)
  else
    let groups := ipv6Groups octets
    let (start, length) := longestZeros groups
    if 1 < length then
      showGroups (groups.take start) ++ "::".toList ++ showGroups (groups.drop (start + length))
    else showGroups groups

/-- `IpAddr::fmt`. -/
def showIpAddr : IpAddr → Text
  | .v4 octets => showIpv4 octets.toList
  | .v6 octets => showIpv6 octets.toList

/-! ## Bytes -/

/-- `STANDARD.encode` of the `base64` library. -/
def base64 (bytes : List UInt8) : Text := Sextets.encode bytes

end Rustmate.Events
