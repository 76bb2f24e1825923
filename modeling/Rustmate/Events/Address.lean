import Rustmate.Packet
import Rustmate.Message.Text

/-!
# Addresses as text

`IpAddr::from_str`: four decimal octets, or the groups of an IPv6 address with at most one `::` and possibly
an IPv4 address in place of the last two. A parser takes a text and returns what it read and the rest.
-/

namespace Rustmate.Events

open Message (Text toDigit)

/-- The longest beginning of digits, as far as `max_digits`, with its value. -/
def readDigits (radix : ℕ) : ℕ → ℕ → Text → ℕ × ℕ × Text
  | 0, value, text => (0, value, text)
  | max_digits + 1, value, text =>
    match text with
    | [] => (0, value, text)
    | c :: rest =>
      match toDigit radix c with
      | none => (0, value, text)
      | some d =>
        let (count, value, rest) := readDigits radix max_digits (radix * value + d) rest
        (count + 1, value, rest)

/-- `read_number`: one digit at least and `max_digits` at most, and without a zero in front of others unless
that is allowed. -/
def readNumber (radix max_digits max : ℕ) ( allow_zero_prefix : Bool) (text : Text) :
    Option (ℕ × Text) :=
  let (count, value, rest) := readDigits radix (max_digits + 1) 0 text
  if count = 0 ∨ max_digits < count ∨ max < value then none
  else if ! allow_zero_prefix && text.head? = some '0' && 1 < count then none
  else some (value, rest)

/-- `read_given_char`. -/
def readGivenChar (c : Char) (text : Text) : Option Text :=
  if text.head? = some c then some text.tail else none

/-- `read_separator`: what comes first in a row needs no separator. -/
def readSeparator {α : Type} (separator : Char) (index : ℕ) (inner : Text → Option (α × Text))
    (text : Text) : Option (α × Text) :=
  if 0 < index then (readGivenChar separator text).bind inner else inner text

/-- `read_ipv4_addr`. -/
def readIpv4Addr (text : Text) : Option (List UInt8 × Text) :=
  (List.range 4).foldlM (fun (octets, text) index => do
    let (octet, text) ← readSeparator '.' index (readNumber 10 3 255 false) text
    return (octets ++ [UInt8.ofNat octet], text)) ([], text)

/-- The two bytes of a group. -/
def groupBytes (group : ℕ) : List UInt8 := [UInt8.ofNat (group / 256), UInt8.ofNat (group % 256)]

/-- `read_groups`: up to `limit` groups, where an IPv4 address counts as two and ends them. The bytes read,
and whether the last ones are those of an IPv4 address. The fuel is the number of groups left. -/
def readGroups (limit : ℕ) : ℕ → ℕ → Text → List UInt8 × Bool × Text
  | 0, _, text => ([], false, text)
  | fuel + 1, index, text =>
    let ipv4 := if index + 1 < limit then readSeparator ':' index readIpv4Addr text else none
    match ipv4 with
    | some (octets, rest) => (octets, true, rest)
    | none =>
      match readSeparator ':' index (readNumber 16 4 0xFFFF true) text with
      | none => ([], false, text)
      | some (group, rest) =>
        let (groups, has_ipv4, rest) := readGroups limit fuel (index + 1) rest
        (groupBytes group ++ groups, has_ipv4, rest)

/-- `read_ipv6_addr`. -/
def readIpv6Addr (text : Text) : Option (List UInt8 × Text) := do
  let (head, head_ipv4, text) := readGroups 8 8 0 text
  if head.length = 16 then return (head, text)
  if head_ipv4 then none
  let text ← readGivenChar ':' text
  let text ← readGivenChar ':' text
  let limit := 8 - (head.length / 2 + 1)
  let (tail, _, text) := readGroups limit limit 0 text
  return (head ++ List.replicate (16 - head.length - tail.length) 0 ++ tail, text)

/-- The octets as a vector, when there are as many. -/
def octets? (n : ℕ) (octets : List UInt8) : Option (Vector UInt8 n) :=
  if h : octets.toArray.size = n then some ⟨octets.toArray, h⟩ else none

/-- `IpAddr::from_str`: nothing may be left. -/
def parseIpAddr (text : Text) : Option IpAddr :=
  let v4 := (readIpv4Addr text).bind fun (octets, rest) =>
    (octets? 4 octets).map fun octets => (IpAddr.v4 octets, rest)
  let v6 := (readIpv6Addr text).bind fun (octets, rest) =>
    (octets? 16 octets).map fun octets => (IpAddr.v6 octets, rest)
  (v4.or v6).bind fun (addr, rest) => if rest.isEmpty then some addr else none

example : parseIpAddr "10.0.0.255".toList = some (.v4 #v[10, 0, 0, 255]) := by decide +kernel

end Rustmate.Events
