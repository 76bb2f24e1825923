import Mathlib.Data.Nat.Notation
import Mathlib.Data.List.DropRight

/-!
# Text

What the parsers use of Rust's strings. A text is the list of its characters.
-/

namespace Rustmate.Message

/-- A string. -/
abbrev Text := List Char

/-! ## UTF-8 -/

/-- The bytes of a text. -/
def utf8 (text : Text) : List UInt8 := text.flatMap String.utf8EncodeChar

/-- Whether the byte continues a character. -/
def isContinuation (byte : UInt8) : Bool := 0x80 ≤ byte && byte ≤ 0xBF

/-- Whether the second byte may follow the first one of a character of three bytes or four. -/
def mayFollow (first second : UInt8) : Bool :=
  (first = 0xE0 && 0xA0 ≤ second && second ≤ 0xBF) ||
  (0xE1 ≤ first && first ≤ 0xEC && isContinuation second) ||
  (first = 0xED && 0x80 ≤ second && second ≤ 0x9F) ||
  (0xEE ≤ first && first ≤ 0xEF && isContinuation second) ||
  (first = 0xF0 && 0x90 ≤ second && second ≤ 0xBF) ||
  (0xF1 ≤ first && first ≤ 0xF3 && isContinuation second) ||
  (first = 0xF4 && 0x80 ≤ second && second ≤ 0x8F)

/-- How many bytes count as one error, where no character is: the longest beginning of one. -/
def errorLength : List UInt8 → ℕ
  | first :: second :: rest =>
    if mayFollow first second then
      if 0xF0 ≤ first && rest.head?.any isContinuation then 3 else 2
    else 1
  | _ => 1

/-- The characters of some bytes, and `none` for each error. The fuel is the number of bytes. -/
def decodeLoop : ℕ → List UInt8 → List (Option Char)
  | 0, _ => []
  | fuel + 1, bytes =>
    if bytes.isEmpty then []
    else
      match ByteArray.utf8DecodeChar? (bytes.take 4).toByteArray 0 with
      | some c => some c :: decodeLoop fuel (bytes.drop c.utf8Size)
      | none => none :: decodeLoop fuel (bytes.drop (errorLength bytes))

/-- The characters of some bytes, and `none` for each error. -/
def decode (bytes : List UInt8) : List (Option Char) := decodeLoop bytes.length bytes

/-- `String::from_utf8_lossy`: errors are replaced. -/
def fromUtf8Lossy (bytes : List UInt8) : Text :=
  (decode bytes).map fun c => c.getD (Char.ofNat 0xFFFD)

/-- `str::from_utf8`: there must be no error. -/
def fromUtf8 (bytes : List UInt8) : Option Text := (decode bytes).mapM id

/-! ## Blanks -/

/-- `char::is_whitespace`. -/
def isWhitespace (c : Char) : Bool :=
  let v := c.toNat
  (0x9 ≤ v && v ≤ 0xD) || v = 0x20 || v = 0x85 || v = 0xA0 || v = 0x1680 ||
    (0x2000 ≤ v && v ≤ 0x200A) || v = 0x2028 || v = 0x2029 || v = 0x202F || v = 0x205F || v = 0x3000

/-- `char::is_ascii_whitespace`. -/
def isAsciiWhitespace (c : Char) : Bool :=
  c = ' ' || c = '\t' || c = '\n' || c.toNat = 0xC || c = '\r'

/-- `trim_end_matches`, at a predicate. -/
def trimEnd (p : Char → Bool) (text : Text) : Text := text.rdropWhile p

/-- `trim`. -/
def trim (text : Text) : Text := trimEnd isWhitespace (text.dropWhile isWhitespace)

/-- `split_ascii_whitespace`. -/
def splitAsciiWhitespace (text : Text) : List Text :=
  (text.splitOnP isAsciiWhitespace).filter fun part => !part.isEmpty

/-! ## Parts of a text -/

/-- `split_once`: what is before the first of these characters, and what is after it. -/
def splitOnce (c : Char) (text : Text) : Option (Text × Text) :=
  if c ∈ text then
    some (text.takeWhile fun d => d ≠ c, (text.dropWhile fun d => d ≠ c).tail)
  else none

/-- `to_ascii_lowercase`. -/
def toAsciiLowercase (text : Text) : Text := text.map Char.toLower

/-- `eq_ignore_ascii_case`. -/
def eqIgnoreAsciiCase (a b : Text) : Bool := toAsciiLowercase a = toAsciiLowercase b

/-- `contains`, at a text. -/
def contains (text part : Text) : Bool := text.tails.any part.isPrefixOf

/-- `replace`, of a character by a text. -/
def replace (c : Char) (by_text : Text) (text : Text) : Text :=
  text.flatMap fun d => if d = c then by_text else [d]

/-! ## Numbers -/

/-- `char::to_digit`, for a radix up to 16. -/
def toDigit (radix : ℕ) (c : Char) : Option ℕ :=
  let digit :=
    if '0' ≤ c && c ≤ '9' then some (c.toNat - '0'.toNat)
    else if 'a' ≤ c && c ≤ 'f' then some (c.toNat - 'a'.toNat + 10)
    else if 'A' ≤ c && c ≤ 'F' then some (c.toNat - 'A'.toNat + 10)
    else none
  digit.filter fun d => d < radix

/-- `from_str_radix` of an unsigned integer up to `max`: a `+` may come first. -/
def fromStrRadix (radix max : ℕ) (text : Text) : Option ℕ :=
  let digits := if text.head? = some '+' then text.tail else text
  if digits.isEmpty then none
  else
    (digits.foldlM (fun value c => (toDigit radix c).map fun d => radix * value + d) 0).filter
      fun value => value ≤ max

end Rustmate.Message
