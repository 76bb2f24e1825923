import Rustmate.Transform.Outcome

/-!
# An inflater

The decompressors are parameters of the transforms. Here is one that does what `DeflateDecoder` of `flate2` does on
short streams of stored blocks and of blocks in the fixed code: it reads the bits of each byte from the lowest on,
and it ends where the stream says so, or where there is nothing more to read.
-/

namespace Rustmate.Transform.Inflate

/-- Why inflating stops within a block: the stream ends there, or it is not a deflated one. -/
inductive Stop where
  | ended
  | corrupt
  deriving DecidableEq, Repr

/-- The bits of bytes, of each one from the lowest on. -/
def bitsOf (bytes : List UInt8) : List Bool :=
  bytes.flatMap fun byte => (List.range 8).map byte.toNat.testBit

/-- A number of so many bits, the lowest first. -/
def takeNumber : ℕ → List Bool → Except Stop (ℕ × List Bool)
  | 0, bits => .ok (0, bits)
  | _ + 1, [] => .error .ended
  | n + 1, bit :: bits => do
    let (high, bits) ← takeNumber n bits
    return (bit.toNat + 2 * high, bits)

/-- A code that goes on for so many bits, the highest first. -/
def takeCode : ℕ → ℕ → List Bool → Except Stop (ℕ × List Bool)
  | 0, code, bits => .ok (code, bits)
  | _ + 1, _, [] => .error .ended
  | n + 1, code, bit :: bits => takeCode n (2 * code + bit.toNat) bits

/-- A symbol in the fixed code, of seven to nine bits. -/
def takeSymbol (bits : List Bool) : Except Stop (ℕ × List Bool) := do
  let (code, bits) ← takeCode 7 0 bits
  if code < 24 then return (256 + code, bits)
  let (code, bits) ← takeCode 1 code bits
  if code < 192 then return (code - 48, bits)
  if code < 200 then return (280 + (code - 192), bits)
  let (code, bits) ← takeCode 1 code bits
  return (144 + (code - 400), bits)

/-- How many bytes a symbol above 256 repeats. -/
def takeLength (symbol : ℕ) (bits : List Bool) : Except Stop (ℕ × List Bool) := do
  let i := symbol - 257
  if i < 8 then return (3 + i, bits)
  if i = 28 then return (258, bits)
  if 28 < i then throw .corrupt
  let (more, bits) ← takeNumber (i / 4 - 1) bits
  return (3 + (4 + i % 4) * 2 ^ (i / 4 - 1) + more, bits)

/-- How far back the bytes are that are repeated. -/
def takeDistance (bits : List Bool) : Except Stop (ℕ × List Bool) := do
  let (i, bits) ← takeCode 5 0 bits
  if i < 4 then return (1 + i, bits)
  if 29 < i then throw .corrupt
  let (more, bits) ← takeNumber (i / 2 - 1) bits
  return (1 + (2 + i % 2) * 2 ^ (i / 2 - 1) + more, bits)

/-- Bytes are repeated from so far back, one after another. The last byte that was written comes first. -/
def repeatBytes (distance : ℕ) : ℕ → List UInt8 → List UInt8
  | 0, written => written
  | length + 1, written => repeatBytes distance length (written.getD (distance - 1) 0 :: written)

/-- What was written, the last byte first, and the bits that follow, or why there are none. -/
abbrev Progress := List UInt8 × Except Stop (List Bool)

/-- The bytes of a stored block. -/
def storedBytes : ℕ → List UInt8 → List Bool → Progress
  | 0, written, bits => (written, .ok bits)
  | n + 1, written, bits =>
    match takeNumber 8 bits with
    | .error stop => (written, .error stop)
    | .ok (byte, bits) => storedBytes n (UInt8.ofNat byte :: written) bits

/-- A stored block, from the next whole byte on. -/
def storedBlock (written : List UInt8) (bits : List Bool) : Progress :=
  match takeNumber 32 (bits.drop (bits.length % 8)) with
  | .error stop => (written, .error stop)
  | .ok (lengths, bits) =>
    if lengths % 2 ^ 16 + lengths / 2 ^ 16 = 2 ^ 16 - 1 then storedBytes (lengths % 2 ^ 16) written bits
    else (written, .error .corrupt)

/-- A block in the fixed code. Each symbol takes a bit, so the number of bits and one more are fuel enough. -/
def codedBlock : ℕ → List UInt8 → List Bool → Progress
  | 0, written, bits => (written, .ok bits)
  | fuel + 1, written, bits =>
    match takeSymbol bits with
    | .error stop => (written, .error stop)
    | .ok (symbol, bits) =>
      if symbol < 256 then codedBlock fuel (UInt8.ofNat symbol :: written) bits
      else if symbol = 256 then (written, .ok bits)
      else
        match (do
          let (length, bits) ← takeLength symbol bits
          let (distance, bits) ← takeDistance bits
          return (length, distance, bits) : Except Stop (ℕ × ℕ × List Bool)) with
        | .error stop => (written, .error stop)
        | .ok (length, distance, bits) =>
          if written.length < distance then (written, .error .corrupt)
          else codedBlock fuel (repeatBytes distance length written) bits

/-- The blocks of a stream. Blocks that bring a code of their own are not read here. -/
def blocks : ℕ → List UInt8 → List Bool → Progress
  | 0, written, bits => (written, .ok bits)
  | fuel + 1, written, bits =>
    match takeNumber 3 bits with
    | .error stop => (written, .error stop)
    | .ok (head, bits) =>
      let block :=
        if head / 2 = 0 then storedBlock written bits
        else if head / 2 = 1 then codedBlock (bits.length + 1) written bits
        else (written, .error .corrupt)
      match block with
      | (written, .error stop) => (written, .error stop)
      | (written, .ok bits) => if head % 2 = 1 then (written, .ok bits) else blocks fuel written bits

/-- What a stream inflates to. Where it only ends too early, that is its end; where it is found to be corrupt,
nothing is handed out. -/
def inflate (bytes : List UInt8) : List UInt8 × Option ReadError :=
  match blocks (8 * bytes.length + 1) [] (bitsOf bytes) with
  | (_, .error .corrupt) => ([], some ⟨false, "corrupt deflate stream".toList⟩)
  | (written, _) => (written.reverse, none)

/-- The inflater as a decompressor. -/
def inflater : Decoder where
  State := List UInt8 × Option ReadError
  new := inflate
  reader := Reader.ofList UInt8 ReadError

end Rustmate.Transform.Inflate
