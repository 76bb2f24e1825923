import Rustmate.Message.DnsName

/-!
# DNS messages, written and read

A message as its sender writes it, where a name may end in a pointer to a name written before, and what
`parse_dns_message` reads of it. A table keeps the places at which names were written, with their meaning; the
places in the middle of a name count as well, since a name begins at each of its labels.
-/

namespace Rustmate.Message

open Digits (fromBeBytes toBeBytes fromBeBytes_toBeBytes length_toBeBytes)
open Events (showIpv4 showIpv6)

/-! ## Names as they are written -/

/-- A name as it is written: some labels, and the root or a pointer after them. -/
structure WireName where
  labels : List (List UInt8)
  pointer : Option ℕ
  deriving DecidableEq, Repr

/-- What a name means, and how many pointers lead to its end. -/
structure NameMeaning where
  labels : List (List UInt8)
  jumps : ℕ
  deriving DecidableEq, Repr

/-- The places at which names were written, and what the names mean. -/
abbrev NameTable := List (ℕ × NameMeaning)

namespace WireName

/-- What stands after the labels. -/
def ending : Option ℕ → List UInt8
  | none => [0]
  | some pointer => [UInt8.ofNat (0xc0 + pointer / 256), UInt8.ofNat (pointer % 256)]

/-- The labels, each behind its length. -/
def labelBytes (labels : List (List UInt8)) : List UInt8 :=
  labels.flatMap fun label => UInt8.ofNat label.length :: label

/-- The bytes of a name. -/
def bytes (name : WireName) : List UInt8 := labelBytes name.labels ++ ending name.pointer

/-- What the end of a name means: nothing more, or the name that it points to. -/
def tail (table : NameTable) (name : WireName) : Option NameMeaning :=
  match name.pointer with
  | none => some ⟨[], 0⟩
  | some pointer =>
    (table.lookup pointer).map fun meaning => { meaning with jumps := meaning.jumps + 1 }

/-- The text of a name, when the table knows what it points to. -/
def text (table : NameTable) (name : WireName) : Text :=
  nameText (name.labels ++ ((name.tail table).map NameMeaning.labels).getD [])

/-- The places that a name adds to the table: where it begins, and where its labels end. -/
def places (tail : NameMeaning) : ℕ → List (List UInt8) → NameTable
  | offset, [] => [(offset, tail)]
  | offset, label :: labels =>
    (offset, ⟨label :: labels ++ tail.labels, tail.jumps⟩) ::
      places tail (offset + 1 + label.length) labels

/-- A name is made of labels, and points to one of the first `2^14` bytes if it points anywhere. -/
def Legal (name : WireName) : Prop :=
  (∀ label ∈ name.labels, IsLabel label) ∧ ∀ pointer ∈ name.pointer, pointer < 2^14

instance (name : WireName) : Decidable name.Legal := inferInstanceAs (Decidable (_ ∧ _))

end WireName

/-! ## The parts of a message -/

/-- A part of a message: a name, or bytes that are none. -/
inductive Part where
  | name (name : WireName)
  | plain (bytes : List UInt8)
  deriving DecidableEq, Repr

namespace Part

/-- The bytes of a part. -/
def bytes : Part → List UInt8
  | .name wire => wire.bytes
  | .plain raw => raw

/-- The table after a part that begins at an offset. -/
def record (table : NameTable) (offset : ℕ) : Part → NameTable
  | .name wire =>
    match wire.tail table with
    | none => table
    | some tail => table ++ WireName.places tail offset wire.labels
  | .plain _ => table

/-- A part can be written after a table: a name is legal and points to a name of the table, if it points anywhere,
with at most so many pointers to its end. -/
def Written (max_jumps : ℕ) (table : NameTable) : Part → Prop
  | .name wire => wire.Legal ∧ ∃ tail ∈ wire.tail table, tail.jumps ≤ max_jumps
  | .plain _ => True

instance (max_jumps : ℕ) (table : NameTable) : (part : Part) → Decidable (part.Written max_jumps table)
  | .name wire => inferInstanceAs (Decidable (wire.Legal ∧ ∃ tail ∈ wire.tail table, tail.jumps ≤ max_jumps))
  | .plain _ => isTrue trivial

/-- The table after some parts, the first of which begins at an offset. -/
def tableAfter : NameTable → ℕ → List Part → NameTable
  | table, _, [] => table
  | table, offset, part :: parts => tableAfter (part.record table offset) (offset + part.bytes.length) parts

/-- Each of some parts can be written after those before it. -/
def AllWritten (max_jumps : ℕ) : NameTable → ℕ → List Part → Prop
  | _, _, [] => True
  | table, offset, part :: parts =>
    part.Written max_jumps table ∧
      AllWritten max_jumps (part.record table offset) (offset + part.bytes.length) parts

instance decidableAllWritten (max_jumps : ℕ) : (table : NameTable) → (offset : ℕ) → (parts : List Part) →
    Decidable (AllWritten max_jumps table offset parts)
  | _, _, [] => isTrue trivial
  | table, offset, part :: parts =>
    have := decidableAllWritten max_jumps (part.record table offset) (offset + part.bytes.length) parts
    inferInstanceAs (Decidable (_ ∧ _))

end Part

/-! ## The message -/

/-- A question as it is written. -/
structure WireQuestion where
  name : WireName
  qtype : BitVec 16
  qclass : BitVec 16
  deriving DecidableEq, Repr

/-- A record as it is written. Its data is a name or bytes that are none. -/
structure WireRecord where
  name : WireName
  rr_type : BitVec 16
  class_ : BitVec 16
  ttl : BitVec 32
  data : Part
  deriving DecidableEq, Repr

/-- The parts of a question. -/
def WireQuestion.parts (question : WireQuestion) : List Part :=
  [.name question.name, .plain (toBeBytes 2 question.qtype.toNat ++ toBeBytes 2 question.qclass.toNat)]

/-- The parts of a record. -/
def WireRecord.parts (record : WireRecord) : List Part :=
  [.name record.name,
    .plain (toBeBytes 2 record.rr_type.toNat ++ (toBeBytes 2 record.class_.toNat ++
      (toBeBytes 4 record.ttl.toNat ++ toBeBytes 2 record.data.bytes.length))),
    record.data]

/-- The second word of a header. -/
structure DnsFlags where
  response : Bool
  opcode : BitVec 4
  authoritative : Bool
  truncated : Bool
  recursion_desired : Bool
  recursion_available : Bool
  reserved : BitVec 3
  rcode : BitVec 4
  deriving DecidableEq, Repr

/-- The flags as a number. -/
def DnsFlags.word (flags : DnsFlags) : ℕ :=
  flags.response.toNat * 2^15 + flags.opcode.toNat * 2^11 + flags.authoritative.toNat * 2^10 +
    flags.truncated.toNat * 2^9 + flags.recursion_desired.toNat * 2^8 +
    flags.recursion_available.toNat * 2^7 + flags.reserved.toNat * 2^4 + flags.rcode.toNat

/-- A message as it is written. -/
structure DnsWire where
  transaction_id : BitVec 16
  flags : DnsFlags
  questions : List WireQuestion
  answers : List WireRecord
  authorities : List WireRecord
  additionals : List WireRecord
  deriving DecidableEq, Repr

namespace DnsWire

/-- The parts behind the header. -/
def parts (message : DnsWire) : List Part :=
  message.questions.flatMap WireQuestion.parts ++ (message.answers.flatMap WireRecord.parts ++
    (message.authorities.flatMap WireRecord.parts ++ message.additionals.flatMap WireRecord.parts))

/-- The header: the transaction, the flags and four counts. -/
def header (message : DnsWire) : List UInt8 :=
  toBeBytes 2 message.transaction_id.toNat ++ (toBeBytes 2 message.flags.word ++
    (toBeBytes 2 message.questions.length ++ (toBeBytes 2 message.answers.length ++
      (toBeBytes 2 message.authorities.length ++ toBeBytes 2 message.additionals.length))))

/-- The bytes of a message. -/
def encode (message : DnsWire) : List UInt8 := message.header ++ message.parts.flatMap Part.bytes

/-- The names of a message and what they mean. -/
def table (message : DnsWire) : NameTable := Part.tableAfter [] 12 message.parts

/-- A message can be written: its lists and its data are short enough for the two bytes that count them, its
names are made of labels and point to names before them, and no more than so many pointers lead to the end of
a name. -/
structure Written (message : DnsWire) (max_jumps : ℕ) : Prop where
  questions_lt : message.questions.length < 2^16
  answers_lt : message.answers.length < 2^16
  authorities_lt : message.authorities.length < 2^16
  additionals_lt : message.additionals.length < 2^16
  data_lt : ∀ record ∈ message.answers ++ (message.authorities ++ message.additionals),
    record.data.bytes.length < 2^16
  parts : Part.AllWritten max_jumps [] 12 message.parts

instance (message : DnsWire) (max_jumps : ℕ) : Decidable (message.Written max_jumps) :=
  decidable_of_iff
    ((message.questions.length < 2^16 ∧ message.answers.length < 2^16) ∧
      (message.authorities.length < 2^16 ∧ message.additionals.length < 2^16) ∧
      (∀ record ∈ message.answers ++ (message.authorities ++ message.additionals),
        record.data.bytes.length < 2^16) ∧ Part.AllWritten max_jumps [] 12 message.parts)
    ⟨fun h => ⟨h.1.1, h.1.2, h.2.1.1, h.2.1.2, h.2.2.1, h.2.2.2⟩,
      fun h => ⟨⟨h.questions_lt, h.answers_lt⟩, ⟨h.authorities_lt, h.additionals_lt⟩, h.data_lt, h.parts⟩⟩

end DnsWire

/-! ## The places of names -/

section Places

variable {message rest : List UInt8} {offset : ℕ}

/-- Behind some bytes stands what follows them. -/
theorem drop_behind {before : List UInt8} (h : message.drop offset = before ++ rest) :
    message.drop (offset + before.length) = rest := by
  rw [← List.drop_drop, h, List.drop_left]

/-- The first byte of what stands at an offset. -/
theorem byte_at {byte : UInt8} (h : message.drop offset = byte :: rest) : message[offset]? = some byte := by
  have hget : (message.drop offset)[0]? = message[offset + 0]? := List.getElem?_drop
  rw [h] at hget
  exact hget.symm

/-- Every name of a table stands in the message where the table says, with the meaning that the table gives. -/
def Sound (message : List UInt8) (table : NameTable) : Prop :=
  ∀ entry ∈ table, ∃ finish, NameAt message entry.1 entry.2.labels entry.2.jumps finish

variable {table : NameTable}

/-- What stands after the labels of a name is a name by itself, the root or what the pointer points to. -/
theorem nameAt_ending {name : WireName} {tail : NameMeaning} (hsound : Sound message table)
    (hlegal : name.Legal) (htail : name.tail table = some tail)
    (hdrop : message.drop offset = WireName.ending name.pointer ++ rest) :
    NameAt message offset tail.labels tail.jumps (offset + (WireName.ending name.pointer).length) := by
  unfold WireName.tail at htail
  cases hpointer : name.pointer with
  | none =>
    rw [hpointer] at htail hdrop
    obtain rfl := Option.some.inj htail
    exact NameAt.root (byte_at hdrop)
  | some pointer =>
    rw [hpointer] at htail hdrop
    obtain ⟨meaning, hlookup, rfl⟩ := Option.map_eq_some_iff.mp htail
    have hbytes : message.drop offset =
        UInt8.ofNat (0xc0 + pointer / 256) :: UInt8.ofNat (pointer % 256) :: rest := hdrop
    have hmem : (pointer, meaning) ∈ table := by
      obtain ⟨l₁, l₂, rfl, -⟩ := List.lookup_eq_some_iff.mp hlookup
      simp
    obtain ⟨finish, hat⟩ := hsound _ hmem
    have hsecond : message.drop (offset + [UInt8.ofNat (0xc0 + pointer / 256)].length) =
        UInt8.ofNat (pointer % 256) :: rest := drop_behind hbytes
    exact NameAt.pointer (hlegal.2 pointer hpointer) (byte_at hbytes) (byte_at hsecond) hat

/-- A name begins at each of its labels. -/
theorem nameAt_labels {labels : List (List UInt8)} {tail : NameMeaning} {finish : ℕ}
    (hlabels : ∀ label ∈ labels, IsLabel label)
    (hdrop : message.drop offset = WireName.labelBytes labels ++ rest)
    (htail : NameAt message (offset + (WireName.labelBytes labels).length) tail.labels tail.jumps finish) :
    NameAt message offset (labels ++ tail.labels) tail.jumps finish ∧
      Sound message (WireName.places tail offset labels) := by
  induction labels generalizing offset with
  | nil =>
    refine ⟨htail, fun entry hentry => ?_⟩
    obtain rfl := List.mem_singleton.mp hentry
    exact ⟨finish, htail⟩
  | cons label labels ih =>
    have hbytes : WireName.labelBytes (label :: labels) =
        (UInt8.ofNat label.length :: label) ++ WireName.labelBytes labels := rfl
    have hlong : (UInt8.ofNat label.length :: label).length = 1 + label.length := by
      rw [List.length_cons, Nat.add_comm]
    rw [hbytes, List.append_assoc] at hdrop
    have hafter : message.drop (offset + 1 + label.length) = WireName.labelBytes labels ++ rest := by
      have := drop_behind hdrop
      rwa [hlong, ← Nat.add_assoc] at this
    have hend : offset + (WireName.labelBytes (label :: labels)).length =
        offset + 1 + label.length + (WireName.labelBytes labels).length := by
      rw [hbytes, List.length_append, hlong]
      omega
    rw [hend] at htail
    obtain ⟨hrest, hplaces⟩ := ih (fun l hl => hlabels l (List.mem_cons_of_mem _ hl)) hafter htail
    have htake : (message.drop (offset + 1)).take label.length = label := by
      rw [← List.drop_drop, hdrop]
      simp
    have hname : NameAt message offset (label :: (labels ++ tail.labels)) tail.jumps finish :=
      NameAt.label (hlabels label List.mem_cons_self) (byte_at hdrop) htake hrest
    refine ⟨hname, fun entry hentry => ?_⟩
    rcases List.mem_cons.mp hentry with rfl | hmem
    · exact ⟨finish, hname⟩
    · exact hplaces entry hmem

end Places

end Rustmate.Message
