import Rustmate.Message.DnsPath
import Rustmate.Message.Lines

/-!
# Names in DNS messages

What it means that a name stands at some place of a message: its labels one after the other, up to the root or to a
pointer at another place where a name stands. `read_dns_name` reads every such name, as long as it takes no more
than `maxDnsNameJumps` pointers to come to the root.
-/

namespace Rustmate.Message

/-- A label: one to 63 bytes of ASCII, none of them a dot. -/
structure IsLabel (label : List UInt8) : Prop where
  pos : 1 ≤ label.length
  le : label.length ≤ 63
  ascii : ∀ byte ∈ label, byte < 128 ∧ byte ≠ 46

instance (label : List UInt8) : Decidable (IsLabel label) :=
  decidable_of_iff
    ((1 ≤ label.length ∧ label.length ≤ 63) ∧
      label.all (fun byte => decide (byte < 128) && decide (byte ≠ 46)) = true)
    ⟨fun h => ⟨h.1.1, h.1.2, by simpa using h.2⟩, fun h => ⟨⟨h.pos, h.le⟩, by simpa using h.ascii⟩⟩

/-- The text of a label. -/
def labelText (label : List UInt8) : Text := label.map fun byte => Char.ofNat byte.toNat

/-- The text of a name. -/
def nameText (labels : List (List UInt8)) : Text := joinLabels (labels.map labelText)

/-- Bytes of ASCII are read as the characters that they are. -/
theorem fromUtf8Lossy_label {label : List UInt8} (h : ∀ byte ∈ label, byte < 128) :
    fromUtf8Lossy label = labelText label := by
  have hchar : ∀ n < 128, String.utf8EncodeChar (Char.ofNat n) = [UInt8.ofNat n] := by decide +kernel
  have hbytes : utf8 (labelText label) = label := by
    unfold utf8 labelText
    rw [List.flatMap_map]
    induction label with
    | nil => rfl
    | cons byte label ih =>
      have hsmall : byte.toNat < 128 := h byte List.mem_cons_self
      rw [List.flatMap_cons, hchar _ hsmall, ih fun byte hbyte => h byte (List.mem_cons_of_mem _ hbyte),
        UInt8.ofNat_toNat, List.singleton_append]
  calc fromUtf8Lossy label = fromUtf8Lossy (utf8 (labelText label)) := by rw [hbytes]
    _ = labelText label := fromUtf8Lossy_utf8 _

/-- A name stands at an offset: its labels, how many pointers lead to its end, and the offset behind it. -/
inductive NameAt (message : List UInt8) : ℕ → List (List UInt8) → ℕ → ℕ → Prop
  | root {offset : ℕ} (hbyte : message[offset]? = some 0) : NameAt message offset [] 0 (offset + 1)
  | label {offset jumps finish : ℕ} {label : List UInt8} {labels : List (List UInt8)} (hlabel : IsLabel label)
      (hbyte : message[offset]? = some (UInt8.ofNat label.length))
      (hbytes : (message.drop (offset + 1)).take label.length = label)
      (hrest : NameAt message (offset + 1 + label.length) labels jumps finish) :
      NameAt message offset (label :: labels) jumps finish
  | pointer {offset pointer jumps finish : ℕ} {labels : List (List UInt8)} (hpointer : pointer < 2^14)
      (hbyte : message[offset]? = some (UInt8.ofNat (0xc0 + pointer / 256)))
      (hbyte' : message[offset + 1]? = some (UInt8.ofNat (pointer % 256)))
      (hrest : NameAt message pointer labels jumps finish) :
      NameAt message offset labels (jumps + 1) (offset + 2)

variable {message : List UInt8} {offset jumps finish : ℕ} {labels : List (List UInt8)}

/-- A name stands within the message. -/
theorem NameAt.lt (h : NameAt message offset labels jumps finish) : offset < message.length := by
  cases h with
  | root hbyte => exact (List.getElem?_eq_some_iff.mp hbyte).1
  | label _ hbyte _ _ => exact (List.getElem?_eq_some_iff.mp hbyte).1
  | pointer _ hbyte _ _ => exact (List.getElem?_eq_some_iff.mp hbyte).1

/-- A name that stands at an offset can be followed from there. -/
theorem NameAt.path (h : NameAt message offset labels jumps finish) :
    NamePath message offset labels jumps finish := by
  induction h with
  | root hbyte => exact .root hbyte
  | @label offset jumps finish label labels hlabel hbyte hbytes hrest ih =>
    have hinside := hrest.lt
    have hlen : (UInt8.ofNat label.length).toNat = label.length := by
      have := hlabel.le
      rw [UInt8.toNat_ofNat']
      omega
    have hpath := NamePath.label hbyte (by rw [hlen]; exact hlabel.pos) (by rw [hlen]; exact hlabel.le)
      (by rw [hlen]; omega) (by rw [hlen]; exact ih)
    rwa [hlen, hbytes] at hpath
  | @pointer offset pointer jumps finish labels hpointer hbyte hbyte' hrest ih =>
    have hinside := hrest.lt
    have hhigh : (UInt8.ofNat (0xc0 + pointer / 256)).toNat = 192 + pointer / 256 := by
      rw [UInt8.toNat_ofNat']
      omega
    have hlow : (UInt8.ofNat (pointer % 256)).toNat = pointer % 256 := by
      rw [UInt8.toNat_ofNat']
      omega
    have htarget : (UInt8.ofNat (0xc0 + pointer / 256)).toNat % 64 * 256 + (UInt8.ofNat (pointer % 256)).toNat =
        pointer := by
      rw [hhigh, hlow]
      omega
    exact .pointer hbyte (by rw [hhigh]; omega) hbyte' (by rwa [htarget]) (by rwa [htarget])

/-- The labels of a name that stands in a message are labels. -/
theorem NameAt.isLabel (h : NameAt message offset labels jumps finish) : ∀ label ∈ labels, IsLabel label := by
  induction h with
  | root hbyte => exact List.forall_mem_nil _
  | label hlabel hbyte hbytes hrest ih => exact List.forall_mem_cons.mpr ⟨hlabel, ih⟩
  | pointer hpointer hbyte hbyte' hrest ih => exact ih

/-- A name that stands in a message is read, with the offset behind it. -/
theorem readDnsName_of_nameAt (h : NameAt message offset labels jumps finish)
    (hjumps : jumps ≤ maxDnsNameJumps) :
    readDnsName message offset = .ok (nameText labels, finish) := by
  have htext : nameText labels = pathText labels := by
    unfold nameText pathText
    congr 1
    refine List.map_congr_left fun label hlabel => ?_
    exact (fromUtf8Lossy_label fun byte hbyte => ((h.isLabel label hlabel).ascii byte hbyte).1).symm
  exact readDnsName_eq_ok_iff.mpr ⟨labels, jumps, h.path, hjumps, htext⟩

end Rustmate.Message
