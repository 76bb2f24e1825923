import Rustmate.Message.DnsInline

/-!
# What a record's data is rendered from

The data of a record is a slice of the message, but a name in it is read from the whole message. The name of
an NS, CNAME, PTR, MX or SRV record may go on behind the slice; only the renderer of an SOA record looks where
its names end. -/

namespace Rustmate.Message

/-- The bytes of a record's data. -/
def rdataAt (message : List UInt8) (rdata_offset rdlen : ℕ) : List UInt8 :=
  (message.drop rdata_offset).take rdlen

/-- A record was read from somewhere in the message: its type, the place of its data and their length are these. -/
def RecordAt (message : List UInt8) (record : DnsResourceRecord) (rr_type : BitVec 16) (rdata_offset : ℕ)
    (rdlen : BitVec 16) : Prop :=
  ∃ start behind, readDnsName message start = .ok (record.name, behind) ∧ readU16At message behind = .ok rr_type ∧
    readU16At message (behind + 8) = .ok rdlen ∧ rdata_offset = behind + 10 ∧
    parseDnsRecord { bytes := message, offset := start } =
      .ok (record, { bytes := message, offset := rdata_offset + rdlen.toNat })

/-- The data are a name and nothing else. -/
def IsNameType (rr_type : BitVec 16) : Prop := rr_type = 2 ∨ rr_type = 5 ∨ rr_type = 12

instance (rr_type : BitVec 16) : Decidable (IsNameType rr_type) :=
  inferInstanceAs (Decidable (rr_type = 2 ∨ rr_type = 5 ∨ rr_type = 12))

/-- The data have a name in them. -/
def HoldsName (rr_type : BitVec 16) : Prop := IsNameType rr_type ∨ rr_type = 15 ∨ rr_type = 33 ∨ rr_type = 6

/-- How many bytes stand before the first name. -/
def nameSkip (rr_type : BitVec 16) : ℕ := if rr_type = 15 then 2 else if rr_type = 33 then 6 else 0

/-- A name that is embedded in the data begins there: the first one, or in an SOA record the one behind it. -/
def NamePlace (message : List UInt8) (rr_type : BitVec 16) (rdata_offset place : ℕ) : Prop :=
  place = rdata_offset + nameSkip rr_type ∨ (rr_type = 6 ∧ ∃ stop, InlinePart message rdata_offset stop place)

/-- The inline part of every embedded name ends inside the data. -/
def EndsInside (message : List UInt8) (rr_type : BitVec 16) (rdata_offset rdlen : ℕ) : Prop :=
  ∀ place, NamePlace message rr_type rdata_offset place →
    ∃ stop finish, InlinePart message place stop finish ∧ finish ≤ rdata_offset + rdlen

/-- Unless they hold all of their names, the data are rendered as hex. -/
def RenderedFromOwn (message : List UInt8) (rr_type : BitVec 16) (rdata_offset rdlen : ℕ) (data : Text) : Prop :=
  ¬ EndsInside message rr_type rdata_offset rdlen → data = formatDnsHex (rdataAt message rdata_offset rdlen)

/-- The data are too short for what stands before the name. -/
def TooShort (rr_type : BitVec 16) (rdlen : ℕ) : Prop := (rr_type = 15 ∧ rdlen < 3) ∨ (rr_type = 33 ∧ rdlen < 7)

instance (rr_type : BitVec 16) (rdlen : ℕ) : Decidable (TooShort rr_type rdlen) :=
  inferInstanceAs (Decidable ((rr_type = 15 ∧ rdlen < 3) ∨ (rr_type = 33 ∧ rdlen < 7)))

/-- No name is found that goes on behind the data: the renderer looks where the names end, or finds the data
too short, or a name that can be followed from there has its inline part in the data, unless its text is by
chance that of the hex. -/
def NoneGoesOn (message : List UInt8) (rr_type : BitVec 16) (rdata_offset rdlen : ℕ) : Prop :=
  rr_type = 6 ∨ TooShort rr_type rdlen ∨
    ∀ labels jumps finish, NamePath message (rdata_offset + nameSkip rr_type) labels jumps finish →
      jumps ≤ maxDnsNameJumps → finish ≤ rdata_offset + rdlen ∨
        (IsNameType rr_type ∧ pathText labels = formatDnsHex (rdataAt message rdata_offset rdlen))

/-- Two messages of one length have the same bytes up to the end of the data, and wherever a pointer in the
data leads. -/
def SameForData (message message' : List UInt8) (rr_type : BitVec 16) (rdata_offset rdlen : ℕ) : Prop :=
  ∀ place, NamePlace message rr_type rdata_offset place →
    Agree message message' place (rdata_offset + rdlen)

/-! ## The records of a message -/

/-- A record that is read stands where its cursor was. -/
theorem recordAt_of_parse {cursor cursor' : DnsCursor} {record : DnsResourceRecord}
    (h : parseDnsRecord cursor = .ok (record, cursor')) :
    cursor'.bytes = cursor.bytes ∧
      ∃ rr_type rdata_offset rdlen, RecordAt cursor.bytes record rr_type rdata_offset rdlen := by
  have hwhole := h
  unfold parseDnsRecord at h
  obtain ⟨⟨name, _⟩, hname_step, h⟩ := bind_eq_ok h
  obtain ⟨behind, hname, rfl⟩ := DnsCursor.readName_eq_ok hname_step
  obtain ⟨⟨rr_type, _⟩, htype_step, h⟩ := bind_eq_ok h
  obtain ⟨htype, rfl⟩ := DnsCursor.readU16_eq_ok htype_step
  obtain ⟨⟨class_, _⟩, hclass_step, h⟩ := bind_eq_ok h
  obtain ⟨hclass, rfl⟩ := DnsCursor.readU16_eq_ok hclass_step
  obtain ⟨⟨ttl, _⟩, httl_step, h⟩ := bind_eq_ok h
  obtain ⟨httl, rfl⟩ := DnsCursor.readU32_eq_ok httl_step
  obtain ⟨⟨rdlen, _⟩, hrdlen_step, h⟩ := bind_eq_ok h
  obtain ⟨hrdlen, rfl⟩ := DnsCursor.readU16_eq_ok hrdlen_step
  obtain ⟨_, hskip_step, h⟩ := bind_eq_ok h
  obtain ⟨hinside, rfl⟩ := DnsCursor.skip_eq_ok hskip_step
  obtain ⟨rfl, rfl⟩ := Prod.mk.inj (Except.ok.inj h)
  exact ⟨rfl, rr_type, behind + 10, rdlen, cursor.offset, behind, hname, htype, hrdlen, rfl, hwhole⟩

/-- What a record's data are. -/
theorem RecordAt.data_eq {message : List UInt8} {record : DnsResourceRecord} {rr_type : BitVec 16}
    {rdata_offset : ℕ} {rdlen : BitVec 16} (h : RecordAt message record rr_type rdata_offset rdlen) :
    rdata_offset + rdlen.toNat ≤ message.length ∧
      record.data = dnsRecordData message rdata_offset rr_type (rdataAt message rdata_offset rdlen.toNat) := by
  obtain ⟨start, behind, hname, htype, hrdlen, rfl, h⟩ := h
  unfold parseDnsRecord at h
  obtain ⟨⟨name, _⟩, hname_step, h⟩ := bind_eq_ok h
  obtain ⟨behind', hname', rfl⟩ := DnsCursor.readName_eq_ok hname_step
  obtain ⟨rfl, rfl⟩ := Prod.mk.inj (Except.ok.inj (hname.symm.trans hname'))
  obtain ⟨⟨rr_type', _⟩, htype_step, h⟩ := bind_eq_ok h
  obtain ⟨htype', rfl⟩ := DnsCursor.readU16_eq_ok htype_step
  obtain rfl := Except.ok.inj (htype.symm.trans htype')
  obtain ⟨⟨class_, _⟩, hclass_step, h⟩ := bind_eq_ok h
  obtain ⟨-, rfl⟩ := DnsCursor.readU16_eq_ok hclass_step
  obtain ⟨⟨ttl, _⟩, httl_step, h⟩ := bind_eq_ok h
  obtain ⟨-, rfl⟩ := DnsCursor.readU32_eq_ok httl_step
  obtain ⟨⟨rdlen', _⟩, hrdlen_step, h⟩ := bind_eq_ok h
  obtain ⟨hrdlen', rfl⟩ := DnsCursor.readU16_eq_ok hrdlen_step
  obtain rfl := Except.ok.inj (hrdlen.symm.trans hrdlen')
  obtain ⟨_, hskip_step, h⟩ := bind_eq_ok h
  obtain ⟨hinside, rfl⟩ := DnsCursor.skip_eq_ok hskip_step
  refine ⟨hinside, ?_⟩
  rw [← (Prod.mk.inj (Except.ok.inj h)).1]
  rfl

/-- The items that a loop stores were read from its message. -/
theorem readItems_read {α : Type} {parse : DnsCursor → Except Text (α × DnsCursor)} {P : α → Prop}
    {message : List UInt8} {max_stored count index : ℕ} {cursor cursor' : DnsCursor} {stored stored' : List α × Bool}
    (hparse : ∀ {cursor item cursor'}, cursor.bytes = message → parse cursor = .ok (item, cursor') →
      cursor'.bytes = message ∧ P item)
    (hbytes : cursor.bytes = message) (hstored : ∀ item ∈ stored.1, P item)
    (h : DnsCursor.readItems parse max_stored count index cursor stored = .ok (stored', cursor')) :
    cursor'.bytes = message ∧ ∀ item ∈ stored'.1, P item := by
  induction count generalizing index cursor stored with
  | zero =>
    obtain ⟨rfl, rfl⟩ := Prod.mk.inj (Except.ok.inj h)
    exact ⟨hbytes, hstored⟩
  | succ count ih =>
    obtain ⟨items, truncated⟩ := stored
    unfold DnsCursor.readItems at h
    obtain ⟨⟨item, next⟩, hstep, h⟩ := bind_eq_ok h
    obtain ⟨hnext, hitem⟩ := hparse hbytes hstep
    refine ih hnext ?_ h
    by_cases hroom : index < max_stored
    · rw [if_pos hroom]
      intro other hother
      rcases List.mem_append.mp hother with hbefore | hnew
      · exact hstored other hbefore
      · rw [List.mem_singleton.mp hnew]
        exact hitem
    · rw [if_neg hroom]
      exact hstored

/-- The records that are read one after the other stand in the message. -/
theorem parseDnsRecords_read {message : List UInt8} {count : ℕ} {cursor cursor' : DnsCursor}
    {stored : List DnsResourceRecord × Bool} (hbytes : cursor.bytes = message)
    (h : parseDnsRecords cursor count = .ok (stored, cursor')) :
    cursor'.bytes = message ∧
      ∀ record ∈ stored.1, ∃ rr_type rdata_offset rdlen, RecordAt message record rr_type rdata_offset rdlen := by
  refine readItems_read ?_ hbytes (fun _ hmem => absurd hmem List.not_mem_nil) h
  rintro cursor record cursor' rfl hread
  exact recordAt_of_parse hread

/-- A question leaves the message as it is. -/
theorem parseDnsQuestion_bytes {cursor cursor' : DnsCursor} {question : DnsQuestion}
    (h : parseDnsQuestion cursor = .ok (question, cursor')) : cursor'.bytes = cursor.bytes := by
  unfold parseDnsQuestion at h
  obtain ⟨⟨name, _⟩, hname_step, h⟩ := bind_eq_ok h
  obtain ⟨behind, hname, rfl⟩ := DnsCursor.readName_eq_ok hname_step
  obtain ⟨⟨qtype, _⟩, htype_step, h⟩ := bind_eq_ok h
  obtain ⟨htype, rfl⟩ := DnsCursor.readU16_eq_ok htype_step
  obtain ⟨⟨qclass, _⟩, hclass_step, h⟩ := bind_eq_ok h
  obtain ⟨hclass, rfl⟩ := DnsCursor.readU16_eq_ok hclass_step
  obtain ⟨-, rfl⟩ := Prod.mk.inj (Except.ok.inj h)
  rfl

/-- Every record of an accepted message stands somewhere in it. -/
theorem recordAt_of_mem {message : List UInt8} {info : DnsMessageInfo} (h : parseDnsMessage message = .ok info) :
    ∀ record ∈ info.answers ++ info.authorities ++ info.additionals,
      ∃ rr_type rdata_offset rdlen, RecordAt message record rr_type rdata_offset rdlen := by
  unfold parseDnsMessage at h
  by_cases hshort : message.length < 12
  · rw [if_pos hshort] at h
    cases h
  rw [if_neg hshort] at h
  -- the header
  obtain ⟨⟨transaction_id, _⟩, hid, h⟩ := bind_eq_ok h
  obtain ⟨-, rfl⟩ := DnsCursor.readU16_eq_ok hid
  obtain ⟨⟨flags, _⟩, hflags, h⟩ := bind_eq_ok h
  obtain ⟨-, rfl⟩ := DnsCursor.readU16_eq_ok hflags
  obtain ⟨⟨question_count, _⟩, hquestions, h⟩ := bind_eq_ok h
  obtain ⟨-, rfl⟩ := DnsCursor.readU16_eq_ok hquestions
  obtain ⟨⟨answer_count, _⟩, hanswers, h⟩ := bind_eq_ok h
  obtain ⟨-, rfl⟩ := DnsCursor.readU16_eq_ok hanswers
  obtain ⟨⟨authority_count, _⟩, hauthorities, h⟩ := bind_eq_ok h
  obtain ⟨-, rfl⟩ := DnsCursor.readU16_eq_ok hauthorities
  obtain ⟨⟨additional_count, _⟩, hadditionals, h⟩ := bind_eq_ok h
  obtain ⟨-, rfl⟩ := DnsCursor.readU16_eq_ok hadditionals
  -- the four lists, each behind the one before
  obtain ⟨⟨⟨questions, _⟩, _⟩, hread, h⟩ := bind_eq_ok h
  obtain ⟨hbytes, -⟩ := readItems_read (P := fun _ => True)
    (fun hbytes hquestion => ⟨(parseDnsQuestion_bytes hquestion).trans hbytes, trivial⟩) rfl
    (fun _ _ => trivial) hread
  obtain ⟨⟨⟨answers, _⟩, _⟩, hread, h⟩ := bind_eq_ok h
  obtain ⟨hbytes, hanswers⟩ := parseDnsRecords_read hbytes hread
  obtain ⟨⟨⟨authorities, _⟩, _⟩, hread, h⟩ := bind_eq_ok h
  obtain ⟨hbytes, hauthorities⟩ := parseDnsRecords_read hbytes hread
  obtain ⟨⟨⟨additionals, _⟩, _⟩, hread, h⟩ := bind_eq_ok h
  obtain ⟨-, hadditionals⟩ := parseDnsRecords_read hbytes hread
  obtain rfl := Except.ok.inj h
  intro record hrecord
  rcases List.mem_append.mp hrecord with hrecord | hrecord
  · rcases List.mem_append.mp hrecord with hrecord | hrecord
    · exact hanswers record hrecord
    · exact hauthorities record hrecord
  · exact hadditionals record hrecord

/-! ## What the renderers do with a name -/

/-- A number of the data. -/
def dataU16 (rdata : List UInt8) (offset : ℕ) : ℕ :=
  (BitVec.ofNat 16 (Digits.fromBeBytes ((rdata.drop offset).take 2))).toNat

/-- The text of data with this name. -/
def namedText (rr_type : BitVec 16) (rdata : List UInt8) (name : Text) : Text :=
  if rr_type = 15 then Nat.toDigits 10 (dataU16 rdata 0) ++ [' '] ++ name
  else if rr_type = 33 then
    [' '].intercalate
      [Nat.toDigits 10 (dataU16 rdata 0), Nat.toDigits 10 (dataU16 rdata 2), Nat.toDigits 10 (dataU16 rdata 4), name]
  else name

/-- A number that is there is read. -/
theorem readU16At_toOption {rdata : List UInt8} {offset : ℕ} (h : offset + 2 ≤ rdata.length) :
    (readU16At rdata offset).toOption = some (BitVec.ofNat 16 (Digits.fromBeBytes ((rdata.drop offset).take 2))) := by
  unfold readU16At
  rw [if_neg (by omega)]
  rfl

/-- Five of the renderers read one name, and where there is none they give the hex. -/
theorem dnsRecordData_named {message : List UInt8} {rr_type : BitVec 16} {rdata_offset : ℕ} {rdata : List UInt8}
    (htype : IsNameType rr_type ∨ rr_type = 15 ∨ rr_type = 33) :
    dnsRecordData message rdata_offset rr_type rdata =
      if TooShort rr_type rdata.length then formatDnsHex rdata
      else
        ((readDnsName message (rdata_offset + nameSkip rr_type)).toOption.map fun result =>
          namedText rr_type rdata result.1).getD (formatDnsHex rdata) := by
  rcases htype with hname | rfl | rfl
  · -- the name alone
    have hlong : ¬ TooShort rr_type rdata.length := by
      rintro (⟨rfl, -⟩ | ⟨rfl, -⟩)
      · exact absurd hname (by decide)
      · exact absurd hname (by decide)
    rw [if_neg hlong]
    rcases hname with rfl | rfl | rfl
    · rfl
    · rfl
    · rfl
  · by_cases hshort : rdata.length < 3
    · have hdata : dnsMxData message rdata_offset rdata = none := by
        unfold dnsMxData
        rw [if_pos hshort]
      rw [if_pos (.inl ⟨rfl, hshort⟩)]
      change (dnsMxData message rdata_offset rdata).getD _ = _
      rw [hdata]
      rfl
    · have hlong : ¬ TooShort 15 rdata.length := by
        rintro (⟨-, h⟩ | ⟨h, -⟩)
        · exact hshort h
        · exact absurd h (by decide)
      rw [if_neg hlong]
      change (dnsMxData message rdata_offset rdata).getD _ = _
      unfold dnsMxData
      rw [if_neg hshort, readU16At_toOption (by omega)]
      change _ = ((readDnsName message (rdata_offset + 2)).toOption.map _).getD _
      cases (readDnsName message (rdata_offset + 2)).toOption with
      | none => rfl
      | some name => rfl
  · by_cases hshort : rdata.length < 7
    · have hdata : dnsSrvData message rdata_offset rdata = none := by
        unfold dnsSrvData
        rw [if_pos hshort]
      rw [if_pos (.inr ⟨rfl, hshort⟩)]
      change (dnsSrvData message rdata_offset rdata).getD _ = _
      rw [hdata]
      rfl
    · have hlong : ¬ TooShort 33 rdata.length := by
        rintro (⟨h, -⟩ | ⟨-, h⟩)
        · exact absurd h (by decide)
        · exact hshort h
      rw [if_neg hlong]
      change (dnsSrvData message rdata_offset rdata).getD _ = _
      unfold dnsSrvData
      rw [if_neg hshort, readU16At_toOption (by omega), readU16At_toOption (by omega),
        readU16At_toOption (by omega)]
      change _ = ((readDnsName message (rdata_offset + 6)).toOption.map _).getD _
      cases (readDnsName message (rdata_offset + 6)).toOption with
      | none => rfl
      | some name => rfl

/-- The hex of any bytes has no space in it. -/
theorem formatDnsHex_no_space (bytes : List UInt8) : ' ' ∉ formatDnsHex bytes := by
  have hdigit : ∀ n < 16, Events.hexDigit n ≠ ' ' := by decide
  intro hmem
  obtain ⟨byte, -, hbyte⟩ := List.mem_flatMap.mp hmem
  have hbound : byte.toNat < 256 := byte.toNat_lt
  rcases List.mem_cons.mp hbyte with hhigh | hlow
  · exact hdigit (byte.toNat / 16) (by omega) hhigh.symm
  · exact hdigit (byte.toNat % 16) (by omega) (List.mem_singleton.mp hlow).symm

/-- The text of data with a name is the hex of the data only where the name stands alone, and is that hex
itself. -/
theorem namedText_eq_hex_iff {rr_type : BitVec 16} {rdata : List UInt8} {name : Text}
    (htype : IsNameType rr_type ∨ rr_type = 15 ∨ rr_type = 33) :
    namedText rr_type rdata name = formatDnsHex rdata ↔ IsNameType rr_type ∧ name = formatDnsHex rdata := by
  rcases htype with hname | rfl | rfl
  · have hmx : rr_type ≠ 15 := by
      rintro rfl
      exact absurd hname (by decide)
    have hsrv : rr_type ≠ 33 := by
      rintro rfl
      exact absurd hname (by decide)
    unfold namedText
    rw [if_neg hmx, if_neg hsrv]
    exact ⟨fun h => ⟨hname, h⟩, fun h => h.2⟩
  · constructor
    · intro h
      have hspace : ' ' ∈ namedText 15 rdata name := by simp [namedText]
      exact absurd (h ▸ hspace) (formatDnsHex_no_space rdata)
    · exact fun h => absurd h.1 (by decide)
  · constructor
    · intro h
      have hspace : ' ' ∈ namedText 33 rdata name := by simp [namedText, List.intercalate]
      exact absurd (h ▸ hspace) (formatDnsHex_no_space rdata)
    · exact fun h => absurd h.1 (by decide)

/-- The renderer of an SOA record returns a text only where both of its names end inside the data. -/
theorem dnsSoaData_eq_some {message : List UInt8} {rdata_offset : ℕ} {rdata : List UInt8} {text : Text}
    (h : dnsSoaData message rdata_offset rdata = some text) :
    ∃ stop middle stop' finish, InlinePart message rdata_offset stop middle ∧
      InlinePart message middle stop' finish ∧ finish + 20 ≤ rdata_offset + rdata.length := by
  unfold dnsSoaData at h
  cases hm : readDnsName message rdata_offset with
  | error error =>
    rw [hm] at h
    cases h
  | ok mname =>
    obtain ⟨mname, middle⟩ := mname
    rw [hm] at h
    cases hr : readDnsName message middle with
    | error error =>
      change ((readDnsName message middle).toOption >>= _) = _ at h
      rw [hr] at h
      cases h
    | ok rname =>
      obtain ⟨rname, finish⟩ := rname
      change ((readDnsName message middle).toOption >>= _) = _ at h
      rw [hr] at h
      change (if (decide (finish < rdata_offset) || decide (rdata.length < finish - rdata_offset + 20)) = true
        then none else _) = some text at h
      by_cases hshort : (decide (finish < rdata_offset) || decide (rdata.length < finish - rdata_offset + 20)) = true
      · rw [if_pos hshort] at h
        cases h
      · simp only [Bool.or_eq_true, decide_eq_true_eq, not_or, not_lt] at hshort
        obtain ⟨labels, jumps, hpath, -, -⟩ := readDnsName_eq_ok_iff.mp hm
        obtain ⟨stop, hpart⟩ := hpath.inline
        obtain ⟨labels', jumps', hpath', -, -⟩ := readDnsName_eq_ok_iff.mp hr
        obtain ⟨stop', hpart'⟩ := hpath'.inline
        exact ⟨stop, middle, stop', finish, hpart, hpart', by omega⟩

/-- The one name of a record that is no SOA record. -/
theorem endsInside_iff {message : List UInt8} {rr_type : BitVec 16} {rdata_offset rdlen : ℕ} (htype : rr_type ≠ 6) :
    EndsInside message rr_type rdata_offset rdlen ↔
      ∃ stop finish, InlinePart message (rdata_offset + nameSkip rr_type) stop finish ∧
        finish ≤ rdata_offset + rdlen := by
  constructor
  · exact fun h => h _ (.inl rfl)
  · rintro h place (rfl | ⟨rfl, -⟩)
    · exact h
    · exact absurd rfl htype

/-- The data of a record are rendered from its own bytes exactly when no name is found that goes on behind them. -/
theorem renderedFromOwn_iff {message : List UInt8} {rr_type : BitVec 16} {rdata_offset rdlen : ℕ}
    (hinside : rdata_offset + rdlen ≤ message.length) (htype : HoldsName rr_type) :
    RenderedFromOwn message rr_type rdata_offset rdlen
        (dnsRecordData message rdata_offset rr_type (rdataAt message rdata_offset rdlen)) ↔
      NoneGoesOn message rr_type rdata_offset rdlen := by
  have hlength : (rdataAt message rdata_offset rdlen).length = rdlen := by
    unfold rdataAt
    rw [List.length_take, List.length_drop]
    omega
  by_cases hsoa : rr_type = 6
  · -- the renderer of an SOA record looks where the names end
    subst hsoa
    refine ⟨fun _ => .inl rfl, fun _ houtside => ?_⟩
    cases hdata : dnsSoaData message rdata_offset (rdataAt message rdata_offset rdlen) with
    | none =>
      change (dnsSoaData message rdata_offset (rdataAt message rdata_offset rdlen)).getD _ = _
      rw [hdata]
      rfl
    | some text =>
      obtain ⟨stop, middle, stop', finish, hpart, hpart', hfinish⟩ := dnsSoaData_eq_some hdata
      rw [hlength] at hfinish
      have hmiddle := hpart'.lt
      refine absurd ?_ houtside
      rintro place (rfl | ⟨-, stop'', hplace⟩)
      · exact ⟨stop, middle, hpart, by omega⟩
      · obtain ⟨-, rfl⟩ := hpart.unique hplace
        exact ⟨stop', finish, hpart', by omega⟩
  · have hnamed : IsNameType rr_type ∨ rr_type = 15 ∨ rr_type = 33 := by
      rcases htype with hname | hmx | hsrv | hsoa'
      · exact .inl hname
      · exact .inr (.inl hmx)
      · exact .inr (.inr hsrv)
      · exact absurd hsoa' hsoa
    unfold RenderedFromOwn
    rw [endsInside_iff hsoa, dnsRecordData_named hnamed, hlength]
    by_cases hshort : TooShort rr_type rdlen
    · rw [if_pos hshort]
      exact ⟨fun _ => .inr (.inl hshort), fun _ _ => rfl⟩
    rw [if_neg hshort]
    constructor
    · intro hown
      refine .inr (.inr fun labels jumps finish hpath hjumps => ?_)
      by_contra hbehind
      obtain ⟨hlate, hother⟩ := not_or.mp hbehind
      -- the name is found, so its text would have to be the hex
      have hread := readDnsName_eq_ok_iff.mpr ⟨labels, jumps, hpath, hjumps, rfl⟩
      obtain ⟨stop, hpart⟩ := hpath.inline
      have hhex := hown (by
        rintro ⟨stop', finish', hpart', hfinish'⟩
        obtain ⟨-, rfl⟩ := hpart.unique hpart'
        exact hlate hfinish')
      rw [hread] at hhex
      exact hother ((namedText_eq_hex_iff hnamed).mp hhex)
    · rintro (h | h | hnone) houtside
      · exact absurd h hsoa
      · exact absurd h hshort
      · cases hread : readDnsName message (rdata_offset + nameSkip rr_type) with
        | error error => rfl
        | ok result =>
          obtain ⟨name, finish⟩ := result
          obtain ⟨labels, jumps, hpath, hjumps, rfl⟩ := readDnsName_eq_ok_iff.mp hread
          rcases hnone labels jumps finish hpath hjumps with hearly | ⟨htype', htext⟩
          · obtain ⟨stop, hpart⟩ := hpath.inline
            exact absurd ⟨stop, finish, hpart, hearly⟩ houtside
          · exact (namedText_eq_hex_iff hnamed).mpr ⟨htype', htext⟩

/-! ## Two messages -/

section

variable {message message' : List UInt8} {rr_type : BitVec 16} {rdata_offset rdlen : ℕ}

/-- Where the names end is a matter of the bytes up to the end of the data. -/
theorem EndsInside.congr (h : EndsInside message rr_type rdata_offset rdlen)
    (hbelow : ∀ i < rdata_offset + rdlen, message[i]? = message'[i]?) :
    EndsInside message' rr_type rdata_offset rdlen := by
  have hbelow' : ∀ i < rdata_offset + rdlen, message'[i]? = message[i]? := fun i hi => (hbelow i hi).symm
  have hback : ∀ place, NamePlace message rr_type rdata_offset place →
      ∃ stop finish, InlinePart message' place stop finish ∧ finish ≤ rdata_offset + rdlen := by
    intro place hplace
    obtain ⟨stop, finish, hpart, hfinish⟩ := h place hplace
    exact ⟨stop, finish, hpart.congr hbelow hfinish, hfinish⟩
  rintro place (rfl | ⟨rfl, stop, hpart⟩)
  · exact hback _ (.inl rfl)
  · -- the second name begins where the first one ends in the other message too
    obtain ⟨stop', middle, hpart', hmiddle⟩ := hback _ (.inl rfl)
    obtain ⟨-, rfl⟩ := hpart.unique hpart'
    exact hback _ (.inr ⟨rfl, stop, hpart.congr hbelow' hmiddle⟩)

/-- The bytes of the data are the same. -/
theorem SameForData.rdata_eq (h : SameForData message message' rr_type rdata_offset rdlen) :
    rdataAt message rdata_offset rdlen = rdataAt message' rdata_offset rdlen :=
  drop_take_congr fun i _ hi => (h _ (.inl rfl)).below i hi

/-- Where all names end inside the data, both messages give the same text. -/
theorem SameForData.data_eq (h : SameForData message message' rr_type rdata_offset rdlen)
    (hinside : rdata_offset + rdlen ≤ message.length) (htype : HoldsName rr_type)
    (hends : EndsInside message rr_type rdata_offset rdlen) :
    dnsRecordData message rdata_offset rr_type (rdataAt message rdata_offset rdlen) =
      dnsRecordData message' rdata_offset rr_type (rdataAt message' rdata_offset rdlen) := by
  rw [← h.rdata_eq]
  by_cases hsoa : rr_type = 6
  · subst hsoa
    change (dnsSoaData message rdata_offset _).getD _ = (dnsSoaData message' rdata_offset _).getD _
    have hlength : (rdataAt message rdata_offset rdlen).length = rdlen := by
      unfold rdataAt
      rw [List.length_take, List.length_drop]
      omega
    obtain ⟨stop, middle, hpart, hmiddle⟩ := hends _ (.inl rfl)
    obtain ⟨stop', finish, hpart', hfinish⟩ := hends _ (.inr ⟨rfl, stop, hpart⟩)
    have hfirst : (readDnsName message rdata_offset).toOption = (readDnsName message' rdata_offset).toOption :=
      readDnsName_agree (h _ (.inl rfl)) hpart hmiddle
    have hsecond := readDnsName_agree (h _ (.inr ⟨rfl, stop, hpart⟩)) hpart' hfinish
    congr 1
    unfold dnsSoaData
    rw [← hfirst]
    cases hm : readDnsName message rdata_offset with
    | error error => rfl
    | ok mname =>
      obtain ⟨mname, after_mname⟩ := mname
      obtain ⟨labels, jumps, hpath, -, -⟩ := readDnsName_eq_ok_iff.mp hm
      obtain ⟨stop'', hpart''⟩ := hpath.inline
      obtain ⟨-, rfl⟩ := hpart''.unique hpart
      change ((readDnsName message after_mname).toOption >>= _) = ((readDnsName message' after_mname).toOption >>= _)
      rw [← hsecond]
      cases hr : readDnsName message after_mname with
      | error error => rfl
      | ok rname =>
        obtain ⟨rname, after_rname⟩ := rname
        change (if _ then none else ((readU32At message after_rname).toOption >>= _)) =
          (if _ then none else ((readU32At message' after_rname).toOption >>= _))
        by_cases hshort :
            (decide (after_rname < rdata_offset) ||
              decide ((rdataAt message rdata_offset rdlen).length < after_rname - rdata_offset + 20)) = true
        · rw [if_pos hshort, if_pos hshort]
        · -- the serial stands inside the data
          rw [if_neg hshort, if_neg hshort]
          simp only [Bool.or_eq_true, decide_eq_true_eq, not_or, not_lt, hlength] at hshort
          have hserial : readU32At message after_rname = readU32At message' after_rname := by
            unfold readU32At
            rw [(h _ (.inl rfl)).length_eq,
              drop_take_congr fun i _ hi => (h _ (.inl rfl)).below i (by omega)]
          rw [hserial]
  · have hnamed : IsNameType rr_type ∨ rr_type = 15 ∨ rr_type = 33 := by
      rcases htype with hname | hmx | hsrv | hsoa'
      · exact .inl hname
      · exact .inr (.inl hmx)
      · exact .inr (.inr hsrv)
      · exact absurd hsoa' hsoa
    obtain ⟨stop, finish, hpart, hfinish⟩ := hends _ (.inl rfl)
    rw [dnsRecordData_named hnamed, dnsRecordData_named hnamed,
      readDnsName_agree (h _ (.inl rfl)) hpart hfinish]

/-- Two messages in which no name goes on behind the data give the same text, if they have the same bytes in
the data and wherever a pointer in the data leads. -/
theorem SameForData.data_eq_of_noneGoesOn (h : SameForData message message' rr_type rdata_offset rdlen)
    (hinside : rdata_offset + rdlen ≤ message.length) (htype : HoldsName rr_type)
    (hnone : NoneGoesOn message rr_type rdata_offset rdlen)
    (hnone' : NoneGoesOn message' rr_type rdata_offset rdlen) :
    dnsRecordData message rdata_offset rr_type (rdataAt message rdata_offset rdlen) =
      dnsRecordData message' rdata_offset rr_type (rdataAt message' rdata_offset rdlen) := by
  have hagree := h _ (.inl rfl)
  by_cases hends : EndsInside message rr_type rdata_offset rdlen
  · exact h.data_eq hinside htype hends
  · have hends' : ¬ EndsInside message' rr_type rdata_offset rdlen := fun hends' =>
      hends (hends'.congr fun i hi => (hagree.below i hi).symm)
    have hinside' : rdata_offset + rdlen ≤ message'.length := hagree.length_eq ▸ hinside
    have hhex := (renderedFromOwn_iff hinside htype).mpr hnone hends
    have hhex' := (renderedFromOwn_iff hinside' htype).mpr hnone' hends'
    rw [hhex, hhex', h.rdata_eq]

end

/-- Every record of an accepted message stands somewhere in it. One with a name in its data is rendered from
its own data exactly when no name is found that goes on behind them; and two such messages, the same in the
data and wherever a pointer in the data leads, give it the same text. -/
theorem dnsRecord_renderedFromOwn_iff {message : List UInt8} {info : DnsMessageInfo}
    (hparse : parseDnsMessage message = .ok info) :
    (∀ record ∈ info.answers ++ info.authorities ++ info.additionals,
      ∃ rr_type rdata_offset rdlen, RecordAt message record rr_type rdata_offset rdlen) ∧
    ∀ record rr_type rdata_offset rdlen, RecordAt message record rr_type rdata_offset rdlen → HoldsName rr_type →
      (RenderedFromOwn message rr_type rdata_offset rdlen.toNat record.data ↔
        NoneGoesOn message rr_type rdata_offset rdlen.toNat) ∧
      ∀ message' record', RecordAt message' record' rr_type rdata_offset rdlen →
        SameForData message message' rr_type rdata_offset rdlen.toNat →
        NoneGoesOn message rr_type rdata_offset rdlen.toNat → NoneGoesOn message' rr_type rdata_offset rdlen.toNat →
        record'.data = record.data := by
  refine ⟨recordAt_of_mem hparse, fun record rr_type rdata_offset rdlen hrecord htype => ?_⟩
  obtain ⟨hinside, hdata⟩ := hrecord.data_eq
  rw [hdata]
  refine ⟨renderedFromOwn_iff hinside htype, fun message' record' hrecord' hsame hnone hnone' => ?_⟩
  rw [hrecord'.data_eq.2]
  exact (hsame.data_eq_of_noneGoesOn hinside htype hnone hnone').symm

/-- A response with a name server whose data are empty, and the address of the name `a`. -/
def emptyNameServer : List UInt8 :=
  [0, 0, 0x80, 0, 0, 0, 0, 1, 0, 0, 0, 1] ++ [0, 0, 2, 0, 1, 0, 0, 0, 0, 0, 0] ++
    [1, 97, 0, 0, 1, 0, 1, 0, 0, 0, 0, 0, 4, 1, 2, 3, 4]

/-- What is read from it. -/
def emptyNameServerInfo : DnsMessageInfo where
  transaction_id := 0
  opcode := 0
  rcode := 0
  query := false
  authoritative := false
  truncated := false
  recursion_desired := false
  recursion_available := false
  questions := []
  answers := [⟨".".toList, "NS".toList, "IN".toList, 0, "a".toList⟩]
  authorities := []
  additionals := [⟨"a".toList, "A".toList, "IN".toList, 0, "1.2.3.4".toList⟩]
  questions_truncated := false
  records_truncated := false

theorem dnsRecord_renderedFromOwn_iff_sample :
    parseDnsMessage emptyNameServer = .ok emptyNameServerInfo ∧
      (RenderedFromOwn emptyNameServer 2 23 0 "a".toList ↔ NoneGoesOn emptyNameServer 2 23 0) :=
  have hparse : parseDnsMessage emptyNameServer = .ok emptyNameServerInfo := by decide +kernel
  have hat : RecordAt emptyNameServer ⟨".".toList, "NS".toList, "IN".toList, 0, "a".toList⟩ 2 23 0 :=
    ⟨12, 13, by decide +kernel, by decide +kernel, by decide +kernel, by decide +kernel, by decide +kernel⟩
  ⟨hparse, ((dnsRecord_renderedFromOwn_iff hparse).2 _ 2 23 0 hat (.inl (.inl rfl))).1⟩

/-- The name of the empty data is that of the next record. -/
theorem not_renderedFromOwn_emptyNameServer :
    ¬ ∀ message info, parseDnsMessage message = .ok info →
      ∀ record ∈ info.answers ++ info.authorities ++ info.additionals, ∀ rr_type rdata_offset rdlen,
        RecordAt message record rr_type rdata_offset rdlen → HoldsName rr_type →
          RenderedFromOwn message rr_type rdata_offset rdlen.toNat record.data := by
  intro h
  have hparse : parseDnsMessage emptyNameServer = .ok emptyNameServerInfo := by decide +kernel
  have hat : RecordAt emptyNameServer ⟨".".toList, "NS".toList, "IN".toList, 0, "a".toList⟩ 2 23 0 :=
    ⟨12, 13, by decide +kernel, by decide +kernel, by decide +kernel, by decide +kernel, by decide +kernel⟩
  have hown := h _ _ hparse _ (by decide +kernel) 2 23 0 hat (.inl (.inl rfl))
  have hout : ¬ EndsInside emptyNameServer 2 23 0 := by
    intro hends
    obtain ⟨stop, finish, hpart, hfinish⟩ := hends _ (.inl rfl)
    have hbehind := hpart.lt
    change 23 + 0 < finish at hbehind
    omega
  exact absurd (hown hout) (by decide +kernel)

end Rustmate.Message
