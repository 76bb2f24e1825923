import Rustmate.Message.HttpHead

/-!
# Headers that are not stored

`parse_http1_head` stores `maxStoredHttpHeaders` headers and looks up what frames the body in what it stored.
So a header line counts only as far as it is among the first ones of the head: behind enough other lines, a
`Transfer-Encoding` or a `Content-Length` is not seen. `InTime` says which heads are read as if all of their
headers had been stored.
-/

namespace Rustmate.Message

/-! ## The first of some items -/

section Find

variable {α : Type} {p : α → Bool} {l : List α} {n : ℕ}

/-- What is found first is found in the first items as well, if it stands there. -/
theorem find?_take_of_findIdx? (h : ∀ i, l.findIdx? p = some i → i < n) :
    (l.take n).find? p = l.find? p := by
  induction l generalizing n with
  | nil => simp
  | cons a l ih =>
    cases hp : p a with
    | true =>
      have hn : 0 < n := h 0 (by simp [List.findIdx?_cons, hp])
      obtain ⟨n, rfl⟩ := Nat.exists_eq_succ_of_ne_zero hn.ne'
      simp [hp]
    | false =>
      cases n with
      | zero =>
        have hnone : l.findIdx? p = none := by
          by_contra hsome
          obtain ⟨i, hi⟩ := Option.ne_none_iff_exists'.mp hsome
          have := h (i + 1) (by simp [List.findIdx?_cons, hp, hi])
          omega
        have hall : l.find? p = none := by
          rw [List.find?_eq_none]
          intro x hx
          rw [List.findIdx?_eq_none_iff.mp hnone x hx]
          exact Bool.false_ne_true
        simp [hp, hall]
      | succ n =>
        have hrest : (l.take n).find? p = l.find? p := by
          refine ih fun i hi => ?_
          have := h (i + 1) (by simp [List.findIdx?_cons, hp, hi])
          omega
        simpa [hp] using hrest

/-- What stands behind the first items is not found in them. -/
theorem find?_take_of_le {i : ℕ} (h : l.findIdx? p = some i) (hle : n ≤ i) :
    (l.take n).find? p = none := by
  obtain ⟨hlt, -, hbefore⟩ := List.findIdx?_eq_some_iff_getElem.mp h
  rw [List.find?_eq_none]
  intro a ha
  obtain ⟨j, hj, rfl⟩ := List.mem_iff_getElem.mp ha
  rw [List.length_take] at hj
  rw [List.getElem_take]
  exact hbefore j (by omega)

end Find

/-! ## All header lines of a head -/

/-- The header of a line, if the line has one. -/
def headerOf (line : Text) : Option Http1Header :=
  (splitOnce ':' (trimLine line)).map fun (name, value) =>
    ⟨toAsciiLowercase (trim name), trim value⟩

/-- The headers of a head, whether they are stored or not. -/
def allHeaders (header : List UInt8) : List Http1Header :=
  ((fromUtf8Lossy header).splitOn '\n').tail.filterMap headerOf

/-- The first headers are stored, and whether there are more is noted. -/
theorem foldl_headerStep_eq (lines : List Text) (before : List Http1Header) (truncated : Bool)
    (hroom : before.length ≤ maxStoredHttpHeaders) :
    lines.foldl headerStep (before, truncated) =
      ((before ++ lines.filterMap headerOf).take maxStoredHttpHeaders,
        truncated || decide (maxStoredHttpHeaders < (before ++ lines.filterMap headerOf).length)) := by
  induction lines generalizing before truncated with
  | nil =>
    have hfull : ¬ maxStoredHttpHeaders < before.length := by omega
    simp [List.take_of_length_le hroom, hfull]
  | cons line lines ih =>
    rw [List.foldl_cons]
    cases hsplit : splitOnce ':' (trimLine line) with
    | none =>
      -- The line is no header line.
      have hnone : headerOf line = none := by simp [headerOf, hsplit]
      have hstep : headerStep (before, truncated) line = (before, truncated) := by
        simp [headerStep, hsplit]
      rw [List.filterMap_cons_none hnone, hstep]
      exact ih before truncated hroom
    | some split =>
      obtain ⟨name, value⟩ := split
      have hsome : headerOf line = some ⟨toAsciiLowercase (trim name), trim value⟩ := by
        simp [headerOf, hsplit]
      rw [List.filterMap_cons_some hsome]
      by_cases hfull : maxStoredHttpHeaders ≤ before.length
      · -- The store is full: this header and all that follow are left out.
        have hstep : headerStep (before, truncated) line = (before, true) := by
          simp [headerStep, hsplit, hfull]
        have hlength : maxStoredHttpHeaders = before.length := by omega
        rw [hstep, ih before true hroom]
        simp [hlength]
      · have hstep : headerStep (before, truncated) line =
            (before ++ [⟨toAsciiLowercase (trim name), trim value⟩], truncated) := by
          simp [headerStep, hsplit, hfull]
        rw [hstep, ih _ truncated (by rw [List.length_append, List.length_singleton]; omega)]
        simp

/-! ## What the headers say -/

/-- The first transfer encoding names `chunked`. -/
def namesChunked (headers : List Http1Header) : Bool :=
  (headerValue headers "transfer-encoding".toList).any fun value =>
    contains (toAsciiLowercase value) "chunked".toList

/-- The number that the first content length gives. -/
def lengthOf (headers : List Http1Header) : Option ℕ :=
  (headerValue headers "content-length".toList).bind parseContentLength

/-- The framing that headers ask for. -/
def framingOf (headers : List Http1Header) : BodyFraming :=
  if namesChunked headers then .chunked
  else
    match lengthOf headers with
    | none => .none
    | some length => .contentLength length

/-- What is reported of the body and of the host is what some headers say. -/
structure Reads (headers : List Http1Header) (head : Http1Head) : Prop where
  framing : bodyFraming head = framingOf headers
  host : head.info.host = headerValue headers "host".toList
  content_encoding : head.info.content_encoding = headerValue headers "content-encoding".toList

/-- Both kinds of heads report what their headers say. -/
theorem headInfo_reads {start_line : Text} {headers : List Http1Header} {truncated : Bool}
    {head : Http1Head}
    (h : parseResponseHead start_line headers truncated = .ok head ∨
      parseRequestHead start_line headers truncated = .ok head) :
    Reads headers head ∧ head.info.headers_truncated = truncated := by
  have hinfo : head.info.host = (headInfo start_line headers truncated).host ∧
      head.info.content_length = (headInfo start_line headers truncated).content_length ∧
      head.info.transfer_encoding = (headInfo start_line headers truncated).transfer_encoding ∧
      head.info.content_encoding = (headInfo start_line headers truncated).content_encoding ∧
      head.info.headers_truncated = truncated := by
    rcases h with h | h
    · unfold parseResponseHead at h
      dsimp only at h
      split_ifs at h
      split at h
      · cases h
      · split at h
        · cases h
        · injection h with h
          subst h
          exact ⟨rfl, rfl, rfl, rfl, rfl⟩
    · unfold parseRequestHead at h
      split at h
      · cases h
      · split_ifs at h
        split at h
        · cases h
        · injection h with h
          subst h
          exact ⟨rfl, rfl, rfl, rfl, rfl⟩
  obtain ⟨hhost, hlength, htransfer, hcontent, htruncated⟩ := hinfo
  refine ⟨⟨?_, hhost, hcontent⟩, htruncated⟩
  unfold bodyFraming
  rw [htransfer, hlength]
  rfl

/-- A head is read from the headers that are stored, and says whether there were more. -/
theorem parseHttp1Head_reads {header : List UInt8} {head : Http1Head}
    (h : parseHttp1Head header = .ok head) :
    Reads ((allHeaders header).take maxStoredHttpHeaders) head ∧
      head.info.headers_truncated = decide (maxStoredHttpHeaders < (allHeaders header).length) := by
  unfold parseHttp1Head at h
  split at h
  · cases h
  · rename_i first lines hlines
    have hall : allHeaders header = lines.filterMap headerOf := by
      unfold allHeaders
      rw [hlines]
      rfl
    have hfold := foldl_headerStep_eq lines [] false (Nat.zero_le _)
    rw [List.nil_append, ← hall, Bool.false_or] at hfold
    dsimp only at h
    rw [hfold] at h
    split_ifs at h
    · exact headInfo_reads (.inl h)
    · exact headInfo_reads (.inr h)

/-! ## Heads that are read as if all headers were stored -/

/-- The first header of a name, if any, is among those stored. -/
def Early (headers : List Http1Header) (name : String) : Prop :=
  ∀ i ∈ headers.findIdx? fun header => eqIgnoreAsciiCase header.name name.toList,
    i < maxStoredHttpHeaders

/-- Every header that says something of the body or the host is among those stored: of a transfer encoding
only `chunked` says something, and a length says nothing beside it. -/
structure InTime (headers : List Http1Header) : Prop where
  host : Early headers "host"
  content_encoding : Early headers "content-encoding"
  transfer_encoding : namesChunked headers → Early headers "transfer-encoding"
  content_length : ¬ namesChunked headers → (lengthOf headers).isSome → Early headers "content-length"

variable {headers : List Http1Header} {name : String}

/-- A header that is early is the one found. -/
theorem Early.headerValue_take (h : Early headers name) :
    headerValue (headers.take maxStoredHttpHeaders) name.toList = headerValue headers name.toList := by
  unfold headerValue
  rw [find?_take_of_findIdx? h]

/-- Of a header that is late there is no sign. -/
theorem headerValue_take_of_not_early (h : ¬ Early headers name) :
    headerValue (headers.take maxStoredHttpHeaders) name.toList = none ∧
      (headerValue headers name.toList).isSome := by
  unfold Early at h
  push Not at h
  obtain ⟨i, hi, hle⟩ := h
  unfold headerValue
  rw [find?_take_of_le hi hle, Option.isSome_map, List.find?_isSome]
  obtain ⟨hlt, hmatch, -⟩ := List.findIdx?_eq_some_iff_getElem.mp hi
  exact ⟨rfl, _, List.getElem_mem hlt, hmatch⟩

/-- The value of a name is found among the stored headers exactly when its first header is early. -/
theorem headerValue_take_iff :
    headerValue (headers.take maxStoredHttpHeaders) name.toList = headerValue headers name.toList ↔
      Early headers name := by
  constructor
  · intro heq
    by_contra hlate
    obtain ⟨hnone, hsome⟩ := headerValue_take_of_not_early hlate
    rw [← heq, hnone] at hsome
    exact absurd hsome Bool.false_ne_true
  · exact Early.headerValue_take

/-- The stored headers ask for chunks when all of them do, unless the header that does so is late. -/
theorem namesChunked_take_iff :
    namesChunked (headers.take maxStoredHttpHeaders) = true ↔
      namesChunked headers = true ∧ Early headers "transfer-encoding" := by
  unfold namesChunked
  by_cases hearly : Early headers "transfer-encoding"
  · rw [hearly.headerValue_take]
    exact (and_iff_left hearly).symm
  · rw [(headerValue_take_of_not_early hearly).1]
    simp [hearly]

/-- The stored headers give the length that all of them give, unless the header that does so is late. -/
theorem lengthOf_take_iff :
    lengthOf (headers.take maxStoredHttpHeaders) = lengthOf headers ↔
      ((lengthOf headers).isSome → Early headers "content-length") := by
  by_cases hearly : Early headers "content-length"
  · unfold lengthOf
    rw [hearly.headerValue_take]
    exact iff_of_true rfl fun _ => hearly
  · have hnone : lengthOf (headers.take maxStoredHttpHeaders) = none := by
      unfold lengthOf
      rw [(headerValue_take_of_not_early hearly).1]
      rfl
    rw [hnone]
    cases hlength : lengthOf headers with
    | none => simp
    | some length => simp [hearly]

/-- Two lists of headers that do not ask for chunks ask for the same framing when they give the same
length. -/
theorem framingOf_inj {before after : List Http1Header} (hbefore : ¬ namesChunked before)
    (hafter : ¬ namesChunked after) : framingOf before = framingOf after ↔ lengthOf before = lengthOf after := by
  unfold framingOf
  rw [if_neg hbefore, if_neg hafter]
  cases lengthOf before <;> cases lengthOf after <;> simp

/-- The stored headers ask for the framing that all of them ask for exactly when the headers that frame the
body are early. -/
theorem framingOf_take_iff :
    framingOf (headers.take maxStoredHttpHeaders) = framingOf headers ↔
      (namesChunked headers → Early headers "transfer-encoding") ∧
        (¬ namesChunked headers → (lengthOf headers).isSome → Early headers "content-length") := by
  by_cases hchunked : namesChunked headers = true
  · have hfull : framingOf headers = .chunked := if_pos hchunked
    by_cases hearly : Early headers "transfer-encoding"
    · have hstored : framingOf (headers.take maxStoredHttpHeaders) = .chunked :=
        if_pos (namesChunked_take_iff.mpr ⟨hchunked, hearly⟩)
      rw [hfull, hstored]
      exact iff_of_true rfl ⟨fun _ => hearly, fun hnot => absurd hchunked hnot⟩
    · -- The chunks go unseen, and the framing is another one.
      have hstored : framingOf (headers.take maxStoredHttpHeaders) ≠ .chunked := by
        unfold framingOf
        rw [if_neg fun h => hearly (namesChunked_take_iff.mp h).2]
        split
        · exact BodyFraming.noConfusion
        · exact BodyFraming.noConfusion
      rw [hfull]
      exact iff_of_false hstored fun h => hearly (h.1 hchunked)
  · have hstored : ¬ namesChunked (headers.take maxStoredHttpHeaders) = true :=
      fun h => hchunked (namesChunked_take_iff.mp h).1
    rw [framingOf_inj hstored hchunked, lengthOf_take_iff]
    constructor
    · exact fun h => ⟨fun hnot => absurd hnot hchunked, fun _ => h⟩
    · exact fun h => h.2 hchunked

/-- A head is read from all of its headers exactly when those that say something of the body or the host are
among the stored ones. -/
theorem parseHttp1Head_reads_all_iff (header : List UInt8) (head : Http1Head)
    (h : parseHttp1Head header = .ok head) :
    Reads (allHeaders header) head ↔ InTime (allHeaders header) := by
  obtain ⟨⟨hframing, hhost, hcontent⟩, -⟩ := parseHttp1Head_reads h
  constructor
  · intro hall
    have hboth := framingOf_take_iff.mp (hframing.symm.trans hall.framing)
    exact
      { host := headerValue_take_iff.mp (hhost.symm.trans hall.host)
        content_encoding := headerValue_take_iff.mp (hcontent.symm.trans hall.content_encoding)
        transfer_encoding := hboth.1
        content_length := hboth.2 }
  · intro htime
    exact
      { framing := hframing.trans
          (framingOf_take_iff.mpr ⟨htime.transfer_encoding, htime.content_length⟩)
        host := hhost.trans htime.host.headerValue_take
        content_encoding := hcontent.trans htime.content_encoding.headerValue_take }

/-- A request with a number of lines before its header line. -/
def paddedHead (count : ℕ) (line : String) : List UInt8 :=
  utf8 "GET / HTTP/1.1\r\n".toList ++ (List.replicate count (utf8 "a:\r\n".toList)).flatten ++
    utf8 line.toList

/-- A request whose one framing header is early. -/
theorem parseHttp1Head_reads_all_iff_sample :
    ∃ head, parseHttp1Head (paddedHead 1 "Content-Length: 5") = .ok head ∧
      (Reads (allHeaders (paddedHead 1 "Content-Length: 5")) head ↔
        InTime (allHeaders (paddedHead 1 "Content-Length: 5"))) := by
  cases h : parseHttp1Head (paddedHead 1 "Content-Length: 5") with
  | error reason =>
    have hok : (parseHttp1Head (paddedHead 1 "Content-Length: 5")).isOk = true := by decide +kernel
    rw [h] at hok
    exact absurd hok Bool.false_ne_true
  | ok head => exact ⟨head, rfl, parseHttp1Head_reads_all_iff _ head h⟩

/-- Behind 128 header lines a length is not seen: the body of five bytes is taken for no body. -/
theorem parseHttp1Head_reads_late :
    ∃ head, parseHttp1Head (paddedHead 128 "Content-Length: 5") = .ok head ∧
      bodyFraming head = .none ∧
      framingOf (allHeaders (paddedHead 128 "Content-Length: 5")) = .contentLength 5 ∧
      ¬ Reads (allHeaders (paddedHead 128 "Content-Length: 5")) head := by
  have hread : ((parseHttp1Head (paddedHead 128 "Content-Length: 5")).toOption.map bodyFraming) =
      some .none := by decide +kernel
  have hall : framingOf (allHeaders (paddedHead 128 "Content-Length: 5")) = .contentLength 5 := by
    decide +kernel
  cases h : parseHttp1Head (paddedHead 128 "Content-Length: 5") with
  | error reason =>
    rw [h] at hread
    cases hread
  | ok head =>
    rw [h] at hread
    have hnone : bodyFraming head = .none := Option.some.inj hread
    refine ⟨head, rfl, hnone, hall, fun hreads => ?_⟩
    have hframing := hreads.framing
    rw [hnone, hall] at hframing
    cases hframing

end Rustmate.Message
