import Mathlib
import Rustmate.Message.HttpBody
import Rustmate.Message.HttpStored
import Rustmate.Message.Lines

/-!
# HTTP messages on the wire

How a request or a response with a body of known length is written, and that its head is read as it was
written.
-/

namespace Rustmate.Message

/-! ## Writing -/

/-- The first line of a message. -/
inductive StartLine where
  | request (method target version : Text)
  | response (version status : Text) (reason : Option Text)
  deriving DecidableEq, Repr

/-- A header line: a name, a colon, blanks and a value. -/
structure HeaderLine where
  name : Text
  gap : Text
  value : Text
  deriving DecidableEq, Repr

/-- A message. -/
structure WireMessage where
  start : StartLine
  headers : List HeaderLine
  body : List UInt8
  deriving DecidableEq, Repr

def crlf : Text := ['\r', '\n']

def StartLine.text : StartLine → Text
  | .request method target version => method ++ ' ' :: (target ++ ' ' :: version)
  | .response version status reason =>
    version ++ ' ' :: (status ++ reason.elim [] fun reason => ' ' :: reason)

def HeaderLine.text (header : HeaderLine) : Text := header.name ++ ':' :: (header.gap ++ header.value)

namespace WireMessage

def lines (message : WireMessage) : List Text :=
  message.start.text :: message.headers.map HeaderLine.text

/-- The start line and the headers, without the blank line that follows. -/
def head (message : WireMessage) : Text := crlf.intercalate message.lines

/-- The bytes of the head with the blank line. -/
def headBytes (message : WireMessage) : List UInt8 := utf8 (message.head ++ crlf ++ crlf)

/-- The bytes of a message. -/
def bytes (message : WireMessage) : List UInt8 := message.headBytes ++ message.body

end WireMessage

/-! ## What is written -/

/-- A request has a method that the parser knows; a response has a code of 16 bits. The parts are not
empty and hold no blanks, but for the reason, which is anything on one line. -/
def StartLine.WellFormed : StartLine → Prop
  | .request method target version =>
    isHttpMethod method = true ∧ target ≠ [] ∧ (∀ c ∈ target, isAsciiWhitespace c = false) ∧
      version ≠ [] ∧ ∀ c ∈ version, isWhitespace c = false
  | .response version status reason =>
    "HTTP/".toList <+: version ∧ (∀ c ∈ version, isWhitespace c = false) ∧
      (∃ code < 2^16, IsDecimal status code) ∧ ∀ text ∈ reason, '\n' ∉ text

/-- A header stands on one line, and nothing blank is around its name and its value but the gap. -/
structure HeaderLine.WellFormed (header : HeaderLine) : Prop where
  name_colon : ':' ∉ header.name
  name_lf : '\n' ∉ header.name
  name_blanks : NoBlanks header.name
  gap_blank : ∀ c ∈ header.gap, c = ' ' ∨ c = '\t'
  value_lf : '\n' ∉ header.value
  value_blanks : NoBlanks header.value

namespace WireMessage

/-- The headers of a name, in upper case or lower. -/
def named (message : WireMessage) (name : Text) : List HeaderLine :=
  message.headers.filter fun header => eqIgnoreAsciiCase header.name name

/-- A message whose body has the length that its only length header says, or that has neither. -/
structure WellFormed (message : WireMessage) : Prop where
  start : message.start.WellFormed
  headers : ∀ header ∈ message.headers, header.WellFormed
  count : message.headers.length ≤ maxStoredHttpHeaders
  not_chunked : ∀ header ∈ message.named "transfer-encoding".toList,
    contains (toAsciiLowercase header.value) "chunked".toList = false
  length : (∃ header, message.named "content-length".toList = [header] ∧
      IsDecimal header.value message.body.length) ∨
    (message.named "content-length".toList = [] ∧ message.body = [])

/-! ## What is read -/

/-- The value of the first header of a name. -/
def valueOf (message : WireMessage) (name : Text) : Option Text :=
  (message.named name).head?.map fun header => header.value

/-- A header as it is stored. -/
def stored (header : HeaderLine) : Http1Header := ⟨toAsciiLowercase header.name, header.value⟩

/-- What is reported of a message before its body is looked at. -/
def readHead (message : WireMessage) : Http1Head :=
  let info (start_line : Text) : Http1MessageInfo :=
    { start_line
      method := none
      target := none
      version := none
      status_code := none
      reason := none
      headers := message.headers.map stored
      headers_truncated := false
      host := message.valueOf "host".toList
      content_length :=
        if message.named "content-length".toList = [] then none else some message.body.length
      transfer_encoding := message.valueOf "transfer-encoding".toList
      content_encoding := message.valueOf "content-encoding".toList
      body := none }
  match message.start with
  | .request method target version =>
    { kind := .request
      summary := method ++ ' ' :: target
      info := { info message.start.text with
        method := some method
        target := some target
        version := some version } }
  | .response version status reason =>
    -- A reason is reported without the blanks at its end, and not at all if there is nothing else.
    let reason := (reason.map (trimEnd isWhitespace)).filter fun reason => !reason.isEmpty
    let code := Nat.ofDigitChars 10 status 0
    { kind := .response
      summary := "HTTP ".toList ++ Nat.toDigits 10 code ++ reason.elim [] fun reason => ' ' :: reason
      info := { info (StartLine.response version status reason).text with
        version := some version
        status_code := some code
        reason } }

/-- What is reported of the body. -/
def readBody (message : WireMessage) : Option Http1BodyInfo :=
  let gzip := (message.valueOf "content-encoding".toList).any fun value =>
    contains (toAsciiLowercase value) "gzip".toList
  if message.body = [] then none
  else
    some
      { framing := "content_length".toList
        wire_bytes := message.body.length
        normalized_bytes := if gzip then none else some message.body.length
        chunk_count := none
        trailer_bytes := none
        transforms := if gzip then ["http_gzip".toList] else [] }

/-- What is reported of a message. -/
def read (message : WireMessage) : Http1Head :=
  { message.readHead with info := { message.readHead.info with body := message.readBody } }

end WireMessage

/-! ## Reading the lines -/

variable {line : Text} {lines : List Text}

/-- Carriage returns are blanks. -/
theorem trimLine_eq_trim (line : Text) : trimLine line = trim line := by
  unfold trimLine
  induction line using List.reverseRecOn with
  | nil => rfl
  | append_singleton line c ih =>
    unfold trimEnd at ih ⊢
    by_cases hcr : c = '\r'
    · rw [List.rdropWhile_concat_pos _ _ _ (by simpa using hcr), ih, trim_concat]
      rw [hcr]
      decide
    · rw [List.rdropWhile_concat_neg _ _ _ (by simpa using hcr)]

/-- The lines of a text are found again, up to blanks around them. -/
theorem splitOn_lines (hne : lines ≠ []) (hlf : ∀ line ∈ lines, '\n' ∉ line) :
    List.Forall₂ (fun part line => trimLine part = trim line) ((crlf.intercalate lines).splitOn '\n')
      lines := by
  induction lines with
  | nil => exact absurd rfl hne
  | cons line lines ih =>
    have hline := hlf line List.mem_cons_self
    cases lines with
    | nil =>
      rw [List.intercalate_singleton, List.splitOn_eq_singleton hline]
      exact .cons (trimLine_eq_trim line) .nil
    | cons line' lines =>
      have hcr : '\n' ∉ line ++ ['\r'] := by simp [hline]
      rw [List.intercalate_cons_cons, show line ++ crlf ++ crlf.intercalate (line' :: lines) =
        (line ++ ['\r']) ++ '\n' :: crlf.intercalate (line' :: lines) by simp [crlf],
        List.splitOn_append_cons_self_of_not_mem hcr]
      refine .cons ?_ (ih (List.cons_ne_nil _ _) fun line h => hlf line (List.mem_cons_of_mem _ h))
      rw [trimLine_eq_trim, trim_concat _ (by decide)]

/-! ## Reading the headers -/

/-- A header line is split into its name and its value. -/
theorem splitOnce_trim_headerLine {header : HeaderLine} (h : header.WellFormed) :
    ∃ value, splitOnce ':' (trim header.text) = some (header.name, value) ∧
      trim value = header.value := by
  refine ⟨trimEnd isWhitespace (header.gap ++ header.value), ?_, ?_⟩
  · unfold HeaderLine.text
    rw [trim_append_cons _ _ _ (by decide), splitOnce_append _ h.name_colon]
    intro d hd
    have hblanks := h.name_blanks.1
    cases hname : header.name with
    | nil =>
      rw [hname] at hd
      obtain rfl : ':' = d := by simpa using hd
      decide
    | cons x name =>
      rw [hname] at hd hblanks
      exact hblanks d hd
  · rw [trim_trimEnd, trim_append, trim_eq_self h.value_blanks]
    intro c hc
    rcases h.gap_blank c hc with rfl | rfl <;> decide

/-- A header line is read as it is written. -/
theorem headerOf_text {header : HeaderLine} (h : header.WellFormed) {part : Text}
    (hpart : trimLine part = trim header.text) : headerOf part = some (WireMessage.stored header) := by
  obtain ⟨value, hsplit, hvalue⟩ := splitOnce_trim_headerLine h
  unfold headerOf
  rw [hpart, hsplit, Option.map_some]
  dsimp only
  rw [hvalue, trim_eq_self h.name_blanks]
  rfl

/-- All header lines are read as they are written. -/
theorem filterMap_headerOf {parts : List Text} {headers : List HeaderLine}
    (hparts : List.Forall₂ (fun part line => trimLine part = trim line) parts (headers.map HeaderLine.text))
    (hwf : ∀ header ∈ headers, header.WellFormed) : parts.filterMap headerOf = headers.map WireMessage.stored := by
  induction headers generalizing parts with
  | nil =>
    rw [List.map_nil, List.forall₂_nil_right_iff] at hparts
    rw [hparts]
    rfl
  | cons header headers ih =>
    rw [List.map_cons, List.forall₂_cons_right_iff] at hparts
    obtain ⟨part, parts, hpart, hparts, rfl⟩ := hparts
    have hone := headerOf_text (hwf header List.mem_cons_self) hpart
    rw [List.filterMap_cons_some hone, ih hparts fun h hmem => hwf h (List.mem_cons_of_mem _ hmem)]
    rfl

/-- What is looked up among the stored headers is the value of the first header of the name. -/
theorem headerValue_stored (message : WireMessage) (name : Text) :
    headerValue (message.headers.map WireMessage.stored) name = message.valueOf name := by
  unfold headerValue WireMessage.valueOf WireMessage.named
  rw [List.find?_map, List.head?_filter, Option.map_map]
  have hname : ((fun header : Http1Header => eqIgnoreAsciiCase header.name name) ∘
      WireMessage.stored) = fun header => eqIgnoreAsciiCase header.name name := by
    funext header
    unfold WireMessage.stored eqIgnoreAsciiCase toAsciiLowercase
    simp [Function.comp_def]
  rw [hname]
  rfl

/-- The length that the headers give is that of the body. -/
theorem contentLength_stored {message : WireMessage} (h : message.WellFormed)
    (hsmall : message.body.length ≤ u64Max) :
    (headerValue (message.headers.map WireMessage.stored) "content-length".toList).bind
      parseContentLength =
        if message.named "content-length".toList = [] then none else some message.body.length := by
  rw [headerValue_stored]
  unfold WireMessage.valueOf
  rcases h.length with ⟨header, hnamed, hdecimal⟩ | ⟨hnamed, -⟩
  · have hcomma : header.value.takeWhile (fun c => c ≠ ',') = header.value := by
      refine List.takeWhile_eq_self_iff.mpr fun c hc => ?_
      have hdigit := hdecimal.2.1 c hc
      simp only [ne_eq, decide_not, Bool.not_eq_true', decide_eq_false_iff_not]
      rintro rfl
      exact absurd hdigit (by decide)
    have hblanks : NoBlanks header.value :=
      ⟨fun c hc => isWhitespace_of_isDigit (hdecimal.2.1 c (List.mem_of_mem_head? hc)),
        fun c hc => isWhitespace_of_isDigit (hdecimal.2.1 c (List.mem_of_mem_getLast? hc))⟩
    rw [hnamed]
    simp only [List.head?_cons, Option.map_some, Option.bind_some, List.cons_ne_nil, if_false]
    unfold parseContentLength
    rw [hcomma, trim_eq_self hblanks, fromStrRadix_of_isDecimal hdecimal hsmall]
  · rw [hnamed]
    rfl

/-! ## Reading the start line -/

variable {method target version status : Text} {reason : Option Text}

/-- What the parsers use of a method: it is a signature, it is one word, and it is not the beginning of a
response. -/
theorem isHttpMethod_cases (h : isHttpMethod method = true) :
    utf8 method ∈ httpSignatures ∧ method ≠ [] ∧ (∀ c ∈ method, isAsciiWhitespace c = false) ∧
      (∀ c ∈ method, isWhitespace c = false) ∧
      ∀ rest, "HTTP/".toList.isPrefixOf (method ++ ' ' :: rest) = false := by
  unfold isHttpMethod at h
  simp only [List.any_cons, List.any_nil, Bool.or_false, Bool.or_eq_true, decide_eq_true_eq] at h
  rcases h with rfl | rfl | rfl | rfl | rfl | rfl | rfl | rfl | rfl <;>
    exact ⟨by decide +kernel, by decide, by simp [isAsciiWhitespace], by simp [isWhitespace], fun _ => rfl⟩

/-- A request line has no blanks around it. -/
theorem StartLine.trim_request (h : (StartLine.request method target version).WellFormed) :
    trim (StartLine.request method target version).text =
      (StartLine.request method target version).text := by
  obtain ⟨hmethod, -, -, hne, hversion⟩ := h
  obtain ⟨-, hmethodNe, -, hmethodBlank, -⟩ := isHttpMethod_cases hmethod
  refine trim_eq_self ⟨fun c hc => ?_, fun c hc => ?_⟩
  · unfold StartLine.text at hc
    rw [List.head?_append_of_ne_nil _ hmethodNe] at hc
    exact hmethodBlank c (List.mem_of_mem_head? hc)
  · unfold StartLine.text at hc
    rw [List.getLast?_append_of_ne_nil _ (List.cons_ne_nil _ _), ← List.cons_append,
      List.getLast?_append_of_ne_nil _ (List.cons_ne_nil _ _), List.getLast?_cons_of_ne_nil hne] at hc
    exact hversion c (List.mem_of_mem_getLast? hc)

/-- A request line is read as it is written. -/
theorem parseRequestHead_text (h : (StartLine.request method target version).WellFormed)
    (headers : List Http1Header) (truncated : Bool) :
    parseRequestHead (StartLine.request method target version).text headers truncated =
      .ok
        { kind := .request
          summary := method ++ ' ' :: target
          info :=
            { headInfo (StartLine.request method target version).text headers truncated with
              method := some method
              target := some target
              version := some version } } := by
  obtain ⟨hmethod, htargetNe, htarget, hversionNe, hversion⟩ := h
  obtain ⟨-, hmethodNe, hmethodWord, -, -⟩ := isHttpMethod_cases hmethod
  have hversionWord : ∀ c ∈ version, isAsciiWhitespace c = false := by
    intro c hc
    by_contra hblank
    have := isWhitespace_of_isAsciiWhitespace (by simpa using hblank)
    rw [hversion c hc] at this
    exact absurd this (by simp)
  have hwords : splitAsciiWhitespace (StartLine.request method target version).text =
      [method, target, version] := by
    unfold StartLine.text
    rw [splitAsciiWhitespace_append _ hmethodNe hmethodWord (by decide),
      splitAsciiWhitespace_append _ htargetNe htarget (by decide),
      splitAsciiWhitespace_eq_singleton hversionNe hversionWord]
  unfold parseRequestHead
  rw [hwords]
  simp [hmethod]

/-- The reason of a response as it is reported. -/
def readReason (reason : Option Text) : Option Text :=
  (reason.map (trimEnd isWhitespace)).filter fun reason => !reason.isEmpty

/-- A status line loses the blanks at its end. -/
theorem StartLine.trim_response (h : (StartLine.response version status reason).WellFormed) :
    trim (StartLine.response version status reason).text =
      (StartLine.response version status (readReason reason)).text := by
  obtain ⟨⟨rest, rfl⟩, hversion, ⟨code, -, hne, hdigits, -⟩, -⟩ := h
  -- The last digit of the code is kept.
  obtain ⟨digits, d, rfl⟩ : ∃ digits d, status = digits ++ [d] :=
    ⟨_, _, (List.dropLast_append_getLast hne).symm⟩
  have hd : isWhitespace d = false := isWhitespace_of_isDigit (hdigits d (by simp))
  dsimp only [StartLine.text]
  have htext : ∀ tail : Text, "HTTP/".toList ++ rest ++ ' ' :: (digits ++ [d] ++ tail) =
      ("HTTP/".toList ++ rest ++ ' ' :: digits) ++ d :: tail := by
    intro tail
    simp
  rw [htext, htext, trim_append_cons _ _ ?_ hd]
  · congr 2
    cases reason with
    | none => rfl
    | some reason =>
      unfold readReason
      by_cases hblank : trimEnd isWhitespace reason = []
      · have hall : ∀ c ∈ ' ' :: reason, isWhitespace c = true := by
          have hreason := List.rdropWhile_eq_nil_iff.mp hblank
          intro c hc
          rcases List.mem_cons.mp hc with rfl | hc
          · decide
          · exact hreason c hc
        simp only [Option.elim_some, Option.map_some, hblank]
        exact List.rdropWhile_eq_nil_iff.mpr hall
      · simp only [Option.elim_some, Option.map_some, Option.filter]
        rw [if_pos (by simpa using hblank), Option.elim_some]
        unfold trimEnd at hblank ⊢
        unfold List.rdropWhile at hblank ⊢
        rw [List.reverse_cons, List.dropWhile_append]
        rw [if_neg (by simpa using hblank)]
        simp
  · intro c hc
    obtain rfl : 'H' = c := by simpa using hc
    decide

/-- A status line is read as it is written. -/
theorem parseResponseHead_text (h : (StartLine.response version status reason).WellFormed)
    (headers : List Http1Header) (truncated : Bool) (hreason : readReason reason = reason) :
    parseResponseHead (StartLine.response version status reason).text headers truncated =
      .ok
        { kind := .response
          summary := "HTTP ".toList ++ Nat.toDigits 10 (Nat.ofDigitChars 10 status 0) ++
            reason.elim [] fun reason => ' ' :: reason
          info :=
            { headInfo (StartLine.response version status reason).text headers truncated with
              version := some version
              status_code := some (Nat.ofDigitChars 10 status 0)
              reason := reason } } := by
  obtain ⟨hhttp, hversion, ⟨code, hcode, hdecimal⟩, -⟩ := h
  have hspace : ' ' ∉ version := fun hmem => absurd (hversion ' ' hmem) (by decide)
  have hspace' : ' ' ∉ status := fun hmem => absurd (hdecimal.2.1 ' ' hmem) (by decide)
  have hfirst : splitOnce ' ' (StartLine.response version status reason).text =
      some (version, status ++ reason.elim [] fun reason => ' ' :: reason) := splitOnce_append _ hspace
  have hnumber := fromStrRadix_of_isDecimal hdecimal (show code ≤ 2^16 - 1 by omega)
  obtain rfl := hdecimal.2.2
  unfold parseResponseHead
  rw [hfirst]
  simp only
  rw [if_neg (by simpa [List.isPrefixOf_iff_prefix] using hhttp)]
  cases reason with
  | none =>
    simp only [Option.elim_none, List.append_nil]
    rw [splitOnce_eq_none hspace']
    simp only [Option.getD_none]
    rw [hnumber]
    rfl
  | some reason =>
    have hne : reason.isEmpty = false := by
      unfold readReason at hreason
      simp only [Option.map_some, Option.filter] at hreason
      split_ifs at hreason with hempty
      rw [Option.some.injEq] at hreason
      rw [hreason] at hempty
      simpa using hempty
    simp only [Option.elim_some]
    have hsecond : splitOnce ' ' (status ++ ' ' :: reason) = some (status, reason) :=
      splitOnce_append _ hspace'
    simp only [hsecond, Option.getD_some, hnumber]
    simp [hne]

/-! ## Reading the head -/

/-- Blanks are taken off a reason once. -/
theorem readReason_readReason (reason : Option Text) : readReason (readReason reason) = readReason reason := by
  unfold readReason
  cases reason with
  | none => rfl
  | some reason =>
    simp only [Option.map_some, Option.filter]
    split_ifs with hne
    · simp only [Option.map_some]
      rw [show trimEnd isWhitespace (trimEnd isWhitespace reason) = trimEnd isWhitespace reason from
        List.rdropWhile_idempotent _ reason, if_pos hne]
    · rfl

/-- What is reported of a well-formed reason is well formed. -/
theorem StartLine.WellFormed.readReason
    (h : (StartLine.response version status reason).WellFormed) :
    (StartLine.response version status (readReason reason)).WellFormed := by
  obtain ⟨hhttp, hversion, hstatus, hlf⟩ := h
  refine ⟨hhttp, hversion, hstatus, fun text htext hmem => ?_⟩
  unfold Message.readReason at htext
  rw [Option.mem_def, Option.filter_eq_some_iff, Option.map_eq_some_iff] at htext
  obtain ⟨⟨whole, hwhole, rfl⟩, -⟩ := htext
  exact hlf whole hwhole ((List.rdropWhile_prefix _ whole).subset hmem)

/-- The first line is one line, and there is something on it. -/
theorem StartLine.WellFormed.lf {start : StartLine} (h : start.WellFormed) : '\n' ∉ start.text := by
  have hword : ∀ text : Text, (∀ c ∈ text, isWhitespace c = false) → '\n' ∉ text :=
    fun text hall hmem => absurd (hall '\n' hmem) (by decide)
  cases start with
  | request method target version =>
    obtain ⟨hmethod, -, htarget, -, hversion⟩ := h
    have h₁ := hword method (isHttpMethod_cases hmethod).2.2.2.1
    have h₂ : '\n' ∉ target := fun hmem => absurd (htarget '\n' hmem) (by decide)
    have h₃ := hword version hversion
    simp [StartLine.text, h₁, h₂, h₃]
  | response version status reason =>
    obtain ⟨-, hversion, ⟨code, -, hdecimal⟩, hreason⟩ := h
    have h₁ := hword version hversion
    have h₂ : '\n' ∉ status := fun hmem => absurd (hdecimal.2.1 '\n' hmem) (by decide)
    cases reason with
    | none => simp [StartLine.text, h₁, h₂]
    | some reason => simp [StartLine.text, h₁, h₂, hreason reason rfl]

/-- A header line is one line. -/
theorem HeaderLine.WellFormed.lf {header : HeaderLine} (h : header.WellFormed) : '\n' ∉ header.text := by
  have hgap : '\n' ∉ header.gap := fun hmem => by
    rcases h.gap_blank '\n' hmem with hc | hc <;> exact absurd hc (by decide)
  unfold HeaderLine.text
  simp [h.name_lf, hgap, h.value_lf]

namespace WireMessage

variable {message : WireMessage}

/-- No line feed is on a line. -/
theorem WellFormed.lines_lf (h : message.WellFormed) : ∀ line ∈ message.lines, '\n' ∉ line := by
  intro line hline
  unfold lines at hline
  rcases List.mem_cons.mp hline with rfl | hline
  · exact h.start.lf
  · obtain ⟨header, hheader, rfl⟩ := List.mem_map.mp hline
    exact (h.headers header hheader).lf

/-- A head is read as it is written. -/
theorem WellFormed.parseHttp1Head (h : message.WellFormed) (hsmall : message.body.length ≤ u64Max) :
    Message.parseHttp1Head (utf8 message.head) = .ok message.readHead := by
  have hsplit := splitOn_lines (List.cons_ne_nil _ _) h.lines_lf
  unfold Message.parseHttp1Head head
  rw [fromUtf8Lossy_utf8]
  unfold lines at hsplit ⊢
  obtain ⟨first, parts, hfirst, hparts, heq⟩ := List.forall₂_cons_right_iff.mp hsplit
  have hheaders : parts.foldl headerStep ([], false) = (message.headers.map stored, false) := by
    have hcount : (message.headers.map stored).length ≤ maxStoredHttpHeaders := by simpa using h.count
    rw [foldl_headerStep_eq parts [] false (Nat.zero_le _), filterMap_headerOf hparts h.headers, List.nil_append,
      List.take_of_length_le hcount, Bool.false_or, decide_eq_false (Nat.not_lt.mpr hcount)]
  rw [heq]
  simp only [hfirst, hheaders]
  have hlength := contentLength_stored h hsmall
  have hhost := headerValue_stored message "host".toList
  have htransfer := headerValue_stored message "transfer-encoding".toList
  have hcontent := headerValue_stored message "content-encoding".toList
  have hstart := h.start
  unfold readHead
  cases hcases : message.start with
  | request method target version =>
    rw [hcases] at hstart
    rw [StartLine.trim_request hstart]
    obtain ⟨-, hne, -, -, hhttp⟩ := isHttpMethod_cases hstart.1
    have hfilled : (StartLine.request method target version).text.isEmpty = false := by
      simp [StartLine.text]
    rw [if_neg (by simp [hfilled]), if_neg (by
      unfold StartLine.text
      simp only [hhttp]
      simp), parseRequestHead_text hstart]
    unfold headInfo
    simp only [hlength, hhost, htransfer, hcontent]
  | response version status reason =>
    rw [hcases] at hstart
    rw [StartLine.trim_response hstart]
    have hhttp : "HTTP/".toList.isPrefixOf
        (StartLine.response version status (readReason reason)).text = true := by
      rw [List.isPrefixOf_iff_prefix]
      exact hstart.1.trans (List.prefix_append _ _)
    have hfilled : (StartLine.response version status (readReason reason)).text.isEmpty = false := by
      simp [StartLine.text]
    rw [if_neg (by simp [hfilled]), if_pos hhttp,
      parseResponseHead_text hstart.readReason _ _ (readReason_readReason reason)]
    unfold headInfo
    simp only [hlength, hhost, htransfer, hcontent]
    rfl

end WireMessage

end Rustmate.Message
