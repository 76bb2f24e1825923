import Rustmate.Lib.Framing
import Rustmate.Message.Http1
import Rustmate.Message.HttpSearch

/-!
# HTTP/1 as a framing

What the HTTP/1 parser decides on the bytes from where a message may begin, as a framing, and that this
framing has the laws under which a stream that is not steady can be cut so that it is framed otherwise.
-/

namespace Rustmate.Message

/-- What a frame of the HTTP/1 parser holds: a message with the lengths of its head and its body, or the
reason of an error and the number of bytes that it covers. -/
inductive HttpFrame where
  | complete (head : Http1Head) (header body : ℕ)
  | error (reason : Text) (size : ℕ)
  deriving DecidableEq, Repr

/-- What the parser decides on the bytes from where a message may begin. A body of known length follows its
head; a chunked body must be there as a whole. -/
def httpVerdict (bytes : List UInt8) : Verdict HttpFrame :=
  if !looksLikeHttpPrefix bytes then .skip
  else
    match findHeaderEnd bytes with
    | none => .wait
    | some (header_len, header_total_len) =>
      match parseHttp1Head (bytes.take header_len) with
      | .error reason => .frame (.error reason bytes.length) header_total_len 0
      | .ok head =>
        match bodyFraming head with
        | .contentLength body_len =>
          .frame (.complete { head with info :=
            { head.info with body := httpContentLengthBody head.info body_len } }
            header_total_len body_len) header_total_len body_len
        | .chunked =>
          match findChunkedBodyEnd (bytes.drop header_total_len) with
          | .complete chunked =>
            .frame (.complete { head with info :=
              { head.info with body := httpChunkedBody head.info chunked } }
              header_total_len chunked.wire_bytes) (header_total_len + chunked.wire_bytes) 0
          | .incomplete => .wait
          | .invalid reason => .frame (.error reason bytes.length) header_total_len 0
        | .none => .frame (.complete head header_total_len 0) header_total_len 0

/-- The end of a head, and that it takes a byte. -/
theorem findHeaderEnd_bounds {bytes : List UInt8} {len total : ℕ}
    (h : findHeaderEnd bytes = some (len, total)) : len < total ∧ total ≤ bytes.length :=
  ⟨findEnd_pos (by simp) (by simp) h, (findEnd_le h).2⟩

/-- A frame of the parser: there is the end of a head, and the frame is that of an error, which takes the
head, or of a message. -/
theorem httpVerdict_frame {bytes : List UInt8} {frame : HttpFrame} {head body : ℕ}
    (h : httpVerdict bytes = .frame frame head body) :
    looksLikeHttpPrefix bytes = true ∧ ∃ len total, findHeaderEnd bytes = some (len, total) ∧
      total ≤ head ∧ head ≤ bytes.length ∧
      match frame with
      | .error _ size => size = bytes.length ∧ head = total ∧ body = 0
      | .complete _ header size => header = total ∧ head + body = header + size := by
  unfold httpVerdict at h
  split_ifs at h with hlooks
  refine ⟨by simpa using hlooks, ?_⟩
  cases hend : findHeaderEnd bytes with
  | none => simp [hend] at h
  | some found =>
    obtain ⟨len, total⟩ := found
    have hbounds := findHeaderEnd_bounds hend
    simp only [hend] at h
    refine ⟨len, total, rfl, ?_⟩
    cases hparse : parseHttp1Head (bytes.take len) with
    | error reason =>
      simp only [hparse, Verdict.frame.injEq] at h
      obtain ⟨rfl, rfl, rfl⟩ := h
      exact ⟨le_refl _, hbounds.2, rfl, rfl, rfl⟩
    | ok parsed =>
      simp only [hparse] at h
      cases hframing : bodyFraming parsed with
      | none =>
        simp only [hframing, Verdict.frame.injEq] at h
        obtain ⟨rfl, rfl, rfl⟩ := h
        exact ⟨le_refl _, hbounds.2, rfl, rfl⟩
      | contentLength n =>
        simp only [hframing, Verdict.frame.injEq] at h
        obtain ⟨rfl, rfl, rfl⟩ := h
        exact ⟨le_refl _, hbounds.2, rfl, rfl⟩
      | chunked =>
        simp only [hframing] at h
        cases hchunked : findChunkedBodyEnd (bytes.drop total) with
        | incomplete => simp [hchunked] at h
        | invalid reason =>
          simp only [hchunked, Verdict.frame.injEq] at h
          obtain ⟨rfl, rfl, rfl⟩ := h
          exact ⟨le_refl _, hbounds.2, rfl, rfl, rfl⟩
        | complete info =>
          have hwire := findChunkedBodyEnd_le hchunked
          rw [List.length_drop] at hwire
          simp only [hchunked, Verdict.frame.injEq] at h
          obtain ⟨rfl, rfl, rfl⟩ := h
          exact ⟨by omega, by omega, rfl, rfl⟩

/-- The framing of HTTP/1. -/
def httpFraming : Framing UInt8 HttpFrame where
  verdict := httpVerdict
  head_pos h := by
    obtain ⟨-, len, total, hend, hle, hhead, -⟩ := httpVerdict_frame h
    have := findHeaderEnd_bounds hend
    omega

/-! ## The laws -/

variable {b c : List UInt8}

/-- Bytes that look like the beginning of a message do so without the last of them. -/
theorem looksLikeHttpPrefix_of_append (hne : b ≠ []) (h : looksLikeHttpPrefix (b ++ c) = true) :
    looksLikeHttpPrefix b = true := by
  unfold looksLikeHttpPrefix at h ⊢
  rw [Bool.and_eq_true, List.any_eq_true] at h ⊢
  obtain ⟨-, signature, hsignature, hlooks⟩ := h
  refine ⟨by simpa using hne, signature, hsignature, ?_⟩
  rw [Bool.or_eq_true, List.isPrefixOf_iff_prefix, List.isPrefixOf_iff_prefix] at hlooks ⊢
  rcases hlooks with hlooks | hlooks
  · exact .inl ((List.prefix_append b c).trans hlooks)
  · rcases Nat.le_total b.length signature.length with hle | hle
    · exact .inl (List.prefix_of_prefix_length_le (List.prefix_append b c) hlooks hle)
    · exact .inr (List.prefix_of_prefix_length_le hlooks (List.prefix_append b c) hle)

/-- Bytes that look like the beginning of a message, but do not with more of them, are the beginning of a
signature. -/
theorem signature_of_looksLikeHttpPrefix (h : looksLikeHttpPrefix b = true)
    (hmore : looksLikeHttpPrefix (b ++ c) = false) : 10 ∉ b := by
  unfold looksLikeHttpPrefix at h hmore
  rw [Bool.and_eq_true, List.any_eq_true] at h
  obtain ⟨hne, signature, hsignature, hlooks⟩ := h
  rw [Bool.or_eq_true] at hlooks
  rcases hlooks with hlooks | hlooks
  · have hlf : ∀ signature ∈ httpSignatures, (10 : UInt8) ∉ signature := by decide
    exact fun hmem => hlf signature hsignature ((List.isPrefixOf_iff_prefix.mp hlooks).subset hmem)
  · exfalso
    have hall : (!(b ++ c).isEmpty && httpSignatures.any fun signature =>
        (b ++ c).isPrefixOf signature || signature.isPrefixOf (b ++ c)) = true := by
      rw [Bool.and_eq_true, List.any_eq_true]
      refine ⟨?_, signature, hsignature, ?_⟩
      · simp only [Bool.not_eq_true', List.isEmpty_eq_false_iff] at hne ⊢
        simp [hne]
      · rw [isPrefixOf_append hlooks, Bool.or_true]
    rw [hall] at hmore
    exact absurd hmore (by simp)

/-- Skipping, in terms of what the bytes look like. -/
theorem httpVerdict_eq_skip {bytes : List UInt8} :
    httpVerdict bytes = .skip ↔ looksLikeHttpPrefix bytes = false := by
  unfold httpVerdict
  constructor
  · intro h
    split_ifs at h with hlooks
    · simpa using hlooks
    · cases hend : findHeaderEnd bytes with
      | none => simp [hend] at h
      | some found =>
        simp only [hend] at h
        split at h
        · simp at h
        · split at h
          · simp at h
          · split at h <;> simp at h
          · simp at h
  · intro h
    rw [if_pos (by simp [h])]

/-- Without a line feed there is no frame. -/
theorem httpVerdict_of_notMem {bytes : List UInt8} (h : 10 ∉ bytes) :
    httpVerdict bytes = .wait ∨ httpVerdict bytes = .skip := by
  have hnone : findHeaderEnd bytes = none := by
    unfold findHeaderEnd
    exact findEnd_eq_none (by simp) (by simp) h
  unfold httpVerdict
  rw [hnone]
  split_ifs
  · exact .inr rfl
  · exact .inl rfl

/-- A message that is there is seen without what follows. -/
theorem httpVerdict_settled {parsed : Http1Head} {header size head body : ℕ}
    (h : httpVerdict (b ++ c) = .frame (.complete parsed header size) head body)
    (hle : head + body ≤ b.length) : httpVerdict b ≠ .wait := by
  obtain ⟨hlooks, len, total, hend, htotal, -, -⟩ := httpVerdict_frame h
  have hbounds := findHeaderEnd_bounds hend
  have hend' : findHeaderEnd b = some (len, total) := by
    unfold findHeaderEnd at hend ⊢
    exact findEnd_of_append hend (by omega)
  have hne : b ≠ [] := by
    rw [← List.length_pos_iff]
    omega
  unfold httpVerdict at h ⊢
  rw [if_neg (by simp [hlooks])] at h
  rw [if_neg (by simp [looksLikeHttpPrefix_of_append hne hlooks])]
  simp only [hend] at h
  simp only [hend']
  rw [List.take_append_of_le_length (by omega)] at h
  cases hparse : parseHttp1Head (b.take len) with
  | error reason => simp
  | ok parsed =>
    simp only [hparse] at h ⊢
    cases hframing : bodyFraming parsed with
    | none => simp
    | contentLength n => simp
    | chunked =>
      simp only [hframing] at h ⊢
      rw [List.drop_append_of_le_length (by omega)] at h
      cases hchunked : findChunkedBodyEnd (b.drop total ++ c) with
      | incomplete => simp [hchunked] at h
      | invalid reason => simp [hchunked] at h
      | complete info =>
        simp only [hchunked, Verdict.frame.injEq] at h
        have hinfo := findChunkedBodyEnd_of_append hchunked (by rw [List.length_drop]; omega)
        simp [hinfo]

/-- The framing of HTTP/1 has the laws. -/
theorem httpFraming_lawful : httpFraming.Lawful where
  skip_append {b c} hne h := by
    by_contra hmore
    have hlooks : looksLikeHttpPrefix (b ++ c) = true := by
      by_contra hnot
      exact hmore (httpVerdict_eq_skip.mpr (by simpa using hnot))
    have := looksLikeHttpPrefix_of_append hne hlooks
    rw [httpVerdict_eq_skip.mp h] at this
    exact absurd this (by simp)
  of_skip_append {b c} hne h := by
    by_cases hlooks : looksLikeHttpPrefix b = true
    · have hlf := signature_of_looksLikeHttpPrefix hlooks (httpVerdict_eq_skip.mp h)
      exact .inr fun j _ => httpVerdict_of_notMem fun hmem => hlf (List.mem_of_mem_drop hmem)
    · exact .inl (httpVerdict_eq_skip.mpr (by simpa using hlooks))
  settled {b c frame head body} h hle := by
    cases frame with
    | complete parsed header size => exact .inl (httpVerdict_settled h hle)
    | error reason size =>
      refine .inr fun b' c' {head' body'} heq hne h' => ?_
      obtain ⟨-, len, total, -, -, -, hsize, -⟩ := httpVerdict_frame h
      obtain ⟨-, len', total', -, -, -, hsize', -⟩ := httpVerdict_frame h'
      rw [← heq, List.length_append] at hsize
      have := List.length_pos_iff.mpr hne
      omega
  size_eq {b c frame head body head' body'} h h' := by
    obtain ⟨-, len, total, hend, -, -, hframe⟩ := httpVerdict_frame h
    obtain ⟨-, len', total', hend', -, -, hframe'⟩ := httpVerdict_frame h'
    cases frame with
    | complete parsed header size =>
      simp only at hframe hframe'
      omega
    | error reason size =>
      simp only at hframe hframe'
      rw [List.length_append] at hframe'
      have hnil : c = [] := by
        rw [← List.length_eq_zero_iff]
        omega
      rw [hnil, List.append_nil, hend] at hend'
      simp only [Option.some.injEq, Prod.mk.injEq] at hend'
      omega

end Rustmate.Message
