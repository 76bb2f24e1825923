import Rustmate.Message.HttpRefine

/-!
# Cutting a stream

Whether the HTTP/1 parser reports the same messages however the bytes of a stream arrive: exactly for the
streams that are steady under its framing.
-/

namespace Rustmate.Message

/-- The pieces of a stream within the limits never matter exactly when, at each place where the parser begins
a message of the whole stream, no beginning of what remains already leads it to another message. The limit of
the buffer is a `usize`. -/
theorem pushAll_eq_iff_steady (context : Http1ParseContext)
    (husize : context.max_buffer_bytes ≤ u64Max) (S : List UInt8)
    (hheader : S.length ≤ context.max_header_bytes) (hbuffer : S.length ≤ context.max_buffer_bytes) :
    (∀ pieces pieces' : List (List UInt8), (∀ p ∈ pieces, p ≠ []) → (∀ p ∈ pieces', p ≠ []) →
      pieces.flatten = S → pieces'.flatten = S →
        (Http1DirectionState.pushAll {} context pieces).2 =
          (Http1DirectionState.pushAll {} context pieces').2) ↔ httpFraming.Steady S := by
  have hsmall : S.length < 2^64 := by
    unfold u64Max at husize
    omega
  have hmessages : ∀ pieces : List (List UInt8), (∀ p ∈ pieces, p ≠ []) → pieces.flatten = S →
      (Http1DirectionState.pushAll {} context pieces).2 =
        frameMessages context 0 (httpFraming.frames pieces) := by
    intro pieces hne hflatten
    refine Http1DirectionState.frames_new.pushAll hne ?_ ?_ ?_ <;> rw [hflatten, Nat.zero_add]
    · exact hsmall
    · exact hheader
    · exact hbuffer
  rw [← Framing.frames_eq_iff_steady httpFraming_lawful]
  constructor
  · intro h pieces pieces' hne hne' hflatten hflatten'
    have heq := h pieces pieces' hne hne' hflatten hflatten'
    rw [hmessages pieces hne hflatten, hmessages pieces' hne' hflatten'] at heq
    exact frameMessages_inj heq
  · intro h pieces pieces' hne hne' hflatten hflatten'
    rw [hmessages pieces hne hflatten, hmessages pieces' hne' hflatten',
      h pieces pieces' hne hne' hflatten hflatten']

/-- A context with limits of 1000 bytes. -/
def sampleContext : Http1ParseContext := ⟨7, .aToB, 1000, 1000⟩

/-- A message with one chunk, up to the carriage return after the data of the chunk. -/
def chunkedFirst : List UInt8 :=
  utf8 "POST / HTTP/1.1\r\nTransfer-Encoding: chunked\r\n\r\n1\r\na\r".toList

/-- The rest of the message. -/
def chunkedRest : List UInt8 := utf8 "\n0\r\n\r\n".toList

/-- Cut there, the message is an error; as a whole, it is complete. -/
theorem chunked_newline_cut :
    (chunkedFirst ++ chunkedRest).length ≤ sampleContext.max_header_bytes ∧
      (chunkedFirst ++ chunkedRest).length ≤ sampleContext.max_buffer_bytes ∧
      (Http1DirectionState.pushAll {} sampleContext [chunkedFirst, chunkedRest]).2.map
        (fun message => message.status) = [.parseError] ∧
      (Http1DirectionState.pushAll {} sampleContext [chunkedFirst ++ chunkedRest]).2.map
        (fun message => message.status) = [.complete] := by
  decide +kernel

/-- So that message is not steady. -/
theorem pushAll_eq_iff_steady_chunked : ¬ httpFraming.Steady (chunkedFirst ++ chunkedRest) := by
  intro h
  have heq := (pushAll_eq_iff_steady sampleContext (by decide) (chunkedFirst ++ chunkedRest)
    (by decide) (by decide)).mpr h [chunkedFirst, chunkedRest] [chunkedFirst ++ chunkedRest]
    (by decide) (by decide) (by simp) (by simp)
  have hdiffers : (Http1DirectionState.pushAll {} sampleContext [chunkedFirst, chunkedRest]).2 ≠
      (Http1DirectionState.pushAll {} sampleContext [chunkedFirst ++ chunkedRest]).2 := by
    decide +kernel
  exact hdiffers heq

end Rustmate.Message
