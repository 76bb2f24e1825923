import Rustmate.Transform.ChunkList
import Rustmate.Transform.Plan

/-!
# Outputs and the limit

How long the outputs of the transforms are. What a decompressor gives and what WebSocket messages hold is cut at
the limit; URL decoding knows no limit, and behind the head of an HTTP message the limit is that of the body alone,
so that the head comes on top of it. `FitsCap` says which inputs stay within the limit nevertheless.
-/

namespace Rustmate.Transform

open Message (Text findEnd findHeaderEnd findEnd_le)

/-! ## URL escapes -/

/-- How many escapes there are, read from the left. -/
def escapes : List UInt8 → ℕ
  | a :: b :: c :: rest =>
    match percentEscape a b c with
    | some _ => escapes rest + 1
    | none => escapes (b :: c :: rest)
  | _ => 0

/-- A byte that is kept is one byte. -/
theorem UrlDecode.length_keep (self : UrlDecode) (byte : UInt8) :
    (self.keep byte).output.length = self.output.length + 1 := by
  unfold keep
  split_ifs <;> exact List.length_append

/-- Every escape makes one byte of three. -/
theorem UrlDecode.length_loop (input : List UInt8) (self : UrlDecode) :
    (loop input self).output.length + 2 * escapes input = self.output.length + input.length := by
  fun_induction loop input self with
  | case1 self => rfl
  | case2 a self => simp [escapes, length_keep]
  | case3 a b self => simp [escapes, length_keep]
  | case4 a b c rest self byte hescape ih =>
    have hpush : (self.escape byte).output.length = self.output.length + 1 := List.length_append
    simp only [escapes, hescape, List.length_cons]
    omega
  | case5 a b c rest self hescape ih =>
    simp only [escapes, hescape, List.length_cons, length_keep] at ih ⊢
    omega

/-! ## Which inputs stay within the limit -/

/-- How long the head of an HTTP message is, with the blank line after it. -/
def headLength (input : List UInt8) : ℕ := ((findHttpHeaderEnd input).map Prod.snd).getD 0

/-- The limit that a transform would have to keep on its input: with URL escapes as one byte each, and with the
head of an HTTP message and all that its body holds. -/
def FitsCap (gz : Decoder) (input : List UInt8) (cap : ℕ) : StreamTransformApplied → Prop
  | .urlDecode => input.length ≤ cap + 2 * escapes input
  | .httpChunked =>
    headLength input + (chunkData (chunkList (input.drop (headLength input))).1).length ≤ cap
  | .httpGzip =>
    headLength input +
      (gz.reader.gather readSize (cap + 1) (gz.new (input.drop (headLength input)))).length ≤ cap
  | _ => True

/-- The bytes of an outcome are within the limit exactly when the input fits it. -/
def Measured (gz : Decoder) (input : List UInt8) (cap : ℕ) (outcome : TransformOutcome) : Prop :=
  outcome.bytes.length ≤ cap ↔ FitsCap gz input cap outcome.applied

variable {gz deflate : Decoder} {input : List UInt8} {cap : ℕ}

/-- An outcome without bytes is within the limit. -/
theorem measured_of_idle {outcome : TransformOutcome} (h : outcome.Idle) : Measured gz input cap outcome := by
  unfold Measured
  rw [h.bytes, h.applied]
  exact iff_of_true (Nat.zero_le _) trivial

/-- URL decoding keeps what it decodes, however long. -/
theorem urlDecodeTransform_measured : Measured gz input cap (urlDecodeTransform input) := by
  have hlength := UrlDecode.length_loop input {}
  rw [List.length_nil, Nat.zero_add] at hlength
  unfold urlDecodeTransform
  dsimp only
  by_cases hchanged : (!(UrlDecode.loop input {}).changed) = true
  · rw [if_pos hchanged]
    exact measured_of_idle (TransformOutcome.noop_idle _)
  · rw [if_neg hchanged]
    unfold Measured FitsCap
    dsimp only
    omega

/-- What a decompressor gives is cut at the limit. -/
theorem gzipTransform_length_le (gz : Decoder) (input : List UInt8) (cap : ℕ) :
    (gzipTransform gz input cap).bytes.length ≤ cap := by
  unfold gzipTransform
  split_ifs
  · exact Nat.zero_le _
  · split
    · rename_i read hread
      dsimp only
      rw [readLimited_bytes hread, List.length_take]
      exact Nat.min_le_left _ _
    · exact Nat.zero_le _

/-- A decompressor on its own is measured. -/
theorem gzipTransform_measured :
    Measured gz input cap ((gzipTransform gz input cap).mapApplied .gzip) := by
  have hle := gzipTransform_length_le gz input cap
  unfold TransformOutcome.mapApplied
  split_ifs with hstatus
  · exact iff_of_true hle trivial
  · refine iff_of_true hle ?_
    unfold gzipTransform at hstatus ⊢
    split_ifs at hstatus ⊢
    · trivial
    · split at hstatus
      · exact absurd rfl hstatus
      · trivial

/-- The head of an HTTP message is in the input, and is not empty. -/
theorem httpHeader_bounds {header_text : Text} {header_end : ℕ}
    (h : httpHeader input = .ok (header_text, header_end)) :
    header_end = headLength input ∧ 0 < header_end ∧ header_end ≤ input.length := by
  unfold httpHeader at h
  cases hfound : findHttpHeaderEnd input with
  | none =>
    simp only [hfound] at h
    cases h
  | some found =>
    obtain ⟨len, total⟩ := found
    have hpos := Message.findEnd_pos (List.cons_ne_nil _ _) (List.cons_ne_nil _ _) hfound
    have hle := findEnd_le hfound
    simp only [hfound] at h
    split at h
    · cases h
    · split_ifs at h
      injection h with h
      injection h with htext hend
      subst hend
      refine ⟨?_, by omega, hle.2⟩
      unfold headLength
      rw [hfound]
      rfl

/-- Bytes behind a head that are cut at the limit are within it, together with the head, when the bytes that are
not cut are. -/
theorem length_head_append {header_end : ℕ} (hpos : 0 < header_end) (hle : header_end ≤ input.length)
    (bytes : List UInt8) :
    (input.take header_end ++ bytes.take cap).length ≤ cap ↔ header_end + bytes.length ≤ cap := by
  rw [List.length_append, List.length_take, List.length_take]
  omega

/-- Decoded chunks are shown behind the head, which is not counted. -/
theorem httpChunkedTransform_measured : Measured gz input cap (httpChunkedTransform input cap) := by
  unfold httpChunkedTransform
  cases hheader : httpHeader input with
  | error note => exact measured_of_idle (TransformOutcome.noop_idle _)
  | ok header =>
    obtain ⟨header_text, header_end⟩ := header
    obtain ⟨hlength, hpos, hle⟩ := httpHeader_bounds hheader
    dsimp only
    split_ifs
    · exact measured_of_idle (TransformOutcome.noop_idle _)
    · cases hdecoded : decodeChunkedBody (input.drop header_end) cap with
      | error err => exact measured_of_idle (TransformOutcome.failed_idle _)
      | ok decoded =>
        dsimp only
        split_ifs
        · rw [decodeChunkedBody_eq_collect] at hdecoded
          have hbytes := ChunkedDecode.collect_bytes (Nat.zero_le _) hdecoded
          rw [List.nil_append] at hbytes
          unfold Measured FitsCap
          rw [hbytes, ← hlength]
          exact length_head_append hpos hle _
        · exact measured_of_idle (TransformOutcome.noop_idle _)

/-- What a decompressor gives is shown behind the head, which is not counted. -/
theorem httpGzipTransform_measured : Measured gz input cap (httpGzipTransform gz input cap) := by
  unfold httpGzipTransform
  cases hheader : httpHeader input with
  | error note => exact measured_of_idle (TransformOutcome.noop_idle _)
  | ok header =>
    obtain ⟨header_text, header_end⟩ := header
    obtain ⟨hlength, hpos, hle⟩ := httpHeader_bounds hheader
    dsimp only
    split_ifs with hencoding hstatus
    · exact measured_of_idle (TransformOutcome.noop_idle _)
    · exact measured_of_idle (TransformOutcome.failed_idle _)
    · unfold gzipTransform at hstatus ⊢
      by_cases hgzip : (!isGzip (input.drop header_end)) = true
      · rw [if_pos hgzip] at hstatus
        exact absurd nofun hstatus
      rw [if_neg hgzip] at hstatus ⊢
      cases hread : readLimited gz.reader (gz.new (input.drop header_end)) cap with
      | error err =>
        rw [hread] at hstatus
        exact absurd nofun hstatus
      | ok read =>
        have hbytes := readLimited_bytes hread
        unfold Measured FitsCap
        dsimp only
        rw [hbytes, ← hlength]
        exact length_head_append hpos hle _

/-! ## WebSocket messages -/

/-- Bytes that are added up to the limit stay within it. -/
theorem length_appendLimited_le {out : List UInt8} (h : out.length ≤ cap) (bytes : List UInt8) :
    (appendLimited out bytes cap).length ≤ cap := by
  rw [ChunkedDecode.appendLimited_eq h, List.length_take]
  exact Nat.min_le_left _ _

/-- What the transform of WebSocket messages returns: nothing, or its output up to the limit. -/
def WebSocketWithin (cap : ℕ) (outcome : TransformOutcome) : Prop :=
  outcome.Idle ∨ outcome.applied = .webSocketDeflate ∧ outcome.bytes.length ≤ cap

namespace WebSocketDeflateState

variable {self : WebSocketDeflateState}

/-- A message leaves the output within the limit. -/
theorem onMessage_within (h : self.output.length ≤ cap) (message : WebSocketMessageBuffer) :
    match self.onMessage deflate cap message with
    | .error returned => WebSocketWithin cap returned
    | .ok next => next.output.length ≤ cap := by
  have hfeed : (if self.output.isEmpty then self.output
      else appendLimited self.output [10] cap).length ≤ cap := by
    split_ifs
    · exact h
    · exact length_appendLimited_le h _
  unfold onMessage
  cases messageBytes deflate message cap with
  | error err => exact .inl (TransformOutcome.failed_idle _)
  | ok bytes =>
    have houtput := length_appendLimited_le hfeed bytes
    dsimp only
    by_cases hmet : cap ≤ (appendLimited (if self.output.isEmpty then self.output
        else appendLimited self.output [10] cap) bytes cap).length
    · rw [if_pos hmet]
      exact .inr ⟨rfl, houtput⟩
    · rw [if_neg hmet]
      exact houtput

/-- A frame leaves the output within the limit. -/
theorem onFrame_within (deflate : Decoder) (self : WebSocketDeflateState) (h : self.output.length ≤ cap)
    (frame : WebSocketFrame) :
    match self.onFrame deflate cap frame with
    | .error returned => WebSocketWithin cap returned
    | .ok next => next.output.length ≤ cap := by
  unfold onFrame
  by_cases hcontrol : 2 < frame.opcode
  · rw [if_pos hcontrol]
    exact h
  rw [if_neg hcontrol]
  cases hjoin : self.joinFrame frame with
  | ok message =>
    dsimp only
    by_cases hfin : frame.fin = true
    · rw [if_pos hfin]
      exact onMessage_within h message
    · rw [if_neg hfin]
      exact h
  | error returned =>
    -- The frame does not follow those before it.
    unfold joinFrame at hjoin
    split_ifs at hjoin
    · cases hmessage : self.current_message with
      | none =>
        rw [hmessage] at hjoin
        injection hjoin with hjoin
        exact .inl (hjoin ▸ TransformOutcome.failed_idle _)
      | some message =>
        rw [hmessage] at hjoin
        cases hjoin
    · injection hjoin with hjoin
      exact .inl (hjoin ▸ TransformOutcome.failed_idle _)

/-- At the end the output is within the limit. -/
theorem finish_within (h : self.output.length ≤ cap) : WebSocketWithin cap self.finish := by
  unfold finish
  split_ifs
  · exact .inl (TransformOutcome.failed_idle _)
  · exact .inl (TransformOutcome.noop_idle _)
  · exact .inr ⟨rfl, h⟩

/-- Whatever the frames, the output is within the limit. -/
theorem loop_within (fuel : ℕ) (h : self.output.length ≤ cap) :
    WebSocketWithin cap (self.loop deflate cap fuel) := by
  induction fuel generalizing self with
  | zero => exact finish_within h
  | succ fuel ih =>
    unfold loop
    cases self.parser.nextFrame with
    | error err => exact .inl (TransformOutcome.failed_idle _)
    | ok next =>
      cases next with
      | none => exact finish_within h
      | some read =>
        obtain ⟨frame, parser⟩ := read
        have hframe := onFrame_within deflate { self with parser } h frame
        dsimp only
        cases hstep : onFrame deflate cap { self with parser } frame with
        | error returned =>
          rw [hstep] at hframe
          exact hframe
        | ok self' =>
          rw [hstep] at hframe
          exact ih hframe

end WebSocketDeflateState

/-- WebSocket messages are cut at the limit. -/
theorem websocketDeflateTransform_measured :
    Measured gz input cap (websocketDeflateTransform deflate input cap) := by
  have hwithin : WebSocketWithin cap (websocketDeflateTransform deflate input cap) :=
    WebSocketDeflateState.loop_within _ (Nat.zero_le _)
  rcases hwithin with hidle | ⟨happlied, hle⟩
  · exact measured_of_idle hidle
  · unfold Measured
    rw [happlied]
    exact iff_of_true hle trivial

/-! ## Steps -/

/-- What `auto` chooses is measured. -/
theorem autoTransform_measured : Measured gz input cap (autoTransform gz deflate input cap) := by
  unfold autoTransform
  dsimp only
  split_ifs
  · exact httpChunkedTransform_measured
  · exact httpGzipTransform_measured
  · exact gzipTransform_measured
  · exact websocketDeflateTransform_measured
  · exact urlDecodeTransform_measured
  · exact measured_of_idle (TransformOutcome.noop_idle _)

/-- The output of a step is within the limit exactly when its input fits it. -/
theorem stepOutcome_measured (chained : Bool) (mode : StreamTransformMode) :
    Measured gz input cap (stepOutcome gz deflate chained cap input mode) := by
  unfold stepOutcome
  split_ifs
  · exact measured_of_idle (TransformOutcome.noop_idle _)
  · unfold transformStep
    cases mode with
    | auto => exact autoTransform_measured
    | urlDecode => exact urlDecodeTransform_measured
    | gzip => exact gzipTransform_measured
    | httpChunked => exact httpChunkedTransform_measured
    | httpGzip => exact httpGzipTransform_measured
    | webSocketDeflate => exact websocketDeflateTransform_measured

/-! ## Plans -/

section Plans

variable (gz deflate)

/-- The steps that a plan takes, each with its input: what the last applied step has left. A step that fails is
the last one. -/
def executed (chained : Bool) (cap : ℕ) :
    List UInt8 → List StreamTransformMode → List (StreamTransformMode × List UInt8)
  | _, [] => []
  | current, mode :: modes =>
    let outcome := stepOutcome gz deflate chained cap current mode
    (mode, current) ::
      match outcome.status with
      | .applied => executed chained cap outcome.bytes modes
      | .noop => executed chained cap current modes
      | .failed => []

end Plans

variable {chained : Bool}

namespace PlanState

variable {self : PlanState} {mode : StreamTransformMode} {outcome : TransformOutcome}

/-- The lengths of the outputs of the steps that were taken. -/
def lengths (self : PlanState) : List ℕ := self.steps.map StreamTransformStep.output_bytes

/-- A step is reported, whatever its outcome. -/
theorem step_lengths (h : stepOutcome gz deflate chained cap self.current mode = outcome) :
    (self.step gz deflate chained cap mode).lengths = self.lengths ++ [outcome.bytes.length] := by
  unfold lengths step
  rw [h]
  cases hstatus : outcome.status <;> simp [hstatus]

/-- A step that is applied leaves its output. -/
theorem step_applied (h : stepOutcome gz deflate chained cap self.current mode = outcome)
    (hstatus : outcome.status = .applied) :
    (self.step gz deflate chained cap mode).failed = self.failed ∧
      (self.step gz deflate chained cap mode).current = outcome.bytes := by
  unfold step
  rw [h]
  simp only [hstatus, and_self]

/-- A step that does nothing leaves its input. -/
theorem step_noop (h : stepOutcome gz deflate chained cap self.current mode = outcome)
    (hstatus : outcome.status = .noop) :
    (self.step gz deflate chained cap mode).failed = self.failed ∧
      (self.step gz deflate chained cap mode).current = self.current ∧
      (self.step gz deflate chained cap mode).applied_count = self.applied_count := by
  unfold step
  rw [h]
  simp only [hstatus, and_self]

/-- A step that fails is noted. -/
theorem step_failed (h : stepOutcome gz deflate chained cap self.current mode = outcome)
    (hstatus : outcome.status = .failed) : (self.step gz deflate chained cap mode).failed = true := by
  unfold step
  rw [h]
  simp only [hstatus]

/-- The loop reports the steps that it takes. -/
theorem loop_lengths (hrunning : self.failed = false) (modes : List StreamTransformMode) :
    (self.loop gz deflate chained cap modes).lengths =
      self.lengths ++ (executed gz deflate chained cap self.current modes).map fun step =>
        (stepOutcome gz deflate chained cap step.2 step.1).bytes.length := by
  induction modes generalizing self with
  | nil => simp [loop, executed]
  | cons mode modes ih =>
    unfold loop executed
    cases hstatus : (stepOutcome gz deflate chained cap self.current mode).status with
    | applied =>
      obtain ⟨hfailed, hcurrent⟩ := step_applied rfl hstatus
      rw [hrunning] at hfailed
      simp only [hstatus]
      rw [hfailed, if_neg Bool.false_ne_true, ih hfailed, step_lengths rfl, hcurrent, List.map_cons,
        List.append_assoc, List.singleton_append]
    | noop =>
      obtain ⟨hfailed, hcurrent, -⟩ := step_noop rfl hstatus
      rw [hrunning] at hfailed
      simp only [hstatus]
      rw [hfailed, if_neg Bool.false_ne_true, ih hfailed, step_lengths rfl, hcurrent, List.map_cons,
        List.append_assoc, List.singleton_append]
    | failed =>
      simp only [hstatus]
      rw [step_failed rfl hstatus, if_pos rfl, step_lengths rfl, List.map_cons, List.map_nil]

/-- What an applied step has left is the output of a step. -/
def Held (self : PlanState) : Prop := self.applied_count ≠ 0 → self.current.length ∈ self.lengths

/-- A step that does not fail keeps it. -/
theorem Held.step (h : self.Held) (hrunning : (self.step gz deflate chained cap mode).failed = false) :
    (self.step gz deflate chained cap mode).Held := by
  unfold Held
  rw [step_lengths rfl]
  intro hcount
  cases hstatus : (stepOutcome gz deflate chained cap self.current mode).status with
  | applied =>
    rw [(step_applied rfl hstatus).2]
    exact List.mem_append_right _ (List.mem_singleton_self _)
  | noop =>
    obtain ⟨-, hcurrent, hsame⟩ := step_noop rfl hstatus
    rw [hsame] at hcount
    rw [hcurrent]
    exact List.mem_append_left _ (h hcount)
  | failed =>
    rw [step_failed rfl hstatus] at hrunning
    cases hrunning

/-- The loop keeps it, unless a step fails. -/
theorem Held.loop (h : self.Held) (modes : List StreamTransformMode)
    (hrunning : (self.loop gz deflate chained cap modes).failed = false) :
    (self.loop gz deflate chained cap modes).Held := by
  induction modes generalizing self with
  | nil => exact h
  | cons mode modes ih =>
    unfold PlanState.loop at hrunning ⊢
    dsimp only at hrunning ⊢
    cases hfailed : (self.step gz deflate chained cap mode).failed with
    | true =>
      rw [hfailed, if_pos rfl, hfailed] at hrunning
      cases hrunning
    | false =>
      rw [hfailed, if_neg Bool.false_ne_true] at hrunning
      rw [if_neg Bool.false_ne_true]
      exact ih (h.step hfailed) hrunning

/-- The bytes of the whole plan are none, or the output of a step. -/
theorem outcome_length (h : self.failed = false → self.Held) :
    self.outcome.bytes.length = 0 ∨ self.outcome.bytes.length ∈ self.lengths := by
  unfold outcome
  dsimp only
  cases hfailed : self.failed with
  | true => exact .inl rfl
  | false =>
    by_cases hcount : self.applied_count = 0
    · simp [hcount]
    · right
      simpa [hcount] using h hfailed hcount

end PlanState

/-- The outputs of a plan and of its steps are within the limit exactly when every step that is taken finds an
input that fits the limit. -/
theorem applyTransformPlan_within_iff (gz deflate : Decoder) (slice : StreamContentSlice)
    (plan : List StreamTransformMode) (view_mode : StreamSliceMode) (config : StreamTransformConfig) :
    let cap := max config.max_output_bytes 1
    let chained : Bool := 1 < plan.length
    let output := applyTransformPlan gz deflate slice plan view_mode config
    (output.output_bytes ≤ cap ∧ ∀ step ∈ output.steps, step.output_bytes ≤ cap) ↔
      ∀ step ∈ executed gz deflate chained cap slice.concatenatedBytes plan,
        FitsCap gz step.2 cap (stepOutcome gz deflate chained cap step.2 step.1).applied := by
  intro cap chained output
  cases plan with
  | nil => exact iff_of_true ⟨Nat.zero_le _, nofun⟩ nofun
  | cons mode modes =>
    generalize hstate : PlanState.loop gz deflate chained cap { current := slice.concatenatedBytes }
      (mode :: modes) = state
    have hsteps : output.steps = state.steps := by
      rw [← hstate]
      rfl
    have hbytes : output.output_bytes = state.outcome.bytes.length := by
      rw [← hstate]
      rfl
    have hlengths : state.lengths = (executed gz deflate chained cap slice.concatenatedBytes
        (mode :: modes)).map fun step =>
          (stepOutcome gz deflate chained cap step.2 step.1).bytes.length := by
      rw [← hstate, PlanState.loop_lengths rfl]
      rfl
    have hheld : state.failed = false → state.Held := by
      rw [← hstate]
      exact PlanState.Held.loop (fun hcount => absurd rfl hcount) _
    have hall : (∀ step ∈ state.steps, step.output_bytes ≤ cap) ↔ ∀ n ∈ state.lengths, n ≤ cap := by
      unfold PlanState.lengths
      rw [List.forall_mem_map]
    rw [hsteps, hbytes, hall]
    -- The bytes of the plan are those of a step.
    have hlast : (∀ n ∈ state.lengths, n ≤ cap) → state.outcome.bytes.length ≤ cap := by
      intro hle
      rcases PlanState.outcome_length hheld with hzero | hmem
      · rw [hzero]
        exact Nat.zero_le _
      · exact hle _ hmem
    rw [and_iff_right_of_imp hlast, hlengths, List.forall_mem_map]
    exact forall₂_congr fun step _ => stepOutcome_measured chained step.1

/-- A slice of one segment. -/
def textSlice (text : String) : StreamContentSlice :=
  ⟨[⟨0, text.length, Message.utf8 text.toList⟩]⟩

/-- With one byte allowed, URL decoding shows three, and a chunked message of one byte is shown behind its
head, whatever the decompressors do. -/
theorem applyTransformPlan_beyond :
    (∀ gz deflate : Decoder,
      (applyTransformPlan gz deflate (textSlice "a+b") [.urlDecode] .raw ⟨1, 16⟩).output_bytes = 3) ∧
    (∀ gz deflate : Decoder, (applyTransformPlan gz deflate
      (textSlice "HTTP/1.1 200 OK\nTransfer-Encoding: chunked\n\n1\na\n0\n\n") [.auto] .raw
        ⟨1, 16⟩).output_bytes = 45) := by
  constructor
  · intro gz deflate
    rfl
  · intro gz deflate
    rfl

end Rustmate.Transform
