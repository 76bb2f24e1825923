import Rustmate.Content.Store
import Rustmate.Lib.Occurrences

/-!
# The pattern engine

`PatternEngine` of `src/pattern.rs`: each range that the content store reports is scanned together with the
bytes just before it, and a match counts when it touches the new range. The automaton for the literal
patterns and the regular expressions come from other libraries.
-/

namespace Rustmate.Pattern

open Content

/-! ## What other libraries provide -/

/-- A match of the automaton: the number of the needle, and where it begins and ends. -/
structure LiteralMatch where
  pattern : ℕ
  start : ℕ
  stop : ℕ
  deriving DecidableEq, Repr

/-- The automaton of `aho_corasick` and the regular expressions of `regex`. -/
structure MatchLibrary where
  Automaton : Type
  build : List (List UInt8) → Option Automaton
  findOverlappingIter : Automaton → List UInt8 → List LiteralMatch
  Regex : Type
  newRegex : String → Option Regex
  findIter : Regex → List UInt8 → List (ℕ × ℕ)

/-- An automaton reports the occurrences of its needles. -/
def MatchLibrary.ReportsOccurrences (lib : MatchLibrary) : Prop :=
  ∀ needles automaton, lib.build needles = some automaton → ∀ haystack m,
    m ∈ lib.findOverlappingIter automaton haystack ↔
      ∃ needle, needles[m.pattern]? = some needle ∧ Occurs needle haystack m.start m.stop

/-- A regular expression matches parts of what it is given. -/
def MatchLibrary.MatchesWithin (lib : MatchLibrary) : Prop :=
  ∀ regex haystack m, m ∈ lib.findIter regex haystack → m.1 ≤ m.2 ∧ m.2 ≤ haystack.length

/-! ## Patterns -/

inductive PatternDefinitionKind where
  | substring (bytes : List UInt8)
  | binary (bytes : List UInt8)
  | regex (pattern : String)
  deriving DecidableEq, Repr

structure PatternDefinition where
  id : String
  name : String
  kind : PatternDefinitionKind
  deriving DecidableEq, Repr

inductive PatternKind (Regex : Type) where
  | substring
  | binary
  | regex (regex : Regex)

structure CompiledPattern (Regex : Type) where
  id : String
  name : String
  kind : PatternKind Regex

structure PatternSet (lib : MatchLibrary) where
  patterns : List (CompiledPattern lib.Regex)
  literal_indices : List ℕ
  literal_automaton : Option lib.Automaton
  max_literal_len : ℕ

structure PatternEngineConfig (lib : MatchLibrary) where
  enabled : Bool
  set : PatternSet lib
  max_matches_per_stream : ℕ
  max_total_matches : ℕ
  regex_window_bytes : ℕ

structure PatternEngineStats where
  pattern_matches : ℕ := 0
  pattern_dropped_matches : ℕ := 0
  pattern_matched_streams : ℕ := 0
  deriving DecidableEq, Repr

structure PatternEngine (lib : MatchLibrary) where
  config : PatternEngineConfig lib
  matches_by_stream : Table (BitVec 64) ℕ
  stats : PatternEngineStats

structure NewRange where
  start : ℕ
  stop : ℕ
  deriving DecidableEq, Repr

structure MatchKey where
  pattern_index : ℕ
  stream_id : BitVec 64
  direction : FlowDirection
  start : ℕ
  stop : ℕ
  deriving DecidableEq, Repr

structure CandidateMatch where
  pattern_index : ℕ
  start : ℕ
  stop : ℕ
  deriving DecidableEq, Repr

/-- The event of a match: the fields that it takes from the packet, and those of `pattern_fields`. The
bytes stand for `match_base64`. -/
structure PatternEvent where
  timestamp : PacketTimestamp
  protocol : Option TransportProtocol
  source_addr : Option IpAddr
  destination_addr : Option IpAddr
  source_port : Option (BitVec 16)
  destination_port : Option (BitVec 16)
  pattern_index : ℕ
  stream_id : BitVec 64
  pattern_id : String
  pattern_name : String
  pattern_type : String
  direction : FlowDirection
  logical_start : ℕ
  logical_end : ℕ
  match_len : ℕ
  match_bytes : List UInt8
  match_text : Option String
  deriving DecidableEq, Repr

/-- What a definition looks for literally. -/
def PatternDefinition.needle (self : PatternDefinition) : Option (List UInt8) :=
  match self.kind with
  | .substring bytes => some bytes
  | .binary bytes => some bytes
  | .regex _ => none

/-- `PatternKind::as_str`. -/
def PatternKind.asStr {Regex : Type} : PatternKind Regex → String
  | .substring => "substring"
  | .binary => "binary"
  | .regex _ => "regex"

/-- `PatternSet::empty`. -/
def PatternSet.empty (lib : MatchLibrary) : PatternSet lib := ⟨[], [], none, 0⟩

/-- What the loop of `PatternSet::compile` has collected. -/
structure CompileState (Regex : Type) where
  patterns : List (CompiledPattern Regex) := []
  literal_indices : List ℕ := []
  literal_needles : List (List UInt8) := []
  max_literal_len : ℕ := 0

/-- A literal pattern joins the others. -/
def CompileState.pushLiteral {Regex : Type} (self : CompileState Regex)
    (definition : PatternDefinition) (kind : PatternKind Regex) (bytes : List UInt8) :
    CompileState Regex where
  patterns := self.patterns ++ [⟨definition.id, definition.name, kind⟩]
  literal_indices := self.literal_indices ++ [self.patterns.length]
  literal_needles := self.literal_needles ++ [bytes]
  max_literal_len := max self.max_literal_len bytes.length

/-- One turn of the loop of `PatternSet::compile`. -/
def compileStep (lib : MatchLibrary) (self : CompileState lib.Regex)
    (definition : PatternDefinition) : Except String (CompileState lib.Regex) :=
  match definition.kind with
  | .substring bytes =>
    if bytes.isEmpty then .error ("substring pattern '" ++ definition.id ++ "' is empty")
    else .ok (self.pushLiteral definition .substring bytes)
  | .binary bytes =>
    if bytes.isEmpty then .error ("binary pattern '" ++ definition.id ++ "' is empty")
    else .ok (self.pushLiteral definition .binary bytes)
  | .regex pattern =>
    match lib.newRegex pattern with
    | none => .error ("failed to compile regex pattern: " ++ pattern)
    | some regex =>
      .ok { self with
        patterns := self.patterns ++ [⟨definition.id, definition.name, .regex regex⟩] }

/-- `PatternSet::compile`. -/
def PatternSet.compile (lib : MatchLibrary) (definitions : List PatternDefinition) :
    Except String (PatternSet lib) := do
  let state ← definitions.foldlM (compileStep lib) {}
  if state.literal_needles.isEmpty then
    return ⟨state.patterns, state.literal_indices, none, state.max_literal_len⟩
  else
    match lib.build state.literal_needles with
    | none => .error "failed to build literal pattern automaton"
    | some automaton =>
      return ⟨state.patterns, state.literal_indices, some automaton, state.max_literal_len⟩

namespace PatternEngineConfig

variable {lib : MatchLibrary}

/-- `PatternEngineConfig::disabled`. -/
def disabled (lib : MatchLibrary) : PatternEngineConfig lib := ⟨false, .empty lib, 0, 0, 0⟩

/-- `PatternEngineConfig::compile`. -/
def compile (lib : MatchLibrary) (definitions : List PatternDefinition)
    (max_matches_per_stream max_total_matches regex_window_bytes : ℕ) :
    Except String (PatternEngineConfig lib) :=
  if definitions.isEmpty || max_matches_per_stream = 0 || max_total_matches = 0 then
    .ok (disabled lib)
  else do
    let set ← PatternSet.compile lib definitions
    return ⟨true, set, max_matches_per_stream, max_total_matches, regex_window_bytes⟩

/-- `lookbehind_bytes`: how far before a new range a match that touches it may begin. -/
def lookbehindBytes (self : PatternEngineConfig lib) : ℕ :=
  max (self.set.max_literal_len - 1) self.regex_window_bytes

end PatternEngineConfig

/-! ## Scanning -/

/-- `is_textish`. -/
def isTextish (byte : UInt8) : Bool :=
  byte = 10 || byte = 13 || byte = 9 || (0x20 ≤ byte && byte ≤ 0x7e)

/-- `preview_text`. -/
def previewText (bytes : List UInt8) : Option String :=
  if bytes.isEmpty || !bytes.all isTextish then none
  else
    some (String.join (bytes.map fun byte =>
      if byte = 10 then "\\n"
      else if byte = 13 then "\\r"
      else if byte = 9 then "\\t"
      else String.singleton (Char.ofNat byte.toNat)))

/-- What a scan changes: the engine, the events, and the matches already met in this update. -/
structure ScanState (lib : MatchLibrary) where
  engine : PatternEngine lib
  events : List PatternEvent
  emitted : List MatchKey

namespace PatternEngine

variable {lib : MatchLibrary}

/-- `PatternEngine::new`. -/
def new (config : PatternEngineConfig lib) : PatternEngine lib := ⟨config, ∅, {}⟩

/-- The matches dropped so far, with one more. -/
def dropMatch (self : PatternEngine lib) : PatternEngine lib :=
  { self with stats := { self.stats with
      pattern_dropped_matches := saturatingAdd self.stats.pattern_dropped_matches 1 } }

/-- `reserve_match`: whether the limits leave room for one more match. -/
def reserveMatch (self : PatternEngine lib) (stream_id : BitVec 64) : PatternEngine lib × Bool :=
  if self.config.max_total_matches ≤ self.stats.pattern_matches then (self.dropMatch, false)
  else
    let stream_matches := (self.matches_by_stream.lookup stream_id).getD 0
    if self.config.max_matches_per_stream ≤ stream_matches then
      ({ self.dropMatch with
        matches_by_stream := self.matches_by_stream.insert stream_id stream_matches }, false)
    else
      ({ self with
        matches_by_stream :=
          self.matches_by_stream.insert stream_id (saturatingAdd stream_matches 1)
        stats := { self.stats with
          pattern_matches := saturatingAdd self.stats.pattern_matches 1 } }, true)

/-- `pattern_fields`, with what `Event::from_packet` takes from the packet. -/
def patternEvent (packet : DecodedPacket) (pattern_index : ℕ) (pattern : CompiledPattern lib.Regex)
    (window : StreamContentWindow) (absolute_start absolute_end : ℕ) (bytes : List UInt8) :
    PatternEvent where
  timestamp := packet.timestamp
  protocol := packet.transport_payload.map fun transport => transport.protocol
  source_addr := packet.ip_addresses.1
  destination_addr := packet.ip_addresses.2
  source_port := packet.transport_payload.bind fun transport => transport.source_port
  destination_port := packet.transport_payload.bind fun transport => transport.destination_port
  pattern_index := pattern_index
  stream_id := window.stream_id
  pattern_id := pattern.id
  pattern_name := pattern.name
  pattern_type := pattern.kind.asStr
  direction := window.direction
  logical_start := absolute_start
  logical_end := absolute_end
  match_len := bytes.length
  match_bytes := bytes
  match_text := previewText bytes

/-- The match that a candidate of a window stands for, when it is not empty and touches the new range. -/
def matchKey (window : StreamContentWindow) (new_range : NewRange) (candidate : CandidateMatch) :
    Option MatchKey :=
  if candidate.start = candidate.stop then none
  else
    let absolute_start := saturatingAdd window.logical_start candidate.start
    let absolute_end := saturatingAdd window.logical_start candidate.stop
    if new_range.stop ≤ absolute_start || absolute_end ≤ new_range.start then none
    else
      some
        { pattern_index := candidate.pattern_index
          stream_id := window.stream_id
          direction := window.direction
          start := absolute_start
          stop := absolute_end }

/-- `emit_match_if_new`. -/
def emitMatchIfNew (packet : DecodedPacket) (window : StreamContentWindow) (new_range : NewRange)
    (st : ScanState lib) (candidate : CandidateMatch) : ScanState lib :=
  match matchKey window new_range candidate with
  | none => st
  | some key =>
    if key ∈ st.emitted then st
    else
      let st := { st with emitted := key :: st.emitted }
      let (engine, reserved) := st.engine.reserveMatch window.stream_id
      if !reserved then { st with engine }
      else
        match engine.config.set.patterns[candidate.pattern_index]? with
        | none => { st with engine }
        | some pattern =>
          let bytes :=
            (window.bytes.drop candidate.start).take (candidate.stop - candidate.start)
          { st with
            engine
            events := st.events ++
              [patternEvent packet candidate.pattern_index pattern window key.start key.stop bytes] }

/-- What the automaton finds in a window. -/
def literalCandidates (set : PatternSet lib) (bytes : List UInt8) : List CandidateMatch :=
  match set.literal_automaton with
  | none => []
  | some automaton =>
    (lib.findOverlappingIter automaton bytes).filterMap fun m =>
      set.literal_indices[m.pattern]?.map fun pattern_index => ⟨pattern_index, m.start, m.stop⟩

/-- What the regular expressions find in a window. -/
def regexCandidates (set : PatternSet lib) (bytes : List UInt8) : List CandidateMatch :=
  set.patterns.zipIdx.flatMap fun (pattern, pattern_index) =>
    match pattern.kind with
    | .regex regex => (lib.findIter regex bytes).map fun m => ⟨pattern_index, m.1, m.2⟩
    | _ => []

/-- The candidates in a window, in the order in which `scan_window` meets them. -/
def candidates (set : PatternSet lib) (bytes : List UInt8) : List CandidateMatch :=
  literalCandidates set bytes ++ regexCandidates set bytes

/-- `scan_window`. -/
def scanWindow (packet : DecodedPacket) (new_range : NewRange) (st : ScanState lib)
    (window : StreamContentWindow) : ScanState lib :=
  (candidates st.engine.config.set window.bytes).foldl (emitMatchIfNew packet window new_range) st

/-- The part of `scan_update` that scans one range. -/
def scanRange (packet : DecodedPacket) (content : StreamContent) (key : FlowKey) (lookbehind : ℕ)
    (st : ScanState lib) (range : StreamContentRange) : ScanState lib :=
  match content.directionWindows key range.direction (range.logical_start - lookbehind)
      range.logical_end with
  | none => st
  | some windows =>
    windows.foldl (scanWindow packet ⟨range.logical_start, range.logical_end⟩) st

/-- `scan_update`: the engine afterwards and the events with the new ones at the end. -/
def scanUpdate (self : PatternEngine lib) (packet : DecodedPacket) (content : StreamContent)
    (update : StreamContentUpdate) (events : List PatternEvent) :
    PatternEngine lib × List PatternEvent :=
  if !self.config.enabled then (self, events)
  else
    let st := update.ranges.foldl
      (scanRange packet content update.key self.config.lookbehindBytes) ⟨self, events, []⟩
    (st.engine, st.events)

/-- `stats`. -/
def currentStats (self : PatternEngine lib) : PatternEngineStats :=
  { self.stats with pattern_matched_streams := self.matches_by_stream.size }

end PatternEngine

end Rustmate.Pattern
