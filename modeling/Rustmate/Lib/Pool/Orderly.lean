import Mathlib.Data.List.Perm.Subperm
import Rustmate.Lib.Pool.Moves

/-!
# Nobody finds a channel closed

The servers hand items to servers of later stages only, and the stages are stopped one after the other. So
whoever may still get an item is there to take it, and the dispatcher is there to be told.
-/

namespace Rustmate.Pool

variable {ι : Type} {D : Design ι}

/-! ## Designs -/

/-- The work offers items only to servers that have the property, and fails only where such a server is gone. -/
def Work.Sound {Item : ι → Type} {Event σ : Type} (P : ι → Prop) : Work Item Event σ → Prop
  | .done _ _ => True
  | .fail => False
  | .offer dest _ next => P dest ∧ ∀ offered, offered ≠ .closed → (next offered).Sound P
  | .send dest _ next => P dest ∧ (next true).Sound P

/-- The stages of a design are in order: a server offers items to later stages only, and every server belongs to
the group of its stage. No channel is without room when it is empty. -/
structure Design.Staged (D : Design ι) : Prop where
  sound : ∀ p state item, (D.handle p state item).Sound fun q => D.rank p < D.rank q
  group : ∀ k p, p ∈ D.group k ↔ D.rank p = k
  nodup : ∀ k, (D.group k).Nodup
  rank_lt : ∀ p, D.rank p < D.stages
  depth_pos : ∀ p, 0 < D.depth p
  capacity_pos : 0 < D.capacity

/-! ## What each server was told -/

/-- The server was told to stop, or all of its stage were. -/
def Stage.Signalled (stage : Stage D) (p : ι) : Prop :=
  match stage with
  | .signalling k rest _ => D.rank p < k ∨ D.rank p = k ∧ p ∉ rest
  | .drainingDown k q rest _ => D.rank p < k ∨ D.rank p = k ∧ p ∉ q :: rest
  | .receiving k _ => D.rank p ≤ k
  | .joining k _ => D.rank p ≤ k
  | .finished => True
  | _ => False

/-- The dispatcher has the last reports of all servers of the stage. -/
def Stage.Over (stage : Stage D) (p : ι) : Prop :=
  match stage with
  | .signalling k _ _ => D.rank p < k
  | .drainingDown k _ _ _ => D.rank p < k
  | .receiving k _ => D.rank p < k
  | .joining k _ => D.rank p ≤ k
  | .finished => True
  | _ => False

/-- When a server was told to stop, all earlier stages are over. -/
theorem Stage.Signalled.isOver {stage : Stage D} {p q : ι} (h : stage.Signalled q) (hlt : D.rank p < D.rank q) :
    stage.Over p := by
  cases stage <;> simp only [Stage.Signalled, Stage.Over] at h ⊢ <;> omega

theorem Stage.Running.not_signalled {stage : Stage D} (h : stage.Running) (p : ι) : ¬ stage.Signalled p := by
  cases stage <;> simp_all [Stage.Running, Stage.Signalled]

theorem Stage.Running.not_over {stage : Stage D} (h : stage.Running) (p : ι) : ¬ stage.Over p := by
  cases stage <;> simp_all [Stage.Running, Stage.Over]

/-- The run ends: nobody was told to stop yet. -/
theorem Stage.not_signalled_stop (hgroup : ∀ k p, p ∈ D.group k ↔ D.rank p = k) (received : ℕ) (p : ι) :
    ¬ (Stage.signalling 0 (D.group 0) received : Stage D).Signalled p := by
  simp [Stage.Signalled, hgroup]

/-! ## The inbox of a server -/

/-- A command that asks for nothing but an answer. -/
def Command.IsQuery {p : ι} : Command D p → Prop
  | .query _ => True
  | _ => False

/-- Nothing but questions comes after the command to stop. -/
def Closes {p : ι} : List (Command D p) → Prop
  | [] => True
  | .shutdown :: rest => ∀ command ∈ rest, command.IsQuery
  | _ :: rest => Closes rest

theorem closes_append {p : ι} {inbox : List (Command D p)} (h : .shutdown ∉ inbox) (command : Command D p) :
    Closes (inbox ++ [command]) := by
  induction inbox with
  | nil => cases command <;> simp [Closes]
  | cons first rest ih =>
    have hrest := ih fun hmem => h (List.mem_cons_of_mem _ hmem)
    cases first with
    | shutdown => exact absurd List.mem_cons_self h
    | item source item => exact hrest
    | query query => exact hrest

theorem closes_of_queries {p : ι} {inbox : List (Command D p)} (h : ∀ command ∈ inbox, command.IsQuery) :
    Closes inbox := by
  induction inbox with
  | nil => trivial
  | cons first rest ih =>
    have hrest := fun command hmem => h command (List.mem_cons_of_mem _ hmem)
    cases first with
    | shutdown => exact hrest
    | item source item => exact ih hrest
    | query query => exact ih hrest

theorem Closes.append_query {p : ι} {inbox : List (Command D p)} (h : Closes inbox) (query : D.Query p) :
    Closes (inbox ++ [.query query]) := by
  induction inbox with
  | nil => trivial
  | cons first rest ih =>
    cases first with
    | shutdown =>
      intro command hmem
      rcases List.mem_append.mp hmem with hmem | hmem
      · exact h command hmem
      · rw [List.mem_singleton.mp hmem]
        trivial
    | item source item => exact ih h
    | query query => exact ih h

/-! ## A server -/

/-- The server was told to stop and does not take commands any more. -/
def Phase.Closing {p : ι} : Phase D p → Prop
  | .writing _ last => last
  | .closing | .leaving | .stopped _ => True
  | _ => False

/-- A server that does its work as designed. -/
structure Server.Orderly {p : ι} (x : Server D p) (signalled : Prop) : Prop where
  sound : ∀ work, x.phase = .working work → work.Sound fun q => D.rank p < D.rank q
  unfailed : x.phase ≠ .stopped false
  told : x.phase.Closing ∨ .shutdown ∈ x.inbox ↔ signalled
  settled : x.phase.Closing → ∀ command ∈ x.inbox, command.IsQuery
  closes : Closes x.inbox

namespace Server

variable {p : ι} {room : ι → Offered} {output : Offered} {x x' : Server D p} {effect : Effect D}

theorem orderly_new (D : Design ι) (p : ι) : (new D p).Orderly False where
  sound := nofun
  unfailed := nofun
  told := by simp [Server.new, Phase.Closing]
  settled := nofun
  closes := trivial

/-- A server that has ended takes no step. -/
theorem Move.not_stopped (h : Move room output x x' effect) (ok : Bool) : x.phase ≠ .stopped ok := by
  intro hstopped
  cases h with
  | lost state hphase =>
    rcases hphase with ⟨batch, closing, hphase⟩ | hphase | hphase
    all_goals
      rw [hphase] at hstopped
      cases hstopped
  | _ => simp_all

/-- An item goes to a server of a later stage. -/
theorem Move.rank_lt (h : Move room output x x' effect) {signalled : Prop} (hx : x.Orderly signalled) {q : ι}
    {item : D.Item q} (heffect : effect = .put q item) : D.rank p < D.rank q := by
  cases h with
  | hand dest item work hphase hroom =>
    obtain ⟨next, hphase, -⟩ := hphase
    cases heffect
    exact (hx.sound _ hphase).1
  | enter dest item work hphase hroom =>
    obtain ⟨next, hphase, -⟩ := hphase
    cases heffect
    exact (hx.sound _ hphase).1
  | _ => cases heffect

/-- What a server pushes is its own, and the last report is what it pushes last. -/
theorem Move.pushed (h : Move room output x x' effect) :
    (x'.phase = .stopped true ∧ effect = .push (.final p (D.final p x'.state))) ∨
      (x'.phase ≠ .stopped true ∧ ∀ message, effect = .push message →
        (∃ batch, message = .events p batch) ∨ ∃ report, message = .report p report) := by
  cases h with
  | left hphase houtput => exact .inl ⟨rfl, rfl⟩
  | take command rest hphase hinbox =>
    refine .inr ⟨?_, nofun⟩
    cases command <;> simp [Server.take]
  | write batch closing hphase houtput =>
    refine .inr ⟨by cases closing <;> simp, fun message h => .inl ⟨batch, ?_⟩⟩
    cases h
    rfl
  | report hphase houtput =>
    refine .inr ⟨nofun, fun message h => .inr ?_⟩
    cases h
    exact ⟨_, rfl⟩
  | _ => exact .inr ⟨nofun, nofun⟩

/-- A server that goes on, with the same inbox. -/
theorem Orderly.goes_on {signalled : Prop} (hx : x.Orderly signalled) (hinbox : x'.inbox = x.inbox)
    (hclosing : x'.phase.Closing ↔ x.phase.Closing) (hunfailed : x'.phase ≠ .stopped false)
    (hsound : ∀ work, x'.phase = .working work → work.Sound fun q => D.rank p < D.rank q) :
    x'.Orderly signalled where
  sound := hsound
  unfailed := hunfailed
  told := by
    rw [hclosing, hinbox]
    exact hx.told
  settled := by
    rw [hclosing, hinbox]
    exact hx.settled
  closes := by
    rw [hinbox]
    exact hx.closes

/-- A server that took a command. -/
theorem Orderly.take {signalled : Prop} (hx : x.Orderly signalled) {command : Command D p}
    {rest : List (Command D p)} (hphase : x.phase = .waiting) (hinbox : x.inbox = command :: rest)
    (hwork : ∀ state item, (D.handle p state item).Sound fun q => D.rank p < D.rank q) :
    (x.take command rest).Orderly signalled := by
  have hcloses := hx.closes
  have htold := hx.told
  rw [hinbox] at hcloses htold
  rw [hphase] at htold
  cases command with
  | item source item =>
    refine ⟨fun work h => ?_, nofun, by simpa [Server.take, Phase.Closing] using htold, nofun, hcloses⟩
    cases h
    exact hwork x.state item
  | query query => exact ⟨nofun, nofun, by simpa [Server.take, Phase.Closing] using htold, nofun, hcloses⟩
  | shutdown =>
    have hqueries : ∀ command ∈ rest, command.IsQuery := hcloses
    refine ⟨nofun, nofun, by simpa [Server.take, Phase.Closing] using htold, fun _ => hqueries, ?_⟩
    exact closes_of_queries hqueries

/-- A step of a server leaves it as designed, as long as nobody that it needs is gone. -/
theorem Move.orderly (h : Move room output x x' effect) {signalled : Prop} (hx : x.Orderly signalled)
    (hwork : ∀ state item, (D.handle p state item).Sound fun q => D.rank p < D.rank q)
    (hroom : ∀ q, D.rank p < D.rank q → room q ≠ .closed) (houtput : output ≠ .closed) :
    x'.Orderly signalled := by
  cases h with
  | timeout hphase hinbox => exact hx.goes_on rfl (by rw [hphase]; rfl) nofun nofun
  | take command rest hphase hinbox => exact hx.take hphase hinbox hwork
  | done state events hphase => exact hx.goes_on rfl (by rw [hphase]; rfl) nofun nofun
  | fail hphase => exact (hx.sound _ hphase).elim
  | hand dest item work hphase hdest =>
    obtain ⟨next, hphase, rfl⟩ := hphase
    refine hx.goes_on rfl (by rw [hphase]; rfl) nofun fun work h => ?_
    cases h
    exact (hx.sound _ hphase).2 .taken nofun
  | refuse dest item next hphase hdest =>
    have hsound := hx.sound _ hphase
    refine hx.goes_on rfl (by rw [hphase]; rfl) nofun fun work h => ?_
    cases h
    exact hsound.2 _ (hroom dest hsound.1)
  | enter dest item work hphase hdest =>
    obtain ⟨next, hphase, rfl⟩ := hphase
    refine hx.goes_on rfl (by rw [hphase]; rfl) nofun fun work h => ?_
    cases h
    exact (hx.sound _ hphase).2
  | lose dest item next hphase hdest => exact absurd hdest (hroom dest (hx.sound _ hphase).1)
  | flush force hphase => exact hx.goes_on rfl (by rw [hphase]; simp [Phase.Closing]) nofun nofun
  | skip force hphase => exact hx.goes_on rfl (by rw [hphase]; rfl) nofun nofun
  | write batch closing hphase =>
    cases closing with
    | true => exact hx.goes_on rfl (by rw [hphase]; simp [Phase.Closing]) nofun nofun
    | false => exact hx.goes_on rfl (by rw [hphase]; simp [Phase.Closing]) nofun nofun
  | report hphase => exact hx.goes_on rfl (by rw [hphase]; rfl) nofun nofun
  | unreported hphase => exact hx.goes_on rfl (by rw [hphase]; rfl) nofun nofun
  | idle hphase => exact hx.goes_on rfl (by rw [hphase]; rfl) nofun nofun
  | flushLast hphase => exact hx.goes_on rfl (by rw [hphase]; simp [Phase.Closing]) nofun nofun
  | leave hphase hbuffer => exact hx.goes_on rfl (by rw [hphase]; rfl) nofun nofun
  | left hphase => exact hx.goes_on rfl (by rw [hphase]; rfl) nofun nofun
  | lost state hphase hclosed => exact absurd hclosed houtput

/-! ## Commands for a server -/

theorem Orderly.given_item {signalled : Prop} (hx : x.Orderly signalled) (hnot : ¬ signalled)
    (source : Option ι) (item : D.Item p) : (x.given (.item source item)).Orderly signalled := by
  obtain ⟨hclosing, hshutdown⟩ := not_or.mp fun h => hnot (hx.told.mp h)
  refine ⟨hx.sound, hx.unfailed, ?_, fun h => absurd h hclosing, closes_append hshutdown _⟩
  rw [← hx.told]
  simp [given]

theorem Orderly.given_query {signalled : Prop} (hx : x.Orderly signalled) (query : D.Query p) :
    (x.given (.query query)).Orderly signalled := by
  refine ⟨hx.sound, hx.unfailed, ?_, fun h command hmem => ?_, hx.closes.append_query query⟩
  · rw [← hx.told]
    simp [given]
  · rcases List.mem_append.mp hmem with hmem | hmem
    · exact hx.settled h command hmem
    · rw [List.mem_singleton.mp hmem]
      trivial

theorem Orderly.given_shutdown {signalled : Prop} (hx : x.Orderly signalled) (hnot : ¬ signalled) :
    (x.given .shutdown).Orderly True := by
  obtain ⟨hclosing, hshutdown⟩ := not_or.mp fun h => hnot (hx.told.mp h)
  refine ⟨hx.sound, hx.unfailed, ?_, fun h => absurd h hclosing, closes_append hshutdown _⟩
  simp [given]

end Server

/-! ## Last reports -/

/-- The server that tells something. -/
def Message.sender : D.Told → ι
  | .events p _ => p
  | .report p _ => p
  | .final p _ => p

/-- The last report of a server. -/
def Message.IsFinal : D.Told → Prop
  | .final _ _ => True
  | _ => False

/-- A server tells nothing after its last report. -/
def Hushed (wire : List D.Told) : Prop := wire.Pairwise fun m m' => m.IsFinal → m'.sender ≠ m.sender

theorem counts_iff {k : ℕ} {message : D.Told} :
    message.counts D k ↔ message.IsFinal ∧ D.rank message.sender = k := by
  cases message <;> simp [Message.counts, Message.IsFinal, Message.sender]

/-- A server that did not give its last report yet may tell something. -/
theorem Hushed.append {wire : List D.Told} (h : Hushed wire) {message : D.Told}
    (hnot : ∀ final, .final message.sender final ∉ wire) : Hushed (wire ++ [message]) := by
  refine List.pairwise_append.mpr ⟨h, List.pairwise_singleton .., fun m hm m' hm' hfinal hsender => ?_⟩
  rw [List.mem_singleton.mp hm'] at hsender
  cases m with
  | final p final =>
    rw [hsender] at hnot
    exact hnot final hm
  | events p batch => exact hfinal
  | report p report => exact hfinal

/-- The servers of the stage whose last reports are among the messages. -/
def reporters (D : Design ι) (k : ℕ) (wire : List D.Told) : List ι :=
  (wire.filter fun m => m.counts D k).map Message.sender

theorem length_reporters (k : ℕ) (wire : List D.Told) :
    (reporters D k wire).length = wire.countP fun m => m.counts D k := by
  unfold reporters
  rw [List.length_map, List.countP_eq_length_filter]

theorem mem_reporters {k : ℕ} {wire : List D.Told} {p : ι} :
    p ∈ reporters D k wire ↔ D.rank p = k ∧ ∃ final, .final p final ∈ wire := by
  unfold reporters
  rw [List.mem_map]
  constructor
  · rintro ⟨m, hm, rfl⟩
    obtain ⟨hmem, hcounts⟩ := List.mem_filter.mp hm
    obtain ⟨hfinal, hrank⟩ := counts_iff.mp hcounts
    cases m with
    | final p final => exact ⟨hrank, final, hmem⟩
    | events p batch => exact hfinal.elim
    | report p report => exact hfinal.elim
  · rintro ⟨hrank, final, hmem⟩
    exact ⟨.final p final, List.mem_filter.mpr ⟨hmem, counts_iff.mpr ⟨trivial, hrank⟩⟩, rfl⟩

theorem Hushed.nodup_reporters {wire : List D.Told} (h : Hushed wire) (k : ℕ) : (reporters D k wire).Nodup := by
  unfold reporters
  refine List.pairwise_map.mpr ?_
  refine (h.filter fun m => m.counts D k).imp_of_mem fun hm _ hne heq => ?_
  exact hne (counts_iff.mp (List.mem_filter.mp hm).2).1 heq.symm

/-- With as many last reports as there are servers in the stage, each of them reported. -/
theorem Hushed.all_reported {wire : List D.Told} (h : Hushed wire) (hD : D.Staged) {k : ℕ}
    (hcount : (D.group k).length ≤ wire.countP fun m => m.counts D k) {p : ι} (hp : D.rank p = k) :
    ∃ final, .final p final ∈ wire := by
  have hsubset : reporters D k wire ⊆ D.group k := fun q hq => (hD.group k q).mpr (mem_reporters.mp hq).1
  have hperm : (reporters D k wire).Perm (D.group k) := by
    refine (List.subperm_of_subset (h.nodup_reporters k) hsubset).perm_of_length_le ?_
    rw [length_reporters]
    exact hcount
  exact (mem_reporters.mp (hperm.mem_iff.mpr ((hD.group k p).mpr hp))).2

/-- With fewer, one did not report yet. -/
theorem exists_unreported {wire : List D.Told} (hD : D.Staged) {k : ℕ}
    (hcount : wire.countP (fun m => m.counts D k) < (D.group k).length) :
    ∃ p, D.rank p = k ∧ ∀ final, .final p final ∉ wire := by
  by_contra hnot
  push Not at hnot
  have hsubset : D.group k ⊆ reporters D k wire := fun q hq =>
    mem_reporters.mpr ⟨(hD.group k q).mp hq, hnot q ((hD.group k q).mp hq)⟩
  have hle := (List.subperm_of_subset (hD.nodup k) hsubset).length_le
  rw [length_reporters] at hle
  omega

/-! ## The pool -/

/-- A stage of the dispatcher as the design has it, with as many last reports as were read. -/
def Stage.Proper (stage : Stage D) (seen : List D.Told) : Prop :=
  match stage with
  | .signalling k rest received =>
    k < D.stages ∧ rest <:+ D.group k ∧ received = seen.countP fun m => m.counts D k
  | .drainingDown k p rest received =>
    k < D.stages ∧ p :: rest <:+ D.group k ∧ received = seen.countP fun m => m.counts D k
  | .receiving k received => k < D.stages ∧ received = seen.countP fun m => m.counts D k
  | .joining k rest => k < D.stages ∧ rest ⊆ D.group k
  | _ => True

/-- Nothing went wrong but what is outside the pool. -/
def Outside (err : Option Error) : Prop := err = none ∨ err = some .outside

/-- All messages, those that the dispatcher read and those that it did not read yet. -/
def System.wire (s : System D) : List D.Told := s.dispatcher.seen ++ s.output

/-- A pool in which everybody that somebody needs is still there. -/
structure System.Orderly (s : System D) : Prop where
  server : ∀ p, (s.server p).Orderly (s.dispatcher.stage.Signalled p)
  stage : s.dispatcher.stage.Proper s.dispatcher.seen
  run_error : Outside s.dispatcher.run_error
  first_error : Outside s.dispatcher.first_error
  hushed : Hushed s.wire
  finals : ∀ p final, .final p final ∈ s.wire ↔
    (s.server p).phase = .stopped true ∧ final = D.final p (s.server p).state
  farewell : ∀ p, s.dispatcher.stage.Over p → ∃ final, .final p final ∈ s.dispatcher.seen

namespace System.Orderly

variable {s s' : System D}

/-- A server that was not told to stop takes commands. -/
theorem room_ne_closed (hs : s.Orderly) {p : ι} (h : ¬ s.dispatcher.stage.Signalled p) : s.room p ≠ .closed := by
  have hnot : ¬ (s.server p).phase.Closing := fun hclosing => h ((hs.server p).told.mp (.inl hclosing))
  unfold System.room Server.room
  cases hphase : (s.server p).phase with
  | stopped ok =>
    rw [hphase] at hnot
    exact absurd trivial hnot
  | _ =>
    simp only [Phase.isStopped, Bool.false_eq_true, if_false]
    split <;> nofun

/-- The servers of a stage that is over have ended. -/
theorem stopped_of_over (hs : s.Orderly) {p : ι} (h : s.dispatcher.stage.Over p) :
    (s.server p).phase = .stopped true := by
  obtain ⟨final, hmem⟩ := hs.farewell p h
  exact ((hs.finals p final).mp (List.mem_append_left _ hmem)).1

/-- A server that has not ended yet may hand items to later stages. -/
theorem room_of_rank_lt (hs : s.Orderly) {p q : ι} (h : (s.server p).phase ≠ .stopped true)
    (hlt : D.rank p < D.rank q) : s.room q ≠ .closed :=
  hs.room_ne_closed fun hsignalled => h (hs.stopped_of_over (hsignalled.isOver hlt))

/-- The dispatcher is there to be told. -/
theorem outputRoom_ne_closed (hs : s.Orderly) {p : ι} (h : (s.server p).phase ≠ .stopped true) :
    s.outputRoom ≠ .closed := by
  unfold System.outputRoom
  split
  next hstage =>
    refine absurd (hs.stopped_of_over ?_) h
    rw [hstage]
    trivial
  next => split <;> nofun

/-- A server that reported has ended, and all its messages were read before its last report. -/
theorem output_of_reported (hs : s.Orderly) {p : ι} {final : D.Final p} (h : .final p final ∈ s.dispatcher.seen)
    {message : D.Told} (hmem : message ∈ s.output) : message.sender ≠ p :=
  (List.pairwise_append.mp hs.hushed).2.2 _ h _ hmem trivial

/-- A step that leaves all messages where they were, and every server in its phase. -/
theorem of_same (hs : s.Orderly) (hserver : ∀ p, (s'.server p).Orderly (s'.dispatcher.stage.Signalled p))
    (hphase : ∀ p, (s'.server p).phase = (s.server p).phase ∧ (s'.server p).state = (s.server p).state)
    (hwire : s'.wire = s.wire) (hstage : s'.dispatcher.stage.Proper s'.dispatcher.seen)
    (hrun : Outside s'.dispatcher.run_error) (hfirst : Outside s'.dispatcher.first_error)
    (hover : ∀ p, s'.dispatcher.stage.Over p → ∃ final, .final p final ∈ s'.dispatcher.seen) : s'.Orderly where
  server := hserver
  stage := hstage
  run_error := hrun
  first_error := hfirst
  hushed := by
    rw [hwire]
    exact hs.hushed
  finals := by
    intro p final
    rw [hwire, (hphase p).1, (hphase p).2]
    exact hs.finals p final
  farewell := hover

variable [DecidableEq ι]

/-! ## Steps of a server -/

/-- What a step of a server does to the servers. -/
theorem server_apply (s : System D) (p : ι) (x' : Server D p) (effect : Effect D) (q : ι) :
    ((s.apply p x' effect).server q = Function.update s.server p x' q) ∨
      ∃ item, effect = .put q item ∧
        (s.apply p x' effect).server q = (Function.update s.server p x' q).given (.item (some p) item) := by
  cases effect with
  | quiet => exact .inl rfl
  | push message => exact .inl rfl
  | put dest item =>
    by_cases hq : q = dest
    · subst hq
      exact .inr ⟨item, rfl, Function.update_self ..⟩
    · exact .inl (Function.update_of_ne hq ..)

theorem dispatcher_apply (s : System D) (p : ι) (x' : Server D p) (effect : Effect D) :
    (s.apply p x' effect).dispatcher = s.dispatcher := by
  cases effect <;> rfl

theorem wire_apply (s : System D) (p : ι) (x' : Server D p) (effect : Effect D) :
    (s.apply p x' effect).wire = match effect with
      | .push message => s.wire ++ [message]
      | _ => s.wire := by
  cases effect with
  | push message => exact (List.append_assoc ..).symm
  | quiet => rfl
  | put dest item => rfl

/-- The phase and the state of the servers after a step of one of them. -/
theorem phase_apply (s : System D) (p : ι) (x' : Server D p) (effect : Effect D) (q : ι) :
    ((s.apply p x' effect).server q).phase = (Function.update s.server p x' q).phase ∧
      ((s.apply p x' effect).server q).state = (Function.update s.server p x' q).state := by
  rcases server_apply s p x' effect q with h | ⟨item, -, h⟩
  all_goals
    rw [h]
    exact ⟨rfl, rfl⟩

/-- The messages after a step of a server: it is hushed, and its last report is there when it has ended. -/
theorem wire_step (hs : s.Orderly) {p : ι} {x' : Server D p} {effect : Effect D}
    (hmove : (s.server p).Move s.room s.outputRoom x' effect) :
    Hushed (s.apply p x' effect).wire ∧ ∀ q final, .final q final ∈ (s.apply p x' effect).wire ↔
      (Function.update s.server p x' q).phase = .stopped true ∧
        final = D.final q (Function.update s.server p x' q).state := by
  have hunreported : ∀ final, .final p final ∉ s.wire := fun final hmem =>
    hmove.not_stopped true ((hs.finals p final).mp hmem).1
  have hold : ∀ q, q ≠ p → ∀ final, .final q final ∈ s.wire ↔
      (Function.update s.server p x' q).phase = .stopped true ∧
        final = D.final q (Function.update s.server p x' q).state := by
    intro q hq final
    rw [Function.update_of_ne hq]
    exact hs.finals q final
  rcases hmove.pushed with ⟨hstopped, rfl⟩ | ⟨hgoing, hpush⟩
  · rw [wire_apply]
    refine ⟨@Hushed.append _ _ _ hs.hushed (.final p _) hunreported, fun q final => ?_⟩
    dsimp only
    rw [List.mem_append, List.mem_singleton]
    by_cases hq : q = p
    · subst hq
      rw [Function.update_self]
      constructor
      · rintro (hmem | heq)
        · exact absurd hmem (hunreported final)
        · cases heq
          exact ⟨hstopped, rfl⟩
      · rintro ⟨-, rfl⟩
        exact .inr rfl
    · rw [← hold q hq final]
      refine or_iff_left fun heq => hq ?_
      cases heq
      rfl
  · -- nothing that is told here is a last report
    have hmem : ∀ q final, .final q final ∈ (s.apply p x' effect).wire ↔ .final q final ∈ s.wire := by
      intro q final
      rw [wire_apply]
      cases effect with
      | quiet => rfl
      | put dest item => rfl
      | push message =>
        rcases hpush message rfl with ⟨batch, rfl⟩ | ⟨report, rfl⟩ <;> simp
    refine ⟨?_, fun q final => ?_⟩
    · rw [wire_apply]
      cases effect with
      | quiet => exact hs.hushed
      | put dest item => exact hs.hushed
      | push message =>
        refine Hushed.append hs.hushed ?_
        rcases hpush message rfl with ⟨batch, rfl⟩ | ⟨report, rfl⟩
        all_goals exact hunreported
    · rw [hmem]
      by_cases hq : q = p
      · subst hq
        rw [Function.update_self]
        exact iff_of_false (hunreported final) fun h => hgoing h.1
      · exact hold q hq final

/-- A step of a server leaves the pool in order. -/
theorem server_step (hs : s.Orderly) (hD : D.Staged) {p : ι} {x' : Server D p} {effect : Effect D}
    (hmove : (s.server p).Move s.room s.outputRoom x' effect) : (s.apply p x' effect).Orderly := by
  have hnot := hmove.not_stopped true
  have hrank : ∀ {q : ι} {item : D.Item q}, effect = .put q item → D.rank p < D.rank q :=
    fun heffect => hmove.rank_lt (hs.server p) heffect
  have hx' := hmove.orderly (hs.server p) (hD.sound p) (fun q hlt => hs.room_of_rank_lt hnot hlt)
    (hs.outputRoom_ne_closed hnot)
  have hserver : ∀ q, ((s.apply p x' effect).server q).Orderly (s.dispatcher.stage.Signalled q) := by
    intro q
    have hupdate : (Function.update s.server p x' q).Orderly (s.dispatcher.stage.Signalled q) := by
      by_cases hq : q = p
      · subst hq
        rw [Function.update_self]
        exact hx'
      · rw [Function.update_of_ne hq]
        exact hs.server q
    rcases server_apply s p x' effect q with h | ⟨item, heffect, h⟩
    · rw [h]
      exact hupdate
    · rw [h]
      -- whoever was told to stop comes after a stage that is over
      exact hupdate.given_item (fun hsignalled => hnot (hs.stopped_of_over (hsignalled.isOver (hrank heffect)))) _ _
  obtain ⟨hhushed, hfinals⟩ := hs.wire_step hmove
  refine ⟨?_, ?_, ?_, ?_, hhushed, fun q final => ?_, ?_⟩
  · rw [dispatcher_apply]
    exact hserver
  · rw [dispatcher_apply]
    exact hs.stage
  · rw [dispatcher_apply]
    exact hs.run_error
  · rw [dispatcher_apply]
    exact hs.first_error
  · rw [(phase_apply s p x' effect q).1, (phase_apply s p x' effect q).2]
    exact hfinals q final
  · rw [dispatcher_apply]
    exact hs.farewell

end System.Orderly

end Rustmate.Pool
