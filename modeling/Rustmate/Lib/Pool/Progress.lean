import Mathlib.Data.DFinsupp.WellFounded
import Mathlib.Data.Prod.Lex
import Rustmate.Lib.Pool.OrderlyRun

/-!
# A pool comes to its end

Whatever happened so far, the pool can come to its end as soon as its source has no more inputs. Some step is
always possible that leaves less to do: the dispatcher goes on, or reads what it was told, and when nothing was
told and it waits for room in the channel of a server, then that server can go on, or waits for room in the
channel of a server of a later stage, which can.
-/

namespace Rustmate.Pool

variable {ι : Type} {D : Design ι}

/-! ## What is left to do -/

/-- The length of the longest way through the work. -/
def Work.height {Item : ι → Type} {Event σ : Type} : Work Item Event σ → ℕ
  | .done _ _ | .fail => 0
  | .offer _ _ next => 1 + max (next .taken).height (max (next .full).height (next .closed).height)
  | .send _ _ next => 1 + max (next true).height (next false).height

/-- The steps before the server waits for the next command, or ends. -/
def Phase.left {p : ι} : Phase D p → ℕ
  | .stopped _ => 0
  | .waiting | .leaving => 1
  | .reporting => 2
  | .writing _ _ => 3
  | .flushing _ | .closing => 4
  | .working work => 5 + work.height

/-- What a server has left to do. -/
def Server.left {p : ι} (self : Server D p) : ℕ × ℕ := (self.inbox.length, self.phase.left)

/-- What the dispatcher has left to do when its source has no more inputs: the stages to stop, and the steps
before the next stage. -/
def Stage.left : Stage D → ℕ × ℕ
  | .asking => (D.stages + 1, 2)
  | .feeding rest => (D.stages + 1, 2 * rest.length + 4)
  | .sending _ rest | .draining (some _) rest _ => (D.stages + 1, 2 * rest.length + 5)
  | .draining none _ idle => (D.stages + 1, if idle then 1 else 3)
  | .signalling k rest _ => (D.stages - k, 2 * (D.group k).length + 3 + rest.length)
  | .drainingDown k _ rest _ => (D.stages - k, 2 * (D.group k).length + 3 + (rest.length + 1))
  | .receiving k received => (D.stages - k, (D.group k).length + 2 + ((D.group k).length - received))
  | .joining k rest => (D.stages - k, 1 + rest.length)
  | .finished => (0, 0)

/-- The channel of the server is not full. -/
def Server.Roomy {p : ι} (self : Server D p) : Prop := self.inbox.length < D.depth p

instance {p : ι} (self : Server D p) : Decidable self.Roomy := inferInstanceAs (Decidable (_ < _))

/-- Whether the dispatcher has to change between offering and reading before it can go on. -/
def System.turn (s : System D) : ℕ :=
  match s.dispatcher.stage with
  | .sending parcel _ => if (s.server parcel.1).Roomy then 0 else 1
  | .draining (some parcel) _ _ => if (s.server parcel.1).Roomy then 1 else 0
  | .signalling _ (p :: _) _ => if (s.server p).Roomy then 0 else 1
  | .drainingDown _ p _ _ => if (s.server p).Roomy then 1 else 0
  | _ => 0

/-- What is left to do in a pool. -/
def System.left (s : System D) : ℕ × ℕ × (ι → ℕ × ℕ) × ℕ × ℕ :=
  (s.dispatcher.stage.left.1, s.dispatcher.stage.left.2, fun p => (s.server p).left, s.turn, s.output.length)

/-- Less to do for one server. -/
abbrev Lighter : ℕ × ℕ → ℕ × ℕ → Prop := Prod.Lex (· < ·) (· < ·)

/-- Less to do: first the dispatcher counts, then the servers in their order, then the messages. -/
def Less (lt : ι → ι → Prop) : ℕ × ℕ × (ι → ℕ × ℕ) × ℕ × ℕ → ℕ × ℕ × (ι → ℕ × ℕ) × ℕ × ℕ → Prop :=
  Prod.Lex (· < ·) (Prod.Lex (· < ·) (Prod.Lex (Pi.Lex lt Lighter) (Prod.Lex (· < ·) (· < ·))))

theorem wellFounded_less [Finite ι] (lt : ι → ι → Prop) [IsStrictTotalOrder ι lt] : WellFounded (Less lt) := by
  have hlighter : WellFounded Lighter := WellFounded.prod_lex wellFounded_lt wellFounded_lt
  have hservers : WellFounded (Pi.Lex lt (fun {_ : ι} => Lighter)) := Pi.Lex.wellFounded lt fun _ => hlighter
  exact WellFounded.prod_lex wellFounded_lt (WellFounded.prod_lex wellFounded_lt
    (WellFounded.prod_lex hservers (WellFounded.prod_lex wellFounded_lt wellFounded_lt)))

/-- The servers can be ordered by their stages. -/
theorem exists_order [Finite ι] (rank : ι → ℕ) :
    ∃ lt : ι → ι → Prop, IsStrictTotalOrder ι lt ∧ ∀ p q, rank p < rank q → lt p q := by
  obtain ⟨n, ⟨e⟩⟩ := Finite.exists_equiv_fin ι
  have hinjective : Function.Injective fun p => toLex (rank p, e p) := fun p q h =>
    e.injective (congrArg Prod.snd (toLex.injective h))
  let order : LinearOrder ι := LinearOrder.lift' (fun p => toLex (rank p, e p)) hinjective
  exact ⟨(· < ·), inferInstance, fun p q h => Prod.Lex.left _ _ h⟩

/-! ## A server goes on -/

/-- The server is not at rest. -/
def Server.Busy {p : ι} (self : Server D p) : Prop :=
  match self.phase with
  | .waiting => self.inbox ≠ []
  | .stopped _ => False
  | _ => True

namespace Server

variable {p : ι}

/-- The server waits for room in the channel of another one. -/
def Blocked (self : Server D p) (q : ι) : Prop :=
  ∃ item next, self.phase = .working (.send q item next)

/-- A full channel is not empty, and its server has not ended. -/
theorem busy_of_full {x : Server D p} (hdepth : 0 < D.depth p) (hfull : x.room = .full) : x.Busy := by
  unfold Server.room at hfull
  unfold Busy
  cases hphase : x.phase with
  | waiting =>
    rw [hphase] at hfull
    intro hinbox
    rw [hinbox] at hfull
    simp [Phase.isStopped, hdepth] at hfull
  | stopped ok =>
    rw [hphase] at hfull
    simp [Phase.isStopped] at hfull
  | _ => trivial

/-- A step that takes a server further, with the same inbox. -/
theorem lighter_of_phase {x x' : Server D p} (hinbox : x'.inbox = x.inbox) (hphase : x'.phase.left < x.phase.left) :
    Lighter x'.left x.left := by
  unfold Server.left
  rw [hinbox]
  exact .right _ hphase

/-- A server that works goes on, unless it waits for another server. -/
theorem exists_lighter_of_working {x : Server D p} {work : D.Task p} (hphase : x.phase = .working work)
    (room : ι → Offered) :
    (∃ x' effect, x.next room .taken false = some (x', effect) ∧ Lighter x'.left x.left) ∨
      ∃ q, x.Blocked q ∧ room q = .full := by
  have goes : ∀ {x' : Server D p} {work' : D.Task p}, x'.inbox = x.inbox → x'.phase = .working work' →
      work'.height < work.height → Lighter x'.left x.left := by
    intro x' work' hinbox hworking hheight
    refine lighter_of_phase hinbox ?_
    rw [hworking, hphase]
    exact Nat.add_lt_add_left hheight 5
  have hpos : ∀ n, n < 5 → n < x.phase.left := fun n hn => by
    rw [hphase]
    exact Nat.lt_add_right _ hn
  unfold next
  rw [hphase]
  cases work with
  | done state events => exact .inl ⟨_, _, rfl, lighter_of_phase rfl (hpos 4 (by decide))⟩
  | fail => exact .inl ⟨_, _, rfl, lighter_of_phase rfl (hpos 0 (by decide))⟩
  | offer dest item next =>
    have hheight : ∀ offered, (next offered).height < (Work.offer dest item next).height := by
      intro offered
      simp only [Work.height]
      cases offered <;> omega
    dsimp only
    cases hroom : room dest with
    | taken => exact .inl ⟨_, _, rfl, goes rfl rfl (hheight .taken)⟩
    | full => exact .inl ⟨_, _, rfl, goes rfl rfl (hheight .full)⟩
    | closed => exact .inl ⟨_, _, rfl, goes rfl rfl (hheight .closed)⟩
  | send dest item next =>
    have hheight : ∀ entered, (next entered).height < (Work.send dest item next).height := by
      intro entered
      simp only [Work.height]
      cases entered <;> omega
    dsimp only
    cases hroom : room dest with
    | taken => exact .inl ⟨_, _, rfl, goes rfl rfl (hheight true)⟩
    | full => exact .inr ⟨dest, ⟨item, next, hphase⟩, hroom⟩
    | closed => exact .inl ⟨_, _, rfl, goes rfl rfl (hheight false)⟩

/-- A server that is not at rest goes on when there is room for what it tells, unless it waits for another server.
Nothing has to come due for that. -/
theorem exists_lighter {x : Server D p} (hbusy : x.Busy) (room : ι → Offered) :
    (∃ x' effect, x.next room .taken false = some (x', effect) ∧ Lighter x'.left x.left) ∨
      ∃ q, x.Blocked q ∧ room q = .full := by
  unfold Busy at hbusy
  have hleft : ∀ {phase : Phase D p} {n : ℕ}, x.phase = phase → n < phase.left → n < x.phase.left :=
    fun hphase hn => hphase ▸ hn
  cases hphase : x.phase with
  | working work => exact exists_lighter_of_working hphase room
  | stopped ok =>
    rw [hphase] at hbusy
    exact hbusy.elim
  | waiting =>
    rw [hphase] at hbusy
    obtain ⟨command, rest, hinbox⟩ := List.exists_cons_of_ne_nil hbusy
    refine .inl ⟨x.take command rest, .quiet, by simp only [next, hphase, hinbox], ?_⟩
    unfold Server.left
    rw [hinbox]
    refine .left _ _ ?_
    cases command <;> exact Nat.lt_succ_self _
  | flushing force =>
    unfold next
    rw [hphase]
    dsimp only
    split
    · exact .inl ⟨_, _, rfl, lighter_of_phase rfl (hleft hphase (by decide : 3 < 4))⟩
    · exact .inl ⟨_, _, rfl, lighter_of_phase rfl (hleft hphase (by decide : 2 < 4))⟩
  | writing batch closing =>
    unfold next
    rw [hphase]
    refine .inl ⟨_, _, rfl, lighter_of_phase rfl (hleft hphase ?_)⟩
    cases closing with
    | true => exact (by decide : 1 < 3)
    | false => exact (by decide : 2 < 3)
  | reporting =>
    unfold next
    rw [hphase]
    exact .inl ⟨_, _, rfl, lighter_of_phase rfl (hleft hphase (by decide : 1 < 2))⟩
  | closing =>
    unfold next
    rw [hphase]
    dsimp only
    split
    · exact .inl ⟨_, _, rfl, lighter_of_phase rfl (hleft hphase (by decide : 1 < 4))⟩
    · exact .inl ⟨_, _, rfl, lighter_of_phase rfl (hleft hphase (by decide : 3 < 4))⟩
  | leaving =>
    unfold next
    rw [hphase]
    exact .inl ⟨_, _, rfl, lighter_of_phase rfl (hleft hphase (by decide : 0 < 1))⟩

end Server

/-! ## The pool goes on -/

/-- A step that needs nothing from outside but that the source has no more inputs. -/
def Action.Ending : Action D → Prop
  | .server _ due => due = false
  | .dispatcher source => source = .idle true
  | .ask _ _ => False

namespace System

variable [DecidableEq ι] [Fintype ι] {s : System D} {lt : ι → ι → Prop}

/-- Some server goes on when one is not at rest and the dispatcher has read everything. -/
theorem exists_server_step [IsStrictTotalOrder ι lt] (hlt : ∀ p q, D.rank p < D.rank q → lt p q)
    (hs : s.Orderly) (hD : D.Staged) (houtput : s.output = []) (hstage : s.dispatcher.stage ≠ .finished) {p : ι}
    (hbusy : (s.server p).Busy) : ∃ action s', action.Ending ∧ s.step action = some s' ∧
      s'.dispatcher = s.dispatcher ∧
      Pi.Lex lt (fun {_ : ι} => Lighter) (fun q => (s'.server q).left) fun q => (s.server q).left := by
  have hroom : s.outputRoom = .taken := by
    unfold outputRoom
    rw [houtput]
    split
    next hfinished => exact absurd hfinished hstage
    next => exact if_pos hD.capacity_pos
  -- the servers of the last stages wait for nobody
  induction hn : D.stages - D.rank p using Nat.strong_induction_on generalizing p with
  | _ n ih =>
    rcases Server.exists_lighter hbusy s.room with ⟨x', effect, hnext, hlighter⟩ | ⟨q, hblocked, hfull⟩
    · have hmove := Server.move_of_next hnext
      refine ⟨.server p false, s.apply p x' effect, rfl, ?_, Orderly.dispatcher_apply .., p, fun q hq => ?_, ?_⟩
      · exact step_server (by rw [hroom]; exact hnext)
      · dsimp only
        have hqp : q ≠ p := fun h => irrefl_of lt p (h ▸ hq)
        rcases Orderly.server_apply s p x' effect q with hserver | ⟨item, rfl, -⟩
        · rw [hserver, Function.update_of_ne hqp]
        · rw [← hroom] at hmove
          exact absurd (trans_of lt (hlt p q (hmove.rank_lt (hs.server p) rfl)) hq) (irrefl_of lt p)
      · dsimp only
        rcases Orderly.server_apply s p x' effect p with hserver | ⟨item, rfl, -⟩
        · rw [hserver, Function.update_self]
          exact hlighter
        · rw [← hroom] at hmove
          exact absurd (hmove.rank_lt (hs.server p) rfl) (lt_irrefl _)
    · obtain ⟨item, next, hphase⟩ := hblocked
      have hrank : D.rank p < D.rank q := ((hs.server p).sound _ hphase).1
      have hq := hD.rank_lt q
      exact ih (D.stages - D.rank q) (by omega) (Server.busy_of_full (hD.depth_pos q) hfull) rfl

omit [DecidableEq ι] [Fintype ι] in
/-- The dispatcher goes further. -/
theorem less_of_dispatcher {s' : System D} (h : Lighter s'.dispatcher.stage.left s.dispatcher.stage.left) :
    Less lt s'.left s.left := by
  rcases Prod.lex_def.mp h with hstage | ⟨hstage, hplace⟩
  · exact Prod.lex_def.mpr (.inl hstage)
  · exact Prod.lex_def.mpr (.inr ⟨hstage, Prod.lex_def.mpr (.inl hplace)⟩)

omit [DecidableEq ι] [Fintype ι] in
/-- A server goes further. -/
theorem less_of_server {s' : System D} (hdispatcher : s'.dispatcher = s.dispatcher)
    (h : Pi.Lex lt (fun {_ : ι} => Lighter) (fun q => (s'.server q).left) fun q => (s.server q).left) :
    Less lt s'.left s.left := by
  unfold System.left
  rw [hdispatcher]
  exact .right _ (.right _ (.left _ _ h))

omit [DecidableEq ι] [Fintype ι] in
/-- The dispatcher changes between offering and reading, or reads. -/
theorem less_of_turn {s' : System D} (hserver : s'.server = s.server)
    (hleft : s'.dispatcher.stage.left = s.dispatcher.stage.left)
    (h : s'.turn < s.turn ∨ s'.turn = s.turn ∧ s'.output.length < s.output.length) : Less lt s'.left s.left := by
  unfold System.left
  rw [hserver, hleft]
  exact .right _ (.right _ (.right _ (Prod.lex_def.mpr h)))

omit [DecidableEq ι] [Fintype ι] in
/-- A server that was not told to stop takes a command or is full. -/
theorem room_cases (hs : s.Orderly) {p : ι} (h : ¬ s.dispatcher.stage.Signalled p) :
    ((s.server p).Roomy ∧ s.room p = .taken) ∨ (¬ (s.server p).Roomy ∧ s.room p = .full) := by
  have hopen := hs.room_ne_closed h
  unfold System.room Server.room at hopen ⊢
  unfold Server.Roomy
  split_ifs at hopen ⊢ with hstopped hroomy
  · exact absurd rfl hopen
  · exact .inl ⟨hroomy, rfl⟩
  · exact .inr ⟨hroomy, rfl⟩

/-- The dispatcher goes on while it runs. -/
theorem exists_less_of_running [IsStrictTotalOrder ι lt] [Nonempty ι]
    (hlt : ∀ p q, D.rank p < D.rank q → lt p q) (hs : s.Orderly) (hD : D.Staged)
    (hrunning : s.dispatcher.stage.Running) :
    ∃ action s', action.Ending ∧ s.step action = some s' ∧ Less lt s'.left s.left := by
  obtain ⟨p₀⟩ := ‹Nonempty ι›
  have hnot := fun p => hrunning.not_signalled p
  have hgone : s.gone = false := eq_false_of_ne_true (hs.not_gone (hnot p₀))
  -- whoever has to do with the dispatcher alone takes its next step
  have step : ∀ {x' : Dispatcher D} {act : Act D},
      s.dispatcher.next s.room s.output s.gone s.ended (.idle true) = some (x', act) →
      Less lt (s.act x' act).left s.left →
      ∃ action s', action.Ending ∧ s.step action = some s' ∧ Less lt s'.left s.left :=
    fun hnext hless => ⟨.dispatcher (.idle true), _, rfl, step_dispatcher hnext, hless⟩
  have busy : ∀ {p : ι}, s.output = [] → ¬ (s.server p).Roomy →
      ∃ action s', action.Ending ∧ s.step action = some s' ∧ Less lt s'.left s.left := by
    intro p houtput hfull
    have hroom : s.room p = .full := by
      rcases room_cases hs (hnot p) with ⟨hroomy, -⟩ | ⟨-, hroom⟩
      · exact absurd hroomy hfull
      · exact hroom
    have hstage : s.dispatcher.stage ≠ .finished := fun h => by
      rw [h] at hrunning
      exact hrunning
    obtain ⟨action, s', hending, hstep, hdispatcher, hservers⟩ :=
      exists_server_step hlt hs hD houtput hstage (Server.busy_of_full (hD.depth_pos p) hroom)
    exact ⟨action, s', hending, hstep, less_of_server hdispatcher hservers⟩
  unfold Dispatcher.next at step
  cases hstage : s.dispatcher.stage with
  | asking =>
    rw [hstage] at step
    refine step rfl (less_of_dispatcher ?_)
    rw [hstage]
    exact .right _ (by decide : 1 < 2)
  | feeding rest =>
    rw [hstage] at step
    cases rest with
    | nil =>
      refine step rfl (less_of_dispatcher ?_)
      rw [hstage]
      exact .right _ (by decide : 3 < 4)
    | cons input rest =>
      refine step rfl (less_of_dispatcher ?_)
      rw [hstage]
      refine .right _ ?_
      simp only [List.length_cons]
      omega
  | sending parcel rest =>
    rw [hstage] at step
    dsimp only at step
    rcases room_cases hs (hnot parcel.1) with ⟨hroomy, hroom⟩ | ⟨hroomy, hroom⟩
    · rw [hroom] at step
      refine step rfl (less_of_dispatcher ?_)
      rw [hstage]
      exact .right _ (Nat.lt_succ_self _)
    · rw [hroom] at step
      refine step rfl (less_of_turn rfl ?_ (.inl ?_))
      · rw [hstage]
        rfl
      · unfold turn
        rw [hstage]
        simp [System.act, hroomy]
  | draining back rest idle =>
    rw [hstage, hgone] at step
    dsimp only at step
    cases houtput : s.output with
    | cons message out =>
      rw [houtput] at step
      unfold Dispatcher.read at step
      dsimp only at step
      cases hok : (D.collect s.dispatcher.collector message).2 with
      | true =>
        rw [hok] at step
        refine step rfl (less_of_turn rfl rfl (.inr ⟨rfl, ?_⟩))
        change s.output.tail.length < _
        rw [houtput]
        exact Nat.lt_succ_self _
      | false =>
        rw [hok] at step
        refine step rfl (less_of_dispatcher ?_)
        rw [hstage]
        refine .left _ _ ?_
        cases back <;> exact Nat.lt_succ_self _
    | nil =>
      rw [houtput] at step
      dsimp only at step
      rw [if_neg Bool.false_ne_true] at step
      cases back with
      | some parcel =>
        by_cases hroomy : (s.server parcel.1).Roomy
        · refine step rfl (less_of_turn rfl ?_ (.inl ?_))
          · rw [hstage]
            rfl
          · unfold turn
            rw [hstage]
            simp [System.act, hroomy]
        · exact busy houtput hroomy
      | none =>
        cases idle with
        | true =>
          refine step rfl (less_of_dispatcher ?_)
          rw [hstage]
          exact .left _ _ (Nat.lt_succ_self _)
        | false =>
          refine step rfl (less_of_dispatcher ?_)
          rw [hstage]
          exact .right _ (by decide : 2 < 3)
  | signalling k rest received =>
    rw [hstage] at hrunning
    exact hrunning.elim
  | drainingDown k p rest received =>
    rw [hstage] at hrunning
    exact hrunning.elim
  | receiving k received =>
    rw [hstage] at hrunning
    exact hrunning.elim
  | joining k rest =>
    rw [hstage] at hrunning
    exact hrunning.elim
  | finished =>
    rw [hstage] at hrunning
    exact hrunning.elim

omit [DecidableEq ι] [Fintype ι] in
/-- A server that was told to stop and has not ended is not at rest. -/
theorem busy_of_signalled (hs : s.Orderly) {p : ι} (hsignalled : s.dispatcher.stage.Signalled p)
    (hgoing : (s.server p).phase ≠ .stopped true) : (s.server p).Busy := by
  have htold := (hs.server p).told.mpr hsignalled
  have hunfailed := (hs.server p).unfailed
  unfold Server.Busy
  cases hphase : (s.server p).phase with
  | waiting =>
    rw [hphase] at htold
    rcases htold with hclosing | hmem
    · exact hclosing.elim
    · exact List.ne_nil_of_mem hmem
  | stopped ok =>
    cases ok with
    | true => exact hgoing hphase
    | false => exact hunfailed hphase
  | _ => trivial

/-- The dispatcher goes on while it stops the servers. -/
theorem exists_less_of_stopping [IsStrictTotalOrder ι lt] (hlt : ∀ p q, D.rank p < D.rank q → lt p q)
    (hs : s.Orderly) (hD : D.Staged) (hstopping : ¬ s.dispatcher.stage.Running)
    (hunfinished : s.dispatcher.stage ≠ .finished) :
    ∃ action s', action.Ending ∧ s.step action = some s' ∧ Less lt s'.left s.left := by
  have step : ∀ {x' : Dispatcher D} {act : Act D},
      s.dispatcher.next s.room s.output s.gone s.ended (.idle true) = some (x', act) →
      Less lt (s.act x' act).left s.left →
      ∃ action s', action.Ending ∧ s.step action = some s' ∧ Less lt s'.left s.left :=
    fun hnext hless => ⟨.dispatcher (.idle true), _, rfl, step_dispatcher hnext, hless⟩
  have busy : ∀ {p : ι}, s.output = [] → (s.server p).Busy →
      ∃ action s', action.Ending ∧ s.step action = some s' ∧ Less lt s'.left s.left := by
    intro p houtput hbusy
    obtain ⟨action, s', hending, hstep, hdispatcher, hservers⟩ :=
      exists_server_step hlt hs hD houtput hunfinished hbusy
    exact ⟨action, s', hending, hstep, less_of_server hdispatcher hservers⟩
  have hproper := hs.stage
  unfold Dispatcher.next at step
  cases hstage : s.dispatcher.stage with
  | signalling k rest received =>
    rw [hstage] at step hproper
    cases rest with
    | nil =>
      refine step rfl (less_of_dispatcher ?_)
      rw [hstage]
      refine .right _ ?_
      simp only [List.length_nil]
      omega
    | cons p rest =>
      have hnot : ¬ s.dispatcher.stage.Signalled p :=
        Orderly.not_signalled_of_mem ((hD.group k p).mp (hproper.2.1.subset List.mem_cons_self))
          (List.mem_cons_self (l := rest)) (by rw [hstage]; rfl)
      dsimp only at step
      rcases room_cases hs hnot with ⟨hroomy, hroom⟩ | ⟨hroomy, hroom⟩
      · rw [hroom] at step
        refine step rfl (less_of_dispatcher ?_)
        rw [hstage]
        exact .right _ (Nat.lt_succ_self _)
      · rw [hroom] at step
        refine step rfl (less_of_turn rfl ?_ (.inl ?_))
        · rw [hstage]
          rfl
        · unfold turn
          rw [hstage]
          simp [System.act, hroomy]
  | drainingDown k p rest received =>
    rw [hstage] at step hproper
    have hnot : ¬ s.dispatcher.stage.Signalled p :=
      Orderly.not_signalled_of_mem ((hD.group k p).mp (hproper.2.1.subset List.mem_cons_self))
        (List.mem_cons_self (l := rest)) (by rw [hstage]; rfl)
    dsimp only at step
    cases houtput : s.output with
    | cons message out =>
      rw [houtput] at step
      refine step rfl (less_of_turn rfl ?_ (.inr ⟨?_, ?_⟩))
      · rw [hstage]
        rfl
      · unfold turn
        rw [hstage]
        rfl
      · change s.output.tail.length < _
        rw [houtput]
        exact Nat.lt_succ_self _
    | nil =>
      rw [houtput] at step
      dsimp only at step
      rw [if_neg (hs.not_gone hnot)] at step
      by_cases hroomy : (s.server p).Roomy
      · refine step rfl (less_of_turn rfl ?_ (.inl ?_))
        · rw [hstage]
          rfl
        · unfold turn
          rw [hstage]
          simp [System.act, hroomy]
      · refine busy houtput (Server.busy_of_full (hD.depth_pos p) ?_)
        rcases room_cases hs hnot with ⟨h, -⟩ | ⟨-, hroom⟩
        · exact absurd h hroomy
        · exact hroom
  | receiving k received =>
    rw [hstage] at step hproper
    obtain ⟨hk, hcount⟩ := hproper
    dsimp only at step
    by_cases hmissing : received < (D.group k).length
    · rw [if_pos hmissing] at step
      cases houtput : s.output with
      | cons message out =>
        rw [houtput] at step
        by_cases hcounts : message.counts D k
        · refine step rfl (less_of_dispatcher ?_)
          rw [hstage]
          refine .right _ ?_
          simp only [Dispatcher.receive, hcounts, if_true]
          omega
        · refine step rfl (less_of_turn rfl ?_ (.inr ⟨?_, ?_⟩))
          · rw [hstage]
            simp [System.act, Stage.left, Dispatcher.receive, hcounts]
          · unfold turn
            rw [hstage]
            rfl
          · change s.output.tail.length < _
            rw [houtput]
            exact Nat.lt_succ_self _
      | nil =>
        rw [hcount] at hmissing
        obtain ⟨p, hrank, hunreported⟩ := exists_unreported hD hmissing
        refine busy houtput (busy_of_signalled hs (p := p) ?_ fun hstopped => ?_)
        · rw [hstage]
          exact hrank.le
        · have hmem := (hs.finals p _).mpr ⟨hstopped, rfl⟩
          unfold System.wire at hmem
          rw [houtput, List.append_nil] at hmem
          exact hunreported _ hmem
    · rw [if_neg hmissing] at step
      refine step rfl (less_of_dispatcher ?_)
      rw [hstage]
      refine .right _ ?_
      omega
  | joining k rest =>
    rw [hstage] at step hproper
    obtain ⟨hk, hsubset⟩ := hproper
    cases rest with
    | cons p rest =>
      have hstopped : (s.server p).phase = .stopped true :=
        hs.stopped_of_over (by rw [hstage]; exact ((hD.group k p).mp (hsubset List.mem_cons_self)).le)
      have hended : s.ended p = some true := by
        unfold System.ended
        rw [hstopped]
      dsimp only at step
      rw [hended] at step
      refine step rfl (less_of_dispatcher ?_)
      rw [hstage]
      exact .right _ (Nat.lt_succ_self _)
    | nil =>
      dsimp only at step
      by_cases hnext : k + 1 < D.stages
      · rw [if_pos hnext] at step
        refine step rfl (less_of_dispatcher ?_)
        rw [hstage]
        exact .left _ _ (by omega)
      · rw [if_neg hnext] at step
        refine step rfl (less_of_dispatcher ?_)
        change Lighter s.dispatcher.finish.stage.left _
        rw [(Orderly.finish_spec s.dispatcher).1, hstage]
        exact .left _ _ (by omega)
  | finished => exact absurd hstage hunfinished
  | asking => exact absurd (by rw [hstage]; trivial) hstopping
  | feeding rest => exact absurd (by rw [hstage]; trivial) hstopping
  | sending parcel rest => exact absurd (by rw [hstage]; trivial) hstopping
  | draining back rest idle => exact absurd (by rw [hstage]; trivial) hstopping

/-- From every state that a run reaches the pool can come to its end: nobody waits for ever. -/
theorem exists_finished [Nonempty ι] (hD : D.Staged) (hs : s.Orderly) :
    ∃ actions s', (∀ action ∈ actions, action.Ending) ∧ s.run actions = some s' ∧
      s'.dispatcher.stage = .finished := by
  obtain ⟨lt, hlt, hrank⟩ := exists_order D.rank
  induction s using (InvImage.wf System.left (wellFounded_less lt)).induction with
  | _ s ih =>
    by_cases hfinished : s.dispatcher.stage = .finished
    · exact ⟨[], s, fun _ h => absurd h List.not_mem_nil, rfl, hfinished⟩
    · obtain ⟨action, s₁, hending, hstep, hless⟩ : ∃ action s', action.Ending ∧ s.step action = some s' ∧
          Less lt s'.left s.left := by
        by_cases hrunning : s.dispatcher.stage.Running
        · exact exists_less_of_running hrank hs hD hrunning
        · exact exists_less_of_stopping hrank hs hD hrunning hfinished
      obtain ⟨actions, s₂, hall, hrun, hend⟩ := ih s₁ hless (hs.step hD (move_of_step hstep))
      refine ⟨action :: actions, s₂, fun a ha => ?_, ?_, hend⟩
      · rcases List.mem_cons.mp ha with rfl | ha
        · exact hending
        · exact hall a ha
      · unfold run
        rw [List.foldlM_cons, hstep]
        exact hrun

end System

end Rustmate.Pool
