import Rustmate.Lib.Pool.Basic

/-!
# The steps of a pool, one by one

What a step of a server or of the dispatcher can be, as relations whose cases say what was true before.
-/

namespace Rustmate.Pool

variable {ι : Type} {D : Design ι}

/-! ## Servers -/

namespace Server

variable {p : ι} {room : ι → Offered} {output : Offered}

/-- The steps of a server. -/
inductive Move (room : ι → Offered) (output : Offered) (x : Server D p) : Server D p → Effect D → Prop
  | timeout (hphase : x.phase = .waiting) (hinbox : x.inbox = []) :
    Move room output x { x with phase := .flushing true } .quiet
  | take (command : Command D p) (rest : List (Command D p)) (hphase : x.phase = .waiting)
    (hinbox : x.inbox = command :: rest) : Move room output x (x.take command rest) .quiet
  | done (state : D.State p) (events : List D.Event) (hphase : x.phase = .working (.done state events)) :
    Move room output x { x with
      phase := .flushing false, state, buffer := x.buffer ++ events,
      produced := x.produced ++ events } .quiet
  | fail (hphase : x.phase = .working .fail) : Move room output x { x with phase := .stopped false } .quiet
  | hand (dest : ι) (item : D.Item dest) (work : D.Task p) (hphase : ∃ next : Offered → D.Task p,
      x.phase = .working (.offer dest item next) ∧ work = next .taken) (hroom : room dest = .taken) :
    Move room output x { x with phase := .working work, sent := x.sent ++ [⟨dest, item⟩] } (.put dest item)
  | refuse (dest : ι) (item : D.Item dest) (next : Offered → D.Task p)
    (hphase : x.phase = .working (.offer dest item next)) (hroom : room dest ≠ .taken) :
    Move room output x { x with phase := .working (next (room dest)) } .quiet
  | enter (dest : ι) (item : D.Item dest) (work : D.Task p) (hphase : ∃ next : Bool → D.Task p,
      x.phase = .working (.send dest item next) ∧ work = next true) (hroom : room dest = .taken) :
    Move room output x { x with phase := .working work, sent := x.sent ++ [⟨dest, item⟩] } (.put dest item)
  | lose (dest : ι) (item : D.Item dest) (next : Bool → D.Task p)
    (hphase : x.phase = .working (.send dest item next)) (hroom : room dest = .closed) :
    Move room output x { x with phase := .working (next false) } .quiet
  | flush (force : Bool) (hphase : x.phase = .flushing force) :
    Move room output x { x with phase := .writing x.buffer false, buffer := [] } .quiet
  | skip (force : Bool) (hphase : x.phase = .flushing force) :
    Move room output x { x with phase := .reporting } .quiet
  | write (batch : List D.Event) (closing : Bool) (hphase : x.phase = .writing batch closing)
    (houtput : output = .taken) :
    Move room output x { x with phase := if closing then .leaving else .reporting } (.push (.events p batch))
  | report (hphase : x.phase = .reporting) (houtput : output = .taken) :
    Move room output x { x with phase := .waiting, state := (D.report p x.state).1 }
      (.push (.report p (D.report p x.state).2))
  | unreported (hphase : x.phase = .reporting) (houtput : output = .full) :
    Move room output x { x with phase := .waiting, state := (D.report p x.state).1 } .quiet
  | idle (hphase : x.phase = .reporting) : Move room output x { x with phase := .waiting } .quiet
  | flushLast (hphase : x.phase = .closing) :
    Move room output x { x with phase := .writing x.buffer true, buffer := [] } .quiet
  | leave (hphase : x.phase = .closing) (hbuffer : x.buffer = []) :
    Move room output x { x with phase := .leaving } .quiet
  | left (hphase : x.phase = .leaving) (houtput : output = .taken) :
    Move room output x { x with phase := .stopped true } (.push (.final p (D.final p x.state)))
  | lost (state : D.State p) (hphase : (∃ batch closing, x.phase = .writing batch closing) ∨
      x.phase = .reporting ∨ x.phase = .leaving) (houtput : output = .closed) :
    Move room output x { x with phase := .stopped false, state } .quiet

/-- The steps that the definition has. -/
theorem move_of_next {due : Bool} {x x' : Server D p} {effect : Effect D}
    (h : x.next room output due = some (x', effect)) : Move room output x x' effect := by
  unfold next at h
  split at h
  next hphase =>
    split at h
    next hinbox =>
      split at h
      · cases h
        exact .timeout hphase hinbox
      · cases h
    next command rest hinbox =>
      cases h
      exact .take command rest hphase hinbox
  next state events hphase =>
    cases h
    exact .done state events hphase
  next hphase =>
    cases h
    exact .fail hphase
  next dest item next hphase =>
    split at h
    next hroom =>
      cases h
      exact .hand dest item _ ⟨next, hphase, rfl⟩ hroom
    next hroom =>
      cases h
      exact .refuse dest item next hphase hroom
  next dest item next hphase =>
    split at h
    next hroom =>
      cases h
      exact .enter dest item _ ⟨next, hphase, rfl⟩ hroom
    next => cases h
    next hroom =>
      cases h
      exact .lose dest item next hphase hroom
  next force hphase =>
    split at h
    · cases h
      exact .flush force hphase
    · cases h
      exact .skip force hphase
  next batch closing hphase =>
    split at h
    · cases h
      exact .write batch closing hphase rfl
    · cases h
    · cases h
      exact .lost x.state (.inl ⟨batch, closing, hphase⟩) rfl
  next hphase =>
    split at h
    · dsimp only at h
      split at h
      · cases h
        exact .report hphase rfl
      · cases h
        exact .unreported hphase rfl
      · cases h
        exact .lost _ (.inr (.inl hphase)) rfl
    · cases h
      exact .idle hphase
  next hphase =>
    split at h
    next hbuffer =>
      cases h
      exact .leave hphase hbuffer
    next =>
      cases h
      exact .flushLast hphase
  next hphase =>
    split at h
    · cases h
      exact .left hphase rfl
    · cases h
    · cases h
      exact .lost x.state (.inr (.inr hphase)) rfl
  next => cases h

end Server

/-! ## The dispatcher -/

/-- The servers are not being stopped yet. -/
def Stage.Running : Stage D → Prop
  | .asking | .feeding _ | .sending _ _ | .draining _ _ _ => True
  | _ => False

namespace Dispatcher

/-- The steps of the dispatcher. What goes wrong outside the pool may go wrong at any time while it runs. -/
inductive Move (room : ι → Offered) (output : List D.Told) (gone : Bool) (ended : ι → Option Bool)
    (x : Dispatcher D) : Dispatcher D → Act D → Prop
  | batch (inputs : List D.Input) (hstage : x.stage = .asking) :
    Move room output gone ended x { x with stage := .feeding inputs, fed := x.fed ++ inputs } .quiet
  | idle (hstage : x.stage = .asking) :
    Move room output gone ended x { x with stage := .draining none [] true } .quiet
  | stop (hstage : x.stage.Running) : Move room output gone ended x (x.stop (some .outside)) .quiet
  | leave (rest : List D.Input) (hstage : x.stage = .draining none rest true) :
    Move room output gone ended x (x.stop none) .quiet
  | exhausted (hstage : x.stage = .feeding []) :
    Move room output gone ended x { x with stage := .draining none [] false } .quiet
  | route (input : D.Input) (rest : List D.Input) (hstage : x.stage = .feeding (input :: rest)) :
    Move room output gone ended x
      { x with router := (D.route x.router input).1, stage := .sending (D.route x.router input).2 rest } .quiet
  | submit (parcel : D.Parcel) (rest : List D.Input) (hstage : x.stage = .sending parcel rest)
    (hroom : room parcel.1 = .taken) :
    Move room output gone ended x { x with stage := .feeding rest, routed := x.routed ++ [parcel] }
      (.put parcel.1 (.item none parcel.2))
  | full (parcel : D.Parcel) (rest : List D.Input) (hstage : x.stage = .sending parcel rest)
    (hroom : room parcel.1 = .full) :
    Move room output gone ended x { x with stage := .draining (some parcel) rest false } .quiet
  | unsent (parcel : D.Parcel) (rest : List D.Input) (hstage : x.stage = .sending parcel rest)
    (hroom : room parcel.1 = .closed) : Move room output gone ended x (x.stop (some .disconnected)) .quiet
  | read (message : D.Told) (out : List D.Told) (hstage : ∃ back rest idle, x.stage = .draining back rest idle)
    (houtput : output = message :: out) (hread : (x.read message).2 = true) :
    Move room output gone ended x (x.read message).1 .pop
  | readFail (message : D.Told) (out : List D.Told)
    (hstage : ∃ back rest idle, x.stage = .draining back rest idle) (houtput : output = message :: out)
    (hread : (x.read message).2 = false) :
    Move room output gone ended x ((x.read message).1.stop (some .outside)) .pop
  | orphaned (hstage : ∃ back rest idle, x.stage = .draining back rest idle) (houtput : output = [])
    (hgone : gone) : Move room output gone ended x (x.stop (some .disconnected)) .quiet
  | resume (parcel : D.Parcel) (rest : List D.Input) (hstage : ∃ idle, x.stage = .draining (some parcel) rest idle)
    (houtput : output = []) : Move room output gone ended x { x with stage := .sending parcel rest } .quiet
  | drained (hstage : ∃ rest idle, x.stage = .draining none rest idle) (houtput : output = []) :
    Move room output gone ended x { x with stage := .asking } .quiet
  | signalled (k received : ℕ) (hstage : x.stage = .signalling k [] received) :
    Move room output gone ended x { x with stage := .receiving k received } .quiet
  | signal (k : ℕ) (p : ι) (rest : List ι) (received : ℕ) (hstage : x.stage = .signalling k (p :: rest) received)
    (hroom : room p = .taken) :
    Move room output gone ended x { x with stage := .signalling k rest received } (.put p .shutdown)
  | busy (k : ℕ) (p : ι) (rest : List ι) (received : ℕ) (hstage : x.stage = .signalling k (p :: rest) received)
    (hroom : room p = .full) :
    Move room output gone ended x { x with stage := .drainingDown k p rest received } .quiet
  | missing (k : ℕ) (p : ι) (rest : List ι) (received : ℕ)
    (hstage : x.stage = .signalling k (p :: rest) received) (hroom : room p = .closed) :
    Move room output gone ended x { x with stage := .signalling k rest received } .quiet
  | readDown (k : ℕ) (p : ι) (rest : List ι) (received : ℕ) (message : D.Told) (out : List D.Told)
    (hstage : x.stage = .drainingDown k p rest received) (houtput : output = message :: out) :
    Move room output gone ended x
      { x.readDown message with stage := .drainingDown k p rest (receive k received message) } .pop
  | orphanedDown (k : ℕ) (p : ι) (rest : List ι) (received : ℕ)
    (hstage : x.stage = .drainingDown k p rest received) (houtput : output = []) (hgone : gone) :
    Move room output gone ended x
      { x.recordFirstError .disconnected with stage := .signalling k (p :: rest) received } .quiet
  | retry (k : ℕ) (p : ι) (rest : List ι) (received : ℕ) (hstage : x.stage = .drainingDown k p rest received)
    (houtput : output = []) :
    Move room output gone ended x { x with stage := .signalling k (p :: rest) received } .quiet
  | receive (k received : ℕ) (message : D.Told) (out : List D.Told) (hstage : x.stage = .receiving k received)
    (hmissing : received < (D.group k).length) (houtput : output = message :: out) :
    Move room output gone ended x
      { x.readDown message with stage := .receiving k (receive k received message) } .pop
  | orphanedReceive (k received : ℕ) (hstage : x.stage = .receiving k received)
    (hmissing : received < (D.group k).length) (houtput : output = []) (hgone : gone) :
    Move room output gone ended x
      { x.recordFirstError .disconnected with stage := .joining k (D.group k) } .quiet
  | received (k received : ℕ) (hstage : x.stage = .receiving k received)
    (hall : (D.group k).length ≤ received) :
    Move room output gone ended x { x with stage := .joining k (D.group k) } .quiet
  | join (k : ℕ) (p : ι) (rest : List ι) (ok : Bool) (hstage : x.stage = .joining k (p :: rest))
    (hended : ended p = some ok) : Move room output gone ended x (x.join k rest ok) .quiet
  | nextStage (k : ℕ) (hstage : x.stage = .joining k []) (hlt : k + 1 < D.stages) :
    Move room output gone ended x { x with stage := .signalling (k + 1) (D.group (k + 1)) 0 } .quiet
  | finish (k : ℕ) (hstage : x.stage = .joining k []) (hlast : D.stages ≤ k + 1) :
    Move room output gone ended x x.finish .quiet

/-- The steps that the definition has. -/
theorem move_of_next {room : ι → Offered} {output : List D.Told} {gone : Bool} {ended : ι → Option Bool}
    {source : Answer D} {x x' : Dispatcher D} {act : Act D}
    (h : x.next room output gone ended source = some (x', act)) : Move room output gone ended x x' act := by
  have running : ∀ {stage : Stage D}, x.stage = stage → stage.Running → x.stage.Running := fun h hr => h ▸ hr
  unfold next at h
  split at h
  next hstage =>
    split at h
    · cases h
      exact .batch _ hstage
    · cases h
      exact .idle hstage
    · cases h
      exact .stop (running hstage trivial)
  next hstage =>
    cases h
    exact .exhausted hstage
  next input rest hstage =>
    cases h
    exact .route input rest hstage
  next parcel rest hstage =>
    split at h
    next hroom =>
      cases h
      exact .submit parcel rest hstage hroom
    next hroom =>
      cases h
      exact .full parcel rest hstage hroom
    next hroom =>
      cases h
      exact .unsent parcel rest hstage hroom
  next back rest idle hstage =>
    split at h
    next message out =>
      split at h
      next self hread =>
        cases h
        have hmove := @Move.read _ _ room _ gone ended x message out
          ⟨back, rest, idle, hstage⟩ rfl (congrArg Prod.snd hread)
        rwa [hread] at hmove
      next self hread =>
        cases h
        have hmove := @Move.readFail _ _ room _ gone ended x message out
          ⟨back, rest, idle, hstage⟩ rfl (congrArg Prod.snd hread)
        rwa [hread] at hmove
    next =>
      split at h
      next hgone =>
        cases h
        exact .orphaned ⟨back, rest, idle, hstage⟩ rfl hgone
      next =>
        split at h
        next parcel =>
          cases h
          exact .resume parcel rest ⟨idle, hstage⟩ rfl
        next =>
          split at h
          · cases h
            exact .stop (running hstage trivial)
          · split at h
            next hover =>
              cases h
              exact .leave rest (hover.1 ▸ hstage)
            next =>
              cases h
              exact .drained ⟨rest, idle, hstage⟩ rfl
          · cases h
            exact .drained ⟨rest, idle, hstage⟩ rfl
  next k received hstage =>
    cases h
    exact .signalled k received hstage
  next k p rest received hstage =>
    split at h
    next hroom =>
      cases h
      exact .signal k p rest received hstage hroom
    next hroom =>
      cases h
      exact .busy k p rest received hstage hroom
    next hroom =>
      cases h
      exact .missing k p rest received hstage hroom
  next k p rest received hstage =>
    split at h
    next message out =>
      cases h
      exact .readDown k p rest received message out hstage rfl
    next =>
      split at h
      next hgone =>
        cases h
        exact .orphanedDown k p rest received hstage rfl hgone
      next =>
        cases h
        exact .retry k p rest received hstage rfl
  next k received hstage =>
    split at h
    next hmissing =>
      split at h
      next message out =>
        cases h
        exact .receive k received message out hstage hmissing rfl
      next =>
        split at h
        next hgone =>
          cases h
          exact .orphanedReceive k received hstage hmissing rfl hgone
        next => cases h
    next hall =>
      cases h
      exact .received k received hstage (Nat.le_of_not_lt hall)
  next k p rest hstage =>
    obtain ⟨ok, hended, hok⟩ := Option.map_eq_some_iff.mp h
    cases hok
    exact .join k p rest ok hstage hended
  next k hstage =>
    split at h
    next hlt =>
      cases h
      exact .nextStage k hstage hlt
    next hlast =>
      cases h
      exact .finish k hstage (Nat.le_of_not_lt hlast)
  next => cases h

end Dispatcher

/-! ## The pool -/

namespace System

variable [DecidableEq ι] [Fintype ι]

/-- The steps of a pool. -/
inductive Move (s : System D) : System D → Prop
  | server (p : ι) (x' : Server D p) (effect : Effect D)
    (hmove : (s.server p).Move s.room s.outputRoom x' effect) : Move s (s.apply p x' effect)
  | dispatcher (x' : Dispatcher D) (act : Act D)
    (hmove : s.dispatcher.Move s.room s.output s.gone s.ended x' act) : Move s (s.act x' act)
  | ask (p : ι) (query : D.Query p) (hroom : s.room p = .taken) : Move s (s.put p (.query query))

/-- The steps that the definition has. -/
theorem move_of_step {s s' : System D} {action : Action D} (h : s.step action = some s') : s.Move s' := by
  unfold step at h
  split at h
  · obtain ⟨⟨x', effect⟩, hnext, rfl⟩ := Option.map_eq_some_iff.mp h
    exact .server _ x' effect (Server.move_of_next hnext)
  · obtain ⟨⟨x', act⟩, hnext, rfl⟩ := Option.map_eq_some_iff.mp h
    exact .dispatcher x' act (Dispatcher.move_of_next hnext)
  · split at h
    next hroom =>
      cases h
      exact .ask _ _ hroom
    next => cases h

theorem step_server {s : System D} {p : ι} {due : Bool} {x' : Server D p} {effect : Effect D}
    (h : (s.server p).next s.room s.outputRoom due = some (x', effect)) :
    s.step (.server p due) = some (s.apply p x' effect) := by
  unfold step
  dsimp only
  rw [h]
  rfl

theorem step_dispatcher {s : System D} {source : Answer D} {x' : Dispatcher D} {act : Act D}
    (h : s.dispatcher.next s.room s.output s.gone s.ended source = some (x', act)) :
    s.step (.dispatcher source) = some (s.act x' act) := by
  unfold step
  dsimp only
  rw [h]
  rfl

/-- What every step keeps holds after every run. -/
theorem run_induction {P : System D → Prop} (hstep : ∀ s s', P s → s.Move s' → P s') {s s' : System D}
    {actions : List (Action D)} (hs : P s) (h : s.run actions = some s') : P s' := by
  induction actions generalizing s with
  | nil =>
    cases h
    exact hs
  | cons action actions ih =>
    unfold run at h
    rw [List.foldlM_cons] at h
    obtain ⟨s₁, hone, hrest⟩ := Option.bind_eq_some_iff.mp h
    exact ih (hstep s s₁ hs (move_of_step hone)) hrest

end System

end Rustmate.Pool
