import Rustmate.Lib.Pool.Moves

/-!
# What the dispatcher made of its inputs and its messages

The items that the dispatcher put into channels are the routes of its inputs, one by one, and its collector has
collected the messages that it read, one by one. A run without an error leaves no input out.
-/

namespace Rustmate.Pool

variable {ι : Type} {D : Design ι}

namespace Design

/-- The routes of inputs, one after the other. -/
def routeAll (D : Design ι) : D.Router → List D.Input → D.Router × List D.Parcel
  | router, [] => (router, [])
  | router, input :: rest =>
    let (router, parcel) := D.route router input
    let (router, parcels) := routeAll D router rest
    (router, parcel :: parcels)

/-- Messages are collected one after the other, whether they can be or not. -/
def collectAll (D : Design ι) : D.Collector → List D.Told → D.Collector × Bool
  | collector, [] => (collector, true)
  | collector, message :: rest =>
    let (collector, ok) := D.collect collector message
    let (collector, oks) := collectAll D collector rest
    (collector, ok && oks)

theorem routeAll_append (router : D.Router) (inputs inputs' : List D.Input) :
    D.routeAll router (inputs ++ inputs') =
      ((D.routeAll (D.routeAll router inputs).1 inputs').1,
        (D.routeAll router inputs).2 ++ (D.routeAll (D.routeAll router inputs).1 inputs').2) := by
  induction inputs generalizing router with
  | nil => rfl
  | cons input inputs ih => simp only [List.cons_append, routeAll, ih]

theorem routeAll_concat (router : D.Router) (inputs : List D.Input) (input : D.Input) :
    D.routeAll router (inputs ++ [input]) =
      ((D.route (D.routeAll router inputs).1 input).1,
        (D.routeAll router inputs).2 ++ [(D.route (D.routeAll router inputs).1 input).2]) :=
  routeAll_append router inputs [input]

/-- Every input has its route. -/
theorem length_routeAll (router : D.Router) (inputs : List D.Input) :
    (D.routeAll router inputs).2.length = inputs.length := by
  induction inputs generalizing router with
  | nil => rfl
  | cons input inputs ih => exact congrArg (· + 1) (ih _)

/-- The first routes are those of the first inputs. -/
theorem routeAll_take (router : D.Router) (inputs : List D.Input) {parcels rest : List D.Parcel}
    (h : (D.routeAll router inputs).2 = parcels ++ rest) :
    (D.routeAll router (inputs.take parcels.length)).2 = parcels := by
  have happend := routeAll_append router (inputs.take parcels.length) (inputs.drop parcels.length)
  rw [List.take_append_drop] at happend
  rw [happend] at h
  refine (List.append_inj h ?_).1
  have hlength := congrArg List.length h
  simp only [List.length_append, length_routeAll, List.length_drop, List.length_take] at hlength ⊢
  omega

theorem collectAll_append (collector : D.Collector) (messages messages' : List D.Told) :
    D.collectAll collector (messages ++ messages') =
      ((D.collectAll (D.collectAll collector messages).1 messages').1,
        (D.collectAll collector messages).2 && (D.collectAll (D.collectAll collector messages).1 messages').2) := by
  induction messages generalizing collector with
  | nil => simp [collectAll]
  | cons message messages ih => simp only [List.cons_append, collectAll, ih, Bool.and_assoc]

theorem collectAll_concat (collector : D.Collector) (messages : List D.Told) (message : D.Told) :
    D.collectAll collector (messages ++ [message]) =
      ((D.collect (D.collectAll collector messages).1 message).1,
        (D.collectAll collector messages).2 && (D.collect (D.collectAll collector messages).1 message).2) := by
  rw [collectAll_append]
  simp only [collectAll, Bool.and_true]

end Design

/-- The inputs that have no route yet. -/
def Stage.unrouted : Stage D → List D.Input
  | .feeding rest | .sending _ rest | .draining _ rest _ => rest
  | _ => []

/-- The item that has a route and is in no channel yet. -/
def Stage.pending : Stage D → List D.Parcel
  | .sending parcel _ => [parcel]
  | .draining back _ _ => back.toList
  | _ => []

namespace Dispatcher

/-- The inputs that have a route, the others, and the item that is in no channel. -/
structure Routed (x : Dispatcher D) (routed unrouted : List D.Input) (pending : List D.Parcel) : Prop where
  fed : x.fed = routed ++ unrouted
  route : D.routeAll D.router routed = (x.router, x.routed ++ pending)

/-- The books of the dispatcher. -/
structure Ledger (x : Dispatcher D) : Prop where
  routed : ∃ routed unrouted pending, x.Routed routed unrouted pending ∧
    (x.stage.Running → unrouted = x.stage.unrouted ∧ pending = x.stage.pending) ∧
    (¬ x.stage.Running → x.run_error = none → unrouted = [] ∧ pending = [])
  spent : ∀ rest idle, x.stage = .draining none rest idle → rest = []
  collected : x.stage ≠ .finished → x.collector = (D.collectAll D.collector x.seen).1
  closed : x.stage = .finished → x.collector = (D.close (D.collectAll D.collector x.seen).1).1
  faultless : x.stage.Running ∨ x.run_error = none ∧ x.first_error = none →
    (D.collectAll D.collector x.seen).2 = true
  flushed : x.stage = .finished → x.first_error = none →
    (D.close (D.collectAll D.collector x.seen).1).2 = true

theorem ledger_new (D : Design ι) : (new D).Ledger where
  routed := ⟨[], [], [], ⟨rfl, rfl⟩, fun _ => ⟨rfl, rfl⟩, fun h => absurd trivial h⟩
  spent := nofun
  collected := fun _ => rfl
  closed := nofun
  faultless := fun _ => rfl
  flushed := nofun

/-- The inputs whose items the dispatcher put into channels. -/
def given (x : Dispatcher D) : List D.Input := x.fed.take x.routed.length

namespace Ledger

variable {x x' : Dispatcher D}

/-- The items in the channels are those of the first inputs. -/
theorem route_given (h : x.Ledger) : (D.routeAll D.router x.given).2 = x.routed := by
  obtain ⟨inputs, others, pending, ⟨hfed, hroute⟩, -, -⟩ := h.routed
  have hlength : x.routed.length ≤ inputs.length := by
    rw [← Design.length_routeAll D.router inputs, hroute, List.length_append]
    exact Nat.le_add_right _ _
  unfold given
  rw [hfed, List.take_append_of_le_length hlength]
  exact Design.routeAll_take _ inputs (congrArg Prod.snd hroute)

/-- Without an error, the items of all inputs are in channels in the end. -/
theorem given_eq_fed (h : x.Ledger) (hx : ¬ x.stage.Running) (herror : x.run_error = none) : x.given = x.fed := by
  obtain ⟨inputs, others, pending, ⟨hfed, hroute⟩, -, hall⟩ := h.routed
  obtain ⟨rfl, rfl⟩ := hall hx herror
  have hlength := Design.length_routeAll D.router inputs
  rw [hroute, List.append_nil] at hlength
  unfold given
  rw [hfed, List.append_nil, hlength, List.take_length]

/-- Without an error, the router in the end is the one after all inputs. -/
theorem router_eq (h : x.Ledger) (hx : ¬ x.stage.Running) (herror : x.run_error = none) :
    (D.routeAll D.router x.fed).1 = x.router := by
  obtain ⟨inputs, others, pending, ⟨hfed, hroute⟩, -, hall⟩ := h.routed
  obtain ⟨rfl, rfl⟩ := hall hx herror
  rw [hfed, List.append_nil, hroute]

/-- While it has inputs, the dispatcher has collected all messages. -/
theorem collecting (h : x.Ledger) (hx : x.stage.Running) : D.collectAll D.collector x.seen = (x.collector, true) := by
  refine Prod.ext ?_ (h.faultless (.inl hx))
  refine (h.collected fun hf => ?_).symm
  rw [hf] at hx
  exact hx

/-- The dispatcher goes on with its inputs. -/
theorem go (h : x.Ledger) (hx : x.stage.Running) (hx' : x'.stage.Running)
    (hrouted : ∀ routed, x.Routed routed x.stage.unrouted x.stage.pending →
      ∃ routed', x'.Routed routed' x'.stage.unrouted x'.stage.pending)
    (hspent : ∀ rest idle, x'.stage = .draining none rest idle → rest = [])
    (hcollected : D.collectAll D.collector x'.seen = (x'.collector, true)) : x'.Ledger := by
  have hnot : x'.stage ≠ .finished := fun h => by
    rw [h] at hx'
    exact hx'
  obtain ⟨routed, unrouted, pending, hr, hrunning, -⟩ := h.routed
  obtain ⟨rfl, rfl⟩ := hrunning hx
  obtain ⟨routed', hr'⟩ := hrouted routed hr
  exact ⟨⟨routed', _, _, hr', fun _ => ⟨rfl, rfl⟩, fun hn => absurd hx' hn⟩, hspent,
    fun _ => (congrArg Prod.fst hcollected).symm, fun hf => absurd hf hnot, fun _ => congrArg Prod.snd hcollected,
    fun hf => absurd hf hnot⟩

/-- The run ends. -/
theorem stop (h : x.Ledger) (hx : x.stage.Running) {err : Option Error}
    (herr : err = none → x.stage.unrouted = [] ∧ x.stage.pending = []) : (x.stop err).Ledger := by
  obtain ⟨routed, unrouted, pending, hr, hrunning, -⟩ := h.routed
  obtain ⟨rfl, rfl⟩ := hrunning hx
  exact ⟨⟨routed, _, _, ⟨hr.fed, hr.route⟩, False.elim, fun _ => herr⟩, nofun,
    fun _ => (congrArg Prod.fst (h.collecting hx)).symm, nofun, fun _ => h.faultless (.inl hx), nofun⟩

/-- The dispatcher stops the servers. -/
theorem down (h : x.Ledger) (hx : ¬ x.stage.Running) (hx' : ¬ x'.stage.Running) (hlast : x'.stage ≠ .finished)
    (hfed : x'.fed = x.fed) (hrouter : x'.router = x.router) (hrouted : x'.routed = x.routed)
    (herror : x'.run_error = x.run_error) (hcollected : x'.collector = (D.collectAll D.collector x'.seen).1)
    (hfaultless : x'.first_error = none → x.first_error = none ∧
      ((D.collectAll D.collector x.seen).2 = true → (D.collectAll D.collector x'.seen).2 = true)) : x'.Ledger := by
  obtain ⟨routed, unrouted, pending, hr, -, hdone⟩ := h.routed
  refine ⟨⟨routed, unrouted, pending, ⟨hfed.trans hr.fed, ?_⟩, fun hr => absurd hr hx', fun _ herr =>
      hdone hx (herror ▸ herr)⟩, fun rest idle hs => ?_, fun _ => hcollected, fun hf => absurd hf hlast, ?_,
    fun hf => absurd hf hlast⟩
  · rw [hr.route, hrouter, hrouted]
  · rw [hs] at hx'
    exact absurd trivial hx'
  · rintro (hrunning | ⟨hrun, hfirst⟩)
    · exact absurd hrunning hx'
    · obtain ⟨hfirst, hok⟩ := hfaultless hfirst
      exact hok (h.faultless (.inr ⟨herror ▸ hrun, hfirst⟩))

/-- Only the stage changes. -/
theorem turn (h : x.Ledger) (hx : ¬ x.stage.Running) (hfinished : x.stage ≠ .finished) {stage : Stage D}
    (hstage : ¬ stage.Running) (hlast : stage ≠ .finished) : Ledger { x with stage } :=
  h.down hx hstage hlast rfl rfl rfl rfl (h.collected hfinished) fun hf => ⟨hf, id⟩

/-- An error that is there is recorded, so there is one then. -/
theorem recordFirstError_ne_none (x : Dispatcher D) (err : Error) : (x.recordFirstError err).first_error ≠ none := by
  unfold recordFirstError
  cases x.first_error <;> exact nofun

/-- An error while the servers are stopped. -/
theorem fault (h : x.Ledger) (hx : ¬ x.stage.Running) (hfinished : x.stage ≠ .finished) (stage : Stage D)
    (hstage : ¬ stage.Running) (hlast : stage ≠ .finished) (err : Error) :
    Ledger { x.recordFirstError err with stage } :=
  h.down hx hstage hlast rfl rfl rfl rfl (h.collected hfinished) fun hf =>
    absurd hf (recordFirstError_ne_none x err)

/-- A message that is read while the servers are stopped, and the error when it cannot be collected. -/
theorem readDown_eq (x : Dispatcher D) (message : D.Told) : ∃ first_error,
    x.readDown message =
      { x with collector := (D.collect x.collector message).1, seen := x.seen ++ [message], first_error } ∧
    (first_error = none → x.first_error = none ∧ (D.collect x.collector message).2 = true) := by
  unfold Dispatcher.readDown Dispatcher.read
  dsimp only
  cases hok : (D.collect x.collector message).2 with
  | true => exact ⟨_, rfl, fun h => ⟨h, rfl⟩⟩
  | false => exact ⟨_, rfl, fun h => absurd h (recordFirstError_ne_none x .outside)⟩

/-- A message is read while the servers are stopped. -/
theorem readDown (h : x.Ledger) (hx : ¬ x.stage.Running) (hfinished : x.stage ≠ .finished) (stage : Stage D)
    (hstage : ¬ stage.Running) (hlast : stage ≠ .finished) (message : D.Told) :
    Ledger { x.readDown message with stage } := by
  have hconcat := Design.collectAll_concat D.collector x.seen message
  rw [← h.collected hfinished] at hconcat
  obtain ⟨first_error, heq, hfirst⟩ := readDown_eq x message
  rw [heq]
  refine h.down hx hstage hlast rfl rfl rfl rfl (congrArg Prod.fst hconcat).symm fun hf => ?_
  obtain ⟨hnone, hok⟩ := hfirst hf
  refine ⟨hnone, fun hseen => (congrArg Prod.snd hconcat).trans ?_⟩
  rw [hseen, hok]
  rfl

/-- All stages have ended. -/
theorem finish (h : x.Ledger) (hx : ¬ x.stage.Running) (hfinished : x.stage ≠ .finished) : x.finish.Ledger := by
  obtain ⟨routed, unrouted, pending, hr, -, hdone⟩ := h.routed
  have hcollected := h.collected hfinished
  unfold Dispatcher.finish
  cases hclose : D.close x.collector with
  | mk collector ok =>
    rw [hcollected] at hclose
    cases ok with
    | true =>
      exact ⟨⟨routed, unrouted, pending, ⟨hr.fed, hr.route⟩, False.elim, fun _ => hdone hx⟩, nofun,
        fun hn => absurd rfl hn, fun _ => (congrArg Prod.fst hclose).symm,
        fun hf => h.faultless (.inr (hf.resolve_left False.elim)), fun _ _ => congrArg Prod.snd hclose⟩
    | false =>
      exact ⟨⟨routed, unrouted, pending, ⟨hr.fed, hr.route⟩, False.elim, fun _ => hdone hx⟩, nofun,
        fun hn => absurd rfl hn, fun _ => (congrArg Prod.fst hclose).symm,
        fun hf => absurd (hf.resolve_left False.elim).2 (recordFirstError_ne_none _ _),
        fun _ hf => absurd hf (recordFirstError_ne_none _ _)⟩

/-- Every step of the dispatcher keeps the books. -/
theorem step {room : ι → Offered} {output : List D.Told} {gone : Bool} {ended : ι → Option Bool} {act : Act D}
    (h : x.Ledger) (hmove : x.Move room output gone ended x' act) : x'.Ledger := by
  have running : ∀ {stage : Stage D}, x.stage = stage → stage.Running → x.stage.Running := fun hs hr => hs ▸ hr
  have halted : ∀ {stage : Stage D}, x.stage = stage → ¬ stage.Running → ¬ x.stage.Running := fun hs hr => hs ▸ hr
  have unfinished : ∀ {stage : Stage D}, x.stage = stage → stage ≠ .finished → x.stage ≠ .finished :=
    fun hs hn => hs ▸ hn
  cases hmove with
  | batch inputs hstage =>
    refine h.go (running hstage trivial) trivial (fun routed hr => ?_) nofun (h.collecting (running hstage trivial))
    rw [hstage] at hr
    obtain ⟨hfed, hroute⟩ := hr
    refine ⟨routed, ?_, hroute⟩
    change x.fed ++ inputs = routed ++ inputs
    rw [hfed]
    exact congrArg (· ++ inputs) (List.append_nil routed)
  | idle hstage =>
    refine h.go (running hstage trivial) trivial (fun routed hr => ⟨routed, ?_⟩) (fun rest idle hs => ?_)
      (h.collecting (running hstage trivial))
    · rw [hstage] at hr
      exact ⟨hr.fed, hr.route⟩
    · cases hs
      rfl
  | stop hstage => exact h.stop hstage nofun
  | leave rest hstage =>
    refine h.stop (running hstage trivial) fun _ => ?_
    have hrest := h.spent rest true hstage
    rw [hstage, hrest]
    exact ⟨rfl, rfl⟩
  | exhausted hstage =>
    refine h.go (running hstage trivial) trivial (fun routed hr => ⟨routed, ?_⟩) (fun rest idle hs => ?_)
      (h.collecting (running hstage trivial))
    · rw [hstage] at hr
      exact ⟨hr.fed, hr.route⟩
    · cases hs
      rfl
  | route input rest hstage =>
    refine h.go (running hstage trivial) trivial (fun routed hr => ⟨routed ++ [input], ?_⟩)
      nofun (h.collecting (running hstage trivial))
    rw [hstage] at hr
    obtain ⟨hfed, hroute⟩ := hr
    refine ⟨hfed.trans (by rw [List.append_assoc]; rfl), ?_⟩
    rw [Design.routeAll_concat, hroute]
    exact congrArg (Prod.mk _) (congrArg (· ++ _) (List.append_nil x.routed))
  | submit parcel rest hstage =>
    refine h.go (running hstage trivial) trivial (fun routed hr => ⟨routed, ?_⟩)
      nofun (h.collecting (running hstage trivial))
    rw [hstage] at hr
    exact ⟨hr.fed, hr.route.trans (congrArg (Prod.mk _) (List.append_nil _).symm)⟩
  | full parcel rest hstage =>
    refine h.go (running hstage trivial) trivial (fun routed hr => ⟨routed, ?_⟩)
      nofun (h.collecting (running hstage trivial))
    rw [hstage] at hr
    exact ⟨hr.fed, hr.route⟩
  | unsent parcel rest hstage => exact h.stop (running hstage trivial) nofun
  | read message out hstage houtput hread =>
    obtain ⟨back, rest, idle, hstage⟩ := hstage
    have hx := running hstage trivial
    refine h.go hx hx (fun routed hr => ⟨routed, hr.fed, hr.route⟩) h.spent ?_
    have hconcat := Design.collectAll_concat D.collector x.seen message
    rw [h.collecting hx] at hconcat
    exact hconcat.trans (Prod.ext rfl hread)
  | readFail message out hstage houtput hread =>
    obtain ⟨back, rest, idle, hstage⟩ := hstage
    have hx := running hstage trivial
    have hconcat := Design.collectAll_concat D.collector x.seen message
    rw [h.collecting hx] at hconcat
    obtain ⟨routed, unrouted, pending, hr, -, -⟩ := h.routed
    exact ⟨⟨routed, unrouted, pending, ⟨hr.fed, hr.route⟩, False.elim, nofun⟩, nofun,
      fun _ => (congrArg Prod.fst hconcat).symm, nofun, nofun, nofun⟩
  | orphaned hstage =>
    obtain ⟨back, rest, idle, hstage⟩ := hstage
    exact h.stop (running hstage trivial) nofun
  | resume parcel rest hstage =>
    obtain ⟨idle, hstage⟩ := hstage
    refine h.go (running hstage trivial) trivial (fun routed hr => ⟨routed, ?_⟩)
      nofun (h.collecting (running hstage trivial))
    rw [hstage] at hr
    exact ⟨hr.fed, hr.route⟩
  | drained hstage =>
    obtain ⟨rest, idle, hstage⟩ := hstage
    have hrest := h.spent rest idle hstage
    refine h.go (running hstage trivial) trivial (fun routed hr => ⟨routed, ?_⟩)
      nofun (h.collecting (running hstage trivial))
    rw [hstage, hrest] at hr
    exact ⟨hr.fed, hr.route⟩
  | signalled k received hstage => exact h.turn (halted hstage id) (unfinished hstage nofun) id nofun
  | signal k p rest received hstage => exact h.turn (halted hstage id) (unfinished hstage nofun) id nofun
  | busy k p rest received hstage => exact h.turn (halted hstage id) (unfinished hstage nofun) id nofun
  | missing k p rest received hstage => exact h.turn (halted hstage id) (unfinished hstage nofun) id nofun
  | readDown k p rest received message out hstage =>
    exact h.readDown (halted hstage id) (unfinished hstage nofun)
      (.drainingDown k p rest (receive k received message)) id nofun message
  | orphanedDown k p rest received hstage =>
    exact h.fault (halted hstage id) (unfinished hstage nofun)
      (.signalling k (p :: rest) received) id nofun .disconnected
  | retry k p rest received hstage => exact h.turn (halted hstage id) (unfinished hstage nofun) id nofun
  | receive k received message out hstage =>
    exact h.readDown (halted hstage id) (unfinished hstage nofun)
      (.receiving k (receive k received message)) id nofun message
  | orphanedReceive k received hstage =>
    exact h.fault (halted hstage id) (unfinished hstage nofun) (.joining k (D.group k)) id nofun .disconnected
  | received k received hstage => exact h.turn (halted hstage id) (unfinished hstage nofun) id nofun
  | join k p rest ok hstage =>
    cases ok with
    | true => exact h.turn (halted hstage id) (unfinished hstage nofun) id nofun
    | false => exact h.fault (halted hstage id) (unfinished hstage nofun) (.joining k rest) id nofun .server
  | nextStage k hstage => exact h.turn (halted hstage id) (unfinished hstage nofun) id nofun
  | finish k hstage => exact h.finish (halted hstage id) (unfinished hstage nofun)

end Ledger

end Dispatcher

/-- The books are right after any run. -/
theorem System.run_ledger [DecidableEq ι] [Fintype ι] {actions : List (Action D)} {s : System D}
    (h : (System.new D).run actions = some s) : s.dispatcher.Ledger := by
  refine @run_induction _ _ _ _ (fun s => s.dispatcher.Ledger) (fun s s' hs hmove => ?_) _ _ _
    (Dispatcher.ledger_new D) h
  cases hmove with
  | server p x' effect hmove => cases effect <;> exact hs
  | dispatcher x' act hmove => cases act <;> exact hs.step hmove
  | ask p query hroom => exact hs

end Rustmate.Pool
