import Rustmate.Lib.Pool.OrderlyRun

/-!
# Nothing is lost and nothing comes twice

Every item that a channel took is handled once, in the order in which each sender put its own, and every event
is told once, in the order in which it was produced.
-/

namespace Rustmate.Pool

variable {ι : Type} {D : Design ι}

/-! ## Items -/

/-- All commands that entered the channel of a server: those that it took and those that it did not take yet. -/
def Server.entered {p : ι} (self : Server D p) : List (Command D p) := self.commands ++ self.inbox

/-- The item of a command that the sender put. -/
def Command.parcelFrom [DecidableEq ι] (sender : Option ι) {p : ι} : Command D p → Option D.Parcel
  | .item source content => if source = sender then some ⟨p, content⟩ else none
  | _ => none

/-- The items of commands that the sender put. -/
def parcelsFrom [DecidableEq ι] (sender : Option ι) {p : ι} (commands : List (Command D p)) : List D.Parcel :=
  commands.filterMap (Command.parcelFrom sender)

/-- The items that are for a server. -/
def parcelsTo [DecidableEq ι] (p : ι) (parcels : List D.Parcel) : List D.Parcel :=
  parcels.filter fun parcel => parcel.1 = p

/-- What an effect hands to another server. -/
def Effect.parcels : Effect D → List D.Parcel
  | .put q item => [⟨q, item⟩]
  | _ => []

/-- What an act of the dispatcher hands to a server. -/
def Act.parcels : Act D → List D.Parcel
  | .put p (.item _ item) => [⟨p, item⟩]
  | _ => []

/-! ## Events -/

/-- The events that a server told. -/
def eventsOf [DecidableEq ι] (p : ι) (wire : List D.Told) : List D.Event :=
  wire.flatMap fun
    | .events q batch => if q = p then batch else []
    | _ => []

/-- The events that a server produced and did not tell yet. -/
def Server.untold {p : ι} (self : Server D p) : List D.Event :=
  match self.phase with
  | .writing batch _ => batch ++ self.buffer
  | _ => self.buffer

/-- What an effect tells. -/
def Effect.told : Effect D → List D.Told
  | .push message => [message]
  | _ => []

/-- A server that has told all its events when it ends. -/
def Server.Emptied {p : ι} (self : Server D p) : Prop :=
  match self.phase with
  | .writing _ _ | .leaving | .stopped true => self.buffer = []
  | _ => True

namespace Server

variable {p : ι} {room : ι → Offered} {output : Offered} {x x' : Server D p} {effect : Effect D}

/-- No command is lost. -/
theorem Move.entered (h : Move room output x x' effect) : x'.entered = x.entered := by
  cases h with
  | take command rest hphase hinbox =>
    unfold Server.entered
    rw [hinbox, ← List.singleton_append, ← List.append_assoc]
    cases command <;> rfl
  | _ => rfl

/-- What others took is noted. -/
theorem Move.sent (h : Move room output x x' effect) : x'.sent = x.sent ++ effect.parcels := by
  cases h with
  | take command rest hphase hinbox => cases command <;> exact (List.append_nil _).symm
  | hand => rfl
  | enter => rfl
  | _ => exact (List.append_nil _).symm

/-- A server that does its work as designed hands items to later stages. -/
theorem Move.later (h : Move room output x x' effect)
    (hsound : ∀ work, x.phase = .working work → work.Sound fun q => D.rank p < D.rank q) {parcel : D.Parcel}
    (hmem : parcel ∈ effect.parcels) : D.rank p < D.rank parcel.1 := by
  cases h with
  | hand dest item work hphase hroom =>
    obtain ⟨next, hphase, -⟩ := hphase
    rw [List.mem_singleton.mp hmem]
    exact (hsound _ hphase).1
  | enter dest item work hphase hroom =>
    obtain ⟨next, hphase, -⟩ := hphase
    rw [List.mem_singleton.mp hmem]
    exact (hsound _ hphase).1
  | _ => exact absurd hmem List.not_mem_nil

/-- No event is lost, and none comes before an earlier one. -/
theorem Move.produced [DecidableEq ι] (h : Move room output x x' effect) (houtput : output ≠ .closed)
    {wire : List D.Told} (hx : x.produced = eventsOf p wire ++ x.untold) :
    x'.produced = eventsOf p (wire ++ effect.told) ++ x'.untold := by
  have hquiet : effect.told = [] → x'.produced = eventsOf p wire ++ x'.untold →
      x'.produced = eventsOf p (wire ++ effect.told) ++ x'.untold := by
    intro heffect h
    rw [heffect, List.append_nil]
    exact h
  unfold untold at hx
  cases h with
  | take command rest hphase hinbox =>
    refine hquiet rfl ?_
    rw [hphase] at hx
    cases command <;> exact hx
  | done state events hphase =>
    refine hquiet rfl ?_
    rw [hphase] at hx
    unfold untold
    dsimp only at hx ⊢
    rw [hx, List.append_assoc]
  | write batch closing hphase houtput =>
    rw [hphase] at hx
    have hbuffer : untold { x with phase := if closing then .leaving else .reporting } = x.buffer := by
      cases closing <;> rfl
    have htold : eventsOf p (wire ++ [.events p batch]) = eventsOf p wire ++ batch := by simp [eventsOf]
    change x.produced = eventsOf p (wire ++ [.events p batch]) ++ untold { x with phase := _ }
    rw [hbuffer, htold, hx, List.append_assoc]
  | flush force hphase =>
    refine hquiet rfl ?_
    rw [hphase] at hx
    simpa [untold] using hx
  | flushLast hphase =>
    refine hquiet rfl ?_
    rw [hphase] at hx
    simpa [untold] using hx
  | report hphase houtput =>
    rw [hphase] at hx
    simpa [untold, eventsOf, Effect.told] using hx
  | left hphase houtput =>
    rw [hphase] at hx
    simpa [untold, eventsOf, Effect.told] using hx
  | lost state hphase hclosed => exact absurd hclosed houtput
  | hand dest item work hphase hroom =>
    obtain ⟨next, hphase, -⟩ := hphase
    refine hquiet rfl ?_
    rw [hphase] at hx
    exact hx
  | enter dest item work hphase hroom =>
    obtain ⟨next, hphase, -⟩ := hphase
    refine hquiet rfl ?_
    rw [hphase] at hx
    exact hx
  | timeout hphase => exact hquiet rfl (by rw [hphase] at hx; exact hx)
  | fail hphase => exact hquiet rfl (by rw [hphase] at hx; exact hx)
  | refuse dest item next hphase => exact hquiet rfl (by rw [hphase] at hx; exact hx)
  | lose dest item next hphase => exact hquiet rfl (by rw [hphase] at hx; exact hx)
  | skip force hphase => exact hquiet rfl (by rw [hphase] at hx; exact hx)
  | unreported hphase => exact hquiet rfl (by rw [hphase] at hx; exact hx)
  | idle hphase => exact hquiet rfl (by rw [hphase] at hx; exact hx)
  | leave hphase => exact hquiet rfl (by rw [hphase] at hx; exact hx)

/-- What a server tells is its own. -/
theorem Move.sender (h : Move room output x x' effect) {message : D.Told} (hmem : message ∈ effect.told) :
    message.sender = p := by
  rcases h.pushed with ⟨-, heffect⟩ | ⟨-, hpush⟩
  · rw [heffect] at hmem
    rw [List.mem_singleton.mp hmem]
    rfl
  · cases effect with
    | push message' =>
      rw [List.mem_singleton.mp hmem]
      rcases hpush message' rfl with ⟨batch, rfl⟩ | ⟨report, rfl⟩ <;> rfl
    | quiet => cases hmem
    | put dest item => cases hmem

/-- A server ends with nothing left to tell. -/
theorem Move.emptied (h : Move room output x x' effect) (hx : x.Emptied) : x'.Emptied := by
  unfold Emptied at hx
  cases h with
  | take command rest hphase hinbox => cases command <;> trivial
  | flush => rfl
  | flushLast => rfl
  | write batch closing hphase =>
    rw [hphase] at hx
    cases closing with
    | true => exact hx
    | false => trivial
  | leave hphase hbuffer => exact hbuffer
  | left hphase =>
    rw [hphase] at hx
    exact hx
  | _ => trivial

end Server

namespace Dispatcher

variable {room : ι → Offered} {output : List D.Told} {gone : Bool} {ended : ι → Option Bool} {x x' : Dispatcher D}
  {act : Act D}

/-- What the dispatcher put into channels is noted. -/
theorem Move.routed (h : Move room output gone ended x x' act) : x'.routed = x.routed ++ act.parcels := by
  have hdown : ∀ message, (x.readDown message).routed = x.routed := by
    intro message
    unfold Dispatcher.readDown Dispatcher.read
    dsimp only
    cases (D.collect x.collector message).2 <;> rfl
  cases h with
  | submit => rfl
  | readDown k p rest received message => exact (hdown message).trans (List.append_nil _).symm
  | receive k received message => exact (hdown message).trans (List.append_nil _).symm
  | join k p rest ok => cases ok <;> exact (List.append_nil _).symm
  | finish =>
    unfold Dispatcher.finish
    split <;> exact (List.append_nil _).symm
  | _ => exact (List.append_nil _).symm

/-- What the dispatcher puts is an item of its own or the command to stop. -/
theorem Move.put (h : Move room output gone ended x x' act) {p : ι} {command : Command D p}
    (hact : act = .put p command) : command = .shutdown ∨ ∃ item, command = .item none item := by
  cases h with
  | submit parcel rest =>
    cases hact
    exact .inr ⟨_, rfl⟩
  | signal k q rest =>
    cases hact
    exact .inl rfl
  | _ => cases hact

/-- What the dispatcher reads is what leaves the channel. -/
theorem Move.seen (h : Move room output gone ended x x' act) :
    (act = .pop ∧ ∃ message out, output = message :: out ∧ x'.seen = x.seen ++ [message]) ∨
      (act ≠ .pop ∧ x'.seen = x.seen) := by
  cases h with
  | read message out hstage houtput => exact .inl ⟨rfl, message, out, houtput, rfl⟩
  | readFail message out hstage houtput => exact .inl ⟨rfl, message, out, houtput, rfl⟩
  | readDown k p rest received message out hstage houtput =>
    exact .inl ⟨rfl, message, out, houtput, (System.Orderly.readDown_spec x message).1⟩
  | receive k received message out hstage hmissing houtput =>
    exact .inl ⟨rfl, message, out, houtput, (System.Orderly.readDown_spec x message).1⟩
  | join k p rest ok => cases ok <;> exact .inr ⟨nofun, rfl⟩
  | finish => exact .inr ⟨nofun, (System.Orderly.finish_spec x).2.1⟩
  | _ => exact .inr ⟨nofun, rfl⟩

end Dispatcher

/-! ## The pool -/

variable [DecidableEq ι]

/-- A pool whose books are right. -/
structure System.Accounted (s : System D) : Prop where
  dispatched : ∀ q, parcelsFrom none (s.server q).entered = parcelsTo q s.dispatcher.routed
  handed : ∀ p q, parcelsFrom (some p) (s.server q).entered = parcelsTo q (s.server p).sent
  told : ∀ p, (s.server p).produced = eventsOf p s.wire ++ (s.server p).untold
  emptied : ∀ p, (s.server p).Emptied

theorem parcelsTo_append (q : ι) (parcels parcels' : List D.Parcel) :
    parcelsTo q (parcels ++ parcels') = parcelsTo q parcels ++ parcelsTo q parcels' :=
  List.filter_append ..

theorem eventsOf_append (p : ι) (wire wire' : List D.Told) :
    eventsOf p (wire ++ wire') = eventsOf p wire ++ eventsOf p wire' :=
  List.flatMap_append

theorem eventsOf_eq_nil {p : ι} {wire : List D.Told} (h : ∀ message ∈ wire, message.sender ≠ p) :
    eventsOf p wire = [] := by
  refine List.flatMap_eq_nil_iff.mpr fun m hm => ?_
  cases m with
  | events q batch => exact if_neg (h _ hm)
  | report q report => rfl
  | final q final => rfl

/-- The commands of a server after one more entered. -/
theorem parcelsFrom_given (sender : Option ι) {p : ι} (x : Server D p) (command : Command D p) :
    parcelsFrom sender (x.given command).entered =
      parcelsFrom sender x.entered ++ (command.parcelFrom sender).toList := by
  unfold parcelsFrom Server.entered Server.given
  rw [← List.append_assoc, List.filterMap_append]
  cases h : command.parcelFrom sender <;> simp [h]

/-- The dispatcher takes messages from the channel, and that is all that it does to them. -/
theorem System.wire_act [Fintype ι] (s : System D) {x' : Dispatcher D} {act : Act D}
    (hmove : s.dispatcher.Move s.room s.output s.gone s.ended x' act) : (s.act x' act).wire = s.wire := by
  rcases hmove.seen with ⟨rfl, message, out, houtput, hseen⟩ | ⟨hact, hseen⟩
  · change x'.seen ++ s.output.tail = _
    rw [hseen, System.Orderly.wire_pop houtput]
  · cases act with
    | pop => exact absurd rfl hact
    | quiet => exact congrArg (· ++ s.output) hseen
    | put p command => exact congrArg (· ++ s.output) hseen

namespace System.Accounted

variable {s s' : System D}

/-- What entered the channels in a step of a server. -/
theorem entered_apply {p : ι} {x' : Server D p} (hx : x'.entered = (s.server p).entered) (effect : Effect D)
    (sender : Option ι) (q : ι) : parcelsFrom sender ((s.apply p x' effect).server q).entered =
      parcelsFrom sender (s.server q).entered ++ if sender = some p then parcelsTo q effect.parcels else [] := by
  have hupdate : (Function.update s.server p x' q).entered = (s.server q).entered := by
    by_cases hq : q = p
    · subst hq
      rw [Function.update_self, hx]
    · rw [Function.update_of_ne hq]
  have hnone : parcelsFrom sender (Function.update s.server p x' q).entered =
      parcelsFrom sender (s.server q).entered ++ if sender = some p then [] else [] := by
    rw [hupdate, ite_self, List.append_nil]
  cases effect with
  | quiet => exact hnone
  | push message => exact hnone
  | put dest item =>
    change parcelsFrom sender (Function.update _ dest (Server.given (Function.update s.server p x' dest) _) q).entered
      = _
    by_cases hq : q = dest
    · subst hq
      rw [Function.update_self, parcelsFrom_given, hupdate]
      by_cases hsender : sender = some p
      · simp [Command.parcelFrom, hsender, Effect.parcels, parcelsTo]
      · simp [Command.parcelFrom, hsender, Ne.symm hsender]
    · rw [Function.update_of_ne hq, hnone]
      simp [Effect.parcels, parcelsTo, Ne.symm hq]

/-- What a step of a server leaves right. -/
theorem server_step (hs : s.Accounted) {p : ι} {x' : Server D p} {effect : Effect D}
    (hmove : (s.server p).Move s.room s.outputRoom x' effect) (houtput : s.outputRoom ≠ .closed) :
    (s.apply p x' effect).Accounted := by
  have hsame : ∀ q, ((s.apply p x' effect).server q).sent = (Function.update s.server p x' q).sent ∧
      ((s.apply p x' effect).server q).produced = (Function.update s.server p x' q).produced ∧
      ((s.apply p x' effect).server q).untold = (Function.update s.server p x' q).untold ∧
      ((s.apply p x' effect).server q).Emptied = (Function.update s.server p x' q).Emptied := by
    intro q
    rcases Orderly.server_apply s p x' effect q with h | ⟨item, -, h⟩
    all_goals
      rw [h]
      exact ⟨rfl, rfl, rfl, rfl⟩
  have hwire : (s.apply p x' effect).wire = s.wire ++ effect.told := by
    rw [Orderly.wire_apply]
    cases effect with
    | push message => rfl
    | _ => exact (List.append_nil _).symm
  refine ⟨fun q => ?_, fun q r => ?_, fun q => ?_, fun q => ?_⟩
  · rw [entered_apply hmove.entered, if_neg nofun, List.append_nil, Orderly.dispatcher_apply]
    exact hs.dispatched q
  · rw [entered_apply hmove.entered, (hsame q).1, hs.handed]
    by_cases hq : q = p
    · subst hq
      rw [if_pos rfl, Function.update_self, hmove.sent, parcelsTo_append]
    · rw [if_neg fun h => hq (Option.some.inj h), Function.update_of_ne hq, List.append_nil]
  · rw [(hsame q).2.1, (hsame q).2.2.1, hwire]
    by_cases hq : q = p
    · subst hq
      rw [Function.update_self]
      exact hmove.produced houtput (hs.told q)
    · rw [Function.update_of_ne hq, hs.told q]
      rw [eventsOf_append, eventsOf_eq_nil fun m hm heq => hq (heq.symm.trans (hmove.sender hm)), List.append_nil]
  · rw [(hsame q).2.2.2]
    by_cases hq : q = p
    · subst hq
      rw [Function.update_self]
      exact hmove.emptied (hs.emptied q)
    · rw [Function.update_of_ne hq]
      exact hs.emptied q

/-- What entered the channels when somebody who is no server put a command. -/
theorem entered_put (s : System D) {p : ι} (command : Command D p) (sender : Option ι) (q : ι) :
    parcelsFrom sender ((s.put p command).server q).entered =
      parcelsFrom sender (s.server q).entered ++ parcelsTo q (command.parcelFrom sender).toList := by
  change parcelsFrom sender (Function.update s.server p ((s.server p).given command) q).entered = _
  have hto : (command.parcelFrom sender).toList.all fun parcel => parcel.1 = p := by
    cases command with
    | item source item => by_cases h : source = sender <;> simp [Command.parcelFrom, h]
    | query query => rfl
    | shutdown => rfl
  by_cases hq : q = p
  · subst hq
    rw [Function.update_self, parcelsFrom_given]
    unfold parcelsTo
    rw [List.filter_eq_self.mpr fun parcel hmem => List.all_eq_true.mp hto parcel hmem]
  · rw [Function.update_of_ne hq]
    unfold parcelsTo
    rw [List.filter_eq_nil_iff.mpr fun parcel hmem => ?_, List.append_nil]
    have := of_decide_eq_true (List.all_eq_true.mp hto parcel hmem)
    simpa [this] using Ne.symm hq

/-- A command of the dispatcher, or of somebody outside. -/
theorem put_step (hs : s.Accounted) {x' : Dispatcher D} {p : ι} {command : Command D p}
    (hseen : x'.seen = s.dispatcher.seen)
    (hrouted : x'.routed = s.dispatcher.routed ++ (command.parcelFrom none).toList)
    (hserver : ∀ q, command.parcelFrom (some q) = none) : (s.act x' (.put p command)).Accounted := by
  have hput : ∀ q, (s.act x' (.put p command)).server q =
      Function.update s.server p ((s.server p).given command) q := fun q => rfl
  have hsame : ∀ q, ((s.act x' (.put p command)).server q).sent = (s.server q).sent ∧
      ((s.act x' (.put p command)).server q).produced = (s.server q).produced ∧
      ((s.act x' (.put p command)).server q).untold = (s.server q).untold ∧
      ((s.act x' (.put p command)).server q).Emptied = (s.server q).Emptied := by
    intro q
    rw [hput]
    by_cases hq : q = p
    · subst hq
      rw [Function.update_self]
      exact ⟨rfl, rfl, rfl, rfl⟩
    · rw [Function.update_of_ne hq]
      exact ⟨rfl, rfl, rfl, rfl⟩
  have hentered : ∀ sender q, parcelsFrom sender ((s.act x' (.put p command)).server q).entered =
      parcelsFrom sender (s.server q).entered ++ parcelsTo q (command.parcelFrom sender).toList :=
    fun sender q => entered_put { s with dispatcher := x' } command sender q
  refine ⟨fun q => ?_, fun q r => ?_, fun q => ?_, fun q => ?_⟩
  · rw [hentered, hs.dispatched q, ← parcelsTo_append, ← hrouted]
    rfl
  · rw [hentered, hserver, (hsame q).1, hs.handed]
    exact List.append_nil _
  · rw [(hsame q).2.1, (hsame q).2.2.1, hs.told q]
    exact congrArg (fun seen => eventsOf q (seen ++ s.output) ++ _) hseen.symm
  · rw [(hsame q).2.2.2]
    exact hs.emptied q

/-- What a step of the dispatcher leaves right. -/
theorem dispatcher_step [Fintype ι] (hs : s.Accounted) {x' : Dispatcher D} {act : Act D}
    (hmove : s.dispatcher.Move s.room s.output s.gone s.ended x' act) : (s.act x' act).Accounted := by
  have hrouted := hmove.routed
  have hwire := s.wire_act hmove
  have htold : ∀ q, (s.server q).produced = eventsOf q (s.act x' act).wire ++ (s.server q).untold := by
    rw [hwire]
    exact hs.told
  have hkept : act.parcels = [] → ∀ q, parcelsTo q x'.routed = parcelsTo q s.dispatcher.routed := by
    intro hparcels q
    rw [hrouted, hparcels, List.append_nil]
  cases act with
  | quiet => exact ⟨fun q => (hs.dispatched q).trans (hkept rfl q).symm, hs.handed, htold, hs.emptied⟩
  | pop => exact ⟨fun q => (hs.dispatched q).trans (hkept rfl q).symm, hs.handed, htold, hs.emptied⟩
  | put p command =>
    have hseen : x'.seen = s.dispatcher.seen := by
      rcases hmove.seen with ⟨hact, -⟩ | ⟨-, hseen⟩
      · cases hact
      · exact hseen
    rcases hmove.put rfl with rfl | ⟨item, rfl⟩
    · exact hs.put_step hseen hrouted fun _ => rfl
    · exact hs.put_step hseen hrouted fun _ => rfl

/-- What every step leaves right. -/
theorem step [Fintype ι] (hs : s.Accounted) (horderly : s.Orderly) (hmove : s.Move s') : s'.Accounted := by
  cases hmove with
  | server p x' effect hmove =>
    exact hs.server_step hmove (horderly.outputRoom_ne_closed (hmove.not_stopped true))
  | dispatcher x' act hmove => exact hs.dispatcher_step hmove
  | ask p query hroom => exact hs.put_step rfl (List.append_nil _).symm fun _ => rfl

end System.Accounted

namespace System

theorem accounted_new (D : Design ι) : (System.new D).Accounted :=
  ⟨fun _ => rfl, fun _ _ => rfl, fun _ => rfl, fun _ => trivial⟩

/-- The books are right after any run. -/
theorem run_accounted [Fintype ι] [Nonempty ι] (hD : D.Staged) {actions : List (Action D)} {s : System D}
    (h : (System.new D).run actions = some s) : s.Accounted := by
  have hboth : s.Orderly ∧ s.Accounted :=
    @run_induction _ _ _ _ (fun s => s.Orderly ∧ s.Accounted)
      (fun _ _ hs hmove => ⟨hs.1.step hD hmove, hs.2.step hs.1 hmove⟩) _ _ _
      ⟨orderly_new D, accounted_new D⟩ h
  exact hboth.2

/-- A pool that came to its end: every item that entered a channel was taken from it, in the order in which its
sender put it, every event that was produced was read, in its order, and the last that was read of each server is
its last report. -/
structure Complete (s : System D) : Prop where
  dispatched : ∀ q, parcelsFrom none (s.server q).commands = parcelsTo q s.dispatcher.routed
  handed : ∀ p q, parcelsFrom (some p) (s.server q).commands = parcelsTo q (s.server p).sent
  told : ∀ p, (s.server p).produced = eventsOf p s.dispatcher.seen
  output : s.output = []
  stopped : ∀ p, (s.server p).phase = .stopped true
  final : ∀ p, .final p (D.final p (s.server p).state) ∈ s.dispatcher.seen
  hushed : Hushed s.dispatcher.seen

theorem Orderly.complete {s : System D} (hs : s.Orderly) (ha : s.Accounted)
    (hfinished : s.dispatcher.stage = .finished) : s.Complete := by
  have hover : ∀ p, s.dispatcher.stage.Over p := fun p => by
    rw [hfinished]
    trivial
  have hstopped := fun p => hs.stopped_of_over (hover p)
  have houtput : s.output = [] := by
    refine List.eq_nil_iff_forall_not_mem.mpr fun message hmem => ?_
    obtain ⟨final, hfinal⟩ := hs.farewell message.sender (hover _)
    exact hs.output_of_reported hfinal hmem rfl
  have hwire : s.wire = s.dispatcher.seen := by
    unfold System.wire
    rw [houtput, List.append_nil]
  have hentered : ∀ sender q, parcelsFrom sender (s.server q).entered = parcelsFrom sender (s.server q).commands := by
    intro sender q
    have hqueries := (hs.server q).settled (by rw [hstopped q]; trivial)
    unfold Server.entered parcelsFrom
    rw [List.filterMap_append, @List.filterMap_eq_nil_iff _ _ _ (s.server q).inbox |>.mpr, List.append_nil]
    intro command hmem
    have hquery := hqueries command hmem
    cases command with
    | query query => rfl
    | item source item => exact hquery.elim
    | shutdown => exact hquery.elim
  refine ⟨fun q => ?_, fun p q => ?_, fun p => ?_, houtput, hstopped, fun p => ?_, hwire ▸ hs.hushed⟩
  · rw [← hentered]
    exact ha.dispatched q
  · rw [← hentered]
    exact ha.handed p q
  · have hemptied := ha.emptied p
    have htold := ha.told p
    unfold Server.Emptied at hemptied
    unfold Server.untold at htold
    rw [hstopped p] at hemptied htold
    dsimp only at hemptied htold
    rw [htold, hemptied, List.append_nil, hwire]
  · rw [← hwire]
    exact (hs.finals p _).mpr ⟨hstopped p, rfl⟩

/-- What a server handed on does not depend on what it is given. -/
theorem sent_put (s : System D) (q : ι) (command : Command D q) (p : ι) :
    ((s.put q command).server p).sent = (s.server p).sent := by
  unfold System.put
  by_cases hp : p = q
  · subst hp
    dsimp only
    rw [Function.update_self]
    rfl
  · dsimp only
    rw [Function.update_of_ne hp]

/-- In every run, servers hand items to later stages. -/
theorem run_later [Fintype ι] [Nonempty ι] (hD : D.Staged) {actions : List (Action D)} {s : System D}
    (h : (System.new D).run actions = some s) (p : ι) : ∀ parcel ∈ (s.server p).sent, D.rank p < D.rank parcel.1 := by
  have hboth : s.Orderly ∧ ∀ p, ∀ parcel ∈ (s.server p).sent, D.rank p < D.rank parcel.1 := by
    refine @run_induction _ _ _ _
      (fun s => s.Orderly ∧ ∀ p, ∀ parcel ∈ (s.server p).sent, D.rank p < D.rank parcel.1)
      (fun s s' hs hmove => ⟨hs.1.step hD hmove, ?_⟩) _ _ _
      ⟨orderly_new D, fun _ _ hmem => absurd hmem List.not_mem_nil⟩ h
    obtain ⟨horderly, hlater⟩ := hs
    cases hmove with
    | server q x' effect hmove =>
      intro p parcel hmem
      have hsent : parcel ∈ (Function.update s.server q x' p).sent := by
        rcases Orderly.server_apply s q x' effect p with hserver | ⟨item, -, hserver⟩
        all_goals
          rw [hserver] at hmem
          exact hmem
      by_cases hp : p = q
      · subst hp
        rw [Function.update_self, hmove.sent] at hsent
        rcases List.mem_append.mp hsent with hold | hnew
        · exact hlater p parcel hold
        · exact hmove.later (horderly.server p).sound hnew
      · rw [Function.update_of_ne hp] at hsent
        exact hlater p parcel hsent
    | dispatcher x' act hmove =>
      intro p parcel hmem
      cases act with
      | quiet => exact hlater p parcel hmem
      | pop => exact hlater p parcel hmem
      | put q command => exact hlater p parcel (sent_put { s with dispatcher := x' } q command p ▸ hmem)
    | ask q query hroom => exact fun p parcel hmem => hlater p parcel (sent_put s q (.query query) p ▸ hmem)
  exact hboth.2 p

end System

end Rustmate.Pool
