import Rustmate.Lib.Pool.Accounts

/-!
# What a server keeps

A relation between the items that a server handled, its state, its events and what it handed to others holds in
every run when handling one item keeps it, whatever the other servers say to its offers.
-/

namespace Rustmate.Pool

variable {ι : Type} {D : Design ι}

/-- Whatever the others say, the work ends with a state, events and items handed on that have the property. -/
def Work.Leaves {Item : ι → Type} {Event σ : Type} (Q : σ → List Event → List ((p : ι) × Item p) → Prop) :
    Work Item Event σ → Prop
  | .done state events => Q state events []
  | .fail => True
  | .offer dest item next =>
    (next .taken).Leaves (fun state events sent => Q state events (⟨dest, item⟩ :: sent)) ∧
      ∀ offered, offered ≠ .taken → (next offered).Leaves Q
  | .send dest item next =>
    (next true).Leaves (fun state events sent => Q state events (⟨dest, item⟩ :: sent)) ∧ (next false).Leaves Q

/-- A weaker property. -/
theorem Work.Leaves.mono {Item : ι → Type} {Event σ : Type} {work : Work Item Event σ}
    {Q Q' : σ → List Event → List ((p : ι) × Item p) → Prop} (h : work.Leaves Q)
    (hQ : ∀ state events sent, Q state events sent → Q' state events sent) : work.Leaves Q' := by
  induction work generalizing Q Q' with
  | done state events => exact hQ _ _ _ h
  | fail => trivial
  | offer dest item next ih =>
    exact ⟨ih _ h.1 fun _ _ _ => hQ _ _ _, fun offered hoffered => ih _ (h.2 offered hoffered) hQ⟩
  | send dest item next ih => exact ⟨ih _ h.1 fun _ _ _ => hQ _ _ _, ih _ h.2 hQ⟩

/-- Handling an item keeps the relation, and so does reporting. -/
structure Design.Keeps (D : Design ι) (p : ι)
    (R : List (D.Item p) → D.State p → List D.Event → List D.Parcel → Prop) : Prop where
  start : R [] (D.start p) [] []
  handle : ∀ items state produced sent item, R items state produced sent →
    (D.handle p state item).Leaves fun state' events sent' =>
      R (items ++ [item]) state' (produced ++ events) (sent ++ sent')
  report : ∀ items state produced sent, R items state produced sent → R items (D.report p state).1 produced sent

/-- The item of a command. -/
def Command.item? {p : ι} : Command D p → Option (D.Item p)
  | .item _ content => some content
  | _ => none

/-- The items of commands. -/
def itemsOf {p : ι} (commands : List (Command D p)) : List (D.Item p) := commands.filterMap Command.item?

/-- The questions among commands, each with the items before it. -/
def asked {p : ι} : List (D.Item p) → List (Command D p) → List (List (D.Item p) × D.Query p)
  | _, [] => []
  | items, .item _ item :: rest => asked (items ++ [item]) rest
  | items, .query query :: rest => (items, query) :: asked items rest
  | items, .shutdown :: rest => asked items rest

theorem itemsOf_append {p : ι} (commands commands' : List (Command D p)) :
    itemsOf (commands ++ commands') = itemsOf commands ++ itemsOf commands' :=
  List.filterMap_append

theorem asked_append {p : ι} (items : List (D.Item p)) (commands commands' : List (Command D p)) :
    asked items (commands ++ commands') = asked items commands ++ asked (items ++ itemsOf commands) commands' := by
  induction commands generalizing items with
  | nil => simp [asked, itemsOf]
  | cons command commands ih =>
    cases command with
    | item source item =>
      rw [List.cons_append, asked, asked, ih, List.append_assoc]
      rfl
    | query query =>
      rw [List.cons_append, asked, asked, ih]
      rfl
    | shutdown =>
      rw [List.cons_append, asked, asked, ih]
      rfl

/-- Items before a question. -/
theorem asked_prefix {p : ι} {items : List (D.Item p)} {commands : List (Command D p)}
    {question : List (D.Item p) × D.Query p} (h : question ∈ asked items commands) :
    ∃ rest, question.1 ++ rest = items ++ itemsOf commands := by
  induction commands generalizing items with
  | nil => exact absurd h List.not_mem_nil
  | cons command commands ih =>
    cases command with
    | item source item =>
      obtain ⟨rest, hrest⟩ := ih h
      refine ⟨rest, hrest.trans ?_⟩
      rw [List.append_assoc]
      rfl
    | query query =>
      rcases List.mem_cons.mp h with rfl | h
      · exact ⟨itemsOf commands, rfl⟩
      · exact ih h
    | shutdown => exact ih h

namespace Server

variable {p : ι}

/-- The relation holds of a server: of its state, or of whatever its work will leave. -/
def Kept (R : List (D.Item p) → D.State p → List D.Event → List D.Parcel → Prop) (x : Server D p) : Prop :=
  match x.phase with
  | .working work => work.Leaves fun state events sent =>
      R (itemsOf x.commands) state (x.produced ++ events) (x.sent ++ sent)
  | _ => R (itemsOf x.commands) x.state x.produced x.sent

/-- Every reply is what the server says in a state that the items before the question made. -/
def Replied (R : List (D.Item p) → D.State p → List D.Event → List D.Parcel → Prop) (x : Server D p) : Prop :=
  List.Forall₂ (fun question reply => question.2 = reply.1 ∧ ∃ state produced sent,
    R question.1 state produced sent ∧ reply.2 = D.answer p state question.2) (asked [] x.commands) x.replies

/-- The items whose work is done. -/
def worked (x : Server D p) : List (D.Item p) :=
  match x.phase with
  | .working _ => (itemsOf x.commands).dropLast
  | _ => itemsOf x.commands

/-- The item that is worked on, and those that wait. -/
def ahead (x : Server D p) : List (D.Item p) :=
  match x.phase with
  | .working _ => (itemsOf x.commands).getLast?.toList ++ itemsOf x.inbox
  | _ => itemsOf x.inbox

/-- The relation holds of the state, which is as it was before the item that is worked on. -/
def Held (R : List (D.Item p) → D.State p → List D.Event → List D.Parcel → Prop) (x : Server D p) : Prop :=
  ∃ produced sent, R x.worked x.state produced sent

/-- What handling one item keeps, in all that a server has. -/
structure Keeping (R : List (D.Item p) → D.State p → List D.Event → List D.Parcel → Prop) (x : Server D p) :
    Prop where
  kept : x.Kept R
  replied : x.Replied R
  held : x.Held R

/-- An item is done, at hand, or it waits. -/
theorem worked_append_ahead (x : Server D p) : x.worked ++ x.ahead = itemsOf (x.commands ++ x.inbox) := by
  unfold worked ahead
  rw [itemsOf_append]
  split
  · rw [← List.append_assoc]
    congr 1
    cases hlast : (itemsOf x.commands).getLast? with
    | none => rw [List.getLast?_eq_none_iff.mp hlast]; rfl
    | some item => exact List.dropLast_append_getLast? item hlast
  · rfl

variable {R : List (D.Item p) → D.State p → List D.Event → List D.Parcel → Prop} {room : ι → Offered}
  {output : Offered} {x x' : Server D p} {effect : Effect D}

/-- A server that works on nothing. -/
theorem Kept.held (h : x.Kept R) (hphase : ∀ work, x.phase ≠ .working work) : x.Held R := by
  unfold Kept at h
  unfold Held worked
  split
  next work heq => exact absurd heq (hphase work)
  · split at h
    next work heq => exact absurd heq (hphase work)
    · exact ⟨_, _, h⟩

theorem Move.kept (h : Move room output x x' effect) (hR : D.Keeps p R) (hx : x.Kept R)
    (hfail : x.phase ≠ .working .fail) (houtput : output ≠ .closed) : x'.Kept R := by
  unfold Kept at hx
  cases h with
  | take command rest hphase hinbox =>
    rw [hphase] at hx
    cases command with
    | item source item =>
      change (D.handle p x.state item).Leaves fun state events sent =>
        R (itemsOf (x.commands ++ [.item source item])) state (x.produced ++ events) (x.sent ++ sent)
      rw [itemsOf_append]
      exact hR.handle _ _ _ _ item hx
    | query query =>
      change R (itemsOf (x.commands ++ [.query query])) x.state x.produced x.sent
      rw [itemsOf_append]
      exact (List.append_nil (itemsOf x.commands)).symm ▸ hx
    | shutdown =>
      change R (itemsOf (x.commands ++ [.shutdown])) x.state x.produced x.sent
      rw [itemsOf_append]
      exact (List.append_nil (itemsOf x.commands)).symm ▸ hx
  | done state events hphase =>
    rw [hphase] at hx
    simpa [Kept, Work.Leaves] using hx
  | fail hphase => exact absurd hphase hfail
  | hand dest item work hphase hroom =>
    obtain ⟨next, hphase, rfl⟩ := hphase
    rw [hphase] at hx
    simpa [Kept] using hx.1
  | refuse dest item next hphase hroom =>
    rw [hphase] at hx
    exact hx.2 _ hroom
  | enter dest item work hphase hroom =>
    obtain ⟨next, hphase, rfl⟩ := hphase
    rw [hphase] at hx
    simpa [Kept] using hx.1
  | lose dest item next hphase hroom =>
    rw [hphase] at hx
    exact hx.2
  | write batch closing hphase =>
    rw [hphase] at hx
    cases closing <;> exact hx
  | report hphase =>
    rw [hphase] at hx
    exact hR.report _ _ _ _ hx
  | unreported hphase =>
    rw [hphase] at hx
    exact hR.report _ _ _ _ hx
  | lost state hphase hclosed => exact absurd hclosed houtput
  | timeout hphase => exact (by rw [hphase] at hx; exact hx)
  | flush force hphase => exact (by rw [hphase] at hx; exact hx)
  | skip force hphase => exact (by rw [hphase] at hx; exact hx)
  | idle hphase => exact (by rw [hphase] at hx; exact hx)
  | flushLast hphase => exact (by rw [hphase] at hx; exact hx)
  | leave hphase => exact (by rw [hphase] at hx; exact hx)
  | left hphase => exact (by rw [hphase] at hx; exact hx)

/-- A server answers from the state that it has. -/
theorem Move.replied (h : Move room output x x' effect) (hx : x.Kept R) (hreplied : x.Replied R) :
    x'.Replied R := by
  cases h with
  | take command rest hphase hinbox =>
    unfold Kept at hx
    rw [hphase] at hx
    cases command with
    | item source item =>
      change List.Forall₂ _ (asked [] (x.commands ++ [.item source item])) x.replies
      rw [asked_append]
      exact (List.append_nil (asked [] x.commands)).symm ▸ hreplied
    | query query =>
      change List.Forall₂ _ (asked [] (x.commands ++ [.query query])) (x.replies ++ [(query, D.answer p x.state query)])
      rw [asked_append]
      exact List.rel_append hreplied (.cons ⟨rfl, x.state, x.produced, x.sent, hx, rfl⟩ .nil)
    | shutdown =>
      change List.Forall₂ _ (asked [] (x.commands ++ [.shutdown])) x.replies
      rw [asked_append]
      exact (List.append_nil (asked [] x.commands)).symm ▸ hreplied
  | _ => exact hreplied

/-- While a server works, its state stays. -/
theorem Move.held (h : Move room output x x' effect) (hx : x.Kept R) (hx' : x'.Kept R) (hheld : x.Held R) :
    x'.Held R := by
  -- while the work goes on
  have hstay : ∀ work work', x.phase = .working work → x'.phase = .working work' → x'.commands = x.commands →
      x'.state = x.state → x'.Held R := by
    intro work work' hphase hphase' hcommands hstate
    unfold Held worked at hheld ⊢
    rw [hphase] at hheld
    rwa [hphase', hcommands, hstate]
  cases h with
  | take command rest hphase hinbox =>
    cases command with
    | item source item =>
      unfold Kept at hx
      rw [hphase] at hx
      refine ⟨x.produced, x.sent, ?_⟩
      change R (itemsOf (x.commands ++ [.item source item])).dropLast x.state x.produced x.sent
      rw [itemsOf_append]
      exact (@List.dropLast_concat _ (itemsOf x.commands) _).symm ▸ hx
    | query query => exact hx'.held nofun
    | shutdown => exact hx'.held nofun
  | hand dest item work hphase =>
    obtain ⟨next, hphase, rfl⟩ := hphase
    exact hstay _ _ hphase rfl rfl rfl
  | refuse dest item next hphase => exact hstay _ _ hphase rfl rfl rfl
  | enter dest item work hphase =>
    obtain ⟨next, hphase, rfl⟩ := hphase
    exact hstay _ _ hphase rfl rfl rfl
  | lose dest item next hphase => exact hstay _ _ hphase rfl rfl rfl
  | write batch closing hphase =>
    refine hx'.held fun work => ?_
    cases closing <;> exact nofun
  | _ => exact hx'.held nofun

end Server

namespace System

variable [DecidableEq ι]

theorem kept_put {p : ι} {R : List (D.Item p) → D.State p → List D.Event → List D.Parcel → Prop} {s : System D}
    (h : (s.server p).Keeping R) (q : ι) (command : Command D q) : ((s.put q command).server p).Keeping R := by
  unfold System.put
  by_cases hp : p = q
  · subst hp
    dsimp only
    rw [Function.update_self]
    exact ⟨h.kept, h.replied, h.held⟩
  · dsimp only
    rw [Function.update_of_ne hp]
    exact h

/-- The relation holds of the servers of a pool that came to its end. -/
theorem Complete.kept {s : System D} (h : s.Complete) {p : ι}
    {R : List (D.Item p) → D.State p → List D.Event → List D.Parcel → Prop} (hkept : (s.server p).Kept R) :
    R (itemsOf (s.server p).commands) (s.server p).state (s.server p).produced (s.server p).sent := by
  unfold Server.Kept at hkept
  rwa [h.stopped p] at hkept

/-- Nothing waits for the servers of a pool that came to its end. -/
theorem Complete.ahead {s : System D} (h : s.Complete) (horderly : s.Orderly) (p : ι) : (s.server p).ahead = [] := by
  unfold Server.ahead
  rw [h.stopped p]
  have hqueries := (horderly.server p).settled (by rw [h.stopped p]; trivial)
  refine List.filterMap_eq_nil_iff.mpr fun command hmem => ?_
  have hquery := hqueries command hmem
  cases command with
  | query query => rfl
  | item source item => exact hquery.elim
  | shutdown => rfl

variable [Fintype ι]

/-- Every report on the way comes from a state with the relation. -/
def Reports (p : ι) (R : List (D.Item p) → D.State p → List D.Event → List D.Parcel → Prop) (wire : List D.Told) :
    Prop :=
  ∀ report, .report p report ∈ wire → ∃ items state produced sent,
    R items state produced sent ∧ report = (D.report p state).2

omit [DecidableEq ι] [Fintype ι] in
/-- A report is of the state that the server has. -/
theorem reports_step {p q : ι} {R : List (D.Item p) → D.State p → List D.Event → List D.Parcel → Prop}
    {room : ι → Offered} {output : Offered} {s : System D} {x' : Server D q} {effect : Effect D} {wire : List D.Told}
    (hmove : (s.server q).Move room output x' effect) (hkept : (s.server p).Kept R) (h : Reports p R wire) :
    Reports p R (wire ++ effect.told) := by
  intro report hmem
  rcases List.mem_append.mp hmem with hmem | hmem
  · exact h report hmem
  have hsender : p = q := hmove.sender hmem
  subst hsender
  unfold Server.Kept at hkept
  cases hmove with
  | report hphase houtput =>
    rw [hphase] at hkept
    cases List.mem_singleton.mp hmem
    exact ⟨_, _, _, _, hkept, rfl⟩
  | write batch closing hphase => cases List.mem_singleton.mp hmem
  | left hphase => cases List.mem_singleton.mp hmem
  | _ => cases hmem

/-- Handling items and answering questions keep the relation. -/
theorem kept_step {p : ι}
    {R : List (D.Item p) → D.State p → List D.Event → List D.Parcel → Prop} (hR : D.Keeps p R) {s s' : System D}
    (horderly : s.Orderly) (h : (s.server p).Keeping R) (hmove : s.Move s') : (s'.server p).Keeping R := by
  cases hmove with
  | server q x' effect hmove =>
    have hupdate : (Function.update s.server q x' p).Keeping R := by
      by_cases hp : p = q
      · subst hp
        rw [Function.update_self]
        have hkept := hmove.kept hR h.kept (fun hfail => ((horderly.server p).sound _ hfail).elim)
          (horderly.outputRoom_ne_closed (hmove.not_stopped true))
        exact ⟨hkept, hmove.replied h.kept h.replied, hmove.held h.kept hkept h.held⟩
      · rw [Function.update_of_ne hp]
        exact h
    rcases Orderly.server_apply s q x' effect p with hserver | ⟨item, -, hserver⟩
    all_goals
      rw [hserver]
      exact ⟨hupdate.kept, hupdate.replied, hupdate.held⟩
  | dispatcher x' act hmove =>
    cases act with
    | quiet => exact h
    | pop => exact h
    | put q command => exact @kept_put _ _ _ _ _ { s with dispatcher := x' } h q command
  | ask q query hroom => exact kept_put h q (.query query)

variable [Nonempty ι]

variable {p : ι} {R : List (D.Item p) → D.State p → List D.Event → List D.Parcel → Prop} {actions : List (Action D)}
  {s : System D}

/-- What handling one item keeps holds after any run, every reply comes from a state with the relation, and so does
every report on the way. -/
theorem run_keeps (hD : D.Staged) (hR : D.Keeps p R) (h : (System.new D).run actions = some s) :
    (s.server p).Keeping R ∧ Reports p R s.wire := by
  have hall : s.Orderly ∧ (s.server p).Keeping R ∧ Reports p R s.wire := by
    refine @run_induction _ _ _ _ (fun s => s.Orderly ∧ (s.server p).Keeping R ∧ Reports p R s.wire)
      (fun s s' hs hmove => ⟨hs.1.step hD hmove, kept_step hR hs.1 hs.2.1 hmove, ?_⟩) _ _ _
      ⟨orderly_new D, ⟨hR.start, .nil, _, _, hR.start⟩, nofun⟩ h
    obtain ⟨-, ⟨hkept, -, -⟩, hreports⟩ := hs
    cases hmove with
    | server q x' effect hmove =>
      have hwire : (s.apply q x' effect).wire = s.wire ++ effect.told := by
        rw [Orderly.wire_apply]
        cases effect with
        | push message => rfl
        | quiet => exact (List.append_nil _).symm
        | put dest item => exact (List.append_nil _).symm
      rw [hwire]
      exact reports_step hmove hkept hreports
    | dispatcher x' act hmove =>
      rw [s.wire_act hmove]
      exact hreports
    | ask q query hroom => exact hreports
  exact hall.2

end System

end Rustmate.Pool
