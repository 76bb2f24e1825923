import Mathlib.Data.Fintype.Basic
import Mathlib.Data.Nat.Notation
import Mathlib.Logic.Function.Basic

/-!
# Pools of servers

A dispatcher hands items to servers through bounded channels, one channel for each server. A server may hand
items of its own to servers of a later stage, and tells the dispatcher, through one bounded channel that all of
them share, what happened. At the end the dispatcher stops the servers stage by stage. Every party waits for
room in some channel now and then, so who waits for whom decides whether the pool ever comes to its end.
-/

namespace Rustmate.Pool

/-- What becomes of an offer to a bounded channel: it is taken, or there is no room, or the receiver is gone. -/
inductive Offered where
  | taken
  | full
  | closed
  deriving DecidableEq, Repr

/-- What a server does with an item: it computes, and in between it offers items to other servers. A `send`
waits for room and fails only when the receiver is gone. -/
inductive Work {ι : Type} (Item : ι → Type) (Event σ : Type) where
  | done (state : σ) (events : List Event)
  | fail
  | offer (dest : ι) (item : Item dest) (next : Offered → Work Item Event σ)
  | send (dest : ι) (item : Item dest) (next : Bool → Work Item Event σ)

/-- What the dispatcher is told: events, a report on the way, or the last report of a server. The name of the
server is there to tell the messages apart, and not for the dispatcher. -/
inductive Message {ι : Type} (Event : Type) (Report Final : ι → Type) where
  | events (p : ι) (batch : List Event)
  | report (p : ι) (report : Report p)
  | final (p : ι) (final : Final p)

/-- What the parties of a pool do, apart from waiting for one another. -/
structure Design (ι : Type) where
  Item : ι → Type
  Query : ι → Type
  Reply : ι → Type
  State : ι → Type
  Report : ι → Type
  Final : ι → Type
  Event : Type
  Input : Type
  Router : Type
  Collector : Type
  start : (p : ι) → State p
  handle : (p : ι) → State p → Item p → Work Item Event (State p)
  answer : (p : ι) → State p → Query p → Reply p
  report : (p : ι) → State p → State p × Report p
  final : (p : ι) → State p → Final p
  /-- The number of events from which on a server has to tell them. -/
  batch : ι → ℕ
  /-- The capacity of the channel to a server. -/
  depth : ι → ℕ
  /-- The capacity of the channel to the dispatcher. -/
  capacity : ℕ
  router : Router
  route : Router → Input → Router × (p : ι) × Item p
  collector : Collector
  /-- What the dispatcher does with a message, and whether it can. -/
  collect : Collector → Message Event Report Final → Collector × Bool
  close : Collector → Collector × Bool
  rank : ι → ℕ
  /-- The servers of a stage, as they are stopped. -/
  group : ℕ → List ι
  stages : ℕ

variable {ι : Type} {D : Design ι}

namespace Design

/-- The messages of a pool. -/
abbrev Told (D : Design ι) := Message D.Event D.Report D.Final

/-- The work of a server. -/
abbrev Task (D : Design ι) (p : ι) := Work D.Item D.Event (D.State p)

/-- An item and the server that it is for. -/
abbrev Parcel (D : Design ι) := (p : ι) × D.Item p

end Design

/-! ## Servers -/

/-- What a server is told. Who sent an item, the dispatcher or another server, is not for the server. -/
inductive Command (D : Design ι) (p : ι) where
  | item (source : Option ι) (item : D.Item p)
  | query (query : D.Query p)
  | shutdown

/-- Where a server is in its loop. -/
inductive Phase (D : Design ι) (p : ι) where
  | waiting
  | working (work : D.Task p)
  | flushing (force : Bool)
  | writing (batch : List D.Event) (closing : Bool)
  | reporting
  | closing
  | leaving
  | stopped (ok : Bool)

/-- A server, with what it has to do. The last four fields are its history: the commands it took, the items
that others took from it, the events that came of its work, and what it answered. -/
structure Server (D : Design ι) (p : ι) where
  phase : Phase D p
  state : D.State p
  buffer : List D.Event
  inbox : List (Command D p)
  commands : List (Command D p)
  sent : List D.Parcel
  produced : List D.Event
  replies : List (D.Query p × D.Reply p)

/-- What a server does to the others in a step. -/
inductive Effect (D : Design ι) where
  | quiet
  | put (q : ι) (item : D.Item q)
  | push (message : D.Told)

/-- The thread of the server has ended. -/
def Phase.isStopped {p : ι} : Phase D p → Bool
  | .stopped _ => true
  | _ => false

namespace Server

variable {p : ι}

/-- A server that has nothing to do yet. -/
def new (D : Design ι) (p : ι) : Server D p := ⟨.waiting, D.start p, [], [], [], [], [], []⟩

/-- Room for a command. -/
def room (self : Server D p) : Offered :=
  if self.phase.isStopped then .closed
  else if self.inbox.length < D.depth p then .taken
  else .full

/-- A command that enters the channel of the server. -/
def given (self : Server D p) (command : Command D p) : Server D p :=
  { self with inbox := self.inbox ++ [command] }

/-- A command that the server took from its channel. -/
def take (self : Server D p) (command : Command D p) (rest : List (Command D p)) : Server D p :=
  let self := { self with inbox := rest, commands := self.commands ++ [command] }
  match command with
  | .item _ item => { self with phase := .working (D.handle p self.state item) }
  | .query query =>
    { self with phase := .flushing false, replies := self.replies ++ [(query, D.answer p self.state query)] }
  | .shutdown => { self with phase := .closing }

/-- One step of a server, given what the other channels would say to an offer, and what the clock says. -/
def next (room : ι → Offered) (output : Offered) (due : Bool) (self : Server D p) :
    Option (Server D p × Effect D) :=
  match self.phase with
  | .waiting =>
    match self.inbox with
    | [] => if due then some ({ self with phase := .flushing true }, .quiet) else none
    | command :: rest => some (self.take command rest, .quiet)
  | .working (.done state events) =>
    some ({ self with
      phase := .flushing false, state, buffer := self.buffer ++ events,
      produced := self.produced ++ events }, .quiet)
  | .working .fail => some ({ self with phase := .stopped false }, .quiet)
  | .working (.offer dest item next) =>
    match room dest with
    | .taken =>
      some ({ self with phase := .working (next .taken), sent := self.sent ++ [⟨dest, item⟩] }, .put dest item)
    | offered => some ({ self with phase := .working (next offered) }, .quiet)
  | .working (.send dest item next) =>
    match room dest with
    | .taken =>
      some ({ self with phase := .working (next true), sent := self.sent ++ [⟨dest, item⟩] }, .put dest item)
    | .full => none
    | .closed => some ({ self with phase := .working (next false) }, .quiet)
  | .flushing force =>
    if self.buffer ≠ [] ∧ (force ∨ D.batch p ≤ self.buffer.length ∨ due) then
      some ({ self with phase := .writing self.buffer false, buffer := [] }, .quiet)
    else some ({ self with phase := .reporting }, .quiet)
  | .writing batch closing =>
    match output with
    | .taken =>
      some ({ self with phase := if closing then .leaving else .reporting }, .push (.events p batch))
    | .full => none
    | .closed => some ({ self with phase := .stopped false }, .quiet)
  | .reporting =>
    if due then
      let (state, report) := D.report p self.state
      match output with
      | .taken => some ({ self with phase := .waiting, state }, .push (.report p report))
      | .full => some ({ self with phase := .waiting, state }, .quiet)
      | .closed => some ({ self with phase := .stopped false, state }, .quiet)
    else some ({ self with phase := .waiting }, .quiet)
  | .closing =>
    if self.buffer = [] then some ({ self with phase := .leaving }, .quiet)
    else some ({ self with phase := .writing self.buffer true, buffer := [] }, .quiet)
  | .leaving =>
    match output with
    | .taken => some ({ self with phase := .stopped true }, .push (.final p (D.final p self.state)))
    | .full => none
    | .closed => some ({ self with phase := .stopped false }, .quiet)
  | .stopped _ => none

end Server

/-! ## The dispatcher -/

/-- What went wrong: something outside the pool, or a channel whose other end was gone, or a server. -/
inductive Error where
  | outside
  | disconnected
  | server
  deriving DecidableEq, Repr

/-- What the source of the inputs says when it is asked. -/
inductive Answer (D : Design ι) where
  | batch (inputs : List D.Input)
  | idle (finished : Bool)
  | error

/-- Where the dispatcher is: it asks its source for inputs, routes them and puts them into the channels, and
reads what the servers tell whenever a channel is full and after each batch. Then it stops one stage after the
other: it tells each of the stage's servers, waits until it has as many last reports as there are servers in the
stage, and waits for them to end. -/
inductive Stage (D : Design ι) where
  | asking
  | feeding (rest : List D.Input)
  | sending (parcel : D.Parcel) (rest : List D.Input)
  | draining (back : Option D.Parcel) (rest : List D.Input) (idle : Bool)
  | signalling (k : ℕ) (rest : List ι) (received : ℕ)
  | drainingDown (k : ℕ) (p : ι) (rest : List ι) (received : ℕ)
  | receiving (k received : ℕ)
  | joining (k : ℕ) (rest : List ι)
  | finished

/-- The dispatcher. The last three fields are its history: the inputs that it got, the items that it put into
channels, and the messages that it read. -/
structure Dispatcher (D : Design ι) where
  stage : Stage D
  router : D.Router
  collector : D.Collector
  run_error : Option Error
  first_error : Option Error
  fed : List D.Input
  routed : List D.Parcel
  seen : List D.Told

/-- What the dispatcher does to the channels in a step. -/
inductive Act (D : Design ι) where
  | quiet
  | put (p : ι) (command : Command D p)
  | pop

/-- Whether a message is the last report of a server of the stage. -/
def Message.counts (D : Design ι) (k : ℕ) : D.Told → Bool
  | .final p _ => D.rank p = k
  | _ => false

namespace Dispatcher

/-- Nothing was dispatched yet. -/
def new (D : Design ι) : Dispatcher D := ⟨.asking, D.router, D.collector, none, none, [], [], []⟩

/-- The first error stays. -/
def recordFirstError (self : Dispatcher D) (err : Error) : Dispatcher D :=
  { self with first_error := self.first_error <|> some err }

/-- The run ends, with an error or without. -/
def stop (self : Dispatcher D) (err : Option Error) : Dispatcher D :=
  { self with stage := .signalling 0 (D.group 0) 0, run_error := err }

/-- A message is read, and the dispatcher does with it what it can. -/
def read (self : Dispatcher D) (message : D.Told) : Dispatcher D × Bool :=
  let (collector, ok) := D.collect self.collector message
  ({ self with collector, seen := self.seen ++ [message] }, ok)

/-- A message is read while the servers are being stopped. -/
def readDown (self : Dispatcher D) (message : D.Told) : Dispatcher D :=
  match self.read message with
  | (self, true) => self
  | (self, false) => self.recordFirstError .outside

/-- The count of the last reports. -/
def receive (k received : ℕ) (message : D.Told) : ℕ :=
  if message.counts D k then received + 1 else received

/-- A server of the stage has ended. -/
def join (self : Dispatcher D) (k : ℕ) (rest : List ι) : Bool → Dispatcher D
  | true => { self with stage := .joining k rest }
  | false => { self with stage := .joining k rest }.recordFirstError .server

/-- All stages have ended. -/
def finish (self : Dispatcher D) : Dispatcher D :=
  match D.close self.collector with
  | (collector, true) => { self with collector, stage := .finished }
  | (collector, false) => { self with collector, stage := .finished }.recordFirstError .outside

/-- One step of the dispatcher, given what the channels would say to an offer, what is in the channel that it
reads and whether all the senders of it are gone, which servers ended, and what the source says. -/
def next (room : ι → Offered) (output : List D.Told) (gone : Bool) (ended : ι → Option Bool)
    (source : Answer D) (self : Dispatcher D) : Option (Dispatcher D × Act D) :=
  match self.stage with
  | .asking =>
    match source with
    | .batch inputs => some ({ self with stage := .feeding inputs, fed := self.fed ++ inputs }, .quiet)
    | .idle _ => some ({ self with stage := .draining none [] true }, .quiet)
    | .error => some (self.stop (some .outside), .quiet)
  | .feeding [] => some ({ self with stage := .draining none [] false }, .quiet)
  | .feeding (input :: rest) =>
    let (router, parcel) := D.route self.router input
    some ({ self with router, stage := .sending parcel rest }, .quiet)
  | .sending parcel rest =>
    match room parcel.1 with
    | .taken =>
      some ({ self with stage := .feeding rest, routed := self.routed ++ [parcel] },
        .put parcel.1 (.item none parcel.2))
    | .full => some ({ self with stage := .draining (some parcel) rest false }, .quiet)
    | .closed => some (self.stop (some .disconnected), .quiet)
  | .draining back rest idle =>
    match output with
    | message :: _ =>
      match self.read message with
      | (self, true) => some (self, .pop)
      | (self, false) => some (self.stop (some .outside), .pop)
    | [] =>
      if gone then some (self.stop (some .disconnected), .quiet)
      else
        match back with
        | some parcel => some ({ self with stage := .sending parcel rest }, .quiet)
        | none =>
          match source with
          | .error => some (self.stop (some .outside), .quiet)
          | .idle finished =>
            if idle ∧ finished then some (self.stop none, .quiet)
            else some ({ self with stage := .asking }, .quiet)
          | .batch _ => some ({ self with stage := .asking }, .quiet)
  | .signalling k [] received => some ({ self with stage := .receiving k received }, .quiet)
  | .signalling k (p :: rest) received =>
    match room p with
    | .taken => some ({ self with stage := .signalling k rest received }, .put p .shutdown)
    | .full => some ({ self with stage := .drainingDown k p rest received }, .quiet)
    | .closed => some ({ self with stage := .signalling k rest received }, .quiet)
  | .drainingDown k p rest received =>
    match output with
    | message :: _ =>
      some ({ self.readDown message with stage := .drainingDown k p rest (receive k received message) }, .pop)
    | [] =>
      if gone then
        some ({ self.recordFirstError .disconnected with stage := .signalling k (p :: rest) received }, .quiet)
      else some ({ self with stage := .signalling k (p :: rest) received }, .quiet)
  | .receiving k received =>
    if received < (D.group k).length then
      match output with
      | message :: _ =>
        some ({ self.readDown message with stage := .receiving k (receive k received message) }, .pop)
      | [] =>
        if gone then
          some ({ self.recordFirstError .disconnected with stage := .joining k (D.group k) }, .quiet)
        else none
    else some ({ self with stage := .joining k (D.group k) }, .quiet)
  | .joining k (p :: rest) => (ended p).map fun ok => (self.join k rest ok, .quiet)
  | .joining k [] =>
    if k + 1 < D.stages then some ({ self with stage := .signalling (k + 1) (D.group (k + 1)) 0 }, .quiet)
    else some (self.finish, .quiet)
  | .finished => none

end Dispatcher

/-! ## The pool -/

/-- The parties and the channel that all servers share. -/
structure System (D : Design ι) where
  server : (p : ι) → Server D p
  output : List D.Told
  dispatcher : Dispatcher D

/-- Who takes the next step: a server, the dispatcher, or somebody outside who asks a server. -/
inductive Action (D : Design ι) where
  | server (p : ι) (due : Bool)
  | dispatcher (source : Answer D)
  | ask (p : ι) (query : D.Query p)

namespace System

/-- Nothing happened yet. -/
def new (D : Design ι) : System D := ⟨Server.new D, [], Dispatcher.new D⟩

/-- Room in the channel of a server. -/
def room (s : System D) (q : ι) : Offered := (s.server q).room

/-- The dispatcher holds its end of the channel until it has finished. -/
def outputRoom (s : System D) : Offered :=
  match s.dispatcher.stage with
  | .finished => .closed
  | _ => if s.output.length < D.capacity then .taken else .full

/-- How the thread of a server ended. -/
def ended (s : System D) (p : ι) : Option Bool :=
  match (s.server p).phase with
  | .stopped ok => some ok
  | _ => none

variable [DecidableEq ι]

/-- A command enters the channel of a server. -/
def put (s : System D) (q : ι) (command : Command D q) : System D :=
  { s with server := Function.update s.server q ((s.server q).given command) }

/-- What a step of a server leaves. -/
def apply (s : System D) (p : ι) (server : Server D p) : Effect D → System D
  | .quiet => { s with server := Function.update s.server p server }
  | .put q item => { s with server := Function.update s.server p server }.put q (.item (some p) item)
  | .push message =>
    { s with server := Function.update s.server p server, output := s.output ++ [message] }

/-- What a step of the dispatcher leaves. -/
def act (s : System D) (dispatcher : Dispatcher D) : Act D → System D
  | .quiet => { s with dispatcher }
  | .put p command => { s with dispatcher }.put p command
  | .pop => { s with dispatcher, output := s.output.tail }

variable [Fintype ι]

/-- Every thread that could still write to the dispatcher has ended. -/
def gone (s : System D) : Bool := decide (∀ p, (s.server p).phase.isStopped)

/-- One step of the pool. -/
def step (s : System D) : Action D → Option (System D)
  | .server p due =>
    ((s.server p).next s.room s.outputRoom due).map fun (server, effect) => s.apply p server effect
  | .dispatcher source =>
    (s.dispatcher.next s.room s.output s.gone s.ended source).map fun (dispatcher, act) => s.act dispatcher act
  | .ask p query => if s.room p = .taken then some (s.put p (.query query)) else none

/-- The steps of a run. -/
def run (s : System D) (actions : List (Action D)) : Option (System D) := actions.foldlM step s

end System

end Rustmate.Pool
