import Rustmate.Lib.Pool.Orderly

/-!
# Nobody finds a channel closed, in any run

Every step of the dispatcher leaves the pool in order, and so does every run.
-/

namespace Rustmate.Pool

variable {ι : Type} {D : Design ι}

namespace System.Orderly

variable {s : System D}

/-! ## The dispatcher goes on -/

/-- A step of the dispatcher that only reads. -/
theorem redispatch (hs : s.Orderly) {x' : Dispatcher D} {output : List D.Told}
    (hsignalled : ∀ p, x'.stage.Signalled p ↔ s.dispatcher.stage.Signalled p)
    (hwire : x'.seen ++ output = s.wire) (hstage : x'.stage.Proper x'.seen)
    (hrun : Outside x'.run_error) (hfirst : Outside x'.first_error)
    (hover : ∀ p, x'.stage.Over p → ∃ final, .final p final ∈ x'.seen) :
    System.Orderly ⟨s.server, output, x'⟩ :=
  hs.of_same (fun p => (propext (hsignalled p)).symm ▸ hs.server p) (fun _ => ⟨rfl, rfl⟩) hwire hstage hrun hfirst
    hover

/-- The dispatcher goes on as before. -/
theorem running (hs : s.Orderly) {x' : Dispatcher D} {output : List D.Told} (hold : s.dispatcher.stage.Running)
    (hnew : x'.stage.Running) (hwire : x'.seen ++ output = s.wire)
    (hrun : x'.run_error = s.dispatcher.run_error) (hfirst : x'.first_error = s.dispatcher.first_error) :
    System.Orderly ⟨s.server, output, x'⟩ := by
  refine hs.redispatch (fun p => iff_of_false (hnew.not_signalled p) (hold.not_signalled p)) hwire ?_
    (hrun ▸ hs.run_error) (hfirst ▸ hs.first_error) fun p h => absurd h (hnew.not_over p)
  cases hstage : x'.stage <;> simp_all [Stage.Running, Stage.Proper]

/-- Servers that were not told to stop have given no last report. -/
theorem none_reported (hs : s.Orderly) {seen : List D.Told} (hseen : ∀ message ∈ seen, message ∈ s.wire) {k : ℕ}
    (h : ∀ p, D.rank p = k → ¬ s.dispatcher.stage.Signalled p) : seen.countP (fun m => m.counts D k) = 0 := by
  refine List.countP_eq_zero.mpr fun m hm hcounts => ?_
  obtain ⟨hfinal, hrank⟩ := counts_iff.mp hcounts
  cases m with
  | final p final =>
    have hclosing : (s.server p).phase.Closing := by
      rw [((hs.finals p final).mp (hseen _ hm)).1]
      trivial
    exact h p hrank ((hs.server p).told.mp (.inl hclosing))
  | events p batch => exact hfinal
  | report p report => exact hfinal

/-- The dispatcher starts to stop the servers. -/
theorem stopping (hs : s.Orderly) (hD : D.Staged) {x : Dispatcher D} {output : List D.Told}
    (hold : s.dispatcher.stage.Running) (hstages : 0 < D.stages) (hwire : x.seen ++ output = s.wire)
    {err : Option Error} (herr : Outside err) (hfirst : x.first_error = s.dispatcher.first_error) :
    System.Orderly ⟨s.server, output, x.stop err⟩ := by
  refine hs.redispatch (fun p => iff_of_false (Stage.not_signalled_stop hD.group 0 p) (hold.not_signalled p)) hwire
    ⟨hstages, List.suffix_refl _, ?_⟩ herr (hfirst ▸ hs.first_error) fun p h => absurd h (Nat.not_lt_zero _)
  exact (hs.none_reported (fun m hm => hwire ▸ List.mem_append_left _ hm) fun p _ => hold.not_signalled p).symm

/-! ## The dispatcher stops the servers -/

theorem outside_recordFirstError {x : Dispatcher D} (h : Outside x.first_error) :
    Outside (x.recordFirstError .outside).first_error := by
  rcases h with h | h
  · exact .inr (by rw [Dispatcher.recordFirstError, h]; rfl)
  · exact .inr (by rw [Dispatcher.recordFirstError, h]; rfl)

/-- What reading a message while the servers are stopped leaves as it is. -/
theorem readDown_spec (x : Dispatcher D) (message : D.Told) :
    (x.readDown message).seen = x.seen ++ [message] ∧ (x.readDown message).run_error = x.run_error ∧
      (Outside x.first_error → Outside (x.readDown message).first_error) := by
  unfold Dispatcher.readDown Dispatcher.read
  dsimp only
  cases (D.collect x.collector message).2 with
  | true => exact ⟨rfl, rfl, id⟩
  | false => exact ⟨rfl, rfl, fun h => outside_recordFirstError h⟩

/-- What the end leaves as it is. -/
theorem finish_spec (x : Dispatcher D) : x.finish.stage = .finished ∧ x.finish.seen = x.seen ∧
    x.finish.run_error = x.run_error ∧ (Outside x.first_error → Outside x.finish.first_error) := by
  unfold Dispatcher.finish
  split
  · exact ⟨rfl, rfl, rfl, id⟩
  · exact ⟨rfl, rfl, rfl, fun h => outside_recordFirstError h⟩

/-- The count goes on with the messages. -/
theorem receive_eq (k : ℕ) (seen : List D.Told) (message : D.Told) :
    Dispatcher.receive k (seen.countP fun m => m.counts D k) message =
      (seen ++ [message]).countP fun m => m.counts D k := by
  unfold Dispatcher.receive
  rw [List.countP_append]
  cases hcounts : message.counts D k <;> simp [hcounts]

/-- A server that is still to be told was not told yet. -/
theorem not_signalled_of_mem {stage : Stage D} {k : ℕ} {p : ι} {rest : List ι} (hrank : D.rank p = k)
    (hmem : p ∈ rest) (hsignalled : stage.Signalled p ↔ D.rank p < k ∨ D.rank p = k ∧ p ∉ rest) :
    ¬ stage.Signalled p := by
  rw [hsignalled]
  rintro (hlt | ⟨-, hnot⟩)
  · omega
  · exact hnot hmem

/-- A message that is read moves from one part of the messages to the other. -/
theorem wire_pop {message : D.Told} {out : List D.Told} (houtput : s.output = message :: out) :
    (s.dispatcher.seen ++ [message]) ++ s.output.tail = s.wire := by
  rw [houtput, List.tail_cons, List.append_assoc]
  unfold System.wire
  rw [houtput]
  rfl

/-- The dispatcher reads a message while it stops the servers. -/
theorem reading (hs : s.Orderly) {message : D.Told} {out : List D.Told} {stage : Stage D}
    (houtput : s.output = message :: out)
    (hsignalled : ∀ p, stage.Signalled p ↔ s.dispatcher.stage.Signalled p)
    (hover : ∀ p, stage.Over p ↔ s.dispatcher.stage.Over p)
    (hstage : stage.Proper (s.dispatcher.seen ++ [message])) :
    System.Orderly ⟨s.server, s.output.tail, { s.dispatcher.readDown message with stage }⟩ := by
  obtain ⟨hseen, hrun, hfirst⟩ := readDown_spec s.dispatcher message
  refine hs.redispatch hsignalled ?_ ?_ ?_ (hfirst hs.first_error) fun p h => ?_
  · dsimp only
    rw [hseen]
    exact wire_pop houtput
  · dsimp only
    rw [hseen]
    exact hstage
  · dsimp only
    rw [hrun]
    exact hs.run_error
  · obtain ⟨final, hmem⟩ := hs.farewell p ((hover p).mp h)
    dsimp only
    rw [hseen]
    exact ⟨final, List.mem_append_left _ hmem⟩

/-- The dispatcher goes on with stopping the servers. -/
theorem proceeding (hs : s.Orderly) {stage : Stage D}
    (hsignalled : ∀ p, stage.Signalled p ↔ s.dispatcher.stage.Signalled p)
    (hover : ∀ p, stage.Over p → s.dispatcher.stage.Over p)
    (hstage : stage.Proper s.dispatcher.seen) :
    System.Orderly ⟨s.server, s.output, { s.dispatcher with stage }⟩ :=
  hs.redispatch hsignalled rfl hstage hs.run_error hs.first_error fun p h => hs.farewell p (hover p h)

/-- When all servers have ended, the last reports of a stage are all there. -/
theorem all_counted (hs : s.Orderly) (hD : D.Staged) (hgone : ∀ p, (s.server p).phase.isStopped)
    (houtput : s.output = []) (k : ℕ) :
    (D.group k).length ≤ s.dispatcher.seen.countP fun m => m.counts D k := by
  by_contra hlt
  obtain ⟨p, -, hnot⟩ := exists_unreported hD (Nat.lt_of_not_le hlt)
  have hstopped : (s.server p).phase = .stopped true := by
    have hphase := hgone p
    cases hp : (s.server p).phase with
    | stopped ok =>
      cases ok with
      | true => rfl
      | false => exact absurd hp (hs.server p).unfailed
    | _ =>
      rw [hp] at hphase
      cases hphase
  have hmem := (hs.finals p _).mpr ⟨hstopped, rfl⟩
  unfold System.wire at hmem
  rw [houtput, List.append_nil] at hmem
  exact hnot _ hmem

/-- A step of the dispatcher that puts a command. -/
theorem regive [DecidableEq ι] (hs : s.Orderly) {x' : Dispatcher D} {p : ι} {command : Command D p}
    (hgiven : ((s.server p).given command).Orderly (x'.stage.Signalled p))
    (hsignalled : ∀ q, q ≠ p → (x'.stage.Signalled q ↔ s.dispatcher.stage.Signalled q))
    (hseen : x'.seen = s.dispatcher.seen) (hstage : x'.stage.Proper x'.seen)
    (hrun : Outside x'.run_error) (hfirst : Outside x'.first_error)
    (hover : ∀ q, x'.stage.Over q → ∃ final, .final q final ∈ x'.seen) : (s.act x' (.put p command)).Orderly := by
  have hupdate : ∀ q, (s.act x' (.put p command)).server q =
      Function.update s.server p ((s.server p).given command) q := fun q => rfl
  refine hs.of_same (fun q => ?_) (fun q => ?_) ?_ hstage hrun hfirst hover
  · rw [hupdate]
    by_cases hq : q = p
    · subst hq
      rw [Function.update_self]
      exact hgiven
    · rw [Function.update_of_ne hq]
      exact (propext (hsignalled q hq)).symm ▸ hs.server q
  · rw [hupdate]
    by_cases hq : q = p
    · subst hq
      rw [Function.update_self]
      exact ⟨rfl, rfl⟩
    · rw [Function.update_of_ne hq]
      exact ⟨rfl, rfl⟩
  · change x'.seen ++ s.output = _
    rw [hseen]
    rfl

variable [Fintype ι]

/-- Nobody is left when every server was told to stop, and not before. -/
theorem not_gone (hs : s.Orderly) {p : ι} (h : ¬ s.dispatcher.stage.Signalled p) : ¬ s.gone := by
  intro hgone
  have hstopped := of_decide_eq_true hgone p
  refine hs.room_ne_closed h ?_
  unfold System.room Server.room
  rw [if_pos hstopped]

variable [DecidableEq ι]

/-- A step of the dispatcher while it runs leaves the pool in order. -/
theorem running_step [Nonempty ι] (hs : s.Orderly) (hD : D.Staged) {x' : Dispatcher D} {act : Act D}
    (hrunning : s.dispatcher.stage.Running)
    (hmove : s.dispatcher.Move s.room s.output s.gone s.ended x' act) : (s.act x' act).Orderly := by
  obtain ⟨p₀⟩ := ‹Nonempty ι›
  have hstages : 0 < D.stages := (Nat.zero_le _).trans_lt (hD.rank_lt p₀)
  have hstop : ∀ {stage : Stage D}, s.dispatcher.stage = stage → ¬ stage.Running → (s.act x' act).Orderly :=
    fun hstage hnot => absurd (hstage ▸ hrunning) hnot
  cases hmove with
  | batch inputs hstage => exact hs.running hrunning trivial rfl rfl rfl
  | idle hstage => exact hs.running hrunning trivial rfl rfl rfl
  | stop hstage => exact hs.stopping hD hrunning hstages rfl (.inr rfl) rfl
  | leave rest hstage => exact hs.stopping hD hrunning hstages rfl (.inl rfl) rfl
  | exhausted hstage => exact hs.running hrunning trivial rfl rfl rfl
  | route input rest hstage => exact hs.running hrunning trivial rfl rfl rfl
  | submit parcel rest hstage hroom =>
    have hgiven := (hs.server parcel.1).given_item (hrunning.not_signalled parcel.1) none parcel.2
    refine hs.regive ?_ (fun q _ => iff_of_false (fun h => h) (hrunning.not_signalled q)) rfl trivial hs.run_error
      hs.first_error fun q h => h.elim
    rwa [eq_false (hrunning.not_signalled parcel.1)] at hgiven
  | full parcel rest hstage hroom => exact hs.running hrunning trivial rfl rfl rfl
  | unsent parcel rest hstage hroom =>
    exact absurd hroom (hs.room_ne_closed (hrunning.not_signalled parcel.1))
  | read message out hstage houtput =>
    exact hs.running hrunning hrunning (wire_pop houtput) rfl rfl
  | readFail message out hstage houtput =>
    exact hs.stopping hD hrunning hstages (wire_pop houtput) (.inr rfl) rfl
  | orphaned hstage houtput hgone => exact absurd hgone (hs.not_gone (hrunning.not_signalled p₀))
  | resume parcel rest hstage houtput => exact hs.running hrunning trivial rfl rfl rfl
  | drained hstage houtput => exact hs.running hrunning trivial rfl rfl rfl
  | signalled k received hstage => exact hstop hstage id
  | signal k p rest received hstage => exact hstop hstage id
  | busy k p rest received hstage => exact hstop hstage id
  | missing k p rest received hstage => exact hstop hstage id
  | readDown k p rest received message out hstage => exact hstop hstage id
  | orphanedDown k p rest received hstage => exact hstop hstage id
  | retry k p rest received hstage => exact hstop hstage id
  | receive k received message out hstage => exact hstop hstage id
  | orphanedReceive k received hstage => exact hstop hstage id
  | received k received hstage => exact hstop hstage id
  | join k p rest ok hstage => exact hstop hstage id
  | nextStage k hstage => exact hstop hstage id
  | finish k hstage => exact hstop hstage id

/-- A step of the dispatcher while it stops the servers leaves the pool in order. -/
theorem stopping_step (hs : s.Orderly) (hD : D.Staged) {x' : Dispatcher D} {act : Act D}
    (hstopping : ¬ s.dispatcher.stage.Running)
    (hmove : s.dispatcher.Move s.room s.output s.gone s.ended x' act) : (s.act x' act).Orderly := by
  have hstop : ∀ {stage : Stage D}, s.dispatcher.stage = stage → stage.Running → (s.act x' act).Orderly :=
    fun hstage hrunning => absurd (hstage ▸ hrunning) hstopping
  have hproper := hs.stage
  cases hmove with
  | batch inputs hstage => exact hstop hstage trivial
  | idle hstage => exact hstop hstage trivial
  | stop hstage => exact absurd hstage hstopping
  | leave rest hstage => exact hstop hstage trivial
  | exhausted hstage => exact hstop hstage trivial
  | route input rest hstage => exact hstop hstage trivial
  | submit parcel rest hstage hroom => exact hstop hstage trivial
  | full parcel rest hstage hroom => exact hstop hstage trivial
  | unsent parcel rest hstage hroom => exact hstop hstage trivial
  | read message out hstage houtput =>
    obtain ⟨back, rest, idle, hstage⟩ := hstage
    exact hstop hstage trivial
  | readFail message out hstage houtput =>
    obtain ⟨back, rest, idle, hstage⟩ := hstage
    exact hstop hstage trivial
  | orphaned hstage houtput hgone =>
    obtain ⟨back, rest, idle, hstage⟩ := hstage
    exact hstop hstage trivial
  | resume parcel rest hstage houtput =>
    obtain ⟨idle, hstage⟩ := hstage
    exact hstop hstage trivial
  | drained hstage houtput =>
    obtain ⟨rest, idle, hstage⟩ := hstage
    exact hstop hstage trivial
  | signalled k received hstage =>
    rw [hstage] at hproper
    obtain ⟨hk, -, hcount⟩ := hproper
    refine hs.proceeding (fun p => ?_) (fun p h => by rwa [hstage]) ⟨hk, hcount⟩
    rw [hstage]
    simp only [Stage.Signalled, List.not_mem_nil, not_false_eq_true, and_true]
    omega
  | signal k p rest received hstage hroom =>
    rw [hstage] at hproper
    obtain ⟨hk, hsuffix, hcount⟩ := hproper
    have hrank := (hD.group k p).mp (hsuffix.subset List.mem_cons_self)
    have hnodup := (hsuffix.sublist.nodup (hD.nodup k))
    have hnot : ¬ s.dispatcher.stage.Signalled p :=
      not_signalled_of_mem hrank (List.mem_cons_self (l := rest)) (by rw [hstage]; rfl)
    have hsignalled : (Stage.signalling k rest received : Stage D).Signalled p :=
      .inr ⟨hrank, (List.nodup_cons.mp hnodup).1⟩
    refine hs.regive ?_ (fun q hq => ?_) rfl ⟨hk, (List.suffix_cons p rest).trans hsuffix, hcount⟩ hs.run_error
      hs.first_error fun q h => hs.farewell q (by rwa [hstage])
    · have hgiven := (hs.server p).given_shutdown hnot
      rwa [← eq_true hsignalled] at hgiven
    · rw [hstage]
      simp only [Stage.Signalled, List.mem_cons, hq, false_or]
  | busy k p rest received hstage hroom =>
    rw [hstage] at hproper
    exact hs.proceeding (fun q => by rw [hstage]; rfl) (fun q h => by rwa [hstage]) hproper
  | missing k p rest received hstage hroom =>
    rw [hstage] at hproper
    refine absurd hroom (hs.room_ne_closed ?_)
    exact not_signalled_of_mem ((hD.group k p).mp (hproper.2.1.subset List.mem_cons_self))
      (List.mem_cons_self (l := rest)) (by rw [hstage]; rfl)
  | readDown k p rest received message out hstage houtput =>
    rw [hstage] at hproper
    obtain ⟨hk, hsuffix, hcount⟩ := hproper
    refine hs.reading houtput (fun q => by rw [hstage]; rfl) (fun q => by rw [hstage]; rfl) ⟨hk, hsuffix, ?_⟩
    rw [hcount, receive_eq]
  | orphanedDown k p rest received hstage houtput hgone =>
    rw [hstage] at hproper
    refine absurd hgone (@not_gone _ _ _ _ hs p ?_)
    exact not_signalled_of_mem ((hD.group k p).mp (hproper.2.1.subset List.mem_cons_self))
      (List.mem_cons_self (l := rest)) (by rw [hstage]; rfl)
  | retry k p rest received hstage houtput =>
    rw [hstage] at hproper
    exact hs.proceeding (fun q => by rw [hstage]; rfl) (fun q h => by rwa [hstage]) hproper
  | receive k received message out hstage hmissing houtput =>
    rw [hstage] at hproper
    obtain ⟨hk, hcount⟩ := hproper
    refine hs.reading houtput (fun q => by rw [hstage]; rfl) (fun q => by rw [hstage]; rfl) ⟨hk, ?_⟩
    rw [hcount, receive_eq]
  | orphanedReceive k received hstage hmissing houtput hgone =>
    rw [hstage] at hproper
    have hall := hs.all_counted hD (of_decide_eq_true hgone) houtput k
    have hcount := hproper.2
    omega
  | received k received hstage hall =>
    rw [hstage] at hproper
    obtain ⟨hk, hcount⟩ := hproper
    have hreported : ∀ p, D.rank p = k → ∃ final, .final p final ∈ s.dispatcher.seen := fun p hp =>
      Hushed.all_reported (List.pairwise_append.mp hs.hushed).1 hD (hcount ▸ hall) hp
    refine hs.redispatch (fun p => by rw [hstage]; rfl) rfl ⟨hk, fun _ h => h⟩ hs.run_error hs.first_error
      fun p h => ?_
    rcases Nat.lt_or_eq_of_le h with hlt | heq
    · exact hs.farewell p (by rwa [hstage])
    · exact hreported p heq
  | join k p rest ok hstage hended =>
    rw [hstage] at hproper
    have hok : (s.server p).phase = .stopped ok := by
      unfold System.ended at hended
      split at hended
      next hphase =>
        cases hended
        exact hphase
      next => cases hended
    cases ok with
    | false => exact absurd hok (hs.server p).unfailed
    | true =>
      exact hs.proceeding (fun q => by rw [hstage]; rfl) (fun q h => by rwa [hstage])
        ⟨hproper.1, fun _ h => hproper.2 (List.mem_cons_of_mem _ h)⟩
  | nextStage k hstage hlt =>
    refine hs.proceeding (fun p => ?_) (fun p h => ?_) ⟨hlt, List.suffix_refl _, ?_⟩
    · rw [hstage]
      simp only [Stage.Signalled, hD.group]
      omega
    · rw [hstage]
      exact Nat.le_of_lt_succ h
    · refine (hs.none_reported (fun m hm => List.mem_append_left _ hm) fun p hp => ?_).symm
      rw [hstage]
      simp only [Stage.Signalled]
      omega
  | finish k hstage hlast =>
    have hrank : ∀ p, D.rank p ≤ k := fun p => by
      have := hD.rank_lt p
      omega
    obtain ⟨hfinished, hseen, hrun, hfirst⟩ := finish_spec s.dispatcher
    refine hs.redispatch (fun p => ?_) (by rw [hseen]; rfl) ?_ (hrun ▸ hs.run_error) (hfirst hs.first_error)
      fun p h => ?_
    · rw [hfinished, hstage]
      exact iff_of_true trivial (hrank p)
    · rw [hfinished]
      trivial
    · rw [hseen]
      refine hs.farewell p ?_
      rw [hstage]
      exact hrank p

/-- Every step leaves the pool in order. -/
theorem step [Nonempty ι] (hs : s.Orderly) (hD : D.Staged) {s' : System D} (hmove : s.Move s') : s'.Orderly := by
  cases hmove with
  | server p x' effect hmove => exact hs.server_step hD hmove
  | dispatcher x' act hmove =>
    by_cases hrunning : s.dispatcher.stage.Running
    · exact hs.running_step hD hrunning hmove
    · exact hs.stopping_step hD hrunning hmove
  | ask p query hroom =>
    exact hs.regive ((hs.server p).given_query query) (fun _ _ => Iff.rfl) rfl hs.stage hs.run_error hs.first_error
      hs.farewell

end System.Orderly

namespace System

/-- A pool in which nothing happened yet is in order. -/
theorem orderly_new (D : Design ι) : (System.new D).Orderly where
  server := Server.orderly_new D
  stage := trivial
  run_error := .inl rfl
  first_error := .inl rfl
  hushed := List.Pairwise.nil
  finals := fun _ _ => iff_of_false (List.not_mem_nil) fun h => nomatch h.1
  farewell := fun _ h => h.elim

/-- So is one after any run. -/
theorem run_orderly [DecidableEq ι] [Fintype ι] [Nonempty ι] (hD : D.Staged) {actions : List (Action D)}
    {s : System D} (h : (System.new D).run actions = some s) : s.Orderly :=
  run_induction (fun _ _ hs hmove => hs.step hD hmove) (orderly_new D) h

end System

end Rustmate.Pool
