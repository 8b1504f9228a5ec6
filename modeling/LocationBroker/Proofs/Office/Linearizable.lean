import LocationBroker.Proofs.Broker.Hooks
import LocationBroker.Proofs.Broker.Start
import LocationBroker.Proofs.Office.Answers

/-! # An office answers as the broker by itself does

However the steps of clients, worker and other peers come, the commands are served one after the
other in the order in which they were posted, and every answer is that of the command if it is
applied directly at its place in this order.  The order keeps that of each client's program, so a
command finds done whatever its client posted before it.  When the handle is closed, all that was
posted is served before the worker stops.

The exception is a hook that ends the worker: the command that runs it is broken off, and whoever
waits then, or posts something later, is told that the worker has ended.  `linearizable` says all
this for any number of clients.
-/

namespace LocationBroker

open Broker (Error Letter Reply Service Worker)

namespace Office

variable {κ : Type} [DecidableEq κ]

/-- What holds of an office whatever has happened in it. -/
structure Orderly (programs : κ → List Errand) (s : Service) (bus : Bus) (o : Office κ) : Prop where
  queued : o.Queued programs
  faithful : o.Faithful s bus
  informed : o.Informed programs s bus

variable {programs : κ → List Errand} {s : Service} {bus : Bus} {o : Office κ}

theorem Orderly.opened (programs : κ → List Errand) (s : Service) (bus : Bus) :
    (opened s bus : Office κ).Orderly programs s bus :=
  ⟨.opened programs s bus, .opened s bus, .opened programs s bus⟩

theorem Orderly.step (h : o.Orderly programs s bus) (action : Action κ) :
    (o.step programs action).Orderly programs s bus := by
  obtain hsame | hchange := step_cases programs h.queued.letters action
  · rw [hsame]
    exact h
  · exact ⟨h.queued.change hchange, h.faithful.change hchange,
      h.informed.change h.queued h.faithful hchange⟩

theorem Orderly.run (h : o.Orderly programs s bus) (actions : List (Action κ)) :
    (o.run programs actions).Orderly programs s bus := by
  induction actions generalizing o with
  | nil => exact h
  | cons action rest ih => exact ih (h.step action)

theorem Orderly.invariant {P : Office κ → Prop} {actions : List (Action κ)}
    (h : o.Orderly programs s bus) (hbefore : P o)
    (hchange : ∀ {before after action}, action ∈ actions → P before →
      Change programs before action after → P after) : P (o.run programs actions) := by
  induction actions generalizing o with
  | nil => exact hbefore
  | cons action rest ih =>
    refine ih (h.step action) ?_ fun hmem => hchange (List.mem_cons_of_mem _ hmem)
    obtain hsame | hstep := step_cases programs h.queued.letters action
    · rw [hsame]
      exact hbefore
    · exact hchange List.mem_cons_self hbefore hstep

/-! ## Answers -/

/-- Whoever is answered a command is answered what it answers directly, after all that the same
client posted before it. -/
theorem Orderly.answer (h : o.Orderly programs s bus) {i : κ} {n : Nat} {r : Reply}
    {errand : Errand}
    (hanswer : (o.clients i).answers[n]? = some (.given (.ok r)))
    (herrand : (programs i)[n]? = some errand) (hexpects : errand.command.expectsReply = true) :
    ∃ before source after, o.deeds = before ++ .serve source ⟨i, n, errand⟩ :: after ∧
      (Deed.posts before).filter (·.client = i) = (Post.plan i (programs i)).take n ∧
      let a := direct s bus before
      r = (a.service.apply a.bus source errand.command).result := by
  obtain ⟨_, hsame, hreply⟩ := (h.informed.answered i).given hanswer
  cases herrand.symm.trans hsame
  rw [if_pos hexpects] at hreply
  obtain ⟨before, source, after, hdeeds, hr⟩ := exists_serve_of_mem_replies hreply
  refine ⟨before, source, after, hdeeds, ?_, hr⟩
  -- What was served up to this command is the beginning of what was posted.
  have hplanned := (h.queued.served_prefix.filter (·.client = i)).trans (h.queued.planned i)
  have hpost : ((⟨i, n, errand⟩ : Post κ) :: Deed.posts after).filter (·.client = i) =
      ⟨i, n, errand⟩ :: (Deed.posts after).filter (·.client = i) :=
    List.filter_cons_of_pos (by simp)
  have hposts : Deed.posts o.deeds = Deed.posts before ++ ⟨i, n, errand⟩ :: Deed.posts after := by
    rw [hdeeds, Deed.posts_append]
    rfl
  rw [hposts, List.filter_append, hpost, ← List.singleton_append, ← List.append_assoc] at hplanned
  exact (Post.of_prefix_plan ((List.prefix_append _ _).trans hplanned)).2.2.2

/-- Nobody goes without an answer but those who stop waiting for it. -/
theorem abandoned_of_change {o' : Office κ} {action : Action κ}
    (hchange : Change programs o action o') :
    ∀ i, .abandoned ∈ (o'.clients i).answers →
      .abandoned ∈ (o.clients i).answers ∨ action = .abandon i := by
  -- Any other answer that is added leaves those before it.
  have hget : ∀ {c : Client} {reply}, .abandoned ∈ (c.get (.given reply)).answers →
      .abandoned ∈ c.answers := fun hmem => (Client.mem_get hmem).resolve_right nofun
  have hdisconnect : ∀ {c : Client}, .abandoned ∈ c.disconnect.answers →
      .abandoned ∈ c.answers := by
    intro c
    rw [Client.disconnect]
    split
    · exact hget
    · exact id
  cases hchange with
  | @accepted current post running idle still number errand =>
    refine (Function.forall_update_iff o.clients fun i c => .abandoned ∈ c.answers →
      .abandoned ∈ (o.clients i).answers ∨ Action.issue post.client = .abandon i).mpr
        ⟨fun h => ?_, fun _ _ => .inl⟩
    split at h
    · exact .inl h
    · exact .inl (hget h)
  | @refused j ended still idle =>
    exact (Function.forall_update_iff o.clients fun i c => .abandoned ∈ c.answers →
      .abandoned ∈ (o.clients i).answers ∨ Action.issue j = .abandon i).mpr
        ⟨fun h => .inl (hget h), fun _ _ => .inl⟩
  | @abandoned j waits =>
    exact (Function.forall_update_iff o.clients fun i c => .abandoned ∈ c.answers →
      .abandoned ∈ (o.clients i).answers ∨ Action.abandon j = .abandon i).mpr
        ⟨fun _ => .inr rfl, fun _ _ => .inl⟩
  | served running queue whole =>
    intro i h
    dsimp only at h
    rw [hand] at h
    split at h
    · exact .inl (hget h)
    · exact .inl h
  | broken | ended => exact fun i h => .inl (hdisconnect h)
  | elsewhere | closed | closedLate => exact fun i => .inl

theorem Orderly.abandoned {actions : List (Action κ)} (h : o.Orderly programs s bus) {i : κ}
    (hnone : .abandoned ∉ (o.clients i).answers)
    (hanswer : .abandoned ∈ ((o.run programs actions).clients i).answers) :
    .abandon i ∈ actions := by
  refine h.invariant (P := fun after => .abandoned ∈ (after.clients i).answers →
    .abandon i ∈ actions) (fun hmem => absurd hmem hnone) ?_ hanswer
  intro before after action haction hbefore hchange hafter
  obtain hmem | rfl := abandoned_of_change hchange i hafter
  · exact hbefore hmem
  · exact haction

/-! ## Settling -/

/-- A turn takes one letter from the queue, if there is any. -/
theorem Queued.turn_length (h : o.Queued programs) (source : Provider.Source) :
    (o.turn source).worker.queue.length ≤ o.worker.queue.length - 1 ∧
      (o.turn source).sent = o.sent ∧ (o.turn source).closed = o.closed := by
  obtain ⟨hidle, hsame⟩ | hchange := turn_cases programs h.letters source
  · have hempty : o.worker.queue = [] := by
      obtain ⟨s, hrunning⟩ | hended := o.running_or_ended
      · exact hidle s hrunning
      · exact h.emptied hended
    rw [hsame, hempty]
    exact ⟨Nat.le_refl _, rfl, rfl⟩
  · generalize o.turn source = after at hchange
    cases hchange with
    | served running queue whole =>
      rw [queue]
      exact ⟨Nat.le_refl _, rfl, rfl⟩
    | broken | ended => exact ⟨Nat.zero_le _, rfl, rfl⟩

theorem Orderly.emptied (h : o.Orderly programs s bus) {sources : List Provider.Source}
    (henough : o.worker.queue.length ≤ sources.length) :
    let settled := o.run programs (sources.map .turn)
    settled.worker.queue = [] ∧ settled.sent = o.sent ∧ settled.closed = o.closed := by
  induction sources generalizing o with
  | nil => exact ⟨List.length_eq_zero_iff.mp (Nat.le_zero.mp henough), rfl, rfl⟩
  | cons source rest ih =>
    obtain ⟨hlength, hsent, hclosed⟩ := h.queued.turn_length source
    have hrest : (o.turn source).worker.queue.length ≤ rest.length := by
      rw [List.length_cons] at henough
      omega
    obtain ⟨hempty, hsent', hclosed'⟩ := ih (h.step (.turn source)) hrest
    exact ⟨hempty, hsent'.trans hsent, hclosed'.trans hclosed⟩

/-- When the worker has had a turn for each letter, all is served and answered, unless a hook has
ended it. -/
theorem Orderly.settled (h : o.Orderly programs s bus) {sources : List Provider.Source}
    (henough : o.worker.queue.length ≤ sources.length) :
    let settled := o.run programs (sources.map .turn)
    (∀ i, (settled.clients i).waiting = false) ∧
      (settled.worker.phase ≠ .crashed → Deed.posts settled.deeds = o.sent ∧
        (o.closed = true → settled.worker.phase = .stopped)) := by
  intro settled
  have hsettled : settled.Orderly programs s bus := h.run _
  obtain ⟨hempty, hsent, hclosed⟩ := h.emptied henough
  refine ⟨fun i => ?_, fun hwhole => ?_⟩
  · rw [← Bool.not_eq_true]
    intro hwaiting
    -- Whoever waited would have a letter in the queue.
    obtain ⟨-, errand, hletter⟩ := hsettled.informed.attended i hwaiting
    rw [hempty] at hletter
    cases hletter
  · cases hphase : settled.worker.phase with
    | running current =>
      obtain ⟨-, waiting, hposts, hqueue⟩ := hsettled.queued.running hphase
      rw [hempty] at hqueue
      obtain ⟨hnone, hopen⟩ := List.append_eq_nil_iff.mp hqueue.symm
      rw [List.map_eq_nil_iff.mp hnone, List.append_nil] at hposts
      refine ⟨hposts.symm.trans hsent, fun hclose => ?_⟩
      rw [hclosed, hclose] at hopen
      cases hopen
    | stopped =>
      obtain ⟨-, hposts, -⟩ := hsettled.queued.stopped hphase
      exact ⟨hposts.symm.trans hsent, fun _ => rfl⟩
    | crashed => exact absurd hphase hwhole

/-! ## After a crash -/

theorem crashed_of_change {o' : Office κ} {action : Action κ}
    (hchange : Change programs o action o') (h : o.worker.phase = .crashed) :
    o'.worker.phase = .crashed ∧ Deed.posts o'.deeds = Deed.posts o.deeds := by
  cases hchange with
  | refused | abandoned | closedLate => exact ⟨h, rfl⟩
  | elsewhere action => exact ⟨h, by simp [Deed.posts, Deed.post?]⟩
  | accepted running | served running | broken running | ended _ running | closed running =>
    rw [h] at running
    cases running

/-- Once a hook has ended the worker, nothing more is served, nobody waits, and whoever posts
something is told that the worker has ended. -/
theorem Orderly.crashed (h : o.Orderly programs s bus) (hcrashed : o.worker.phase = .crashed)
    (actions : List (Action κ)) :
    let later := o.run programs actions
    later.worker.phase = .crashed ∧ Deed.posts later.deeds = Deed.posts o.deeds ∧
      ∀ i, (later.clients i).waiting = false ∧ (later.closed = false →
        ∀ errand, (programs i)[(later.clients i).answers.length]? = some errand →
          later.issue programs i = { later with
            clients := Function.update later.clients i
              ((later.clients i).get (.given (.error .workerDisconnected))) }) := by
  intro later
  obtain ⟨hphase, hposts⟩ : later.worker.phase = .crashed ∧
      Deed.posts later.deeds = Deed.posts o.deeds :=
    h.invariant (P := fun after => after.worker.phase = .crashed ∧
        Deed.posts after.deeds = Deed.posts o.deeds) ⟨hcrashed, rfl⟩
      fun _ hbefore hchange => (crashed_of_change hchange hbefore.1).imp_right (·.trans hbefore.2)
  have hended : ∀ s, later.worker.phase ≠ .running s := by simp [hphase]
  refine ⟨hphase, hposts, fun i => ?_⟩
  have hidle : (later.clients i).waiting = false := by
    rw [← Bool.not_eq_true]
    intro hwaiting
    obtain ⟨⟨s, hrunning⟩, -⟩ := (h.run actions).informed.attended i hwaiting
    exact hended s hrunning
  exact ⟨hidle, fun hopen errand => issue_ended hended hidle hopen⟩

/-! ## Gentle hooks -/

/-- The worker is still at work on a broker whose hooks do not end it, or has stopped. -/
def Calm (o : Office κ) : Prop :=
  o.worker.phase ≠ .crashed ∧ ∀ current, o.worker.phase = .running current → current.Gentle

omit [DecidableEq κ] in
theorem Calm.opened (h : s.Gentle) (bus : Bus) : (opened s bus : Office κ).Calm := by
  refine ⟨by simp [Office.opened, Worker.spawn], fun current hphase => ?_⟩
  cases hphase
  exact h

theorem Calm.change {o' : Office κ} {action : Action κ} (h : o.Calm)
    (hchange : Change programs o action o') : o'.Calm := by
  obtain ⟨hwhole, hgentle⟩ := h
  cases hchange with
  | accepted | refused | abandoned | elsewhere | closed | closedLate => exact ⟨hwhole, hgentle⟩
  | @served current source post rest running queue whole =>
    refine ⟨fun hphase => absurd hphase (by simp), fun after hphase => ?_⟩
    cases hphase
    exact ((hgentle current running).apply o.bus source post.errand.command).2
  | @broken current source post rest running queue abort =>
    have hharmless := ((hgentle current running).apply o.bus source post.errand.command).1
    rw [hharmless.any_eq_false] at abort
    cases abort
  | ended => exact ⟨fun hphase => absurd hphase (by simp), fun _ hphase => absurd hphase (by simp)⟩

/-- Whatever has happened in an office, its worker has served commands in the order in which they
were posted, with what comes of them directly; who was answered was answered what the command
answers directly, after all that the same client had posted before; and only who stopped waiting
goes without an answer.  After a turn for each letter in the queue nobody waits any more, and all
that was posted is served, also if the handle was closed meanwhile, unless a hook has ended the
worker.  Then nothing is served any more, and whoever posts something, a message included, is told
that the worker has ended.  No hook does so if none of the broker's sessions has such a hook. -/
theorem linearizable (programs : κ → List Errand) (s : Service) (bus : Bus)
    (actions : List (Action κ)) :
    let o := (opened s bus).run programs actions
    o.Orderly programs s bus ∧
      (∀ i n r errand, (o.clients i).answers[n]? = some (.given (.ok r)) →
        (programs i)[n]? = some errand → errand.command.expectsReply = true →
        ∃ before source after, o.deeds = before ++ .serve source ⟨i, n, errand⟩ :: after ∧
          (Deed.posts before).filter (·.client = i) = (Post.plan i (programs i)).take n ∧
          let a := direct s bus before
          r = (a.service.apply a.bus source errand.command).result) ∧
      (∀ i, .abandoned ∈ (o.clients i).answers → .abandon i ∈ actions) ∧
      (∀ sources : List Provider.Source, o.worker.queue.length ≤ sources.length →
        let settled := o.run programs (sources.map .turn)
        (∀ i, (settled.clients i).waiting = false) ∧
          (settled.worker.phase ≠ .crashed → Deed.posts settled.deeds = o.sent ∧
            (o.closed = true → settled.worker.phase = .stopped))) ∧
      (o.worker.phase = .crashed → ∀ more,
        let later := o.run programs more
        later.worker.phase = .crashed ∧ Deed.posts later.deeds = Deed.posts o.deeds ∧
          ∀ i, (later.clients i).waiting = false ∧ (later.closed = false →
            ∀ errand, (programs i)[(later.clients i).answers.length]? = some errand →
              later.issue programs i = { later with
                clients := Function.update later.clients i
                  ((later.clients i).get (.given (.error .workerDisconnected))) })) ∧
      (s.Gentle → ∀ more, (o.run programs more).worker.phase ≠ .crashed) := by
  intro o
  have hopened : (opened s bus).Orderly programs s bus := .opened programs s bus
  have horderly : o.Orderly programs s bus := hopened.run actions
  refine ⟨horderly, fun i n r errand => horderly.answer, fun i hanswer => ?_,
    fun sources => horderly.settled, horderly.crashed, fun hgentle more => ?_⟩
  · exact hopened.abandoned List.not_mem_nil hanswer
  · have hafter : o.Calm := hopened.invariant (.opened hgentle bus) fun _ => Calm.change
    exact (horderly.invariant hafter fun _ => Calm.change).1

/-! ## Runs -/

/-- One client asks for a session, reports that its peer has left, and asks how things are; another
one only asks how things are. -/
def leaving : Bool → List Errand
  | false => [
      ⟨.create { sender := some ":1.5", path := .root, interface := none, member := "Create" },
        nofun⟩,
      ⟨.deliver (Bus.OwnershipChange.toMessage ⟨":1.5", ":1.5", ""⟩), nofun⟩,
      ⟨.stats, nofun⟩]
  | true => [⟨.stats, nofun⟩]

/-- The handle is closed while three commands are waiting. -/
def hurrying : List (Action Bool) :=
  [.issue false, .issue true, .turn .none, .issue false, .issue false, .close]

set_option maxRecDepth 8000 in
/-- The commands of `leaving` are served although the handle is closed, and the first client finds
its session gone. -/
theorem linearizable_leaving :
    ∃ o, Service.start .standard {} .none = .ok o ∧ o.service.Gentle ∧
      let office := (opened o.service o.bus).run leaving hurrying
      let settled := office.run leaving (List.replicate 4 (.turn .none))
      settled.worker.phase = .stopped ∧ Deed.posts settled.deeds = office.sent ∧
        ∃ stats before source after, stats.sessions = 0 ∧
          (settled.clients false).answers[2]? = some (.given (.ok (.stats stats))) ∧
          settled.deeds = before ++ .serve source ⟨false, 2, ⟨.stats, nofun⟩⟩ :: after ∧
          (Deed.posts before).filter (·.client = false) = (Post.plan false (leaving false)).take 2 ∧
          stats = (direct o.service o.bus before).service.stats := by
  obtain ⟨o, hstart, hqueue, hclosed, hstats⟩ := Service.exists_start .standard {} .none (fun o =>
      let office := (opened o.service o.bus).run leaving hurrying
      let settled := office.run leaving (List.replicate 4 (.turn .none))
      office.worker.queue.length = 4 ∧ office.closed = true ∧
        (match (settled.clients false).answers[2]? with
          | some (Answer.given (.ok (.stats stats))) => stats.sessions == 0
          | some _ | none => false) = true) (by decide +kernel)
  have hgentle : o.service.Gentle := Service.start_gentle hstart
  obtain ⟨-, -, -, hsettled, -, hcalm⟩ := linearizable leaving o.service o.bus hurrying
  obtain ⟨-, hserved⟩ := hsettled (List.replicate 4 .none) (Nat.le_of_eq hqueue)
  obtain ⟨hposts, hstopped⟩ := hserved (hcalm hgentle _)
  rw [List.map_replicate] at hposts hstopped
  have hanswered : ∃ stats : Broker.Stats, stats.sessions = 0 ∧
      ((((opened o.service o.bus).run leaving hurrying).run leaving
        (List.replicate 4 (.turn .none))).clients false).answers[2]? =
          some (.given (.ok (.stats stats))) := by
    split at hstats
    · exact ⟨_, beq_iff_eq.mp hstats, ‹_›⟩
    all_goals cases hstats
  obtain ⟨stats, hnone, hanswer⟩ := hanswered
  obtain ⟨-, hdirect, -⟩ := linearizable leaving o.service o.bus
    (hurrying ++ List.replicate 4 (.turn .none))
  rw [run_append] at hdirect
  obtain ⟨before, source, after, hdeeds, hbefore, hreply⟩ :=
    hdirect false 2 (.stats stats) ⟨.stats, nofun⟩ hanswer rfl rfl
  exact ⟨o, hstart, hgentle, hstopped hclosed, hposts, stats, before, source, after, hnone, hanswer,
    hdeeds, hbefore, Reply.stats.inj hreply⟩

/-- Nobody is told that a release has succeeded whose hook ends the worker. -/
theorem release_unanswered {s : Service} {bus : Bus} {source : Provider.Source} {path : String}
    (habort : (s.apply bus source (.release path)).effects.any Broker.isAbort = true) :
    (((opened s bus).run (fun _ => [⟨.release path, nofun⟩])
      [.issue (), .turn source]).clients ()).answers = [.given (.error .workerDisconnected)] := by
  have hissued : (opened s bus).run (fun _ => [⟨.release path, nofun⟩])
      [.issue (), .turn source] =
        turn (post (opened s bus) ⟨(), 0, ⟨.release path, nofun⟩⟩) source := rfl
  rw [hissued, turn_broken rfl rfl habort]
  rfl

set_option maxRecDepth 8000 in
/-- The only client of an office asks for the release of a session whose hook ends the worker. -/
theorem hooked_release_unanswered :
    ∃ o, Service.start .standard {} .none = .ok o ∧
      let path := "/org/freedesktop/Geoclue/Master/client0"
      let created := o.service.perform o.bus (.sessionFor ":1.1")
      let hooked := created.service.perform created.bus (.attachHook path ⟨"t", true⟩)
      (((opened hooked.service hooked.bus).run (fun _ => [⟨.release path, nofun⟩])
        [.issue (), .turn .none]).clients ()).answers =
          [.given (.error .workerDisconnected)] := by
  obtain ⟨o, hstart, habort⟩ := Service.exists_start .standard {} .none (fun o =>
    let path := "/org/freedesktop/Geoclue/Master/client0"
    let created := o.service.perform o.bus (.sessionFor ":1.1")
    let hooked := created.service.perform created.bus (.attachHook path ⟨"t", true⟩)
    (hooked.service.apply hooked.bus .none (.release path)).effects.any Broker.isAbort = true)
    (by decide)
  exact ⟨o, hstart, release_unanswered habort⟩

end Office

end LocationBroker
