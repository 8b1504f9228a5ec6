import LocationBroker.Proofs.Broker.Availability
import LocationBroker.Proofs.Broker.Endings

/-! # The alarms of a broker

A broker raises an alarm for each thing that goes wrong, in the order in which things go wrong, and
for nothing else.

* `alarmsFor` — the alarms that an operation ought to raise: those of the report if it loads, one if
  a new session cannot be exported, and one for each session that it ends whose object cannot be
  withdrawn.
* `Anchored` — there are no sessions without a connection, so nobody ever withdraws an object
  without a bus.
* `perform_alarms` — every operation raises the alarms that it ought to raise; `alarms_exact` puts
  this together with what a load and a start raise.
-/

namespace LocationBroker

open Log (Effects Event)

namespace Session.Registry

variable {r : Registry}

theorem settle_unalarming (left : Registry) (gone : Session) (providers : Provider.Registry) :
    (left.settle gone providers).2.Unalarming := by
  have hdestroyed : Effects.Unalarming
      [.event (.sessionDestroyed gone.path gone.owner left.sessions.length)] :=
    List.forall_mem_singleton.mpr ⟨_, rfl, rfl⟩
  rw [settle]
  dsimp only
  split
  · refine List.forall_mem_append.mpr ⟨?_, List.forall_mem_singleton.mpr ⟨_, rfl, rfl⟩⟩
    exact List.forall_mem_append.mpr ⟨hdestroyed, providers.release_unalarming⟩
  · exact hdestroyed

theorem destroy_alarms (r : Registry) (path : Bus.ObjectPath) (providers : Provider.Registry) :
    (r.destroy path providers).2.2.2.alarms = [] := by
  cases hget : r.get? path with
  | none => rw [destroy_of_not_mem (get?_eq_none_iff.mp hget)]; rfl
  | some x =>
    have hhook : Effects.alarms (runHook x) = [] := by
      rw [runHook]
      split <;> rfl
    rw [destroy_of_get? hget, Log.Effects.alarms_append, hhook,
      (settle_unalarming _ x providers).alarms]
    rfl

end Session.Registry

namespace Broker.Service

open Session.Registry (Leaving)

variable {s : Service} {x : Session} {gone : List Session}

/-! ## A session needs a connection -/

/-- Without a connection there are no sessions. -/
def Anchored (s : Service) : Prop :=
  s.connection = none → s.sessions.sessions = []

theorem Move.anchored {owner? : Option String} {before after : Service × Bus}
    (h : Move owner? before after) (hbefore : before.1.Anchored) : after.1.Anchored := by
  cases h with
  | load | emitted => exact hbefore
  -- Whoever asks the bus to export a session has a connection.
  | opened howner hpeer =>
    intro hnone
    rw [hpeer] at hnone
    cases hnone
  | refused owner hpeer =>
    intro hnone
    rw [hpeer] at hnone
    cases hnone
  -- Without a connection there is nothing to close.
  | closed hx =>
    intro hnone
    rw [hbefore hnone] at hx
    cases hx
  | changed path hpath howner =>
    intro hnone
    exact List.map_eq_nil_iff.mpr (hbefore hnone)

theorem Anchored.perform (h : s.Anchored) (hnumbered : s.sessions.Numbered) (bus : Bus)
    (operation : Operation) : (s.perform bus operation).service.Anchored :=
  Moves.invariant (P := fun b => b.1.Anchored) (fun hbefore hmove => hmove.anchored hbefore)
    (perform_moves hnumbered bus operation) h

theorem start_anchored {c : Config} {bus : Bus} {source : Provider.Source} {o : Outcome Unit}
    (h : start c bus source = .ok o) : o.service.Anchored := by
  obtain ⟨-, base, hsessions⟩ := start_sessions h
  intro _
  rw [hsessions]

theorem after_anchored {c : Config} {bus : Bus} {source : Provider.Source} {o : Outcome Unit}
    (h : start c bus source = .ok o) (occasions : List Occasion) :
    (o.service.after occasions).Anchored :=
  after_invariant (start_numbered h) (start_anchored h)
    fun _ hnumbered hbefore => hbefore.perform hnumbered _ _

/-! ## The alarms that an operation ought to raise -/

/-- Those of the report, if the operation makes the broker load. -/
def loadingAlarms (s : Service) (operation : Operation) : List Event :=
  if s.listsFor operation then
    operation.source?.toList.flatMap fun source => (s.providers.load source).2.1.alarms
  else []

/-- One if the operation asks for a session that cannot be exported. -/
def exportAlarms (s : Service) (bus : Bus) (operation : Operation) : List Event :=
  let path := s.sessions.nextPath
  let refusal? := s.connection.bind fun peer => bus.refusal? (.registerObject peer path)
  if s.mints operation then
    refusal?.toList.map fun e => .exportFailed path (operation.owner?.getD "") (.bus e)
  else []

/-- One if the object of a session that is ended cannot be withdrawn. -/
def withdrawalAlarm? (s : Service) (bus : Bus) (x : Session) : Option Event :=
  s.connection.bind fun peer =>
    (bus.refusal? (.unregisterObject peer x.path)).map (.withdrawalFailed x.path)

/-- All alarms of an operation, in order. -/
def alarmsFor (s : Service) (bus : Bus) (operation : Operation) : List Event :=
  s.loadingAlarms operation ++ s.exportAlarms bus operation
    ++ (s.sessions.sessions.filter operation.ends).filterMap (s.withdrawalAlarm? bus)

/-! ## Creating sessions -/

theorem reloadIfEmpty_alarms (s : Service) (source : Provider.Source) :
    (s.reloadIfEmpty source).2.alarms =
      if s.providers.records.isEmpty ∧ s.config.reloadPolicy = .onDemand then
        (s.providers.load source).2.1.alarms
      else [] := by
  rw [reloadIfEmpty]
  split
  · exact s.providers.load_alarms source
  · rfl

theorem create_alarms (s : Service) (bus : Bus) (source : Provider.Source) (call : Bus.MethodCall) :
    (s.create bus source call).effects.alarms = s.alarmsFor bus (.create source call) := by
  have hsame := reloadIfEmpty_sessions s source
  have hloading := s.reloadIfEmpty_alarms source
  have hcreation := create_creation s bus source call
  generalize s.create bus source call = o at hcreation ⊢
  generalize (s.reloadIfEmpty source).1 = loaded at hcreation hsame
  generalize (s.reloadIfEmpty source).2 = loading at hcreation hloading
  generalize howner : call.sender.getD "" = owner at hcreation
  have hcreating : (loaded.sessions.create owner).2.2.alarms = [] := rfl
  -- A request ends no session, so all that can go wrong is the load and the export.
  have hwanted : ∀ {peer}, s.connection = some peer → s.alarmsFor bus (.create source call) =
      loading.alarms ++ (bus.refusal? (.registerObject peer loaded.sessions.nextPath)).toList.map
        fun e => .exportFailed loaded.sessions.nextPath owner (.bus e) := by
    intro peer hpeer
    simp [alarmsFor, loadingAlarms, exportAlarms, listsFor, mints, isFunctional, Operation.ends,
      Operation.source?, Operation.owner?, hpeer, hloading, hsame, howner]
  cases hcreation with
  | offline hnone =>
    have hnothing : s.alarmsFor bus (.create source call) = [] := by
      simp [alarmsFor, loadingAlarms, exportAlarms, listsFor, mints, isFunctional, Operation.ends,
        hnone]
    rw [hnothing]
    rfl
  | @exported peer after hpeer hexport =>
    have hgranted : bus.refusal? (.registerObject peer loaded.sessions.nextPath) = none := by
      rw [Bus.refusal?, Bus.attempt, hexport]
    rw [hwanted hpeer, hgranted, Log.Effects.alarms_append, Log.Effects.alarms_append, hcreating,
      List.append_nil]
    rfl
  | @refused peer e hpeer hexport =>
    have hrefused : bus.refusal? (.registerObject peer loaded.sessions.nextPath) = some e := by
      rw [Bus.refusal?, Bus.attempt, hexport]
    simp only [hwanted hpeer, hrefused, Log.Effects.alarms_append, hcreating, List.append_nil,
      Session.Registry.destroy_alarms]
    rfl

theorem handleCall_alarms (s : Service) (bus : Bus) (source : Provider.Source)
    (call : Bus.MethodCall) :
    (s.handleCall bus source call).effects.alarms = s.alarmsFor bus (.handleCall source call) := by
  rw [handleCall]
  cases hasked : s.isCreation call with
  | true =>
    -- A call that asks for a session is as good as the request itself.
    have hmints : s.mints (.handleCall source call) = s.mints (.create source call) := by
      simp [mints, hasked]
    have hsame : s.alarmsFor bus (.handleCall source call) =
        s.alarmsFor bus (.create source call) := by
      simp only [alarmsFor, loadingAlarms, exportAlarms, listsFor, hmints]
      rfl
    rw [hsame]
    exact s.create_alarms bus source call
  | false =>
    have hnone : s.alarmsFor bus (.handleCall source call) = [] := by
      simp [alarmsFor, loadingAlarms, exportAlarms, listsFor, mints, Operation.ends, hasked]
    rw [hnone]
    rfl

/-! ## Ending sessions -/

theorem withdraw_alarms {peer : String} (hpeer : s.connection = some peer) (bus : Bus)
    (x : Session) :
    (s.withdraw bus x.path).2.alarms = (s.withdrawalAlarm? bus x).toList := by
  rw [withdraw, withdrawalAlarm?, hpeer, Option.bind_some, Bus.refusal?, Bus.attempt]
  dsimp only
  cases bus.unregisterObject peer x.path <;> rfl

theorem teardown_alarms {peer : String} (hpeer : s.connection = some peer) (bus : Bus)
    (x : Session) :
    (s.teardown bus x.path).effects.alarms = (s.withdrawalAlarm? bus x).toList := by
  rw [teardown, Log.Effects.alarms_append, withdraw_alarms hpeer, Session.Registry.destroy_alarms,
    List.append_nil]

/-- What went wrong with one session makes no difference to the others. -/
theorem withdrawalAlarm?_teardown (bus : Bus) {y : Session} (hne : y.path ≠ x.path) :
    (s.teardown bus x.path).service.withdrawalAlarm? (s.teardown bus x.path).bus y =
      s.withdrawalAlarm? bus y := by
  have hconnection : (s.teardown bus x.path).service.connection = s.connection := rfl
  rw [withdrawalAlarm?, withdrawalAlarm?, hconnection, teardown_bus]
  cases s.connection with
  | none => rfl
  | some peer =>
    dsimp only
    rw [Option.bind_some, Option.bind_some, Bus.refusal?_step_of_ne hne]

theorem teardownAll_alarms {peer : String} (hpeer : s.connection = some peer) (bus : Bus)
    (hnodup : (gone.map (·.path)).Nodup) :
    (s.teardownAll bus (gone.map (·.path))).effects.alarms =
      gone.filterMap (s.withdrawalAlarm? bus) := by
  induction gone generalizing s bus with
  | nil => rfl
  | cons x rest ih =>
    rw [List.map_cons, List.nodup_cons] at hnodup
    obtain ⟨hfirst, hrest⟩ := hnodup
    -- The others fare as they would have fared on the bus before the first one was withdrawn.
    have hothers : ∀ y ∈ rest, (s.teardown bus x.path).service.withdrawalAlarm?
        (s.teardown bus x.path).bus y = s.withdrawalAlarm? bus y := by
      intro y hy
      refine withdrawalAlarm?_teardown bus fun hpath => hfirst ?_
      exact List.mem_map.mpr ⟨y, hy, hpath⟩
    rw [List.map_cons, teardownAll, Log.Effects.alarms_append, teardown_alarms hpeer,
      ih (s := (s.teardown bus x.path).service) hpeer _ hrest, List.filterMap_congr hothers,
      List.filterMap_cons]
    cases s.withdrawalAlarm? bus x <;> rfl

theorem ending_alarms (h : s.sessions.Numbered) (hanchored : s.Anchored) (bus : Bus)
    {operation : Operation} (hending : operation.isEnding = true) :
    (s.perform bus operation).effects.alarms =
      (s.sessions.sessions.filter operation.ends).filterMap (s.withdrawalAlarm? bus) := by
  obtain ⟨-, -, heffects⟩ := perform_ending h bus hending
  obtain ⟨hherald, hfarewell⟩ :=
    operation.told_unalarming (s.sessions.sessions.filter operation.ends)
  rw [heffects, Log.Effects.alarms_append, Log.Effects.alarms_append, hherald.alarms,
    hfarewell.alarms, List.nil_append, List.append_nil]
  cases hpeer : s.connection with
  | none =>
    rw [hanchored hpeer]
    rfl
  | some peer => exact teardownAll_alarms hpeer bus (h.leaving operation.ends).nodup

/-! ## Every operation -/

theorem onSession_unalarming {α : Type} {bus : Bus} {path : String} {act : Session → Outcome α}
    (hact : ∀ x, (act x).effects.Unalarming) : (s.onSession bus path act).effects.Unalarming := by
  obtain h | ⟨x, -, -, -, h⟩ := onSession_cases s bus path act <;> rw [h]
  · exact List.forall_mem_nil _
  · exact hact x

/-- Every operation raises exactly the alarms that it ought to raise. -/
theorem perform_alarms (h : s.sessions.Numbered) (hanchored : s.Anchored) (bus : Bus)
    (operation : Operation) :
    (s.perform bus operation).effects.alarms = s.alarmsFor bus operation := by
  -- An operation that neither loads nor mints raises alarms only for what it ends.
  have hquiet : s.listsFor operation = false → s.mints operation = false →
      s.alarmsFor bus operation =
        (s.sessions.sessions.filter operation.ends).filterMap (s.withdrawalAlarm? bus) := by
    intro hlists hmints
    simp [alarmsFor, loadingAlarms, exportAlarms, hlists, hmints]
  have hnothing : s.listsFor operation = false → s.mints operation = false →
      (∀ x, operation.ends x = false) → s.alarmsFor bus operation = [] := by
    intro hlists hmints hends
    rw [hquiet hlists hmints]
    simp [hends]
  cases operation with
  | create source call => exact s.create_alarms bus source call
  | handleCall source call => exact s.handleCall_alarms bus source call
  | filter m => exact (ending_alarms h hanchored bus rfl).trans (hquiet rfl rfl).symm
  | depart name => exact (ending_alarms h hanchored bus rfl).trans (hquiet rfl rfl).symm
  | release path => exact (ending_alarms h hanchored bus rfl).trans (hquiet rfl rfl).symm
  | attachHook path hook =>
    rw [hnothing rfl rfl fun _ => rfl]
    refine Log.Effects.Unalarming.alarms (onSession_unalarming fun _ => ?_)
    exact List.forall_mem_nil _
  | setRequirements path c =>
    rw [hnothing rfl rfl fun _ => rfl]
    refine Log.Effects.Unalarming.alarms (List.forall_mem_cons.mpr ⟨⟨_, rfl, rfl⟩, ?_⟩)
    refine onSession_unalarming fun _ => ?_
    exact List.forall_mem_nil _
  | providersFor path =>
    rw [hnothing rfl rfl fun _ => rfl]
    refine Log.Effects.Unalarming.alarms (onSession_unalarming fun _ => ?_)
    exact s.providers.filterEffects_unalarming _
  | reload source =>
    have hloads : s.alarmsFor bus (.reload source) = (s.providers.load source).2.1.alarms := by
      simp [alarmsFor, loadingAlarms, exportAlarms, listsFor, mints, Operation.ends,
        Operation.source?]
    rw [hloads]
    exact s.providers.load_alarms source
  | announceOptions options =>
    rw [hnothing rfl rfl fun _ => rfl, perform, announceOptions]
    split
    · rfl
    · dsimp only
      split <;> rfl

theorem alarmsFor_cases {bus : Bus} {operation : Operation} {alarm : Event}
    (h : alarm ∈ s.alarmsFor bus operation) :
    (∃ source, alarm ∈ (s.providers.load source).2.1.alarms) ∨
      (∃ path owner e, alarm = .exportFailed path owner (.bus e)) ∨
      ∃ path e, alarm = .withdrawalFailed path e := by
  rw [alarmsFor, List.mem_append, List.mem_append] at h
  obtain (h | h) | h := h
  · rw [loadingAlarms] at h
    split at h
    · obtain ⟨source, -, h⟩ := List.mem_flatMap.mp h
      exact .inl ⟨source, h⟩
    · cases h
  · rw [exportAlarms] at h
    split at h
    · obtain ⟨e, -, rfl⟩ := List.mem_map.mp h
      exact .inr (.inl ⟨_, _, e, rfl⟩)
    · cases h
  · obtain ⟨x, -, h⟩ := List.mem_filterMap.mp h
    obtain ⟨peer, -, h⟩ := Option.bind_eq_some_iff.mp h
    obtain ⟨e, -, rfl⟩ := Option.map_eq_some_iff.mp h
    exact .inr (.inr ⟨_, e, rfl⟩)

theorem alarmsFor_level {bus : Bus} {operation : Operation} {alarm : Event}
    (h : alarm ∈ s.alarmsFor bus operation) : alarm.level = .warn := by
  obtain ⟨source, h⟩ | ⟨path, owner, e, rfl⟩ | ⟨path, e, rfl⟩ := alarmsFor_cases h
  · exact Provider.Report.alarms_level h
  · rfl
  · rfl

/-! ## The start -/

variable {c : Config} {bus : Bus} {source : Provider.Source} {o : Outcome Unit}

theorem start_alarms (h : start c bus source = .ok o) :
    (o.service.isFunctional = true →
      o.effects.alarms = (({} : Provider.Registry).load source).2.1.alarms) ∧
    (o.service.isFunctional = false → ∃ e, (join c o.service.masterPath bus).1 = .error e ∧
      o.effects.alarms = [.brokerNotJoined c.bus (.bus e)]) := by
  have hopened : ∀ {masterPath result after opened},
      join c masterPath bus = (result, after, opened) → opened.alarms = [] := by
    intro masterPath result after opened hjoin
    obtain rfl | ⟨peer, rfl⟩ := join_effects hjoin <;> rfl
  obtain ⟨masterPath, base, -, -, s, rfl, hcases⟩ := start_cases h
  obtain ⟨e, opened, hjoin, hs, heffects⟩ | ⟨peer, opened, hjoin, hs, heffects⟩ := hcases
  · rw [hs, heffects]
    refine ⟨by rintro ⟨⟩, fun _ => ⟨e, by rw [hjoin], ?_⟩⟩
    rw [Log.Effects.alarms_append, hopened hjoin]
    rfl
  · rw [hs, heffects]
    refine ⟨fun _ => ?_, by rintro ⟨⟩⟩
    rw [Log.Effects.alarms_append, Log.Effects.alarms_append, hopened hjoin]
    exact Provider.Registry.load_alarms {} source

/-- A load raises the alarms of its report: that the source could not be listed, each descriptor
that was skipped, in the order of the listing, and that some records were kept.  Nothing else that
happens to a registry of providers raises any.  A start raises the alarms of its load, or the one
error that the broker could not join the bus, and an operation raises exactly those of its load, of
a session that it could not export, and of each object that it could not withdraw.  It goes to its
end exactly if the hooks of the sessions that it ends do, as do all operations of a broker that gets
no hook that ends a worker. -/
theorem alarms_exact :
    (∀ (r : Provider.Registry) (source : Provider.Source),
      let report := (r.load source).2.1
      (r.load source).2.2.alarms = report.alarms ∧
        report.sourceError = source.unlistable? ∧ report.skipped = source.unloadable ∧
        report.retained = (if source.loadable = [] then r.records.length else 0) ∧
        ∀ alarm ∈ report.alarms, alarm.level = .warn) ∧
    (∀ (r : Provider.Registry) (constraints : Provider.Constraints),
      r.release.2.2.alarms = [] ∧ (r.filterEffects constraints).alarms = []) ∧
    ∀ {c : Config} {bus : Bus} {source : Provider.Source} {o : Outcome Unit},
      start c bus source = .ok o →
      (o.service.isFunctional = true →
        o.effects.alarms = (({} : Provider.Registry).load source).2.1.alarms) ∧
      (o.service.isFunctional = false → ∃ e, (join c o.service.masterPath bus).1 = .error e ∧
        o.effects.alarms = [.brokerNotJoined c.bus (.bus e)] ∧
        (Event.brokerNotJoined c.bus (.bus e)).level = .error) ∧
      ∀ (occasions : List Occasion) (bus : Bus) (operation : Operation),
        let s := o.service.after occasions
        (s.perform bus operation).effects.alarms = s.alarmsFor bus operation ∧
          (∀ alarm ∈ s.alarmsFor bus operation, alarm.level = .warn) ∧
          (Harmless (s.perform bus operation).effects ↔
            ∀ x ∈ s.sessions.sessions.filter operation.ends, x.Gentle) ∧
          ((∀ occasion ∈ occasions, occasion.operation.Gentle) →
            o.service.Unbroken occasions) := by
  refine ⟨fun r source => ?_, fun r constraints => ?_, fun {c bus source o} hstart => ?_⟩
  · have hreport := (r.load_outcome source).2
    refine ⟨r.load_alarms source, ?_, ?_, ?_, fun alarm => Provider.Report.alarms_level⟩
    all_goals rw [hreport]
  · exact ⟨r.release_unalarming.alarms, (r.filterEffects_unalarming constraints).alarms⟩
  · obtain ⟨hjoined, hfailed⟩ := start_alarms hstart
    refine ⟨hjoined, fun hnot => ?_, fun occasions bus operation => ?_⟩
    · obtain ⟨e, hjoin, halarms⟩ := hfailed hnot
      exact ⟨e, hjoin, halarms, rfl⟩
    · have hnumbered := (after_replay (start_numbered hstart) occasions).1
      exact ⟨perform_alarms hnumbered (after_anchored hstart occasions) bus operation,
        fun alarm => alarmsFor_level, perform_harmless_iff hnumbered bus operation,
        start_unbroken hstart⟩

/-- A source with two descriptors that cannot be read. -/
def flawed : Provider.Source where
  location := "memory"
  listing := .ok { accepted := ["b", "a"] }
  read id := .error (.unknown id)

/-- A peer asks for a session while the descriptors cannot be read. -/
def askingInVain : Operation :=
  .create flawed { sender := some ":1.5", path := .root, interface := none, member := createMethod }

/-- The alarms that the request raises if the path of the session is taken. -/
def toldInVain : List String :=
  ["Loading from b failed: Unknown descriptor b", "Loading from a failed: Unknown descriptor a",
    "Cannot export session /org/freedesktop/Geoclue/Master/client0 for :1.5: "
      ++ "Bus error: Object already registered at /org/freedesktop/Geoclue/Master/client0"]

set_option maxRecDepth 8000 in
/-- On the bus of `occupied` a request fails that loads nothing before.  Later the broker's
connection is gone when its only client departs. -/
theorem alarms_exact_occupied :
    ∃ o, start .standard (Bus.run {} occupied) .none = .ok o ∧ o.effects.alarms = [] ∧
      (o.service.perform o.bus askingInVain).effects.alarms.map Event.message = toldInVain ∧
      ((o.service.after (askingTwice o.bus .none)).perform (o.bus.removePeer ":1.1").2
        (.depart ":1.5")).effects.alarms.map Event.message =
          ["Cannot unregister client /org/freedesktop/Geoclue/Master/client1: "
            ++ "Bus connection closed"] := by
  obtain ⟨o, hstart, hfunctional, hcreate, hdepart⟩ :=
    exists_start .standard (Bus.run {} occupied) .none (fun o =>
      o.service.isFunctional = true ∧
        (o.service.alarmsFor o.bus askingInVain).map Event.message = toldInVain ∧
        ((o.service.after (askingTwice o.bus .none)).alarmsFor (o.bus.removePeer ":1.1").2
          (.depart ":1.5")).map Event.message =
            ["Cannot unregister client /org/freedesktop/Geoclue/Master/client1: "
              ++ "Bus connection closed"]) (by decide +kernel)
  obtain ⟨hjoined, -, hperform⟩ := alarms_exact.2.2 hstart
  have hfirst := (hperform [] o.bus askingInVain).1
  have hlater := (hperform (askingTwice o.bus .none) (o.bus.removePeer ":1.1").2 (.depart ":1.5")).1
  rw [after, List.foldl_nil] at hfirst
  refine ⟨o, hstart, hjoined hfunctional, ?_, ?_⟩
  · rw [hfirst]
    exact hcreate
  · rw [hlater]
    exact hdepart

end Broker.Service

end LocationBroker
