import LocationBroker.Proofs.Broker.Alarms

/-! # Brokers without a connection

A broker that could not join the bus is there all the same, and does nothing: it has no sessions and
never gets any, it refuses whatever needs a session or the bus, and it leaves the bus alone.  All
that can happen to it is that it is asked to load its descriptors.

`Inert` is what such a broker stays, and `Inert.perform` says all that an operation can do to it.
-/

namespace LocationBroker.Broker.Service

open Log (Event)

/-- The broker has no connection, and never had a session. -/
structure Inert (s : Service) : Prop where
  offline : s.connection = none
  empty : s.sessions.sessions = []
  unused : s.sessions.nextSerial = 0
  unreleased : s.providers.releases = 0

variable {s : Service}

/-! ## What an inert broker answers -/

section Answers

variable (h : s.Inert) (bus : Bus)

include h

theorem Inert.create_eq (source : Provider.Source) (call : Bus.MethodCall) :
    s.create bus source call =
      { result := .error .notConnected, service := s, bus, effects := [] } :=
  create_of_offline h.offline bus source call

theorem Inert.announceOptions_eq (options : Ledger String String) :
    s.announceOptions bus options =
      { result := .error .notConnected, service := s, bus, effects := [] } := by
  rw [announceOptions, h.offline]

theorem Inert.onSession_eq {α : Type} (path : String) (act : Session → Outcome α) :
    s.onSession bus path act =
      { result := .error (.sessionNotFound path), service := s, bus, effects := [] } := by
  obtain hnone | ⟨x, hx, -⟩ := onSession_cases s bus path act
  · exact hnone
  · rw [h.empty] at hx
    cases hx

theorem Inert.depart_eq (name : String) :
    s.depart bus name = { result := 0, service := s, bus, effects := [] } := by
  have hnone : s.sessions.pathsOf name = [] := by
    simp [Session.Registry.pathsOf, h.empty]
  rw [depart, hnone]
  rfl

/-- All that an operation can do to an inert broker is to make it load. -/
theorem Inert.perform (operation : Operation) :
    (s.perform bus operation).bus = bus ∧ (s.perform bus operation).service =
      match operation with
      | .reload source => (s.reload source).1
      | _ => s := by
  cases operation with
  | create source call =>
    rw [Service.perform, h.create_eq]
    exact ⟨rfl, rfl⟩
  | handleCall source call =>
    simp only [Service.perform, handleCall]
    split
    · rw [h.create_eq]
      exact ⟨rfl, rfl⟩
    · exact ⟨rfl, rfl⟩
  | filter m =>
    simp only [Service.perform, filter]
    split
    · exact ⟨rfl, rfl⟩
    · rw [h.depart_eq]
      exact ⟨rfl, rfl⟩
  | depart name =>
    rw [Service.perform, h.depart_eq]
    exact ⟨rfl, rfl⟩
  | release path =>
    rw [Service.perform, release_eq, h.onSession_eq]
    exact ⟨rfl, rfl⟩
  | attachHook path hook =>
    rw [Service.perform, attachHook, h.onSession_eq]
    exact ⟨rfl, rfl⟩
  | setRequirements path c =>
    rw [Service.perform, setRequirements, h.onSession_eq]
    exact ⟨rfl, rfl⟩
  | providersFor path =>
    rw [Service.perform, providersFor, h.onSession_eq]
    exact ⟨rfl, rfl⟩
  | reload source => exact ⟨rfl, rfl⟩
  | announceOptions options =>
    rw [Service.perform, h.announceOptions_eq]
    exact ⟨rfl, rfl⟩

theorem Inert.perform_inert (operation : Operation) : (s.perform bus operation).service.Inert := by
  rw [(h.perform bus operation).2]
  cases operation with
  | reload source =>
    exact ⟨h.offline, h.empty, h.unused, (s.providers.load_releases source).trans h.unreleased⟩
  | _ => exact h

end Answers

/-! ## After any operations -/

theorem Inert.after (h : s.Inert) (occasions : List Occasion) : (s.after occasions).Inert := by
  induction occasions generalizing s with
  | nil => exact h
  | cons occasion rest ih => exact ih (h.perform_inert occasion.bus occasion.operation)

/-- There are no providers until the broker is asked to load some, and from then on there are. -/
theorem Inert.after_records (h : s.Inert) (occasions : List Occasion) :
    (s.after occasions).providers.records = [] ↔
      s.providers.records = [] ∧ ∀ occasion ∈ occasions, ∀ source,
        occasion.operation = .reload source → source.loadable = [] := by
  induction occasions generalizing s with
  | nil => simp [Service.after]
  | cons occasion rest ih =>
    have hrest := ih (h.perform_inert occasion.bus occasion.operation)
    have hservice := (h.perform occasion.bus occasion.operation).2
    rw [List.forall_mem_cons, ← and_assoc]
    refine hrest.trans (and_congr_left fun _ => ?_)
    rw [hservice]
    cases occasion.operation with
    | reload source =>
      -- The registry stays empty exactly if it was empty and nothing can be loaded.
      refine (s.providers.load_records_eq_nil_iff source).trans (and_congr_right fun _ => ?_)
      exact ⟨fun hnone other hother => by cases hother; exact hnone, fun hall => hall source rfl⟩
    | _ => simp

variable {c : Config} {bus : Bus} {source : Provider.Source} {o : Outcome Unit}

/-- A broker that starts without a connection is inert, and has no providers. -/
theorem start_inert (h : start c bus source = .ok o) (hnot : o.service.isFunctional = false) :
    o.service.Inert ∧ o.service.providers.records = [] := by
  obtain ⟨masterPath, base, -, -, s, rfl, ⟨e, opened, -, hs, -⟩ | ⟨peer, opened, -, hs, -⟩⟩ :=
    start_cases h
  · rw [hs]
    exact ⟨⟨rfl, rfl, rfl, rfl⟩, rfl⟩
  · rw [hs] at hnot
    cases hnot

/-! ## Branches that are never taken -/

/-- No object is withdrawn without a bus, and no session is refused for want of a connection once it
has been created. -/
theorem perform_told (h : s.sessions.Numbered) (hanchored : s.Anchored) (bus : Bus)
    (operation : Operation) (path : Bus.ObjectPath) (owner : String) :
    .event (.withdrawalWithoutBus path) ∉ (s.perform bus operation).effects ∧
      .event (.exportFailed path owner .notConnected) ∉ (s.perform bus operation).effects := by
  have htold : ∀ {alarm : Event}, .event alarm ∈ (s.perform bus operation).effects →
      alarm.level.isAlarm = true → alarm ∈ s.alarmsFor bus operation := by
    intro alarm hmem hlevel
    rw [← perform_alarms h hanchored bus operation]
    exact Log.Effects.mem_alarms.mpr ⟨hmem, hlevel⟩
  -- Both events would be alarms, and the alarms of an operation are of other kinds.
  constructor <;> intro hmem
  all_goals
    obtain ⟨source, hreport⟩ | ⟨_, _, e, hsame⟩ | ⟨_, e, hsame⟩ := alarmsFor_cases (htold hmem rfl)
    · obtain ⟨e, hsame⟩ | ⟨id, e, hsame⟩ | ⟨count, hsame⟩ := Provider.Report.alarms_cases hreport
      all_goals cases hsame
    · cases hsame
    · cases hsame

/-- Who asks for a session is told that there is no connection only by a broker that has none, and
then nothing has been done. -/
theorem create_notConnected {s : Service} {bus : Bus} {source : Provider.Source}
    {call : Bus.MethodCall} (h : (s.create bus source call).result = .error .notConnected) :
    s.connection = none ∧ (s.create bus source call).service = s ∧
      (s.create bus source call).bus = bus ∧ (s.create bus source call).effects = [] := by
  have hcreation := create_creation s bus source call
  generalize s.create bus source call = o at hcreation h ⊢
  cases hcreation with
  | offline hnone => exact ⟨hnone, rfl, rfl, rfl⟩
  | exported => cases h
  | refused => cases h

/-- A broker that could not join the bus never has a session, whatever it is asked.  It refuses
whatever needs a session or the bus, leaves the bus alone, and has providers exactly if it was asked
to load some.  So no broker, whether it could join the bus or not, has sessions without a
connection.  The connection that a request for a session finds is still there when the session is to
be exported, and no object is ever withdrawn without one. -/
theorem inert_without_connection (hstart : start c bus source = .ok o)
    (occasions : List Occasion) :
    let s := o.service.after occasions
    (o.service.isFunctional = false →
      s.connection = none ∧ s.sessions.sessions = [] ∧ s.sessions.nextSerial = 0 ∧
      s.providers.releases = 0 ∧
      (s.providers.records = [] ↔ ∀ occasion ∈ occasions, ∀ source,
        occasion.operation = .reload source → source.loadable = []) ∧
      ∀ bus : Bus,
        (∀ source call, (s.create bus source call).result = .error .notConnected) ∧
        (∀ options, (s.announceOptions bus options).result = .error .notConnected) ∧
        (∀ path, (s.release bus path).result = .error (.sessionNotFound path) ∧
          (∀ hook, (s.attachHook bus path hook).result = .error (.sessionNotFound path)) ∧
          (∀ c, (s.setRequirements bus path c).result = .error (.sessionNotFound path)) ∧
          (s.providersFor bus path).result = .error (.sessionNotFound path)) ∧
        (∀ name, (s.depart bus name).result = 0) ∧
        ∀ operation, (s.perform bus operation).bus = bus) ∧
    (s.connection = none → s.sessions.sessions = []) ∧
    (∀ source, (s.reloadIfEmpty source).1.connection = s.connection) ∧
    ∀ bus : Bus,
      (∀ operation path owner,
        .event (.withdrawalWithoutBus path) ∉ (s.perform bus operation).effects ∧
        .event (.exportFailed path owner .notConnected) ∉ (s.perform bus operation).effects) ∧
      ∀ source call, (s.create bus source call).result = .error .notConnected →
        s.connection = none ∧ (s.create bus source call).service = s ∧
          (s.create bus source call).bus = bus ∧ (s.create bus source call).effects = [] := by
  intro s
  have hnumbered : s.sessions.Numbered := (after_replay (start_numbered hstart) occasions).1
  have hanchored : s.Anchored := after_anchored hstart occasions
  refine ⟨fun hnot => ?_, hanchored, s.reloadIfEmpty_connection,
    fun bus => ⟨fun operation path owner => ?_, ?_⟩⟩
  · obtain ⟨hinert, hrecords⟩ := start_inert hstart hnot
    have h : s.Inert := hinert.after occasions
    refine ⟨h.offline, h.empty, h.unused, h.unreleased, ?_, fun bus => ⟨?_, ?_, ?_, ?_, ?_⟩⟩
    · exact (hinert.after_records occasions).trans (and_iff_right hrecords)
    · intro source call
      rw [h.create_eq]
    · intro options
      rw [h.announceOptions_eq]
    · intro path
      refine ⟨?_, fun hook => ?_, fun c => ?_, ?_⟩
      · rw [release_eq, h.onSession_eq]
      · rw [attachHook, h.onSession_eq]
      · rw [setRequirements, h.onSession_eq]
      · rw [providersFor, h.onSession_eq]
    · intro name
      rw [h.depart_eq]
    · exact fun operation => (h.perform bus operation).1
  · exact perform_told hnumbered hanchored bus operation path owner
  · exact fun source call => create_notConnected

/-- A client asks for a session and for its release, and then the descriptors are loaded. -/
def fruitless (bus : Bus) : List Occasion :=
  let call : Bus.MethodCall :=
    { sender := some ":1.1", path := .root, interface := none, member := createMethod }
  [⟨bus, .create described call⟩,
    ⟨bus, .release "/org/freedesktop/Geoclue/Master/client0"⟩, ⟨bus, .reload described⟩]

set_option maxRecDepth 8000 in
/-- After `fruitless`, a broker that found a bus without connections to give has providers, and
still no session. -/
theorem inert_without_connection_fruitless :
    ∃ o, start {} { available := false } described = .ok o ∧ o.service.isFunctional = false ∧
      let s := o.service.after (fruitless o.bus)
      s.sessions.sessions = [] ∧ s.sessions.nextSerial = 0 ∧ s.providers.records ≠ [] ∧
        (s.depart o.bus ":1.1").result = 0 ∧
        (s.announceOptions o.bus .empty).result = .error .notConnected := by
  obtain ⟨o, hstart, hnot, hloaded⟩ := exists_start {} { available := false } described
    (fun o => o.service.isFunctional = false ∧ described.loadable.length = 1) (by decide +kernel)
  obtain ⟨hinert, -⟩ := inert_without_connection hstart (fruitless o.bus)
  obtain ⟨-, hempty, hserial, -, hrecords, hanswers⟩ := hinert hnot
  obtain ⟨-, hannounce, -, hdepart, -⟩ := hanswers o.bus
  refine ⟨o, hstart, hnot, hempty, hserial, fun hnone => ?_, hdepart _, hannounce _⟩
  have hnothing := hrecords.mp hnone ⟨o.bus, .reload described⟩ (by simp [fruitless]) described rfl
  rw [hnothing] at hloaded
  cases hloaded

end LocationBroker.Broker.Service
