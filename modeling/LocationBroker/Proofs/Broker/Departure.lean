import LocationBroker.Proofs.Broker.Operation
import LocationBroker.Proofs.Session.Leaving

/-! # Departures

A broker that is shown the loss of a name destroys the sessions whose owner is that name, and no
others (`filter_toMessage_sessions`).  Whatever else it does, it neither brings peers to the bus nor
takes them away (`perform_peers`), and a session that it opens belongs to whoever asked for it
(`perform_owners`).

What is told when sessions are destroyed are events and the hooks of these sessions: what is true of
both is true of all that a departure tells (`filter_tells`).
-/

namespace LocationBroker.Broker.Service

variable {s : Service} {bus : Bus}

/-! ## What no operation touches -/

theorem Move.peers {owner? : Option String} {before after : Service × Bus}
    (h : Move owner? before after) :
    after.2.peers = before.2.peers ∧ after.2.names = before.2.names ∧
      after.2.rules = before.2.rules ∧ after.2.nextSerial = before.2.nextSerial := by
  cases h with
  | load | refused | changed => exact ⟨rfl, rfl, rfl, rfl⟩
  | opened howner hpeer hexport =>
    obtain ⟨-, -, rfl⟩ := Bus.registerObject_eq_ok_iff.mp hexport
    exact ⟨rfl, rfl, rfl, rfl⟩
  | @closed s bus x hx =>
    dsimp only
    rw [teardown_bus]
    cases s.connection with
    | none => exact ⟨rfl, rfl, rfl, rfl⟩
    | some peer =>
      dsimp only
      rw [Bus.step, Bus.attempt]
      split
      · rename_i after hwithdraw
        obtain ⟨-, -, rfl⟩ := Bus.unregisterObject_eq_ok_iff.mp hwithdraw
        exact ⟨rfl, rfl, rfl, rfl⟩
      · exact ⟨rfl, rfl, rfl, rfl⟩
  | emitted hpeer hemit =>
    obtain ⟨-, rfl⟩ := Bus.emitSignal_eq_ok_iff.mp hemit
    exact ⟨rfl, rfl, rfl, rfl⟩

theorem perform_peers (h : s.sessions.Numbered) (bus : Bus) (operation : Operation) :
    (s.perform bus operation).bus.peers = bus.peers ∧
      (s.perform bus operation).bus.names = bus.names ∧
      (s.perform bus operation).bus.rules = bus.rules ∧
      (s.perform bus operation).bus.nextSerial = bus.nextSerial := by
  refine Moves.invariant (P := fun b => b.2.peers = bus.peers ∧ b.2.names = bus.names ∧
    b.2.rules = bus.rules ∧ b.2.nextSerial = bus.nextSerial) (fun hbefore hmove => ?_)
    (perform_moves h bus operation) ⟨rfl, rfl, rfl, rfl⟩
  obtain ⟨hpeers, hnames, hrules, hserial⟩ := hmove.peers
  obtain ⟨hpeers', hnames', hrules', hserial'⟩ := hbefore
  exact ⟨hpeers.trans hpeers', hnames.trans hnames', hrules.trans hrules',
    hserial.trans hserial'⟩

/-! ## Owners -/

theorem Move.owners {owner? : Option String} {before after : Service × Bus}
    (h : Move owner? before after) {x : Session} (hx : x ∈ after.1.sessions.sessions) :
    (∃ y ∈ before.1.sessions.sessions, y.owner = x.owner) ∨ owner? = some x.owner := by
  cases h with
  | load | emitted => exact .inl ⟨x, hx, rfl⟩
  | @opened s _ _ _ owner howner =>
    rw [Session.Registry.create_sessions] at hx
    cases List.mem_append.mp hx with
    | inl hx => exact .inl ⟨x, hx, rfl⟩
    | inr hx =>
      rw [List.mem_singleton.mp hx]
      exact .inr howner
  | @refused s _ _ _ owner =>
    rw [Session.Registry.destroy_registry] at hx
    obtain ⟨hx, hpath⟩ := List.mem_filter.mp hx
    rw [Session.Registry.create_sessions] at hx
    cases List.mem_append.mp hx with
    | inl hx => exact .inl ⟨x, hx, rfl⟩
    | inr hx =>
      -- The new session is the one that is taken out again.
      rw [List.mem_singleton.mp hx] at hpath
      simp at hpath
  | closed =>
    rw [teardown_sessions] at hx
    exact .inl ⟨x, (List.mem_filter.mp hx).1, rfl⟩
  | changed path hpath howner =>
    obtain ⟨y, hy, rfl⟩ := List.mem_map.mp hx
    refine .inl ⟨y, hy, ?_⟩
    split
    · rw [howner]
    · rfl

/-- After an operation every session has the owner of one before it, unless it was opened for
whoever asked for it. -/
theorem perform_owners (h : s.sessions.Numbered) (bus : Bus) (operation : Operation) {x : Session}
    (hx : x ∈ (s.perform bus operation).service.sessions.sessions) :
    (∃ y ∈ s.sessions.sessions, y.owner = x.owner) ∨ operation.owner? = some x.owner := by
  refine Moves.invariant (P := fun b => ∀ x ∈ b.1.sessions.sessions,
    (∃ y ∈ s.sessions.sessions, y.owner = x.owner) ∨ operation.owner? = some x.owner)
    (fun hbefore hmove x hx => ?_) (perform_moves h bus operation)
    (fun x hx => .inl ⟨x, hx, rfl⟩) x hx
  obtain ⟨y, hy, howner⟩ | hnew := hmove.owners hx
  · rw [← howner]
    exact hbefore y hy
  · exact .inr hnew

/-! ## Losing a name -/

/-- Destroying the sessions of several paths takes them out and may let the providers go; nothing
else of the broker changes. -/
theorem teardownAll_service (s : Service) (bus : Bus) (paths : List Bus.ObjectPath) :
    (s.teardownAll bus paths).service = { s with
      sessions := { s.sessions with sessions := s.sessions.sessions.filter (·.path ∉ paths) }
      providers := (s.teardownAll bus paths).service.providers } := by
  induction paths generalizing s bus with
  | nil => simp [teardownAll]
  | cons path rest ih =>
    -- What outlives the first and the others is what is at none of the paths.
    have hleft : (s.sessions.remove path).sessions.filter (·.path ∉ rest) =
        s.sessions.sessions.filter (·.path ∉ path :: rest) := by
      rw [Session.Registry.remove, List.filter_filter]
      refine List.filter_congr fun x _ => ?_
      simp [Bool.and_comm]
    rw [teardownAll]
    dsimp only
    rw [ih, teardown_sessions, hleft]
    rfl

theorem teardownAll_sessions (s : Service) (bus : Bus) (paths : List Bus.ObjectPath) :
    (s.teardownAll bus paths).service.sessions.sessions =
      s.sessions.sessions.filter (·.path ∉ paths) := by
  rw [teardownAll_service]

/-- The sessions that outlive the departure of a name are those of other owners, and those whose
owner is not known. -/
theorem depart_sessions (h : s.sessions.Numbered) (bus : Bus) (name : String) :
    (s.depart bus name).service.sessions.sessions =
      s.sessions.sessions.filter fun x => x.owner = "" ∨ x.owner ≠ name := by
  have hall : (s.depart bus name).service.sessions.sessions = _ :=
    s.teardownAll_sessions bus (s.sessions.pathsOf name)
  rw [hall, Session.Registry.pathsOf_eq, h.filter_not_mem]
  refine List.filter_congr fun x _ => ?_
  rw [Session.belongsTo, ← decide_not, decide_eq_decide]
  by_cases howner : x.owner = name <;> simp [howner]

theorem filter_toMessage_sessions (h : s.sessions.Numbered) (bus : Bus) {c : Bus.OwnershipChange}
    (hdeparture : c.isDeparture = true) :
    (s.filter bus c.toMessage).service.sessions.sessions =
      s.sessions.sessions.filter fun x => x.owner = "" ∨ x.owner ≠ c.name := by
  have hdeparted : Presence.departed? c.toMessage = some c.name := by
    have hread : Bus.OwnershipChange.ofMessage? c.toMessage = some c := rfl
    rw [Presence.departed?, Presence.departure?, hread]
    simp [hdeparture]
  rw [filter, hdeparted]
  exact depart_sessions h bus c.name

/-! ## What is told -/

section Telling

open Log (Effect)

/-- The hooks of the live sessions are run with effects that have a property. -/
def HooksTell (P : Effect → Prop) (r : Session.Registry) : Prop :=
  ∀ x ∈ r.sessions, ∀ hook, x.hook = some hook → P (.hookRun hook { x with hook := none })

variable {P : Effect → Prop} (hevent : ∀ e, P (.event e))

include hevent

theorem destroy_tells {r : Session.Registry} (h : HooksTell P r) (path : Bus.ObjectPath)
    (providers : Provider.Registry) : ∀ e ∈ (r.destroy path providers).2.2.2, P e := by
  cases hget : r.get? path with
  | none =>
    rw [Session.Registry.destroy_of_not_mem (Session.Registry.get?_eq_none_iff.mp hget)]
    exact List.forall_mem_nil _
  | some x =>
    obtain ⟨hx, -⟩ := Session.Registry.mem_of_get? hget
    have hhook : ∀ e ∈ Session.Registry.runHook x, P e := by
      rw [Session.Registry.runHook]
      split
      · rename_i hook hsome
        exact List.forall_mem_singleton.mpr (h x hx hook hsome)
      · exact List.forall_mem_nil _
    rw [Session.Registry.destroy_of_get? hget]
    refine List.forall_mem_append.mpr ⟨hhook, fun e he => ?_⟩
    obtain ⟨event, rfl⟩ := Session.Registry.event_of_mem_settle he
    exact hevent event

theorem teardown_tells (h : HooksTell P s.sessions) (bus : Bus) (path : Bus.ObjectPath) :
    ∀ e ∈ (s.teardown bus path).effects, P e := by
  have hwithdraw : ∀ e ∈ (s.withdraw bus path).2, P e := by
    rw [withdraw]
    split
    · exact List.forall_mem_singleton.mpr (hevent _)
    · split
      · exact List.forall_mem_nil _
      · exact List.forall_mem_singleton.mpr (hevent _)
  exact List.forall_mem_append.mpr ⟨hwithdraw, destroy_tells hevent h path s.providers⟩

theorem teardownAll_tells (h : HooksTell P s.sessions) (bus : Bus) (paths : List Bus.ObjectPath) :
    ∀ e ∈ (s.teardownAll bus paths).effects, P e := by
  induction paths generalizing s bus with
  | nil => exact List.forall_mem_nil _
  | cons path rest ih =>
    have hothers : HooksTell P (s.teardown bus path).service.sessions := by
      rw [teardown_sessions]
      exact fun x hx => h x (List.mem_filter.mp hx).1
    exact List.forall_mem_append.mpr ⟨teardown_tells hevent h bus path, ih hothers _⟩

theorem depart_tells (h : HooksTell P s.sessions) (bus : Bus) (name : String) :
    ∀ e ∈ (s.depart bus name).effects, P e := by
  refine List.forall_mem_append.mpr ⟨teardownAll_tells hevent h bus _, ?_⟩
  split
  · exact List.forall_mem_nil _
  · exact List.forall_mem_singleton.mpr (hevent _)

theorem filter_tells (h : HooksTell P s.sessions) (bus : Bus) (m : Bus.Message) :
    ∀ e ∈ (s.filter bus m).effects, P e := by
  have hpresence : ∀ e ∈ Presence.effects m, P e := by
    rw [Presence.effects]
    split
    · exact List.forall_mem_singleton.mpr (hevent _)
    · exact List.forall_mem_nil _
  rw [filter]
  split
  · exact List.forall_mem_nil _
  · exact List.forall_mem_append.mpr ⟨hpresence, depart_tells hevent h bus _⟩

end Telling

end LocationBroker.Broker.Service
