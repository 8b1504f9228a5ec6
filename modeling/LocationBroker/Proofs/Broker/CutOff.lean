import LocationBroker.Proofs.Broker.Endings
import LocationBroker.Proofs.Bus.Custody

/-! # Brokers that were cut off

A broker whose connection was removed from the bus does not notice.  It keeps its sessions and its
providers, and still does for them what it can do alone; but it gets nothing from the bus any more,
and changes nothing there.

`Move.of_cutOff` says so of each move, whatever objects others export meanwhile, and
`CutOff.perform` of each operation.
-/

namespace LocationBroker

namespace Session.Registry

/-- The paths of the live sessions, each with its owner, oldest first. -/
def tenancies (r : Registry) : List (Bus.ObjectPath × String) :=
  r.sessions.map fun x => (x.path, x.owner)

theorem tenancies_modify {r : Registry} {path : Bus.ObjectPath} {change : Session → Session}
    (hpath : ∀ x, (change x).path = x.path) (howner : ∀ x, (change x).owner = x.owner) :
    (r.modify path change).tenancies = r.tenancies := by
  simp only [tenancies, modify, List.map_map]
  refine List.map_congr_left fun x _ => ?_
  by_cases h : x.path = path <;> simp [h, hpath, howner]

end Session.Registry

namespace Broker.Service

/-- The broker has a connection that the bus has handed out and that is gone. -/
structure CutOff (s : Service) (peer : String) (bus : Bus) : Prop where
  connection : s.connection = some peer
  handedOut : bus.HandedOut peer
  gone : bus.isConnected peer = false

variable {s : Service} {bus after : Bus} {peer : String}

/-- Whoever leaves a broker what it has does not bring its connection back. -/
theorem CutOff.spared (h : s.CutOff peer bus) (hspares : bus.Spares peer after) :
    s.CutOff peer after where
  connection := h.connection
  handedOut := h.handedOut.mono hspares.serials
  gone := by
    have hgone := h.gone
    contrapose! hgone
    simpa using hspares.connected (by simpa using hgone)

/-! ## What the bus answers -/

theorem CutOff.attempt (h : s.CutOff peer bus) (action : Bus.Action)
    (hactor : action.actor? = some peer) : bus.attempt action = .error .disconnected :=
  Bus.attempt_of_not_isConnected hactor h.gone

theorem CutOff.create_result (h : s.CutOff peer bus) (source : Provider.Source)
    (call : Bus.MethodCall) : (s.create bus source call).result = .error (.bus .disconnected) := by
  have hrefused : bus.registerObject peer (s.reloadIfEmpty source).1.sessions.nextPath =
      .error .disconnected :=
    h.attempt (.registerObject peer _) rfl
  rw [(create_creation s bus source call).unique (.refused h.connection hrefused)]

theorem CutOff.announceOptions_result (h : s.CutOff peer bus) (options : Ledger String String) :
    (s.announceOptions bus options).result = .error (.bus .disconnected) := by
  have hrefused : ∀ signal, bus.emitSignal peer signal = .error .disconnected := fun signal =>
    h.attempt (.emitSignal peer signal) rfl
  simp only [announceOptions, h.connection, hrefused]

/-! ## What is left to do -/

/-- No move of a broker that was cut off changes the bus, and none brings a session. -/
theorem Move.of_cutOff {owner? : Option String} {before after : Service × Bus}
    (h : Move owner? before after) (hnumbered : before.1.sessions.Numbered)
    (hcut : before.1.CutOff peer before.2) :
    after.2 = before.2 ∧ after.1.sessions.tenancies.Sublist before.1.sessions.tenancies := by
  -- What a move does to the bus is an action of the connection, and those all fail.
  have hbus : after.2 = before.2 := by
    obtain hsame | ⟨action, -, hactor, hstep⟩ := h.bus_eq
    · exact hsame
    · rw [hstep, Bus.step_of_error (hcut.attempt action (hactor.trans hcut.connection))]
  refine ⟨hbus, ?_⟩
  cases h with
  | load | emitted => exact .refl _
  | opened howner hpeer hexport =>
    rw [hcut.connection] at hpeer
    cases hpeer
    have hconnected := (Bus.registerObject_eq_ok_iff.mp hexport).1
    rw [hcut.gone] at hconnected
    cases hconnected
  | refused owner =>
    -- The session that cannot be exported is taken out again, and no other one.
    rw [Session.Registry.destroy_registry, hnumbered.remove_create]
    exact .refl _
  | closed =>
    rw [teardown_sessions]
    exact List.filter_sublist.map _
  | changed path hpath howner =>
    rw [Session.Registry.tenancies_modify hpath howner]

/-- An operation of a broker that was cut off leaves the bus as it is and brings no session. -/
theorem CutOff.perform (h : s.CutOff peer bus) (hnumbered : s.sessions.Numbered)
    (operation : Operation) :
    (s.perform bus operation).bus = bus ∧ (s.perform bus operation).service.CutOff peer bus ∧
      (s.perform bus operation).service.sessions.tenancies.Sublist s.sessions.tenancies := by
  have hmoves := perform_moves hnumbered bus operation
  have hkept := hmoves.invariant (P := fun b => b.1.sessions.Numbered ∧ b.2 = bus ∧
      b.1.sessions.tenancies.Sublist s.sessions.tenancies ∧ b.1.CutOff peer bus)
    (fun {before after} ⟨hbefore, hbus, hfewer, hcut⟩ hmove => ?_)
    ⟨hnumbered, rfl, .refl _, h⟩
  · exact ⟨hkept.2.1, hkept.2.2.2, hkept.2.2.1⟩
  · obtain ⟨hsame, hsublist⟩ := hmove.of_cutOff hbefore (hbus ▸ hcut)
    refine ⟨hmove.numbered hbefore, hsame.trans hbus, hsublist.trans hfewer, ?_⟩
    exact ⟨hmove.fixed.1.trans hcut.connection, hcut.handedOut, hcut.gone⟩

end Broker.Service

end LocationBroker
