import LocationBroker.Proofs.Broker.Operation

/-! # What a broker exports

While a broker is on the bus, it exports its own object and the objects of its live sessions, and
nothing else; no live session has the path of the broker's own object.  `Agrees` says this of a
broker and a bus.  The moves of the broker keep it (`Agrees.move`), and so does everything that
leaves the broker what it has (`Agrees.spared`).
-/

namespace LocationBroker.Broker.Service

open Session.Registry (paths_create paths_remove paths_modify destroy_registry)

variable {s : Service} {bus after : Bus}

/-- The broker exports its own object and those of its live sessions, if it is on the bus. -/
def Agrees (s : Service) (bus : Bus) : Prop :=
  ∀ peer, s.connection = some peer → bus.isConnected peer = true →
    s.masterPath ∉ s.sessions.paths ∧
      ∀ path, bus.exporterOf path = some peer ↔ path = s.masterPath ∨ path ∈ s.sessions.paths

theorem Agrees.exporterOf {peer : String} {x : Session} (h : s.Agrees bus)
    (hpeer : s.connection = some peer) (hconnected : bus.isConnected peer = true)
    (hx : x ∈ s.sessions.sessions) : bus.exporterOf x.path = some peer :=
  ((h peer hpeer hconnected).2 x.path).mpr (.inr (Session.Registry.mem_paths.mpr ⟨x, hx, rfl⟩))

theorem Agrees.spared (h : s.Agrees bus)
    (hspares : ∀ peer, s.connection = some peer → bus.Spares peer after) : s.Agrees after := by
  intro peer hpeer hconnected
  have hspared := hspares peer hpeer
  obtain ⟨hmaster, hexports⟩ := h peer hpeer (hspared.connected hconnected)
  exact ⟨hmaster, fun path => (hspared.exported hconnected path).trans (hexports path)⟩

/-- A session that is opened is the only new export. -/
theorem Agrees.opened {broker owner : String} (h : s.Agrees bus)
    (hbroker : s.connection = some broker)
    (hexport : bus.registerObject broker s.sessions.nextPath = .ok after) :
    ({ s with sessions := (s.sessions.create owner).2.1 } : Service).Agrees after := by
  obtain ⟨hconnected, hfree, rfl⟩ := Bus.registerObject_eq_ok_iff.mp hexport
  intro peer hpeer _
  obtain rfl : broker = peer := Option.some.inj (hbroker.symm.trans hpeer)
  obtain ⟨hmaster, hexports⟩ := h broker hbroker hconnected
  -- The broker's own path is taken, and the new path was not.
  have hother : s.masterPath ≠ s.sessions.nextPath := by
    intro heq
    have htaken := (hexports s.masterPath).mpr (.inl rfl)
    rw [heq, hfree] at htaken
    cases htaken
  refine ⟨?_, fun path => ?_⟩
  · rw [paths_create]
    simp [hmaster, hother]
  · have hpath := hexports path
    simp only [Bus.exporterOf] at hpath
    simp only [Bus.exporterOf, Ledger.get?_insert, paths_create, List.mem_append,
      List.mem_singleton]
    by_cases hnew : s.sessions.nextPath = path
    · simp [hnew]
    · simp [hnew, Ne.symm hnew, hpath]

/-- A session that is closed is the only export that goes. -/
theorem Agrees.closed {x : Session} (h : s.Agrees bus) (hx : x ∈ s.sessions.sessions) :
    (s.teardown bus x.path).service.Agrees (s.teardown bus x.path).bus := by
  intro peer hpeer hconnected
  replace hpeer : s.connection = some peer := hpeer
  have hbus : (s.teardown bus x.path).bus = bus.step (.unregisterObject peer x.path) := by
    rw [teardown_bus, hpeer]
  rw [teardown_sessions, paths_remove]
  change s.masterPath ∉ _ ∧ ∀ path, _ ↔ path = s.masterPath ∨ _
  rw [hbus] at hconnected ⊢
  have hpresent : bus.isConnected peer = true := by
    obtain hsame | ⟨_, hstep, hchange⟩ := bus.step_cases (.unregisterObject peer x.path)
    · rwa [hsame] at hconnected
    · cases hchange with
      | unregisterObject hpresent _ => exact hpresent
  obtain ⟨hmaster, hexports⟩ := h peer hpeer hpresent
  have hlive : x.path ∈ s.sessions.paths := Session.Registry.mem_paths.mpr ⟨x, hx, rfl⟩
  have hother : s.masterPath ≠ x.path := fun heq => hmaster (heq ▸ hlive)
  have hok : bus.attempt (.unregisterObject peer x.path)
      = .ok { bus with objects := bus.objects.erase x.path } :=
    Bus.unregisterObject_eq_ok_iff.mpr ⟨hpresent, h.exporterOf hpeer hpresent hx, rfl⟩
  rw [Bus.step_of_ok hok]
  refine ⟨fun hmem => hmaster (List.mem_filter.mp hmem).1, fun path => ?_⟩
  have hpath := hexports path
  simp only [Bus.exporterOf] at hpath
  simp only [Bus.exporterOf, Ledger.get?_erase, List.mem_filter]
  by_cases hgone : path = x.path
  · simp [hgone, Ne.symm hother]
  · simp [hgone, hpath]

theorem Agrees.move {owner? : Option String} {before next : Service × Bus}
    (h : before.1.Agrees before.2) (hnumbered : before.1.sessions.Numbered)
    (hmove : Move owner? before next) : next.1.Agrees next.2 := by
  cases hmove with
  | load => exact h
  | opened howner hpeer hexport => exact h.opened hpeer hexport
  | refused owner hpeer hexport =>
    intro peer hpeer hconnected
    rw [destroy_registry, hnumbered.remove_create]
    exact h peer hpeer hconnected
  | closed hx => exact h.closed hx
  | changed path hpath howner =>
    intro peer hpeer hconnected
    rw [paths_modify hpath]
    exact h peer hpeer hconnected
  | emitted hpeer hemit =>
    obtain ⟨-, rfl⟩ := Bus.emitSignal_eq_ok_iff.mp hemit
    exact h

/-- Every operation of a broker keeps what it exports in step with its sessions. -/
theorem Agrees.perform (h : s.Agrees bus) (hnumbered : s.sessions.Numbered)
    (operation : Operation) :
    (s.perform bus operation).service.Agrees (s.perform bus operation).bus := by
  have hboth := Moves.invariant
    (P := fun state => state.1.sessions.Numbered ∧ state.1.Agrees state.2)
    (fun hbefore hmove => ⟨hmove.numbered hbefore.1, hbefore.2.move hbefore.1 hmove⟩)
    (perform_moves hnumbered bus operation) ⟨hnumbered, h⟩
  exact hboth.2

end LocationBroker.Broker.Service
