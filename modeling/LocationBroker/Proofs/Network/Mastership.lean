import LocationBroker.Proofs.Broker.Departure
import LocationBroker.Proofs.Network.Basic

/-! # One broker for each name

A broker that could join the bus owns the name that it is configured with, exports its own object
and is subscribed to changes of ownership.  Nothing that happens later takes any of this from it
before it is removed from the bus, so brokers that are on the bus at one time have different names
and different objects (`one_broker_per_name`).

* `Installed` — the broker has its name and its subscription if it is on the bus.  It has both from
  its start (`start_installed`), keeps them in its own operations (`Installed.perform`), and is left
  them by everybody else (`Installed.spared`).
-/

namespace LocationBroker

namespace Broker.Service

variable {s : Service} {bus after : Bus}

/-- The broker's own object is at the configured path, and the broker owns its name and is
subscribed to changes of ownership, if it is on the bus. -/
structure Installed (s : Service) (bus : Bus) : Prop where
  configured : s.masterPath.text = s.config.masterPath
  owns : ∀ {peer}, s.connection = some peer → bus.isConnected peer = true →
    bus.ownerOf s.config.serviceName = some peer
  subscribed : ∀ {peer}, s.connection = some peer → bus.isConnected peer = true →
    (peer, Presence.rule) ∈ bus.rules

theorem start_installed {c : Config} {source : Provider.Source} {o : Outcome Unit}
    (h : start c bus source = .ok o) : o.service.Installed o.bus := by
  obtain ⟨hconfig, -⟩ := start_sessions h
  refine ⟨?_, fun {peer} hpeer _ => ?_, fun {peer} hpeer _ => ?_⟩
  · rw [hconfig]
    exact (start_paths h).1
  -- What comes after the claim and the subscription leaves them as they are.
  all_goals
    obtain ⟨opened, hjoin⟩ := start_functional h hpeer
    obtain ⟨-, -, claimed, subscribed, hclaim, hsubscribe, hexport⟩ := join_ok hjoin
    obtain ⟨-, hafter⟩ := Bus.addMatch_eq_ok_iff.mp hsubscribe
    obtain ⟨-, -, hbus⟩ := Bus.registerObject_eq_ok_iff.mp hexport
    rw [hbus, hafter]
  · have hclaimed : claimed.ownerOf c.serviceName = some peer := by
      obtain ⟨-, ⟨howner, rfl⟩ | ⟨-, rfl⟩⟩ := Bus.requestName_eq_ok_iff.mp hclaim
      · exact howner
      · simp [Bus.ownerOf, Ledger.get?_insert]
    rw [hconfig]
    exact hclaimed
  · exact List.mem_append_right _ (List.mem_singleton.mpr rfl)

theorem Installed.perform (h : s.Installed bus) (hnumbered : s.sessions.Numbered)
    (operation : Operation) :
    (s.perform bus operation).service.Installed (s.perform bus operation).bus := by
  obtain ⟨hconnection, hpath, hconfig⟩ := (perform_moves hnumbered bus operation).fixed
  obtain ⟨hpeers, hnames, hrules, -⟩ := perform_peers hnumbered bus operation
  dsimp only at hconnection hpath hconfig
  refine ⟨?_, fun hpeer hconnected => ?_, fun hpeer hconnected => ?_⟩
  · rw [hpath, hconfig]
    exact h.configured
  · rw [hconnection] at hpeer
    rw [Bus.isConnected, hpeers] at hconnected
    rw [Bus.ownerOf, hnames, hconfig]
    exact h.owns hpeer hconnected
  · rw [hconnection] at hpeer
    rw [Bus.isConnected, hpeers] at hconnected
    rw [hrules]
    exact h.subscribed hpeer hconnected

theorem Installed.spared (h : s.Installed bus)
    (hspares : ∀ peer, s.connection = some peer → bus.Spares peer after) : s.Installed after where
  configured := h.configured
  owns {peer} hpeer hconnected :=
    have hspared := hspares peer hpeer
    (hspared.owned hconnected _).mpr (h.owns hpeer (hspared.connected hconnected))
  subscribed {peer} hpeer hconnected :=
    have hspared := hspares peer hpeer
    (hspared.subscribed hconnected _).mpr (h.subscribed hpeer (hspared.connected hconnected))

end Broker.Service

namespace Network

/-- In every history of a network all brokers stay installed. -/
theorem installed_run (history : List Action) {i : Nat} {s : Broker.Service}
    (hs : (run {} history).brokers[i]? = some s) : s.Installed (run {} history).bus := by
  refine Sound.empty.every_broker (P := Broker.Service.Installed)
    (fun hstart _ => Broker.Service.start_installed hstart)
    (fun operation hnumbered h => h.perform hnumbered operation)
    (fun h hspares => h.spared hspares) (fun i s hs => ?_) history i s hs
  simp at hs

/-- After any history, a functional broker that is still on the bus owns its configured name, is the
exporter of its configured object and is subscribed to changes of ownership.  So brokers that are on
the bus have different names and different objects. -/
theorem one_broker_per_name (history : List Action) {i : Nat} {s : Broker.Service} {peer : String}
    (hs : (run {} history).brokers[i]? = some s) (hpeer : s.connection = some peer)
    (hconnected : (run {} history).bus.isConnected peer = true) :
    (run {} history).bus.ownerOf s.config.serviceName = some peer ∧
      s.masterPath.text = s.config.masterPath ∧
      (run {} history).bus.exporterOf s.masterPath = some peer ∧
      (peer, Broker.Presence.rule) ∈ (run {} history).bus.rules ∧
      ∀ {j : Nat} {t : Broker.Service} {other : String},
        (run {} history).brokers[j]? = some t → t.connection = some other →
        (run {} history).bus.isConnected other = true → j ≠ i →
        t.config.serviceName ≠ s.config.serviceName ∧
          t.config.masterPath ≠ s.config.masterPath := by
  have hsound : (run {} history).Sound := Sound.empty.run history
  have hinstalled := installed_run history hs
  have hexported : (run {} history).bus.exporterOf s.masterPath = some peer :=
    ((hsound.agrees hs peer hpeer hconnected).2 _).mpr (.inl rfl)
  refine ⟨hinstalled.owns hpeer hconnected, hinstalled.configured, hexported,
    hinstalled.subscribed hpeer hconnected, ?_⟩
  intro j t other ht hother hconnected' hj
  have hinstalled' := installed_run history ht
  -- Whatever the brokers shared would have one owner, and connections tell brokers apart.
  have hdistinct : other ≠ peer := by
    rintro rfl
    exact hj (hsound.distinct ht hs hother hpeer)
  constructor
  · intro hname
    have howner := hinstalled'.owns hother hconnected'
    rw [hname, hinstalled.owns hpeer hconnected] at howner
    exact hdistinct (Option.some.inj howner).symm
  · intro hpath
    have hsame : t.masterPath = s.masterPath := by
      apply Keyed.text_inj
      exact hinstalled'.configured.trans (hpath.trans hinstalled.configured.symm)
    have hexported' := ((hsound.agrees ht other hother hconnected').2 _).mpr (.inl rfl)
    rw [hsame, hexported] at hexported'
    exact hdistinct (Option.some.inj hexported').symm

/-- Three brokers are started with one name, the second while the first is on the bus and the third
when the first is gone.  A broker with another name is started between them, and somebody tries to
take its name and its object. -/
def contested : List Action :=
  [.start {} .none, .start {} .none,
    .start { serviceName := "org.other", masterPath := "/other" } .none, .bus .addPeer,
    .bus (.requestName ":1.3" "org.other"), .bus (.registerObject ":1.3" ⟨"/other", by decide⟩),
    .ask 0 (.sessionFor ":1.3"), .bus (.removePeer ":1.0"), .start {} .none]

set_option maxRecDepth 8000 in
/-- After `contested` the third broker of the name has it, and the broker of the other name has that
one. -/
theorem one_broker_per_name_contested :
    (run {} contested).bus.isConnected ":1.4" = true ∧
      ∃ s, (run {} contested).brokers[3]? = some s ∧ s.connection = some ":1.4" ∧
        (run {} contested).bus.ownerOf s.config.serviceName = some ":1.4" ∧
        (run {} contested).bus.exporterOf s.masterPath = some ":1.4" ∧
        ∃ t, (run {} contested).brokers[2]? = some t ∧ t.connection = some ":1.2" ∧
          t.config.serviceName ≠ s.config.serviceName ∧
          t.config.masterPath ≠ s.config.masterPath := by
  have hconnected : (run {} contested).bus.isConnected ":1.4" = true := by decide
  have hfirst : (run {} contested).brokers[3]?.map (·.connection) = some (some ":1.4") := by decide
  have hsecond : (run {} contested).brokers[2]?.map (·.connection) = some (some ":1.2") := by decide
  obtain ⟨s, hs, hspeer⟩ := Option.map_eq_some_iff.mp hfirst
  obtain ⟨t, ht, htpeer⟩ := Option.map_eq_some_iff.mp hsecond
  obtain ⟨howner, -, hexporter, -, hothers⟩ := one_broker_per_name contested hs hspeer hconnected
  exact ⟨hconnected, s, hs, hspeer, howner, hexporter, t, ht, htpeer,
    hothers ht htpeer (by decide) (by decide)⟩

end Network

end LocationBroker
