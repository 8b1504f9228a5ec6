import LocationBroker.Proofs.Network.Basic

/-! # Exports and sessions agree

The bus and the brokers keep books of their own: the bus of the objects that somebody exports, and
each broker of its live sessions.  In every history of a network the two agree for every broker that
is on the bus, whatever paths others take, however exports fail and whoever leaves
(`exports_agree`).  Since the bus has one exporter for each path, no path is used by two sessions.
-/

namespace LocationBroker.Network

open Session.Registry (mem_paths)

/-- After any history, a functional broker that is still on the bus exports exactly its own object
and those of its live sessions, and its own object is no session's.  So live sessions of such
brokers, of one or of several, have different paths. -/
theorem exports_agree (history : List Action) {i : Nat} {s : Broker.Service} {peer : String}
    (hs : (run {} history).brokers[i]? = some s) (hpeer : s.connection = some peer)
    (hconnected : (run {} history).bus.isConnected peer = true) :
    (∀ path, path ∈ (run {} history).bus.exportsOf peer ↔
        path = s.masterPath ∨ ∃ x ∈ s.sessions.sessions, x.path = path) ∧
      (∀ x ∈ s.sessions.sessions, x.path ≠ s.masterPath) ∧
      (s.sessions.sessions.map (·.path)).Nodup ∧
      ∀ {j : Nat} {t : Broker.Service} {other : String},
        (run {} history).brokers[j]? = some t → t.connection = some other →
        (run {} history).bus.isConnected other = true → j ≠ i →
        ∀ x ∈ s.sessions.sessions, ∀ y ∈ t.sessions.sessions, x.path ≠ y.path := by
  have hsound : (run {} history).Sound := Sound.empty.run history
  generalize run {} history = w at hs hconnected hsound
  obtain ⟨hmaster, hexports⟩ := hsound.agrees hs peer hpeer hconnected
  refine ⟨fun path => ?_, fun x hx heq => ?_, (hsound.numbered hs).nodup, ?_⟩
  · rw [Bus.mem_exportsOf, hexports path, mem_paths]
  · exact hmaster (mem_paths.mpr ⟨x, hx, heq⟩)
  · intro j t other ht hother hconnected' hj x hx y hy heq
    obtain ⟨-, hexports'⟩ := hsound.agrees ht other hother hconnected'
    have hleft := (hexports x.path).mpr (.inr (mem_paths.mpr ⟨x, hx, rfl⟩))
    have hright := (hexports' x.path).mpr (.inr (mem_paths.mpr ⟨y, hy, heq.symm⟩))
    have hsame : peer = other := Option.some.inj (hleft.symm.trans hright)
    exact hj (hsound.distinct ht hs hother (hsame ▸ hpeer))

/-- Two brokers whose sessions begin alike, and a client of both.  The first session of the second
broker cannot be exported, since its path is taken. -/
def crowded : List Action :=
  [.start {} .none, .start { serviceName := "org.second", masterPath := "/second" } .none,
    .bus .addPeer, .ask 0 (.sessionFor ":1.2"), .ask 1 (.sessionFor ":1.2"),
    .ask 1 (.sessionFor ":1.2")]

set_option maxRecDepth 8000 in
/-- The second broker of `crowded` exports its own object and that of its second session. -/
theorem exports_agree_crowded :
    (run {} crowded).bus.isConnected ":1.1" = true ∧
      ∃ s, (run {} crowded).brokers[1]? = some s ∧ s.connection = some ":1.1" ∧
        s.sessions.sessions.map (·.path.text) = ["/org/freedesktop/Geoclue/Master/client1"] ∧
        (∀ path, path ∈ (run {} crowded).bus.exportsOf ":1.1" ↔
          path = s.masterPath ∨ ∃ x ∈ s.sessions.sessions, x.path = path) ∧
        ∃ t, (run {} crowded).brokers[0]? = some t ∧ t.sessions.sessions ≠ [] ∧
          ∀ x ∈ s.sessions.sessions, ∀ y ∈ t.sessions.sessions, x.path ≠ y.path := by
  have hconnected : (run {} crowded).bus.isConnected ":1.1" = true := by decide
  have hfirst : ((run {} crowded).brokers[0]?.map fun t =>
      (t.connection, t.sessions.sessions.map (·.path.text)))
      = some (some ":1.0", ["/org/freedesktop/Geoclue/Master/client0"]) := by decide
  have hsecond : ((run {} crowded).brokers[1]?.map fun s =>
      (s.connection, s.sessions.sessions.map (·.path.text)))
      = some (some ":1.1", ["/org/freedesktop/Geoclue/Master/client1"]) := by decide
  obtain ⟨t, ht, htfacts⟩ := Option.map_eq_some_iff.mp hfirst
  obtain ⟨s, hs, hsfacts⟩ := Option.map_eq_some_iff.mp hsecond
  obtain ⟨htpeer, htpaths⟩ := Prod.mk.inj htfacts
  obtain ⟨hspeer, hspaths⟩ := Prod.mk.inj hsfacts
  obtain ⟨hexports, -, -, hothers⟩ := exports_agree crowded hs hspeer hconnected
  refine ⟨hconnected, s, hs, hspeer, hspaths, hexports, t, ht, ?_,
    hothers ht htpeer (by decide) (by decide)⟩
  rintro hnone
  rw [hnone] at htpaths
  cases htpaths

end LocationBroker.Network
