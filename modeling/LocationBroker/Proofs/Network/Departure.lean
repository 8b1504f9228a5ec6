import LocationBroker.Proofs.Broker.Clearance
import LocationBroker.Proofs.Network.Hooks

/-! # The departure of a client

What a departure does on a network, down to the last detail.  A broker that is on the bus exports
the objects of its live sessions (`Sound.agrees`), so those of a client that is gone are there to be
withdrawn, and nothing else is withdrawn with them.
-/

namespace LocationBroker.Network

open Broker (Harmless Operation Service)
open Broker.Service (Clears)

/-- A broker that is on the bus exports the objects of its sessions, so it can withdraw any of
them. -/
theorem Sound.withdrawn {w : Network} (h : w.Sound) {i : Nat} {s : Service} {peer : String}
    (hs : w.brokers[i]? = some s) (hpeer : s.connection = some peer)
    (hconnected : w.bus.isConnected peer = true) (p : Session → Bool) :
    let gone := s.sessions.sessions.filter p
    (∀ x ∈ gone, w.bus.exporterOf x.path = some peer) ∧
      w.bus.withdrawn s.connection (gone.map (·.path)) = { w.bus with
        objects := w.bus.objects.filter fun path _ => path ∉ gone.map (·.path) } := by
  intro gone
  have hexported : ∀ x ∈ gone, w.bus.exporterOf x.path = some peer := fun x hx =>
    (h.agrees hs).exporterOf hpeer hconnected (List.mem_filter.mp hx).1
  refine ⟨hexported, ?_⟩
  rw [hpeer]
  refine Bus.withdrawn_of_exported hconnected fun path hpath => ?_
  obtain ⟨x, hx, rfl⟩ := List.mem_map.mp hpath
  exact hexported x hx

/-- On any network, a broker that is told of the departure of a client destroys the sessions of the
client and nothing else.  To look for the oldest session of the client and to destroy it, again and
again, comes to an end and to the same; and so does it to release the sessions one by one.  A
nameless client, or one without sessions, changes nothing.  The other sessions, those of nobody
among them, stay as they are and in their order, the hooks of those destroyed run in the order of
their creation, and the providers go if no session is left.  A broker that is on the bus withdraws
the objects of the sessions that it destroys and no other object; one that is not leaves the bus
alone.

The departure goes to its end exactly if the hooks of the sessions of the client do; one that ends
its worker breaks it off.  All that was asked before went to its end if nobody asked for such a
hook. -/
theorem departure_exact (history : List Action) {i : Nat} {s : Service}
    (hs : (run {} history).brokers[i]? = some s) (name : String) :
    let bus := (run {} history).bus
    let gone := s.sessions.sessions.filter (·.belongsTo name)
    let left := s.sessions.sessions.filter (!·.belongsTo name)
    let o := s.depart bus name
    (∃ cleared, (∀ other, Clears name s bus other ↔ other = cleared) ∧
        o = { cleared with effects := cleared.effects ++ Operation.farewellTo name gone }) ∧
      ((name = "" ∨ ∀ x ∈ s.sessions.sessions, x.owner ≠ name) →
        o = { result := 0, service := s, bus, effects := [] }) ∧
      o.result = gone.length ∧
      o.service = { s with
        sessions := { s.sessions with sessions := left }
        providers := if gone ≠ [] ∧ left = [] then s.providers.release.1 else s.providers } ∧
      o.effects.hookRuns = gone.flatMap (·.hookRuns) ∧
      (Harmless o.effects ↔ ∀ x ∈ gone, x.Gentle) ∧
      ((∀ action ∈ history, action.Gentle) → Unbroken {} history) ∧
      (∀ peer, s.connection = some peer → bus.isConnected peer = true →
        (∀ x ∈ gone, bus.exporterOf x.path = some peer) ∧
          o.bus = { bus with
            objects := bus.objects.filter fun path _ => path ∉ gone.map (·.path) }) ∧
      ((∀ peer, s.connection = some peer → bus.isConnected peer = false) → o.bus = bus) ∧
      let released := s.performAll bus (gone.map fun x => .release x.path.text)
      released.service = o.service ∧ released.bus = o.bus ∧
        released.effects.hookRuns = o.effects.hookRuns := by
  intro bus gone left o
  have hsound : (run {} history).Sound := Sound.empty.run history
  have hnumbered : s.sessions.Numbered := hsound.numbered hs
  have hending : (Operation.depart name).isEnding = true := rfl
  obtain ⟨hservice, hbus⟩ : o.service = s.ended (·.belongsTo name) ∧
      o.bus = bus.withdrawn s.connection (gone.map (·.path)) :=
    Service.perform_ended hnumbered bus hending
  have hruns : o.effects.hookRuns = gone.flatMap (·.hookRuns) :=
    (Service.perform_ending_leaves hnumbered bus hending).2.1
  refine ⟨Service.clears_iff hnumbered bus name, fun hnobody => ?_, s.depart_result bus name, ?_,
    hruns, Broker.harmless_iff (.of_eq hruns), unbroken_of_gentle,
    fun peer hpeer hconnected => ?_, fun hgone => ?_, ?_⟩
  · have hdepart := s.depart_eq bus name
    rw [Session.Registry.filter_belongsTo_eq_nil hnobody] at hdepart
    exact hdepart
  · exact hservice.trans (s.ended_eq _)
  · rw [hbus]
    exact hsound.withdrawn hs hpeer hconnected _
  · rw [hbus]
    exact Bus.withdrawn_of_absent hgone _
  · have hleaving := hnumbered.leaving (·.belongsTo name)
    obtain ⟨hservice', hbus', hruns'⟩ := Service.performAll_releases hleaving bus
    refine ⟨?_, ?_, ?_⟩
    · rw [hservice, hservice', Service.teardownAll_ended hnumbered]
    · rw [hbus, hbus', Service.teardownAll_bus]
    · rw [hruns, hruns', Service.teardownAll_hookRuns hleaving]

/-- A broker with providers, and two clients of which the first has the oldest and the youngest of
four sessions, with a hook on each; one session is nobody's.  Another peer exports an object. -/
def mingled : List Action :=
  let unknown : Bus.MethodCall :=
    { sender := none, path := .root, interface := none, member := "Create" }
  [.start {} Service.described, .bus .addPeer, .bus .addPeer, .ask 0 (.sessionFor ":1.1"),
    .ask 0 (.sessionFor ":1.2"), .ask 0 (.create .none unknown), .ask 0 (.sessionFor ":1.1"),
    .ask 0 (.attachHook "/org/freedesktop/Geoclue/Master/client0" ⟨"oldest", false⟩),
    .ask 0 (.attachHook "/org/freedesktop/Geoclue/Master/client3" ⟨"youngest", false⟩),
    .bus (.registerObject ":1.2" ⟨"/outside", by decide⟩)]

set_option maxRecDepth 8000 in
/-- When the first client of `mingled` leaves, two sessions stay, and so do the providers and the
objects of the others. -/
theorem departure_exact_mingled :
    (run {} mingled).bus.isConnected ":1.0" = true ∧ Unbroken {} mingled ∧
      ∃ s, (run {} mingled).brokers[0]? = some s ∧
        let o := s.depart (run {} mingled).bus ":1.1"
        o.result = 2 ∧ o.service.sessions.sessions.map (·.owner) = [":1.2", ""] ∧
          o.effects.hookRuns.map (·.1.tag) = ["oldest", "youngest"] ∧ Harmless o.effects ∧
          o.service.sessions.nextSerial = 4 ∧
          o.service.providers.releases = 0 ∧
          o.bus.objects.keys.map (·.text) = ["/org/freedesktop/Geoclue/Master",
            "/org/freedesktop/Geoclue/Master/client1", "/org/freedesktop/Geoclue/Master/client2",
            "/outside"] := by
  have hbroker : ((run {} mingled).brokers[0]?.map fun s =>
      (s.connection, (run {} mingled).bus.isConnected ":1.0", s.sessions.nextSerial,
        s.providers.releases))
      = some (some ":1.0", true, 4, 0) := by
    decide +kernel
  have hsessions : ((run {} mingled).brokers[0]?.map fun s =>
      let gone := s.sessions.sessions.filter (·.belongsTo ":1.1")
      (gone.length, gone.flatMap (·.hookRuns) |>.map (·.1),
        (s.sessions.sessions.filter (!·.belongsTo ":1.1")).map (·.owner),
        ((run {} mingled).bus.objects.filter fun path _ => path ∉ gone.map (·.path)).keys.map
          (·.text)))
      = some (2, [⟨"oldest", false⟩, ⟨"youngest", false⟩], [":1.2", ""],
          ["/org/freedesktop/Geoclue/Master", "/org/freedesktop/Geoclue/Master/client1",
            "/org/freedesktop/Geoclue/Master/client2", "/outside"]) := by
    decide +kernel
  obtain ⟨s, hs, hbroker⟩ := Option.map_eq_some_iff.mp hbroker
  rw [hs, Option.map_some, Option.some.injEq] at hsessions
  simp only [Prod.mk.injEq] at hbroker hsessions
  obtain ⟨hpeer, hconnected, hserial, hreleases⟩ := hbroker
  obtain ⟨hlength, hhooks, howners, hobjects⟩ := hsessions
  obtain ⟨-, -, hresult, hservice, hruns, hharmless, hunbroken, hbus, -⟩ :=
    departure_exact mingled hs ":1.1"
  obtain ⟨-, hbus⟩ := hbus ":1.0" hpeer hconnected
  have hleft : s.sessions.sessions.filter (!·.belongsTo ":1.1") ≠ [] := by
    intro hnone
    rw [hnone] at howners
    cases howners
  have hgentle : ∀ action ∈ mingled, action.Gentle := by
    simp [mingled, Action.Gentle, Operation.Gentle, Operation.sessionFor]
  refine ⟨hconnected, hunbroken hgentle, s, hs, hresult.trans hlength, ?_, ?_,
    hharmless.mpr fun x hx => ?_, ?_, ?_, ?_⟩
  · rw [hservice]
    exact howners
  · rw [hruns]
    exact (List.map_map ..).symm.trans (congrArg (List.map (·.tag)) hhooks)
  · refine Broker.gentle_iff_hookRuns.mpr fun run hrun => ?_
    have hhook := List.mem_map_of_mem (f := (·.1)) (List.mem_flatMap.mpr ⟨x, hx, hrun⟩)
    rw [hhooks] at hhook
    simp only [List.mem_cons, List.not_mem_nil, or_false] at hhook
    obtain hhook | hhook := hhook <;> rw [hhook]
  · rw [hservice]
    exact hserial
  · rw [hservice, if_neg (fun hlast => hleft hlast.2)]
    exact hreleases
  · rw [hbus]
    exact hobjects

end LocationBroker.Network
