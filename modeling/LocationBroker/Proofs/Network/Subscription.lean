import LocationBroker.Proofs.Bus.Announcement
import LocationBroker.Proofs.Network.Mastership

/-! # The subscription of a broker

A broker is shown the messages that its subscription covers.  The subscription is a rule of its own,
written apart from the reader of departures; so it has to cover whatever that reader accepts, or
else some client would leave unnoticed.  `subscription_covers_reactions` says that it does.
-/

namespace LocationBroker

namespace Broker

open Bus (Message)

namespace Presence

theorem departed?_eq_some_iff {m : Message} {name : String} :
    departed? m = some name ↔
      ∃ signal, m = .signal signal ∧ signal.announcesOwnership = true ∧ ∃ old, old ≠ "" ∧
        (signal.args = [.str name, .str old] ∨ signal.args = [.str name, .str old, .str ""]) := by
  simp only [departed?, departure?, Option.map_eq_some_iff, Option.filter_eq_some_iff,
    Bus.OwnershipChange.ofMessage?_eq_some_iff, Bus.OwnershipChange.isDeparture_iff]
  constructor
  · rintro ⟨⟨_, old, new⟩, ⟨⟨signal, rfl, hannounces, hargs⟩, hold, rfl⟩, rfl⟩
    exact ⟨signal, rfl, hannounces, old, hold, hargs.symm.imp_left And.right⟩
  · rintro ⟨signal, rfl, hannounces, old, hold, hargs⟩
    exact ⟨⟨name, old, ""⟩, ⟨⟨signal, rfl, hannounces, hargs.symm.imp_right fun h => ⟨rfl, h⟩⟩,
      hold, rfl⟩, rfl⟩

/-- Whatever is read as a departure is covered by the rule. -/
theorem rule_covers {m : Message} (h : departed? m ≠ none) : rule.covers m = true := by
  obtain ⟨name, hname⟩ := Option.ne_none_iff_exists'.mp h
  obtain ⟨signal, hsignal, hannounces, -⟩ := departed?_eq_some_iff.mp hname
  exact Bus.MatchRule.ownershipChanges_covers_iff.mpr ⟨signal, hsignal, hannounces⟩

end Presence

namespace Service

theorem filter_result (s : Service) (bus : Bus) (m : Message) :
    (s.filter bus m).result = .notYetHandled := by
  rw [filter]
  split <;> rfl

theorem filter_of_departed?_eq_none {m : Message} (h : Presence.departed? m = none) (s : Service)
    (bus : Bus) :
    s.filter bus m = { result := .notYetHandled, service := s, bus, effects := [] } := by
  rw [filter, h]

theorem Installed.isRouted {s : Service} {bus : Bus} (h : s.Installed bus) {peer : String}
    (hpeer : s.connection = some peer) (hconnected : bus.isConnected peer = true) {m : Message}
    (hcovers : Presence.rule.covers m = true) : bus.isRouted m = true :=
  List.any_eq_true.mpr ⟨_, h.subscribed hpeer hconnected, hcovers⟩

end Service

end Broker

namespace Network

open Broker (Service)
open Broker.Presence (departed?)

/-- A broker takes a message for a departure exactly if it is a signal that announces a change of
ownership and names an owner before the change and none after it, whoever sent it from whatever
path.  The broker's rule covers all such messages, and so the bus routes all messages on which a
broker that is connected does anything.  Other messages leave the broker and the bus as they are,
and no message is kept from other filters. -/
theorem subscription_covers_reactions :
    (∀ (m : Bus.Message) (name : String), departed? m = some name ↔
      ∃ signal, m = .signal signal ∧ signal.interface = "org.freedesktop.DBus" ∧
        signal.member = "NameOwnerChanged" ∧ ∃ old, old ≠ "" ∧
          (signal.args = [.str name, .str old] ∨
            signal.args = [.str name, .str old, .str ""])) ∧
    (∀ m, departed? m ≠ none → Broker.Presence.rule.covers m = true) ∧
    (∀ (s : Service) (bus : Bus) (m : Bus.Message),
      (s.filter bus m).result = .notYetHandled ∧
        (departed? m = none → (s.filter bus m).service = s ∧ (s.filter bus m).bus = bus ∧
          (s.filter bus m).effects = [])) ∧
    ∀ (history : List Action) {i : Nat} {s : Service} {peer : String},
      (run {} history).brokers[i]? = some s → s.connection = some peer →
      (run {} history).bus.isConnected peer = true → ∀ m : Bus.Message,
        let o := s.filter (run {} history).bus m
        o.service ≠ s ∨ o.bus ≠ (run {} history).bus ∨ o.effects ≠ [] →
          (run {} history).bus.isRouted m = true := by
  refine ⟨fun m name => ?_, fun m => Broker.Presence.rule_covers, fun s bus m => ⟨?_, fun h => ?_⟩,
    ?_⟩
  · simp only [Broker.Presence.departed?_eq_some_iff, Bus.Signal.announcesOwnership_iff, and_assoc]
    rfl
  · exact s.filter_result bus m
  · rw [Broker.Service.filter_of_departed?_eq_none h]
    exact ⟨rfl, rfl, rfl⟩
  · intro history i s peer hs hpeer hconnected m o hreacts
    -- A broker that does anything has read the message as a departure.
    have hdeparted : departed? m ≠ none := by
      intro hnone
      simp [o, Broker.Service.filter_of_departed?_eq_none hnone] at hreacts
    exact (installed_run history hs).isRouted hpeer hconnected
      (Broker.Presence.rule_covers hdeparted)

/-- A broker is started, and another peer joins the bus and asks it for a session. -/
def served : List Action :=
  [.start {} .none, .bus .addPeer, .ask 0 (.sessionFor ":1.1")]

/-- The loss of a unique name, as an announcement without the new owner that does not come from the
bus itself. -/
def curtLoss : Bus.Message :=
  .signal ⟨some ":1.7", .root, "org.freedesktop.DBus", "NameOwnerChanged",
    [.str ":1.1", .str ":1.1"]⟩

/-- After `served` the broker destroys its session when it is shown `curtLoss`, and the bus routes
that message. -/
theorem subscription_covers_reactions_curt :
    departed? curtLoss = some ":1.1" ∧ Broker.Presence.rule.covers curtLoss = true ∧
      ∃ s, (run {} served).brokers[0]? = some s ∧ s.connection = some ":1.0" ∧
        s.sessions.sessions.length = 1 ∧
        (s.filter (run {} served).bus curtLoss).service.sessions.sessions = [] ∧
        (run {} served).bus.isRouted curtLoss = true := by
  obtain ⟨hread, hcovers, -, hrouted⟩ := subscription_covers_reactions
  have hdeparted : departed? curtLoss = some ":1.1" :=
    (hread _ _).mpr ⟨_, rfl, rfl, rfl, ":1.1", by decide, .inl rfl⟩
  have hbroker : ((run {} served).brokers[0]?.map fun s =>
      (s.connection, s.sessions.sessions.length,
        (s.filter (run {} served).bus curtLoss).service.sessions.sessions.length))
      = some (some ":1.0", 1, 0) := by decide
  obtain ⟨s, hs, hfacts⟩ := Option.map_eq_some_iff.mp hbroker
  simp only [Prod.mk.injEq] at hfacts
  obtain ⟨hpeer, hlive, hnone⟩ := hfacts
  have hreacts : (s.filter (run {} served).bus curtLoss).service ≠ s := by
    intro hsame
    rw [hsame, hlive] at hnone
    cases hnone
  exact ⟨hdeparted, hcovers _ (by simp [hdeparted]), s, hs, hpeer, hlive,
    List.eq_nil_of_length_eq_zero hnone,
    hrouted served hs hpeer (by decide) curtLoss (.inl hreacts)⟩

end Network

end LocationBroker
