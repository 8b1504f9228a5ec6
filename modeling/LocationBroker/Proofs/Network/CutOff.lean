import LocationBroker.Proofs.Broker.CutOff
import LocationBroker.Proofs.Network.Hooks

/-! # Cut off for good

Nobody comes back under a unique name that was handed out before, so a broker whose connection was
removed stays cut off from the bus whatever happens on the network (`Sound.cut_off`).  Until the end
it serves the sessions that it still has as far as it can, and nobody on the bus notices
(`cut_off_for_good`).
-/

namespace LocationBroker.Network

open Broker (Harmless Service)

/-- A broker that was cut off stays so, and comes by no session. -/
theorem Sound.cut_off {w : Network} (h : w.Sound) {i : Nat} {s : Service} {peer : String}
    (hs : w.brokers[i]? = some s) (hcut : s.CutOff peer w.bus) (later : List Action) :
    ∃ t, (w.run later).brokers[i]? = some t ∧ t.CutOff peer (w.run later).bus ∧
      t.sessions.tenancies.Sublist s.sessions.tenancies := by
  -- By induction on what happens: others leave the broker cut off, and so does it itself.
  induction later generalizing w s with
  | nil => exact ⟨s, hs, hcut, .refl _⟩
  | cons action rest ih =>
    obtain ⟨t, ht, ⟨rfl, hspares⟩ | ⟨operation, rfl, hbus⟩⟩ := h.next action hs
    · exact ih (h.step action) ht (hcut.spared (hspares peer hcut.connection))
    · obtain ⟨hsame, hstill, hfewer⟩ := hcut.perform (h.numbered hs) operation
      have hcut' : (s.perform w.bus operation).service.CutOff peer (w.step action).bus := by
        rw [hbus, hsame]
        exact hstill
      obtain ⟨u, hu, hucut, hufewer⟩ := ih (h.step action) ht hcut'
      exact ⟨u, hu, hucut, hufewer.trans hfewer⟩

/-- Once the connection of a broker is gone, it is gone whatever happens later, and the live
sessions of the broker are some of those that it had.  Whoever asks for a session or for an
announcement is told that the broker is disconnected.  Releases and departures still destroy the
sessions that they are about, run their hooks, and let the providers go with the last one.  Nothing
that the broker is asked changes the bus, whoever exports the paths of its sessions by then.  An
operation goes to its end exactly if the hooks of the sessions that it ends do; so does all that the
brokers were asked if nobody asked for a hook that ends a worker. -/
theorem cut_off_for_good (history later : List Action) {i : Nat} {s : Service} {peer : String}
    (hs : (run {} history).brokers[i]? = some s) (hpeer : s.connection = some peer)
    (hgone : (run {} history).bus.isConnected peer = false) :
    let w := run {} (history ++ later)
    ∃ t, w.brokers[i]? = some t ∧ t.connection = some peer ∧ w.bus.isConnected peer = false ∧
      t.sessions.tenancies.Sublist s.sessions.tenancies ∧
      (∀ source call, (t.create w.bus source call).result = .error (.bus .disconnected)) ∧
      (∀ options, (t.announceOptions w.bus options).result = .error (.bus .disconnected)) ∧
      (∀ x ∈ t.sessions.sessions, (t.release w.bus x.path.text).result = .ok ()) ∧
      (∀ name, (t.depart w.bus name).result =
        (t.sessions.sessions.filter (·.belongsTo name)).length) ∧
      ((∀ action ∈ history ++ later, action.Gentle) → Unbroken {} (history ++ later)) ∧
      ∀ operation,
        let o := t.perform w.bus operation
        let gone := t.sessions.sessions.filter operation.ends
        o.bus = w.bus ∧ o.service.sessions.tenancies.Sublist t.sessions.tenancies ∧
          (Harmless o.effects ↔ ∀ x ∈ gone, x.Gentle) ∧
          (operation.isEnding = true →
            o.service.sessions.sessions = t.sessions.sessions.filter (!operation.ends ·) ∧
              o.effects.hookRuns = gone.flatMap (·.hookRuns) ∧
              o.service.providers =
                if gone ≠ [] ∧ o.service.sessions.sessions = [] then t.providers.release.1
                else t.providers) := by
  intro w
  have hsound : (run {} history).Sound := Sound.empty.run history
  have hcut : s.CutOff peer (run {} history).bus := ⟨hpeer, hsound.handedOut hs hpeer, hgone⟩
  have hrun : w = (run {} history).run later := List.foldl_append
  obtain ⟨t, ht, htcut, hfewer⟩ := hsound.cut_off hs hcut later
  rw [← hrun] at ht htcut
  have hnumbered : t.sessions.Numbered := (hrun ▸ hsound.run later).numbered ht
  refine ⟨t, ht, htcut.connection, htcut.gone, hfewer, htcut.create_result,
    htcut.announceOptions_result, fun x hx => ?_, fun name => ?_, unbroken_of_gentle,
    fun operation => ?_⟩
  · exact Broker.Service.release_result hnumbered w.bus hx
  · exact t.depart_result w.bus name
  · obtain ⟨hbus, -, hshrinks⟩ := htcut.perform hnumbered operation
    exact ⟨hbus, hshrinks, Broker.Service.perform_harmless_iff hnumbered w.bus operation,
      Broker.Service.perform_ending_leaves hnumbered w.bus⟩

/-- A broker with providers gets a client with one session, whose hook is attached, and its
connection is removed. -/
def severed : List Action :=
  [.start {} Broker.Service.described, .bus .addPeer, .ask 0 (.sessionFor ":1.1"),
    .ask 0 (.attachHook Broker.Service.firstSession.text ⟨"farewell", false⟩),
    .bus (.removePeer ":1.0")]

/-- Somebody else joins the bus and exports an object at the path of the session. -/
def squatted : List Action :=
  [.bus .addPeer, .bus (.registerObject ":1.2" Broker.Service.firstSession)]

set_option maxRecDepth 8000 in
/-- After `severed` and `squatted` a release still ends the session, and the object of the other
peer stays. -/
theorem cut_off_for_good_squatted :
    (run {} severed).bus.isConnected ":1.0" = false ∧ Unbroken {} (severed ++ squatted) ∧
      let bus := (run {} (severed ++ squatted)).bus
      bus.exporterOf Broker.Service.firstSession = some ":1.2" ∧
      ∃ t, (run {} (severed ++ squatted)).brokers[0]? = some t ∧
        t.sessions.sessions.length = 1 ∧ t.providers.records ≠ [] ∧
        (t.announceOptions bus .empty).result = .error (.bus .disconnected) ∧
        let o := t.perform bus (.release Broker.Service.firstSession.text)
        o.bus.exporterOf Broker.Service.firstSession = some ":1.2" ∧
          o.service.sessions.sessions = [] ∧ o.effects.hookRuns.map (·.1.tag) = ["farewell"] ∧
          Harmless o.effects ∧ o.service.providers.records = [] := by
  have hgone : (run {} severed).bus.isConnected ":1.0" = false := by decide +kernel
  have hexporter : (run {} (severed ++ squatted)).bus.exporterOf Broker.Service.firstSession =
      some ":1.2" := by decide +kernel
  have hbefore : (run {} severed).brokers[0]?.map (·.connection) = some (some ":1.0") := by
    decide +kernel
  have hafter : ((run {} (severed ++ squatted)).brokers[0]?.map fun t =>
      (t.sessions.sessions.map fun x => (x.path.text, x.hook), t.providers.records.length))
      = some ([("/org/freedesktop/Geoclue/Master/client0", some ⟨"farewell", false⟩)], 1) := by
    decide +kernel
  obtain ⟨s, hs, hpeer⟩ := Option.map_eq_some_iff.mp hbefore
  obtain ⟨t, ht, -, -, -, -, hannounce, -, -, hunbroken, hperform⟩ :=
    cut_off_for_good severed squatted hs hpeer hgone
  rw [ht, Option.map_some] at hafter
  obtain ⟨hsessions, hrecords⟩ := Prod.mk.inj (Option.some.inj hafter)
  obtain ⟨x, hlive, hx⟩ := List.map_eq_singleton_iff.mp hsessions
  obtain ⟨htext, hhook⟩ := Prod.mk.inj hx
  have hends : (Broker.Operation.release Broker.Service.firstSession.text).ends x = true :=
    decide_eq_true htext
  obtain ⟨hbus, -, hharmless, hending⟩ := hperform (.release Broker.Service.firstSession.text)
  obtain ⟨hleft, hruns, hproviders⟩ := hending rfl
  simp only [hlive, List.filter_cons_of_pos hends, List.filter_nil]
    at hleft hruns hproviders hharmless
  have hnone : [x].filter (fun y => !(Broker.Operation.release
      Broker.Service.firstSession.text).ends y) = [] := by
    simp [hends]
  rw [hnone] at hleft
  have hgentle : ∀ action ∈ severed ++ squatted, action.Gentle := by
    simp [severed, squatted, Action.Gentle, Broker.Operation.Gentle, Broker.Operation.sessionFor]
  refine ⟨hgone, hunbroken hgentle, hexporter, t, ht, by rw [hlive]; rfl, ?_, hannounce _, ?_,
    hleft, ?_, hharmless.mpr ?_, ?_⟩
  · exact fun hempty => by simp [hempty] at hrecords
  · rw [hbus]
    exact hexporter
  · rw [hruns]
    simp [Session.hookRuns, hhook]
  · rw [List.forall_mem_singleton, Session.Gentle, hhook]
    simp
  · rw [hproviders, if_pos ⟨List.cons_ne_nil _ _, hleft⟩]
    exact t.providers.release_records

end LocationBroker.Network
