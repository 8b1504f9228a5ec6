import LocationBroker.Proofs.Watch.Basic

/-! # No session is leaked

Whoever leaves the bus leaves the news of it behind.  So the owner of a live session is on the bus,
or the broker is still to be shown that the owner has left (`owner_present_or_announced`), whatever
else happens meanwhile and however long the news takes.
-/

namespace LocationBroker.Watch

/-- The owner of every session is connected, or the news of its departure is on its way. -/
structure Attended (w : Watch) : Prop where
  numbered : w.broker.sessions.Numbered
  owners : ∀ x ∈ w.broker.sessions.sessions, x.owner ≠ "" →
    w.bus.isConnected x.owner = true ∨ ⟨x.owner, x.owner, ""⟩ ∈ w.queue

/-- A peer that is connected stays so, unless its departure is announced. -/
theorem isConnected_step (bus : Bus) (action : Bus.Action) {peer : String}
    (h : bus.isConnected peer = true) :
    (bus.step action).isConnected peer = true ∨ ⟨peer, peer, ""⟩ ∈ bus.announcements action := by
  obtain hsame | ⟨after, hstep, hchange⟩ := bus.step_cases action
  · left
    rwa [hsame]
  · rw [hstep]
    cases hchange with
    | connect | addPeer => exact .inl (Bus.isConnected_addPeer.mpr (.inl h))
    | removePeer gone =>
      by_cases hgone : peer = gone
      · subst hgone
        exact .inr (Bus.mem_announcements.mpr ⟨rfl, h, rfl, .inl rfl⟩)
      · exact .inl (Bus.isConnected_removePeer.mpr ⟨h, hgone⟩)
    | _ => exact .inl h

theorem Attended.bus {w : Watch} (h : w.Attended) (action : Bus.Action) :
    (w.step (.bus action)).Attended := by
  refine ⟨h.numbered, fun x hx howner => ?_⟩
  cases h.owners x hx howner with
  | inl hconnected =>
    cases isConnected_step w.bus action hconnected with
    | inl hstays => exact .inl hstays
    | inr hannounced => exact .inr (List.mem_append_right _ hannounced)
  | inr hqueued => exact .inr (List.mem_append_left _ hqueued)

theorem Attended.ask {w : Watch} (h : w.Attended) {operation : Broker.Operation}
    (hadmits : w.admits operation = true) : (w.perform operation).Attended := by
  refine ⟨Broker.Service.perform_numbered h.numbered w.bus operation, fun x hx howner => ?_⟩
  rw [isConnected_perform h.numbered]
  obtain ⟨y, hy, hsame⟩ | hnew := Broker.Service.perform_owners h.numbered w.bus operation hx
  · rw [← hsame] at howner ⊢
    exact h.owners y hy howner
  · -- A new session belongs to the caller, who is there to call.
    left
    rw [admits, hnew] at hadmits
    simpa [howner] using hadmits

theorem Attended.deliver {w : Watch} (h : w.Attended) : (w.step .deliver).Attended := by
  cases hqueue : w.queue with
  | nil =>
    rw [step, hqueue]
    exact h
  | cons c rest =>
    have hstep : w.step .deliver = { w with queue := rest }.perform (.filter c.toMessage) := by
      rw [step, hqueue]
    constructor
    · rw [hstep]
      exact Broker.Service.perform_numbered h.numbered w.bus _
    · intro x hx howner
      have hx' := hx
      rw [hstep] at hx' ⊢
      rw [isConnected_perform (w := { w with queue := rest }) h.numbered]
      obtain ⟨y, hy, hsame⟩ | hnew := Broker.Service.perform_owners h.numbered w.bus _ hx'
      · have howned := h.owners y hy (hsame ▸ howner)
        rw [hsame, hqueue, List.mem_cons] at howned
        obtain hconnected | rfl | hqueued := howned
        · exact .inl hconnected
        · -- The change tells that the owner has left, so its sessions did not outlive it.
          have hdeparture : Bus.OwnershipChange.isDeparture ⟨x.owner, x.owner, ""⟩ = true := by
            simp [Bus.OwnershipChange.isDeparture, howner]
          rw [deliver_sessions h.numbered hqueue hdeparture] at hx
          simp [howner] at hx
        · exact .inr hqueued
      · cases hnew

theorem Attended.run {w : Watch} (h : w.Attended) (actions : List Action) :
    (w.run actions).Attended := by
  induction actions generalizing w with
  | nil => exact h
  | cons action rest ih =>
    refine ih ?_
    cases action with
    | bus action => exact h.bus action
    | deliver => exact h.deliver
    | ask operation =>
      rw [step]
      split
      · exact h.ask ‹_›
      · exact h

/-- Whatever happens to a broker and around it since its start, the owner of each live session, if
it is known, is on the bus, or the news that it has left is still to be shown to the broker.  A
broker that has been shown everything has only sessions of peers that are there. -/
theorem owner_present_or_announced {c : Broker.Config} {bus : Bus} {source : Provider.Source}
    {o : Broker.Outcome Unit} (hstart : Broker.Service.start c bus source = .ok o)
    (actions : List Action) :
    let w := run { bus := o.bus, broker := o.service } actions
    ∀ x ∈ w.broker.sessions.sessions, x.owner ≠ "" →
      (w.bus.isConnected x.owner = true ∨ ⟨x.owner, x.owner, ""⟩ ∈ w.queue) ∧
        (w.queue = [] → w.bus.isConnected x.owner = true) := by
  intro w x hx howner
  have hattended : Attended { bus := o.bus, broker := o.service } := by
    refine ⟨Broker.Service.start_numbered hstart, fun x hx => ?_⟩
    obtain ⟨-, base, hsessions⟩ := Broker.Service.start_sessions hstart
    rw [hsessions] at hx
    cases hx
  have hpresent := (hattended.run actions).owners x hx howner
  refine ⟨hpresent, fun hqueue => ?_⟩
  cases hpresent with
  | inl hconnected => exact hconnected
  | inr hannounced =>
    have hnone : ⟨x.owner, x.owner, ""⟩ ∈ w.queue := hannounced
    rw [hqueue] at hnone
    cases hnone

/-- Two clients have a session each, and one of them leaves. -/
def leaving : List Action :=
  [.bus .addPeer, .bus .addPeer, .ask (.sessionFor ":1.1"), .ask (.sessionFor ":1.2"),
    .bus (.removePeer ":1.1")]

set_option maxRecDepth 8000 in
/-- After `leaving` the session of the client that has left is still live, and the news of it is on
its way. -/
theorem owner_present_or_announced_leaving :
    ∃ o, Broker.Service.start {} {} .none = .ok o ∧
      let w := run { bus := o.bus, broker := o.service } leaving
      ∃ x ∈ w.broker.sessions.sessions, x.owner = ":1.1" ∧ w.bus.isConnected ":1.1" = false ∧
        ⟨":1.1", ":1.1", ""⟩ ∈ w.queue := by
  obtain ⟨o, hstart, howners, hgone⟩ := Broker.Service.exists_start {} {} .none (fun o =>
    let w := run { bus := o.bus, broker := o.service } leaving
    w.broker.sessions.sessions.map (·.owner) = [":1.1", ":1.2"] ∧ w.bus.isConnected ":1.1" = false)
    (by decide)
  obtain ⟨x, hx, howner⟩ : ∃ x ∈ (run { bus := o.bus, broker := o.service }
      leaving).broker.sessions.sessions, x.owner = ":1.1" :=
    List.mem_map.mp (howners ▸ List.mem_cons_self)
  have hpresent := (owner_present_or_announced hstart leaving x hx (by rw [howner]; decide)).1
  rw [howner, hgone] at hpresent
  exact ⟨o, hstart, x, hx, howner, hgone, hpresent.resolve_left Bool.false_ne_true⟩

end LocationBroker.Watch
