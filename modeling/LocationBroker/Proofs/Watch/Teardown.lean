import LocationBroker.Proofs.Watch.Basic

/-! # Whose sessions are torn down

The news that a peer has left comes once for its unique name and once for each name that it owned.
The broker takes the name in the news for the owner of sessions.  Anybody can claim any name that is
free, and the unique name of another peer is free to be claimed.  When such a claimant leaves, the
broker destroys the sessions of a peer that is still there.

`connected_owner_loses_session_iff` says exactly when a session of a connected peer is destroyed by
news, and that this never happens if nobody claims the unique name of another peer.
-/

namespace LocationBroker.Watch

/-- What is known of a change that the broker is still to be shown: somebody who was on the bus is
gone for good, and the name is its own or was claimed by it. -/
structure Told (claimed : String → String → Prop) (bus : Bus) (c : Bus.OwnershipChange) : Prop where
  newOwner : c.newOwner = ""
  handedOut : bus.HandedOut c.oldOwner
  gone : bus.isConnected c.oldOwner = false
  name : c.name = c.oldOwner ∨ claimed c.oldOwner c.name

/-- The bus is in order, every owned name was claimed, and all news is true. -/
structure Honest (claimed : String → String → Prop) (w : Watch) : Prop where
  numbered : w.broker.sessions.Numbered
  proper : w.bus.Proper
  owned : w.bus.OwnedByClaim claimed
  told : ∀ c ∈ w.queue, Told claimed w.bus c

variable {claimed : String → String → Prop} {w : Watch}

theorem Told.step {bus : Bus} {c : Bus.OwnershipChange} (h : Told claimed bus c)
    (action : Bus.Action) : Told claimed (bus.step action) c where
  newOwner := h.newOwner
  handedOut := h.handedOut.mono (bus.nextSerial_le_step action)
  gone := by
    rw [Bool.eq_false_iff]
    intro hback
    have hconnected := Bus.isConnected_of_step h.handedOut hback
    rw [h.gone] at hconnected
    cases hconnected
  name := h.name

theorem Told.isDeparture {bus : Bus} {c : Bus.OwnershipChange} (h : Told claimed bus c) :
    c.isDeparture = true := by
  obtain ⟨serial, -, hname⟩ := h.handedOut
  have hold : c.oldOwner ≠ "" := by
    rw [hname]
    exact Bus.uniqueName_ne_empty serial
  simp [Bus.OwnershipChange.isDeparture, h.newOwner, hold]

theorem Honest.bus (h : w.Honest claimed) {action : Bus.Action}
    (haction : ∀ {peer name}, action = .requestName peer name → claimed peer name) :
    (w.step (.bus action)).Honest claimed := by
  refine ⟨h.numbered, h.proper.step action, h.owned.step haction, fun c hc => ?_⟩
  -- News stays true, and what is announced now is true of the peer that has just left.
  cases List.mem_append.mp hc with
  | inl hc => exact (h.told c hc).step action
  | inr hc =>
    obtain ⟨rfl, hconnected, hnew, hname⟩ := Bus.mem_announcements.mp hc
    refine ⟨hnew, ?_, ?_, hname.imp_right (h.owned _ _)⟩
    · exact (h.proper.handedOut hconnected).mono (w.bus.nextSerial_le_step _)
    · rw [Bool.eq_false_iff]
      intro hback
      exact (Bus.isConnected_removePeer.mp hback).2 rfl

theorem Honest.perform (h : w.Honest claimed) (operation : Broker.Operation) :
    (w.perform operation).Honest claimed := by
  have hmoves := Broker.Service.perform_moves h.numbered w.bus operation
  obtain ⟨-, hnames, -, hserial⟩ :=
    Broker.Service.perform_peers h.numbered w.bus operation
  obtain ⟨history, hbus, -⟩ := hmoves.history
  refine ⟨Broker.Service.perform_numbered h.numbered w.bus operation, ?_, ?_, fun c hc => ?_⟩
  · have hafter : (w.perform operation).bus = w.bus.run history := hbus
    rw [hafter]
    exact h.proper.run history
  · intro name owner hname
    rw [Bus.ownerOf, Watch.perform, hnames] at hname
    exact h.owned name owner hname
  · obtain ⟨hnew, ⟨serial, hlt, hold⟩, hgone, hname⟩ := h.told c hc
    refine ⟨hnew, ⟨serial, ?_, hold⟩, ?_, hname⟩
    · rw [Watch.perform, hserial]
      exact hlt
    · rw [isConnected_perform h.numbered]
      exact hgone

theorem Honest.deliver (h : w.Honest claimed) : (w.step .deliver).Honest claimed := by
  rw [step]
  cases hqueue : w.queue with
  | nil => exact h
  | cons c rest =>
    -- Showing the change is an operation like any other, with one piece of news less to come.
    refine Honest.perform (w := { w with queue := rest }) ⟨h.numbered, h.proper, h.owned, ?_⟩ _
    intro other hother
    exact h.told other (hqueue ▸ List.mem_cons_of_mem c hother)

theorem Honest.run (h : w.Honest claimed) {actions : List Action}
    (hactions : ∀ {peer name}, .bus (.requestName peer name) ∈ actions → claimed peer name) :
    (w.run actions).Honest claimed := by
  induction actions generalizing w with
  | nil => exact h
  | cons action rest ih =>
    refine ih ?_ fun hmem => hactions (List.mem_cons_of_mem _ hmem)
    cases action with
    | bus action =>
      apply h.bus
      rintro peer name rfl
      exact hactions List.mem_cons_self
    | deliver => exact h.deliver
    | ask operation =>
      rw [step]
      split
      · exact h.perform operation
      · exact h

/-! ## What news destroys -/

theorem Honest.destroyed_iff (h : w.Honest claimed) {c : Bus.OwnershipChange}
    {rest : List Bus.OwnershipChange} (hqueue : w.queue = c :: rest) {x : Session}
    (hx : x ∈ w.broker.sessions.sessions) :
    x ∉ (w.step .deliver).broker.sessions.sessions ↔ x.owner = c.name ∧ x.owner ≠ "" := by
  have htold := h.told c (hqueue ▸ List.mem_cons_self)
  rw [deliver_sessions h.numbered hqueue htold.isDeparture, List.mem_filter, decide_eq_true_eq]
  constructor
  · intro hgone
    constructor
    · by_contra hother
      exact hgone ⟨hx, .inr hother⟩
    · intro hnone
      exact hgone ⟨hx, .inl hnone⟩
  · rintro ⟨howner, hknown⟩ ⟨-, hnone | hother⟩
    · exact hknown hnone
    · exact hother howner

theorem Honest.connected_loses_iff (h : w.Honest claimed) {c : Bus.OwnershipChange}
    {rest : List Bus.OwnershipChange} (hqueue : w.queue = c :: rest) :
    (∃ x ∈ w.broker.sessions.sessions, x ∉ (w.step .deliver).broker.sessions.sessions ∧
        w.bus.isConnected x.owner = true) ↔
      c.oldOwner ≠ c.name ∧ claimed c.oldOwner c.name ∧ w.bus.isConnected c.name = true ∧
        ∃ x ∈ w.broker.sessions.sessions, x.owner = c.name := by
  have htold := h.told c (hqueue ▸ List.mem_cons_self)
  constructor
  · rintro ⟨x, hx, hgone, hconnected⟩
    obtain ⟨howner, -⟩ := (h.destroyed_iff hqueue hx).mp hgone
    rw [howner] at hconnected
    -- A name that is connected is not that of the peer that has left.
    have hother : c.oldOwner ≠ c.name := by
      intro hsame
      rw [← hsame, htold.gone] at hconnected
      cases hconnected
    exact ⟨hother, htold.name.resolve_left hother.symm, hconnected, x, hx, howner⟩
  · rintro ⟨-, -, hconnected, x, hx, howner⟩
    have hknown : x.owner ≠ "" := by
      obtain ⟨serial, -, hname⟩ := h.proper.handedOut hconnected
      rw [howner, hname]
      exact Bus.uniqueName_ne_empty serial
    rw [← howner] at hconnected
    exact ⟨x, hx, (h.destroyed_iff hqueue hx).mpr ⟨howner, hknown⟩, hconnected⟩

/-! ## From the start -/

/-- Somebody has claimed the name: on the bus before the broker started, as the broker itself, or
since. -/
def Claims (before : List Bus.Action) (c : Broker.Config) (broker : String) (actions : List Action)
    (claimant name : String) : Prop :=
  .requestName claimant name ∈ before ∨ (claimant = broker ∧ name = c.serviceName) ∨
    .bus (.requestName claimant name) ∈ actions

section Started

variable {before : List Bus.Action} {c : Broker.Config} {source : Provider.Source}
  {o : Broker.Outcome Unit} {broker : String}

theorem start_honest (hstart : Broker.Service.start c (Bus.run {} before) source = .ok o)
    (hbroker : o.service.connection = some broker) (actions : List Action) :
    Honest (Claims before c broker actions) { bus := o.bus, broker := o.service } := by
  have hempty : Bus.OwnedByClaim (Claims before c broker actions) {} := by
    intro name owner hname
    simp [Bus.ownerOf] at hname
  have hproper := Bus.Proper.empty.run before
  have howned : (Bus.run {} before).OwnedByClaim (Claims before c broker actions) :=
    hempty.run fun hmem => .inl hmem
  obtain ⟨opened, hjoin⟩ := Broker.Service.start_functional hstart hbroker
  obtain ⟨-, hbus, -⟩ := Broker.Service.join_ok hjoin
  refine ⟨Broker.Service.start_numbered hstart, ?_, ?_, fun c hc => by cases hc⟩
  · dsimp only
    rw [hbus]
    exact hproper.run _
  · dsimp only
    rw [hbus]
    refine howned.run fun hmem => ?_
    simp [Broker.Service.joining] at hmem
    exact .inr (.inl hmem)

/-- Showing the broker a change destroys a session of a peer that is still connected exactly if the
change is that somebody else has left who had claimed the unique name of that peer.  So if nobody
claims the unique name of another peer, only sessions of peers that have left are destroyed. -/
theorem connected_owner_loses_session_iff
    (hstart : Broker.Service.start c (Bus.run {} before) source = .ok o)
    (hbroker : o.service.connection = some broker) (actions : List Action)
    {change : Bus.OwnershipChange} {rest : List Bus.OwnershipChange}
    (hqueue : (run { bus := o.bus, broker := o.service } actions).queue = change :: rest) :
    let w := run { bus := o.bus, broker := o.service } actions
    let sessions := w.broker.sessions.sessions
    let remaining := (w.step .deliver).broker.sessions.sessions
    (∀ x ∈ sessions, x ∉ remaining ↔ x.owner = change.name ∧ x.owner ≠ "") ∧
      ((∃ x ∈ sessions, x ∉ remaining ∧ w.bus.isConnected x.owner = true) ↔
        change.oldOwner ≠ change.name ∧
          Claims before c broker actions change.oldOwner change.name ∧
          w.bus.isConnected change.name = true ∧ ∃ x ∈ sessions, x.owner = change.name) ∧
      ((∀ claimant serial, Claims before c broker actions claimant (Bus.uniqueName serial) →
          claimant = Bus.uniqueName serial) →
        ∀ x ∈ sessions, x ∉ remaining → w.bus.isConnected x.owner = false) := by
  intro w sessions remaining
  have hhonest : w.Honest (Claims before c broker actions) :=
    (start_honest hstart hbroker actions).run fun hmem => .inr (.inr hmem)
  have hiff := hhonest.connected_loses_iff hqueue
  refine ⟨fun x hx => hhonest.destroyed_iff hqueue hx, hiff, fun hclaims x hx hgone => ?_⟩
  rw [Bool.eq_false_iff]
  intro hconnected
  obtain ⟨hother, hclaim, hname, -⟩ := hiff.mp ⟨x, hx, hgone, hconnected⟩
  -- What is connected is a unique name, and only its bearer claims it.
  obtain ⟨serial, -, hunique⟩ := hhonest.proper.handedOut hname
  rw [hunique] at hclaim hother
  exact hother (hclaims _ _ hclaim)

end Started

/-- A client has a session.  Somebody else claims the unique name of the client, and leaves. -/
def masquerade : List Action :=
  [.bus .addPeer, .bus (.connect .session), .ask (.sessionFor ":1.1"),
    .bus (.requestName ":1.2" ":1.1"), .bus (.removePeer ":1.2")]

set_option maxRecDepth 8000 in
/-- The client of `masquerade` is connected throughout and loses its session all the same. -/
theorem masquerade_destroys_session :
    ∃ o, Broker.Service.start {} {} .none = .ok o ∧
      let w := run { bus := o.bus, broker := o.service } masquerade
      o.service.connection = some ":1.0" ∧
        w.queue = [⟨":1.1", ":1.2", ""⟩, ⟨":1.2", ":1.2", ""⟩] ∧
        w.broker.sessions.sessions.map (·.owner) = [":1.1"] ∧ w.bus.isConnected ":1.1" = true ∧
        (w.step .deliver).broker.sessions.sessions.map (·.owner) = [] ∧
        (w.step .deliver).bus.isConnected ":1.1" = true :=
  Broker.Service.exists_start _ _ _ _ (by decide)

set_option maxRecDepth 8000 in
theorem connected_owner_loses_session_iff_masquerade :
    ∃ o, Broker.Service.start {} (Bus.run {} []) .none = .ok o ∧
      let w := run { bus := o.bus, broker := o.service } masquerade
      ∃ x ∈ w.broker.sessions.sessions, x ∉ (w.step .deliver).broker.sessions.sessions ∧
        w.bus.isConnected x.owner = true := by
  obtain ⟨o, hstart, hbroker, hqueue, howners, hconnected⟩ :=
    Broker.Service.exists_start {} (Bus.run {} []) .none (fun o =>
      let w := run { bus := o.bus, broker := o.service } masquerade
      o.service.connection = some ":1.0" ∧
        w.queue = [⟨":1.1", ":1.2", ""⟩, ⟨":1.2", ":1.2", ""⟩] ∧
        w.broker.sessions.sessions.map (·.owner) = [":1.1"] ∧ w.bus.isConnected ":1.1" = true)
      (by decide)
  obtain ⟨x, hx, howner⟩ : ∃ x ∈ (run { bus := o.bus, broker := o.service }
      masquerade).broker.sessions.sessions, x.owner = ":1.1" :=
    List.mem_map.mp (howners ▸ List.mem_singleton_self ":1.1")
  obtain ⟨-, hiff, -⟩ := connected_owner_loses_session_iff hstart hbroker masquerade hqueue
  refine ⟨o, hstart, hiff.mpr ⟨by decide, ?_, hconnected, x, hx, howner⟩⟩
  exact .inr (.inr (by simp [masquerade]))

end LocationBroker.Watch
