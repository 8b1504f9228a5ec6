import LocationBroker.Proofs.Bus.Action

/-! # Who has what on the bus

All that is recorded on the bus belongs to connected peers, and nobody but a peer itself changes
what it has.

* `Proper` — each connected peer has a unique name that was handed out, and every owner, exporter
  and subscriber is connected.  Every history keeps this (`Proper.run`).
* `OwnedByClaim` — every owned name was claimed by its owner.
* `Spares` — a peer is not brought back, and keeps what it has for as long as it is connected.
  Every action of somebody else is like this (`spares_step`), and so is every history of such
  actions (`spares_run`).
* `ownerOf_run`, `exporterOf_run` — a name stays with its owner until the owner is removed, and an
  object with its exporter until the exporter is removed or withdraws it.
-/

namespace LocationBroker.Bus

/-- The bus has handed out the unique name. -/
def HandedOut (bus : Bus) (peer : String) : Prop :=
  ∃ serial < bus.nextSerial, peer = uniqueName serial

theorem not_handedOut_next (bus : Bus) : ¬ bus.HandedOut (uniqueName bus.nextSerial) := by
  rintro ⟨serial, hlt, hname⟩
  have hserial := uniqueName_injective hname
  omega

theorem HandedOut.mono {bus after : Bus} {peer : String} (h : bus.HandedOut peer)
    (hle : bus.nextSerial ≤ after.nextSerial) : after.HandedOut peer := by
  obtain ⟨serial, hlt, hname⟩ := h
  exact ⟨serial, by omega, hname⟩

theorem nextSerial_le_step (bus : Bus) (action : Action) :
    bus.nextSerial ≤ (bus.step action).nextSerial := by
  obtain hsame | ⟨after, hstep, hchange⟩ := step_cases bus action
  · exact Nat.le_of_eq (by rw [hsame])
  · rw [hstep]
    cases hchange with
    | connect | addPeer => exact Nat.le_succ _
    | removePeer peer => exact Nat.le_of_eq (nextSerial_removePeer bus peer).symm
    | _ => exact Nat.le_refl _

theorem nextSerial_le_run (bus : Bus) (history : List Action) :
    bus.nextSerial ≤ (bus.run history).nextSerial := by
  induction history generalizing bus with
  | nil => exact Nat.le_refl _
  | cons action history ih => exact Nat.le_trans (bus.nextSerial_le_step action) (ih _)

/-! ## Everything belongs to connected peers -/

/-- Every connected peer has a unique name that was handed out, and all that is recorded belongs to
connected peers. -/
structure Proper (bus : Bus) : Prop where
  handedOut : ∀ {peer}, bus.isConnected peer = true → bus.HandedOut peer
  owners : ∀ {name owner}, bus.ownerOf name = some owner → bus.isConnected owner = true
  exporters : ∀ {path exporter}, bus.exporterOf path = some exporter →
    bus.isConnected exporter = true
  subscribers : ∀ {r}, r ∈ bus.rules → bus.isConnected r.1 = true

theorem Proper.empty : Proper {} where
  handedOut h := by simp [isConnected] at h
  owners h := by simp [ownerOf] at h
  exporters h := by simp [exporterOf] at h
  subscribers h := by simp at h

theorem Proper.addPeer {bus : Bus} (h : bus.Proper) : bus.addPeer.2.Proper where
  handedOut hpeer := by
    obtain hpeer | rfl := isConnected_addPeer.mp hpeer
    · exact (h.handedOut hpeer).mono (Nat.le_succ _)
    · exact ⟨bus.nextSerial, Nat.lt_succ_self _, rfl⟩
  owners hname := isConnected_addPeer.mpr (.inl (h.owners hname))
  exporters hpath := isConnected_addPeer.mpr (.inl (h.exporters hpath))
  subscribers hr := isConnected_addPeer.mpr (.inl (h.subscribers hr))

theorem Proper.removePeer {bus : Bus} (h : bus.Proper) (gone : String) :
    (bus.removePeer gone).2.Proper := by
  cases hgone : bus.isConnected gone with
  | false => rwa [removePeer_of_not_isConnected hgone]
  | true =>
    -- Whoever has something afterwards is not the one that is gone, and had it before.
    obtain ⟨hnames, hpaths, hrules⟩ := removePeer_leaves_nothing hgone
    refine ⟨fun hpeer => ?_, fun {name owner} hname => ?_, fun {path exporter} hpath => ?_,
      fun {r} hr => ?_⟩
    · exact (h.handedOut (isConnected_removePeer.mp hpeer).1).mono
        (Nat.le_of_eq (nextSerial_removePeer bus gone).symm)
    · have hne : owner ≠ gone := fun heq => hnames name (heq ▸ hname)
      exact isConnected_removePeer.mpr ⟨h.owners ((ownerOf_removePeer hne).mp hname), hne⟩
    · have hne : exporter ≠ gone := fun heq => hpaths path (heq ▸ hpath)
      exact isConnected_removePeer.mpr ⟨h.exporters ((exporterOf_removePeer hne).mp hpath), hne⟩
    · have hne := hrules r hr
      exact isConnected_removePeer.mpr ⟨h.subscribers ((mem_rules_removePeer hne).mp hr), hne⟩

theorem Proper.step {bus : Bus} (h : bus.Proper) (action : Action) : (bus.step action).Proper := by
  obtain hsame | ⟨after, hstep, hchange⟩ := step_cases bus action
  · rwa [hsame]
  · rw [hstep]
    cases hchange with
    | setAvailable | emitSignal => exact ⟨h.handedOut, h.owners, h.exporters, h.subscribers⟩
    | connect | addPeer => exact h.addPeer
    | removePeer peer => exact h.removePeer peer
    | @requestName peer name hpeer hfree =>
      refine ⟨h.handedOut, fun {other owner} hother => ?_, h.exporters, h.subscribers⟩
      simp only [ownerOf, Ledger.get?_insert] at hother
      split at hother
      · cases hother; exact hpeer
      · exact h.owners hother
    | @addMatch peer rule hpeer =>
      refine ⟨h.handedOut, h.owners, h.exporters, fun {r} hr => ?_⟩
      cases List.mem_append.mp hr with
      | inl hr => exact h.subscribers hr
      | inr hr => cases List.mem_singleton.mp hr; exact hpeer
    | @registerObject peer path hpeer hfree =>
      refine ⟨h.handedOut, h.owners, fun {other exporter} hother => ?_, h.subscribers⟩
      simp only [exporterOf, Ledger.get?_insert] at hother
      split at hother
      · cases hother; exact hpeer
      · exact h.exporters hother
    | unregisterObject hpeer hexported =>
      refine ⟨h.handedOut, h.owners, fun {other exporter} hother => ?_, h.subscribers⟩
      simp only [exporterOf, Ledger.get?_erase] at hother
      split at hother
      · cases hother
      · exact h.exporters hother

theorem Proper.run {bus : Bus} (h : bus.Proper) (history : List Action) :
    (bus.run history).Proper := by
  induction history generalizing bus with
  | nil => exact h
  | cons action history ih => exact ih (h.step action)

/-- A bus is in order after any history since it was opened, also if it was opened without taking
connections. -/
theorem proper_run (available : Bool) (history : List Action) :
    (run { available } history).Proper := by
  have hopened : ({ available } : Bus).Proper := Proper.empty.step (.setAvailable available)
  exact hopened.run history

/-- Nobody comes back under a unique name that was handed out before. -/
theorem isConnected_of_step {bus : Bus} {peer : String} {action : Action}
    (hpeer : bus.HandedOut peer) (h : (bus.step action).isConnected peer = true) :
    bus.isConnected peer = true := by
  obtain hsame | ⟨after, hstep, hchange⟩ := step_cases bus action
  · rwa [hsame] at h
  · rw [hstep] at h
    cases hchange with
    | connect | addPeer =>
      obtain h | rfl := isConnected_addPeer.mp h
      · exact h
      · exact absurd hpeer bus.not_handedOut_next
    | removePeer gone => exact (isConnected_removePeer.mp h).1
    | _ => exact h

/-- The owner of each name has claimed it. -/
def OwnedByClaim (claimed : String → String → Prop) (bus : Bus) : Prop :=
  ∀ name owner, bus.ownerOf name = some owner → claimed owner name

theorem OwnedByClaim.step {claimed : String → String → Prop} {bus : Bus}
    (h : bus.OwnedByClaim claimed) {action : Action}
    (haction : ∀ {peer name}, action = .requestName peer name → claimed peer name) :
    (bus.step action).OwnedByClaim claimed := by
  obtain hsame | ⟨after, hstep, hchange⟩ := step_cases bus action
  · rwa [hsame]
  · rw [hstep]
    cases hchange with
    | removePeer gone =>
      intro name owner hname
      rw [removePeer] at hname
      split at hname
      · simp only [ownerOf, Ledger.get?_filter, Option.filter_eq_some_iff] at hname
        exact h name owner hname.1
      · exact h name owner hname
    | requestName =>
      intro name owner hname
      simp only [ownerOf, Ledger.get?_insert] at hname
      split at hname
      · rename_i hsame
        cases hsame
        cases hname
        exact haction rfl
      · exact h name owner hname
    | _ => exact h

theorem OwnedByClaim.run {claimed : String → String → Prop} {bus : Bus}
    (h : bus.OwnedByClaim claimed) {history : List Action}
    (hhistory : ∀ {peer name}, .requestName peer name ∈ history → claimed peer name) :
    (bus.run history).OwnedByClaim claimed := by
  induction history generalizing bus with
  | nil => exact h
  | cons action rest ih =>
    refine ih (h.step ?_) fun hmem => hhistory (List.mem_cons_of_mem _ hmem)
    rintro peer name rfl
    exact hhistory List.mem_cons_self

/-! ## What a peer has is its own -/

/-- The peer is not brought back, and for as long as it is connected it keeps what it has and is
given nothing. -/
structure Spares (peer : String) (bus after : Bus) : Prop where
  serials : bus.nextSerial ≤ after.nextSerial
  connected : after.isConnected peer = true → bus.isConnected peer = true
  owned : after.isConnected peer = true →
    ∀ name, after.ownerOf name = some peer ↔ bus.ownerOf name = some peer
  exported : after.isConnected peer = true →
    ∀ path, after.exporterOf path = some peer ↔ bus.exporterOf path = some peer
  subscribed : after.isConnected peer = true →
    ∀ rule, (peer, rule) ∈ after.rules ↔ (peer, rule) ∈ bus.rules

theorem Spares.refl (peer : String) (bus : Bus) : Spares peer bus bus :=
  ⟨Nat.le_refl _, id, fun _ _ => Iff.rfl, fun _ _ => Iff.rfl, fun _ _ => Iff.rfl⟩

theorem Spares.trans {peer : String} {first second third : Bus} (h₁ : Spares peer first second)
    (h₂ : Spares peer second third) : Spares peer first third where
  serials := Nat.le_trans h₁.serials h₂.serials
  connected h := h₁.connected (h₂.connected h)
  owned h name := (h₂.owned h name).trans (h₁.owned (h₂.connected h) name)
  exported h path := (h₂.exported h path).trans (h₁.exported (h₂.connected h) path)
  subscribed h rule := (h₂.subscribed h rule).trans (h₁.subscribed (h₂.connected h) rule)

/-- A peer that joins is not one that was there before. -/
theorem spares_addPeer {bus : Bus} {peer : String} (hpeer : bus.HandedOut peer) :
    Spares peer bus bus.addPeer.2 := by
  refine ⟨Nat.le_succ _, fun h => ?_, fun _ _ => Iff.rfl, fun _ _ => Iff.rfl, fun _ _ => Iff.rfl⟩
  obtain h | rfl := isConnected_addPeer.mp h
  · exact h
  · exact absurd hpeer bus.not_handedOut_next

theorem spares_removePeer (peer : String) (bus : Bus) (gone : String) :
    Spares peer bus (bus.removePeer gone).2 where
  serials := Nat.le_of_eq (nextSerial_removePeer bus gone).symm
  connected h := (isConnected_removePeer.mp h).1
  owned h _ := ownerOf_removePeer (isConnected_removePeer.mp h).2
  exported h _ := exporterOf_removePeer (isConnected_removePeer.mp h).2
  subscribed h _ := mem_rules_removePeer (isConnected_removePeer.mp h).2

/-- An action of somebody else leaves a peer what it has. -/
theorem spares_step {bus : Bus} {peer : String} {action : Action} (hpeer : bus.HandedOut peer)
    (hactor : action.actor? ≠ some peer) : Spares peer bus (bus.step action) := by
  have hother : ∀ {other}, action.actor? = some other → other ≠ peer := by
    rintro other hsome rfl
    exact hactor hsome
  obtain hsame | ⟨after, hstep, hchange⟩ := step_cases bus action
  · rw [hsame]
    exact .refl peer bus
  · rw [hstep]
    cases hchange with
    | setAvailable | emitSignal =>
      exact ⟨Nat.le_refl _, id, fun _ _ => Iff.rfl, fun _ _ => Iff.rfl, fun _ _ => Iff.rfl⟩
    | connect | addPeer => exact spares_addPeer hpeer
    | removePeer gone => exact spares_removePeer peer bus gone
    | @requestName other claimed _ hfree =>
      -- The name was nobody's before and is another peer's afterwards.
      have hother := hother rfl
      refine ⟨Nat.le_refl _, id, fun _ name => ?_, fun _ _ => Iff.rfl, fun _ _ => Iff.rfl⟩
      rw [ownerOf] at hfree
      simp only [ownerOf, Ledger.get?_insert]
      split
      · simp_all
      · rfl
    | @addMatch other stated =>
      have hother := hother rfl
      refine ⟨Nat.le_refl _, id, fun _ _ => Iff.rfl, fun _ _ => Iff.rfl, fun _ rule => ?_⟩
      simp [hother.symm]
    | @registerObject other exported _ hfree =>
      have hother := hother rfl
      refine ⟨Nat.le_refl _, id, fun _ _ => Iff.rfl, fun _ path => ?_, fun _ _ => Iff.rfl⟩
      rw [exporterOf] at hfree
      simp only [exporterOf, Ledger.get?_insert]
      split
      · simp_all
      · rfl
    | @unregisterObject other withdrawn _ hexported =>
      -- A connection withdraws only what it exports itself.
      have hother := hother rfl
      refine ⟨Nat.le_refl _, id, fun _ _ => Iff.rfl, fun _ path => ?_, fun _ _ => Iff.rfl⟩
      rw [exporterOf] at hexported
      simp only [exporterOf, Ledger.get?_erase]
      split
      · simp_all
      · rfl

theorem spares_run {bus : Bus} {peer : String} {history : List Action}
    (hpeer : bus.HandedOut peer) (hactors : ∀ action ∈ history, action.actor? ≠ some peer) :
    Spares peer bus (bus.run history) := by
  induction history generalizing bus with
  | nil => exact .refl peer bus
  | cons action history ih =>
    have hfirst := spares_step hpeer (hactors action List.mem_cons_self)
    exact hfirst.trans (ih (hpeer.mono hfirst.serials)
      fun other hother => hactors other (List.mem_cons_of_mem _ hother))

/-! ## Names stay with their owners -/

/-- Nobody takes a name from its owner, who keeps it even if the owner does not use it any more. -/
theorem ownerOf_step {bus : Bus} {name owner : String} {action : Action}
    (h : bus.ownerOf name = some owner) (hstays : action ≠ .removePeer owner) :
    (bus.step action).ownerOf name = some owner := by
  obtain hsame | ⟨after, hstep, hchange⟩ := step_cases bus action
  · rwa [hsame]
  · rw [hstep]
    cases hchange with
    | removePeer gone =>
      have hne : owner ≠ gone := by
        rintro rfl
        exact hstays rfl
      exact (ownerOf_removePeer hne).mpr h
    | @requestName peer claimed _ hfree =>
      have hne : claimed ≠ name := by
        rintro rfl
        rw [h] at hfree
        cases hfree
      simpa [ownerOf, Ledger.get?_insert, hne] using h
    | _ => exact h

theorem ownerOf_run {bus : Bus} {name owner : String} {history : List Action}
    (h : bus.ownerOf name = some owner) (hstays : .removePeer owner ∉ history) :
    (bus.run history).ownerOf name = some owner := by
  induction history generalizing bus with
  | nil => exact h
  | cons action rest ih =>
    refine ih (ownerOf_step h ?_) fun hmem => hstays (List.mem_cons_of_mem _ hmem)
    rintro rfl
    exact hstays List.mem_cons_self

/-! ## Objects stay with their exporters -/

/-- Nobody but its exporter withdraws an object, and nobody exports another one at its path. -/
theorem exporterOf_step {bus : Bus} {path : ObjectPath} {exporter : String} {action : Action}
    (h : bus.exporterOf path = some exporter) (hstays : action ≠ .removePeer exporter)
    (hkept : action ≠ .unregisterObject exporter path) :
    (bus.step action).exporterOf path = some exporter := by
  obtain hsame | ⟨after, hstep, hchange⟩ := step_cases bus action
  · rwa [hsame]
  · rw [hstep]
    cases hchange with
    | removePeer gone =>
      have hne : exporter ≠ gone := by
        rintro rfl
        exact hstays rfl
      exact (exporterOf_removePeer hne).mpr h
    | @registerObject peer other _ hfree =>
      have hne : other ≠ path := by
        rintro rfl
        rw [h] at hfree
        cases hfree
      simpa [exporterOf, Ledger.get?_insert, hne] using h
    | @unregisterObject peer other _ hexported =>
      -- Whoever withdraws the object exports it, and so is its exporter.
      have hne : path ≠ other := by
        rintro rfl
        rw [h] at hexported
        cases hexported
        exact hkept rfl
      simpa [exporterOf, Ledger.get?_erase, hne] using h
    | _ => exact h

theorem exporterOf_run {bus : Bus} {path : ObjectPath} {exporter : String} {history : List Action}
    (h : bus.exporterOf path = some exporter) (hstays : .removePeer exporter ∉ history)
    (hkept : .unregisterObject exporter path ∉ history) :
    (bus.run history).exporterOf path = some exporter := by
  induction history generalizing bus with
  | nil => exact h
  | cons action rest ih =>
    refine ih (exporterOf_step h ?_ ?_) (fun hmem => hstays (List.mem_cons_of_mem _ hmem))
      fun hmem => hkept (List.mem_cons_of_mem _ hmem)
    · rintro rfl
      exact hstays List.mem_cons_self
    · rintro rfl
      exact hkept List.mem_cons_self

end LocationBroker.Bus
