import LocationBroker.Proofs.Bus.Discipline
import Mathlib.Data.List.Nodup

/-! # What the bus keeps for its peers

The bus keeps names, objects and subscriptions for connected peers only, hands out every unique name
once, and lets nobody but a peer itself give up what the peer has.  Signals are kept in the order in
which they were sent, each under the name of its sender.  `ownership_discipline` says so of every
history, whoever acts and whoever is gone.

* `during` — what the actions of a history yield, one after the other; `given` and `sent` are what
  an action makes the bus hand out and send.
* `given_run`, `emitted_run` — both for whole histories.
-/

namespace LocationBroker.Bus

/-- The unique name that the bus hands out for an action, if it does. -/
def given (bus : Bus) : Action → List String
  | .connect kind =>
    match bus.connect kind with
    | .ok (peer, _) => [peer]
    | .error _ => []
  | .addPeer => [bus.addPeer.1]
  | _ => []

/-- The signal that the bus sends for an action, if it does. -/
def sent (bus : Bus) : Action → List Signal
  | .emitSignal peer signal =>
    if bus.isConnected peer then [{ signal with sender := some peer }] else []
  | _ => []

/-- What the actions of a history yield, in order. -/
def during {α : Type} (yield : Bus → Action → List α) (bus : Bus) : List Action → List α
  | [] => []
  | action :: rest => yield bus action ++ during yield (bus.step action) rest

/-! ## Handing out names -/

/-- An action makes the bus hand out the next unique name or none. -/
theorem given_step (bus : Bus) (action : Action) :
    (bus.given action = [] ∧ (bus.step action).nextSerial = bus.nextSerial) ∨
      (bus.given action = [uniqueName bus.nextSerial] ∧
        (bus.step action).nextSerial = bus.nextSerial + 1) := by
  cases action with
  | connect kind =>
    cases hconnect : bus.connect kind with
    | error e =>
      have herror : bus.attempt (.connect kind) = .error e := by
        rw [attempt, hconnect]
        rfl
      exact .inl ⟨by simp [given, hconnect], by rw [step_of_error herror]⟩
    | ok joined =>
      obtain ⟨peer, next⟩ := joined
      have hok : bus.attempt (.connect kind) = .ok next := by
        rw [attempt, hconnect]
        rfl
      obtain ⟨-, rfl, rfl⟩ := connect_eq_ok_iff.mp hconnect
      exact .inr ⟨by simp [given, hconnect], by rw [step_of_ok hok]; rfl⟩
  | addPeer => exact .inr ⟨rfl, rfl⟩
  | removePeer gone => exact .inl ⟨rfl, nextSerial_removePeer bus gone⟩
  | _ =>
    -- What is left concerns peers that are there already.
    left
    refine ⟨rfl, ?_⟩
    obtain hsame | ⟨after, hstep, hchange⟩ := step_cases bus _
    · rw [hsame]
    · rw [hstep]
      cases hchange
      rfl

/-- The names that a history makes the bus hand out have consecutive serials. -/
theorem given_run (bus : Bus) (history : List Action) :
    bus.during given history =
        (List.range' bus.nextSerial (bus.during given history).length).map uniqueName ∧
      (bus.run history).nextSerial = bus.nextSerial + (bus.during given history).length := by
  induction history generalizing bus with
  | nil => exact ⟨rfl, rfl⟩
  | cons action rest ih =>
    obtain ⟨hnames, hserial⟩ := ih (bus.step action)
    have hrun : bus.run (action :: rest) = (bus.step action).run rest := rfl
    rw [during, hrun, hserial, List.length_append]
    obtain ⟨hgiven, hstep⟩ | ⟨hgiven, hstep⟩ := given_step bus action
    · rw [hstep] at hnames ⊢
      rw [hgiven]
      simpa using hnames
    · rw [hstep] at hnames ⊢
      rw [hgiven]
      refine ⟨?_, by simp; omega⟩
      -- The first name has the serial, and the others have those that follow.
      rw [List.length_singleton, Nat.add_comm 1, List.range'_succ, List.map_cons, ← hnames]
      rfl

theorem nodup_given (bus : Bus) (history : List Action) : (bus.during given history).Nodup := by
  rw [(given_run bus history).1]
  exact List.Nodup.map (fun _ _ => uniqueName_injective) List.nodup_range'

/-! ## Sending signals -/

theorem emitted_step (bus : Bus) (action : Action) :
    (bus.step action).emitted = bus.emitted ++ bus.sent action := by
  cases action with
  | emitSignal peer signal =>
    cases hconnected : bus.isConnected peer with
    | true =>
      have hok : bus.attempt (.emitSignal peer signal) = .ok _ :=
        emitSignal_eq_ok_iff.mpr ⟨hconnected, rfl⟩
      rw [step_of_ok hok]
      simp [sent, hconnected]
    | false =>
      have herror : bus.attempt (.emitSignal peer signal) = .error .disconnected := by
        simp [attempt, emitSignal, whileConnected, hconnected]
      rw [step_of_error herror]
      simp [sent, hconnected]
  | removePeer gone =>
    simp only [sent, List.append_nil, step, attempt, removePeer]
    split <;> rfl
  | _ =>
    simp only [sent, List.append_nil]
    obtain hsame | ⟨after, hstep, hchange⟩ := step_cases bus _
    · rw [hsame]
    · rw [hstep]
      cases hchange
      rfl

theorem emitted_run (bus : Bus) (history : List Action) :
    (bus.run history).emitted = bus.emitted ++ bus.during sent history := by
  induction history generalizing bus with
  | nil => simp [run, during]
  | cons action rest ih =>
    have hrun : bus.run (action :: rest) = (bus.step action).run rest := rfl
    rw [hrun, ih, emitted_step, during, List.append_assoc]

/-! ## Peers that are gone -/

/-- Nothing that a peer does succeeds while it is not connected. -/
theorem attempt_of_not_isConnected {bus : Bus} {peer : String} {action : Action}
    (hactor : action.actor? = some peer) (h : bus.isConnected peer = false) :
    bus.attempt action = .error .disconnected := by
  cases action <;> simp only [Action.actor?, Option.some.injEq, reduceCtorEq] at hactor
  all_goals
    subst hactor
    simp [attempt, requestName, addMatch, registerObject, unregisterObject, emitSignal,
      whileConnected, h]

/-- After any history of a bus, all that it keeps belongs to connected peers, and no unique name was
handed out twice.  Whatever fails, be it only because the peer that tries is gone, leaves the bus as
it is.  Whatever happens later, a name stays with its owner until the owner is removed, and an
object with its exporter until it is removed or withdraws the object.  The signals that were sent
stay, and what follows them are the signals of peers that were connected, under their own names. -/
theorem ownership_discipline (available : Bool) (history : List Action) :
    let bus := run { available } history
    ((∀ name owner, bus.ownerOf name = some owner → bus.isConnected owner = true) ∧
      (∀ path exporter, bus.exporterOf path = some exporter → bus.isConnected exporter = true) ∧
      ∀ r ∈ bus.rules, bus.isConnected r.1 = true) ∧
    (during given { available } history).Nodup ∧
    (∀ action e, bus.attempt action = .error e → bus.step action = bus) ∧
    (∀ action peer, action.actor? = some peer → bus.isConnected peer = false →
      bus.attempt action = .error .disconnected) ∧
    ∀ later : List Action,
      (bus.run later).emitted = bus.emitted ++ bus.during sent later ∧
      ∀ peer, .removePeer peer ∉ later →
        (∀ name, bus.ownerOf name = some peer → (bus.run later).ownerOf name = some peer) ∧
        ∀ path, bus.exporterOf path = some peer → .unregisterObject peer path ∉ later →
          (bus.run later).exporterOf path = some peer := by
  intro bus
  have hproper : bus.Proper := proper_run available history
  refine ⟨⟨fun _ _ => hproper.owners, fun _ _ => hproper.exporters, fun _ => hproper.subscribers⟩,
    nodup_given _ history, fun _ _ => step_of_error, fun _ _ => attempt_of_not_isConnected,
    fun later => ⟨emitted_run bus later, fun peer hstays => ⟨fun _ h => ?_, fun _ h hkept => ?_⟩⟩⟩
  · exact ownerOf_run h hstays
  · exact exporterOf_run h hstays hkept

def contestedPath : ObjectPath := ⟨"/contested", by decide⟩

/-- One of two connections has a name and an object. -/
def contested : List Action :=
  [.connect .session, .connect .session, .requestName ":1.0" "org.contested",
    .registerObject ":1.0" contestedPath]

/-- The other connection tries to get both, also when it is gone, and then the first one sends a
signal under a name that is not its own. -/
def rivalry : List Action :=
  [.requestName ":1.1" "org.contested", .unregisterObject ":1.1" contestedPath,
    .registerObject ":1.1" contestedPath, .removePeer ":1.1",
    .requestName ":1.1" "org.contested",
    .emitSignal ":1.0" ⟨some ":1.1", contestedPath, "org.contested", "Kept", []⟩]

/-- After `rivalry` all is as it was, but for the peer that is gone and the signal. -/
theorem ownership_discipline_contested :
    let bus := run {} contested
    bus.ownerOf "org.contested" = some ":1.0" ∧ bus.exporterOf contestedPath = some ":1.0" ∧
      (bus.run rivalry).ownerOf "org.contested" = some ":1.0" ∧
      (bus.run rivalry).exporterOf contestedPath = some ":1.0" ∧
      (bus.run rivalry).emitted.map (·.sender) = [some ":1.0"] ∧
      ∃ e, bus.attempt (.requestName ":1.1" "org.contested") = .error e ∧
        bus.step (.requestName ":1.1" "org.contested") = bus := by
  have howner : (run {} contested).ownerOf "org.contested" = some ":1.0" := by decide
  have hexporter : (run {} contested).exporterOf contestedPath = some ":1.0" := by decide
  have hrefused : (run {} contested).attempt (.requestName ":1.1" "org.contested") =
      .error (.nameTaken "org.contested") := rfl
  obtain ⟨-, -, herror, -, hlater⟩ := ownership_discipline true contested
  obtain ⟨hemitted, hkeeps⟩ := hlater rivalry
  obtain ⟨hname, hpath⟩ := hkeeps ":1.0" (by simp [rivalry])
  refine ⟨howner, hexporter, hname _ howner, hpath _ hexporter (by simp [rivalry]), ?_, _, hrefused,
    herror _ _ hrefused⟩
  exact congrArg (List.map (·.sender)) hemitted

end LocationBroker.Bus
