import LocationBroker.Proofs.Bus.Serial

/-! # Actions on the bus

What can be done to a bus from outside is an `Action`, and a history of a bus is a list of them.
Each operation is described once, by what it needs to succeed and what it leaves behind
(`requestName_eq_ok_iff` and its companions), or by what can be looked up afterwards if it cannot
fail (`isConnected_removePeer` and its companions).  Everything else goes through these
descriptions, by way of `Change`, which says in one place what an action can do to a bus.
-/

namespace LocationBroker.Bus

/-- Something that is done to a bus.  What a connection does names the connection first. -/
inductive Action where
  | setAvailable (available : Bool)
  | connect (kind : Kind)
  | addPeer
  | removePeer (peer : String)
  | requestName (peer name : String)
  | addMatch (peer : String) (rule : MatchRule)
  | registerObject (peer : String) (path : ObjectPath)
  | unregisterObject (peer : String) (path : ObjectPath)
  | emitSignal (peer : String) (signal : Signal)

/-- The connection that takes the action. -/
def Action.actor? : Action → Option String
  | .requestName peer _ | .addMatch peer _ | .registerObject peer _ | .unregisterObject peer _
  | .emitSignal peer _ => some peer
  | .setAvailable _ | .connect _ | .addPeer | .removePeer _ => none

/-- The bus after an action, or why the action fails. -/
def attempt (bus : Bus) : Action → Except Error Bus
  | .setAvailable available => .ok (bus.setAvailable available)
  | .connect kind => (bus.connect kind).map (·.2)
  | .addPeer => .ok bus.addPeer.2
  | .removePeer peer => .ok (bus.removePeer peer).2
  | .requestName peer name => bus.requestName peer name
  | .addMatch peer rule => bus.addMatch peer rule
  | .registerObject peer path => bus.registerObject peer path
  | .unregisterObject peer path => bus.unregisterObject peer path
  | .emitSignal peer signal => bus.emitSignal peer signal

def step (bus : Bus) (action : Action) : Bus :=
  match bus.attempt action with
  | .ok after => after
  | .error _ => bus

def run (bus : Bus) (history : List Action) : Bus :=
  history.foldl step bus

/-- The changes of ownership that an action makes the bus announce. -/
def announcements (bus : Bus) : Action → List OwnershipChange
  | .removePeer peer => (bus.removePeer peer).1
  | _ => []

/-- Why the bus refuses an action, if it does. -/
def refusal? (bus : Bus) (action : Action) : Option Error :=
  match bus.attempt action with
  | .ok _ => none
  | .error e => some e

theorem step_of_ok {bus after : Bus} {action : Action} (h : bus.attempt action = .ok after) :
    bus.step action = after := by
  rw [step, h]

theorem step_of_error {bus : Bus} {action : Action} {e : Error}
    (h : bus.attempt action = .error e) : bus.step action = bus := by
  rw [step, h]

theorem refusal?_eq_none_iff {bus : Bus} {action : Action} :
    bus.refusal? action = none ↔ ∃ after, bus.attempt action = .ok after := by
  rw [refusal?]
  cases bus.attempt action <;> simp

theorem refusal?_eq_some_iff {bus : Bus} {action : Action} {e : Error} :
    bus.refusal? action = some e ↔ bus.attempt action = .error e := by
  rw [refusal?]
  cases bus.attempt action <;> simp

/-! ## What each operation does -/

theorem connect_eq_ok_iff {bus after : Bus} {kind : Kind} {peer : String} :
    bus.connect kind = .ok (peer, after) ↔
      bus.available = true ∧ peer = uniqueName bus.nextSerial ∧ after = bus.addPeer.2 := by
  rw [connect]
  split
  · simp only [*, addPeer, Except.ok.injEq, Prod.mk.injEq, true_and]
    exact and_congr eq_comm eq_comm
  · simp [*]

theorem requestName_eq_ok_iff {bus after : Bus} {peer name : String} :
    bus.requestName peer name = .ok after ↔
      bus.isConnected peer = true ∧
        (bus.ownerOf name = some peer ∧ after = bus ∨
          bus.ownerOf name = none ∧ after = { bus with names := bus.names.insert name peer }) := by
  rw [requestName, whileConnected_eq_ok_iff]
  refine and_congr_right fun _ => ?_
  cases bus.ownerOf name with
  | none => simpa using eq_comm
  | some owner =>
    by_cases howner : owner = peer
    · simpa [howner] using eq_comm
    · simp [howner]

theorem addMatch_eq_ok_iff {bus after : Bus} {peer : String} {rule : MatchRule} :
    bus.addMatch peer rule = .ok after ↔
      bus.isConnected peer = true ∧ after = { bus with rules := bus.rules ++ [(peer, rule)] } := by
  rw [addMatch, whileConnected_eq_ok_iff, Except.ok.injEq, eq_comm (a := after)]

theorem registerObject_eq_ok_iff {bus after : Bus} {peer : String} {path : ObjectPath} :
    bus.registerObject peer path = .ok after ↔
      bus.isConnected peer = true ∧ bus.exporterOf path = none ∧
        after = { bus with objects := bus.objects.insert path peer } := by
  rw [registerObject, whileConnected_eq_ok_iff]
  refine and_congr_right fun _ => ?_
  have hexported : bus.isExported path = (bus.exporterOf path).isSome := rfl
  cases hpath : bus.exporterOf path with
  | none => simpa [hexported, hpath] using eq_comm
  | some exporter => simp [hexported, hpath]

theorem unregisterObject_eq_ok_iff {bus after : Bus} {peer : String} {path : ObjectPath} :
    bus.unregisterObject peer path = .ok after ↔
      bus.isConnected peer = true ∧ bus.exporterOf path = some peer ∧
        after = { bus with objects := bus.objects.erase path } := by
  rw [unregisterObject, whileConnected_eq_ok_iff]
  refine and_congr_right fun _ => ?_
  by_cases hpath : bus.exporterOf path = some peer
  · simpa [hpath] using eq_comm
  · simp [hpath]

theorem refusal?_registerObject (bus : Bus) (peer : String) (path : ObjectPath) :
    bus.refusal? (.registerObject peer path) =
      if bus.isConnected peer = true then
        if bus.isExported path = true then some (.objectAlreadyRegistered path.text) else none
      else some .disconnected := by
  by_cases hpeer : bus.isConnected peer = true
  · by_cases hpath : bus.isExported path = true <;>
      simp [refusal?, attempt, registerObject, whileConnected, hpeer, hpath]
  · simp [refusal?, attempt, registerObject, whileConnected, hpeer]

theorem refusal?_unregisterObject (bus : Bus) (peer : String) (path : ObjectPath) :
    bus.refusal? (.unregisterObject peer path) =
      if bus.isConnected peer = true then
        if bus.exporterOf path = some peer then none else some (.objectNotRegistered path.text)
      else some .disconnected := by
  by_cases hpeer : bus.isConnected peer = true
  · by_cases hpath : bus.exporterOf path = some peer <;>
      simp [refusal?, attempt, unregisterObject, whileConnected, hpeer, hpath]
  · simp [refusal?, attempt, unregisterObject, whileConnected, hpeer]

/-- Whether an object can be withdrawn does not depend on what was withdrawn at other paths. -/
theorem refusal?_step_of_ne {bus : Bus} {peer : String} {path other : ObjectPath}
    (hne : path ≠ other) :
    (bus.step (.unregisterObject peer other)).refusal? (.unregisterObject peer path) =
      bus.refusal? (.unregisterObject peer path) := by
  cases hother : bus.attempt (.unregisterObject peer other) with
  | error e => rw [step_of_error hother]
  | ok after =>
    obtain ⟨-, -, rfl⟩ := unregisterObject_eq_ok_iff.mp hother
    have hexporter : ({ bus with objects := bus.objects.erase other } : Bus).exporterOf path =
        bus.exporterOf path := by
      simp [exporterOf, Ledger.get?_erase, hne]
    rw [step_of_ok hother, refusal?_unregisterObject, refusal?_unregisterObject, hexporter]
    rfl

theorem emitSignal_eq_ok_iff {bus after : Bus} {peer : String} {signal : Signal} :
    bus.emitSignal peer signal = .ok after ↔
      bus.isConnected peer = true ∧
        after = { bus with emitted := bus.emitted ++ [{ signal with sender := some peer }] } := by
  rw [emitSignal, whileConnected_eq_ok_iff, Except.ok.injEq, eq_comm (a := after)]

/-- What an action does that changes the bus, with what it needs to do so. -/
inductive Change (bus : Bus) : Action → Bus → Prop where
  | setAvailable (available : Bool) :
      Change bus (.setAvailable available) (bus.setAvailable available)
  | connect (kind : Kind) : Change bus (.connect kind) bus.addPeer.2
  | addPeer : Change bus .addPeer bus.addPeer.2
  | removePeer (peer : String) : Change bus (.removePeer peer) (bus.removePeer peer).2
  | requestName {peer name : String} (connected : bus.isConnected peer = true)
      (free : bus.ownerOf name = none) :
      Change bus (.requestName peer name) { bus with names := bus.names.insert name peer }
  | addMatch {peer : String} (rule : MatchRule) (connected : bus.isConnected peer = true) :
      Change bus (.addMatch peer rule) { bus with rules := bus.rules ++ [(peer, rule)] }
  | registerObject {peer : String} {path : ObjectPath} (connected : bus.isConnected peer = true)
      (free : bus.exporterOf path = none) :
      Change bus (.registerObject peer path) { bus with objects := bus.objects.insert path peer }
  | unregisterObject {peer : String} {path : ObjectPath} (connected : bus.isConnected peer = true)
      (exported : bus.exporterOf path = some peer) :
      Change bus (.unregisterObject peer path) { bus with objects := bus.objects.erase path }
  | emitSignal {peer : String} (signal : Signal) (connected : bus.isConnected peer = true) :
      Change bus (.emitSignal peer signal)
        { bus with emitted := bus.emitted ++ [{ signal with sender := some peer }] }

/-- An action changes the bus in one of these ways, or not at all. -/
theorem step_cases (bus : Bus) (action : Action) :
    bus.step action = bus ∨ ∃ after, bus.step action = after ∧ Change bus action after := by
  cases h : bus.attempt action with
  | error e => exact .inl (step_of_error h)
  | ok after =>
    -- What an operation needed to succeed comes with its description.
    rw [step_of_ok h]
    cases action with
    | setAvailable available => cases h; exact .inr ⟨_, rfl, .setAvailable available⟩
    | connect kind =>
      cases hconnect : bus.connect kind with
      | error e => simp [attempt, hconnect, Except.map] at h
      | ok joined =>
        obtain ⟨-, -, hbus⟩ := connect_eq_ok_iff.mp hconnect
        simp only [attempt, hconnect, Except.map, Except.ok.injEq] at h
        exact .inr ⟨_, h.symm.trans hbus, .connect kind⟩
    | addPeer => cases h; exact .inr ⟨_, rfl, .addPeer⟩
    | removePeer peer => cases h; exact .inr ⟨_, rfl, .removePeer peer⟩
    | requestName peer name =>
      obtain ⟨hpeer, ⟨-, rfl⟩ | ⟨hfree, rfl⟩⟩ := requestName_eq_ok_iff.mp h
      · exact .inl rfl
      · exact .inr ⟨_, rfl, .requestName hpeer hfree⟩
    | addMatch peer rule =>
      obtain ⟨hpeer, rfl⟩ := addMatch_eq_ok_iff.mp h
      exact .inr ⟨_, rfl, .addMatch rule hpeer⟩
    | registerObject peer path =>
      obtain ⟨hpeer, hfree, rfl⟩ := registerObject_eq_ok_iff.mp h
      exact .inr ⟨_, rfl, .registerObject hpeer hfree⟩
    | unregisterObject peer path =>
      obtain ⟨hpeer, hexported, rfl⟩ := unregisterObject_eq_ok_iff.mp h
      exact .inr ⟨_, rfl, .unregisterObject hpeer hexported⟩
    | emitSignal peer signal =>
      obtain ⟨hpeer, rfl⟩ := emitSignal_eq_ok_iff.mp h
      exact .inr ⟨_, rfl, .emitSignal signal hpeer⟩

/-! ## What is there after joining and leaving -/

theorem isConnected_addPeer {bus : Bus} {peer : String} :
    bus.addPeer.2.isConnected peer = true ↔
      bus.isConnected peer = true ∨ peer = uniqueName bus.nextSerial := by
  simp [addPeer, isConnected]

theorem isConnected_addPeer_self (bus : Bus) :
    bus.addPeer.2.isConnected (uniqueName bus.nextSerial) = true :=
  isConnected_addPeer.mpr (.inr rfl)

theorem isConnected_removePeer {bus : Bus} {gone peer : String} :
    (bus.removePeer gone).2.isConnected peer = true ↔
      bus.isConnected peer = true ∧ peer ≠ gone := by
  cases h : bus.isConnected gone with
  | true =>
    rw [removePeer, if_pos h]
    simp [isConnected]
  | false =>
    rw [removePeer_of_not_isConnected h]
    refine ⟨fun hpeer => ⟨hpeer, ?_⟩, And.left⟩
    rintro rfl
    rw [h] at hpeer
    cases hpeer

theorem nextSerial_removePeer (bus : Bus) (gone : String) :
    (bus.removePeer gone).2.nextSerial = bus.nextSerial := by
  rw [removePeer]
  split <;> rfl

/-- What a peer owns and exports is not touched when another one leaves. -/
theorem ownerOf_removePeer {bus : Bus} {gone peer name : String} (hpeer : peer ≠ gone) :
    (bus.removePeer gone).2.ownerOf name = some peer ↔ bus.ownerOf name = some peer := by
  rw [removePeer]
  split
  · simp only [ownerOf, Ledger.get?_filter, Option.filter_eq_some_iff]
    simp [hpeer]
  · rfl

theorem exporterOf_removePeer {bus : Bus} {gone peer : String} {path : ObjectPath}
    (hpeer : peer ≠ gone) :
    (bus.removePeer gone).2.exporterOf path = some peer ↔ bus.exporterOf path = some peer := by
  rw [removePeer]
  split
  · simp only [exporterOf, Ledger.get?_filter, Option.filter_eq_some_iff]
    simp [hpeer]
  · rfl

theorem mem_rules_removePeer {bus : Bus} {gone : String} {r : String × MatchRule}
    (hr : r.1 ≠ gone) : r ∈ (bus.removePeer gone).2.rules ↔ r ∈ bus.rules := by
  rw [removePeer]
  split
  · simp [hr]
  · rfl

theorem mem_exportsOf {bus : Bus} {peer : String} {path : ObjectPath} :
    path ∈ bus.exportsOf peer ↔ bus.exporterOf path = some peer :=
  Ledger.mem_keys_filter_eq

/-- What is announced is the departure of a connected peer, from a name that it owns or from its
unique name. -/
theorem mem_announcements {bus : Bus} {action : Action} {c : OwnershipChange} :
    c ∈ bus.announcements action ↔
      action = .removePeer c.oldOwner ∧ bus.isConnected c.oldOwner = true ∧ c.newOwner = "" ∧
        (c.name = c.oldOwner ∨ bus.ownerOf c.name = some c.oldOwner) := by
  cases action with
  | removePeer gone =>
    rw [announcements, removePeer]
    split
    · rename_i hgone
      simp only [departures, List.mem_map, List.mem_append, List.mem_singleton,
        Ledger.mem_keys_filter_eq]
      constructor
      · rintro ⟨name, hname, rfl⟩
        exact ⟨rfl, hgone, rfl, hname.symm⟩
      · rintro ⟨hsame, -, hnew, hname⟩
        cases hsame
        refine ⟨c.name, hname.symm, ?_⟩
        rw [← hnew]
    · -- Nobody hears of a peer that was not there.
      rename_i hgone
      refine iff_of_false List.not_mem_nil ?_
      rintro ⟨hsame, hconnected, -⟩
      cases hsame
      exact hgone hconnected
  | _ => simp [announcements]

theorem removePeer_leaves_nothing {bus : Bus} {gone : String} (h : bus.isConnected gone = true) :
    (∀ name, (bus.removePeer gone).2.ownerOf name ≠ some gone) ∧
      (∀ path, (bus.removePeer gone).2.exporterOf path ≠ some gone) ∧
      ∀ r ∈ (bus.removePeer gone).2.rules, r.1 ≠ gone := by
  rw [removePeer, if_pos h]
  refine ⟨fun name hname => ?_, fun path hpath => ?_, fun r hr => ?_⟩
  · simp only [ownerOf, Ledger.get?_filter, Option.filter_eq_some_iff] at hname
    simp at hname
  · simp only [exporterOf, Ledger.get?_filter, Option.filter_eq_some_iff] at hpath
    simp at hpath
  · simpa using (List.mem_filter.mp hr).2

end LocationBroker.Bus
