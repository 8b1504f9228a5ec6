import LocationBroker.Proofs.Bus.Announcement
import LocationBroker.Proofs.Bus.Discipline

/-! # The removal of a peer

A peer that is removed takes what it has with it, and nothing else (`Without`).  The changes that
the bus announces say which names lost their owner by this (`removePeer_changes`), and every reader
of announcements takes them for departures.
-/

namespace LocationBroker.Bus

variable {bus : Bus} {peer : String}

/-- The bus afterwards is what is left of the bus when all that is the peer's is taken away. -/
structure Without (peer : String) (bus after : Bus) : Prop where
  connected : ∀ other, after.isConnected other = true ↔ bus.isConnected other = true ∧ other ≠ peer
  owners : ∀ name,
    after.ownerOf name = if bus.ownerOf name = some peer then none else bus.ownerOf name
  exporters : ∀ path,
    after.exporterOf path = if bus.exporterOf path = some peer then none else bus.exporterOf path
  rules : after.rules = bus.rules.filter (·.1 ≠ peer)
  emitted : after.emitted = bus.emitted
  serials : after.nextSerial = bus.nextSerial
  available : after.available = bus.available

theorem without_removePeer (h : bus.isConnected peer = true) :
    Without peer bus (bus.removePeer peer).2 := by
  rw [removePeer, if_pos h]
  constructor
  case connected => simp [isConnected]
  case owners => exact bus.names.get?_filter_ne peer
  case exporters => exact bus.objects.get?_filter_ne peer
  all_goals rfl

theorem removePeer_changes (h : bus.isConnected peer = true) :
    ∃ lost : List String, lost.Pairwise Text.Before ∧
      (∀ name, name ∈ lost ↔ bus.ownerOf name = some peer) ∧
      (bus.removePeer peer).1 = (lost ++ [peer]).map fun name => ⟨name, peer, ""⟩ := by
  refine ⟨(bus.names.filter fun _ owner => owner = peer).keys, Ledger.keys_ascending _,
    fun name => Ledger.mem_keys_filter_eq, ?_⟩
  rw [removePeer, if_pos h]
  rfl

/-- A connected peer has a unique name, and so a change can say whom a name was lost by. -/
theorem Proper.isDeparture (hproper : bus.Proper) (h : bus.isConnected peer = true)
    {c : OwnershipChange} (hc : c ∈ (bus.removePeer peer).1) : c.isDeparture = true := by
  obtain ⟨serial, -, rfl⟩ := hproper.handedOut h
  obtain ⟨lost, -, -, hchanges⟩ := removePeer_changes h
  rw [hchanges] at hc
  obtain ⟨name, -, rfl⟩ := List.mem_map.mp hc
  exact OwnershipChange.isDeparture_iff.mpr ⟨uniqueName_ne_empty serial, rfl⟩

/-- After any history of a bus, to remove somebody who is not connected announces nothing and
changes nothing.  The removal of a connected peer announces that each of its names, in ascending
order, and then its unique name lost their owner; whoever reads one of these announcements finds
the departure in it.  The peer is gone with all that it had, and to remove it again does nothing.
All others are connected, own, export and subscribe to what they did before, the subscriptions stand
in their old order, and the bus has sent and handed out the same. -/
theorem removal_exact (available : Bool) (history : List Action) (peer : String) :
    let bus := run { available } history
    let changes := (bus.removePeer peer).1
    let after := (bus.removePeer peer).2
    (bus.isConnected peer = false → changes = [] ∧ after = bus) ∧
    (bus.isConnected peer = true →
      (∃ lost : List String, lost.Pairwise Text.Before ∧
        (∀ name, name ∈ lost ↔ bus.ownerOf name = some peer) ∧
        changes = (lost ++ [peer]).map fun name => ⟨name, peer, ""⟩) ∧
      (∀ c ∈ changes, c.isDeparture = true ∧ OwnershipChange.ofMessage? c.toMessage = some c) ∧
      after.isConnected peer = false ∧ (∀ name, after.ownerOf name ≠ some peer) ∧
      (∀ path, after.exporterOf path ≠ some peer) ∧ (∀ r ∈ after.rules, r.1 ≠ peer) ∧
      Without peer bus after ∧ after.removePeer peer = ([], after)) := by
  intro bus changes after
  have hproper : bus.Proper := proper_run available history
  constructor
  · intro habsent
    have hnothing : bus.removePeer peer = ([], bus) := removePeer_of_not_isConnected habsent
    exact ⟨congrArg Prod.fst hnothing, congrArg Prod.snd hnothing⟩
  · intro hconnected
    have hwithout : Without peer bus after := without_removePeer hconnected
    have hgone : after.isConnected peer = false :=
      Bool.eq_false_iff.mpr fun h => ((hwithout.connected peer).mp h).2 rfl
    obtain ⟨hnames, hpaths, hrules⟩ := removePeer_leaves_nothing hconnected
    refine ⟨removePeer_changes hconnected, ?_, hgone, hnames, hpaths, hrules, hwithout,
      removePeer_of_not_isConnected hgone⟩
    intro c hc
    exact ⟨hproper.isDeparture hconnected hc, c.ofMessage?_toMessage⟩

def entangledPath : ObjectPath := ⟨"/entangled", by decide⟩

/-- Two connections have names, objects and subscriptions, and they got them by turns. -/
def entangled : List Action :=
  [.connect .session, .connect .session, .requestName ":1.0" "org.late",
    .requestName ":1.1" "org.other", .requestName ":1.0" "org.early",
    .addMatch ":1.1" { sender := some "first" }, .addMatch ":1.0" .ownershipChanges,
    .addMatch ":1.1" { sender := some "second" }, .registerObject ":1.0" entangledPath,
    .registerObject ":1.1" .root, .emitSignal ":1.0" ⟨none, .root, "org.early", "Here", []⟩]

/-- When the first connection of `entangled` is removed, the other one has what it had. -/
theorem removal_exact_entangled :
    let bus := run {} entangled
    let changes := (bus.removePeer ":1.0").1
    let after := (bus.removePeer ":1.0").2
    bus.isConnected ":1.7" = false ∧ (bus.removePeer ":1.7").2 = bus ∧
      bus.isConnected ":1.0" = true ∧ changes.map (·.name) = ["org.early", "org.late", ":1.0"] ∧
      (∀ c ∈ changes, OwnershipChange.ofMessage? c.toMessage = some c) ∧
      after.ownerOf "org.early" = none ∧ after.ownerOf "org.other" = some ":1.1" ∧
      after.exporterOf entangledPath = none ∧ after.exporterOf .root = some ":1.1" ∧
      after.rules.map (·.2.sender) = [some "first", some "second"] ∧
      after.emitted.map (·.sender) = [some ":1.0"] ∧ after.removePeer ":1.0" = ([], after) := by
  intro bus changes after
  have habsent : bus.isConnected ":1.7" = false := by decide
  have hconnected : bus.isConnected ":1.0" = true := by decide
  obtain ⟨hnothing, -⟩ := removal_exact true entangled ":1.7"
  obtain ⟨-, hremoved⟩ := removal_exact true entangled ":1.0"
  obtain ⟨-, hread, -, -, -, -, hwithout, hagain⟩ := hremoved hconnected
  refine ⟨habsent, (hnothing habsent).2, hconnected, by decide, fun c hc => (hread c hc).2, ?_, ?_,
    ?_, ?_, ?_, ?_, hagain⟩
  · exact (hwithout.owners _).trans (by decide)
  · exact (hwithout.owners _).trans (by decide)
  · exact (hwithout.exporters _).trans (by decide)
  · exact (hwithout.exporters _).trans (by decide)
  · rw [hwithout.rules]
    decide
  · rw [hwithout.emitted]
    decide

end LocationBroker.Bus
