import LocationBroker.Proofs.Broker.ProviderLifetime
import LocationBroker.Proofs.Broker.Series

/-! # Order and repetition of notifications

A broker may be shown messages late, in another order than they were sent in, or twice.  What it is
left with depends on nothing but which messages it was shown: `performAll_filter` says what that is.
-/

namespace LocationBroker.Broker

/-- One of the messages announces that the peer of the session is gone. -/
def orphanedBy (messages : List Bus.Message) (x : Session) : Bool :=
  messages.any fun m => (Presence.departed? m).any x.belongsTo

theorem orphanedBy_congr {messages others : List Bus.Message}
    (h : ∀ m, m ∈ messages ↔ m ∈ others) : orphanedBy messages = orphanedBy others := by
  funext x
  rw [Bool.eq_iff_iff, orphanedBy, orphanedBy, List.any_eq_true, List.any_eq_true]
  simp only [h]

namespace Service

variable {c : Config} {bus : Bus} {source : Provider.Source} {o : Outcome Unit}

/-- Several messages come to one ending, of the sessions whose peers they announce to be gone. -/
theorem performAll_filter {s : Service} (h : s.sessions.Numbered) (bus : Bus)
    (messages : List Bus.Message) :
    let gone := s.sessions.sessions.filter (orphanedBy messages)
    let shown := s.performAll bus (messages.map .filter)
    shown.service = s.ended (orphanedBy messages) ∧
      shown.bus = bus.withdrawn s.connection (gone.map (·.path)) ∧
      shown.effects.hookRuns.Perm (gone.flatMap (·.hookRuns)) := by
  have hends : (fun x => (messages.map Operation.filter).any (·.ends x)) = orphanedBy messages := by
    funext x
    rw [List.any_map]
    rfl
  have hending : ∀ operation ∈ messages.map Operation.filter, operation.isEnding = true := by
    intro operation hoperation
    obtain ⟨m, -, rfl⟩ := List.mem_map.mp hoperation
    rfl
  have hshown := performAll_endings h bus hending
  rwa [hends] at hshown

/-- After whatever a broker was asked since its start, it may be shown the same messages in any
order and with any repetitions: it keeps the same sessions in the same order, namely all but those
whose peers are gone, the same providers and serials, and leaves the bus the same; it lets the
providers go at most once, and each hook is run as often one way as the other.

All of it goes to its end exactly if the hooks of the sessions that end do; a hook that ends its
worker breaks the operation off.  The occasions before go to their ends if no such hook is attached
on any of them. -/
theorem notifications_unordered (hstart : start c bus source = .ok o) (occasions : List Occasion)
    (current : Bus) {messages others : List Bus.Message}
    (hsame : ∀ m, m ∈ messages ↔ m ∈ others) :
    let s := o.service.after occasions
    let gone := s.sessions.sessions.filter (orphanedBy messages)
    let left := s.sessions.sessions.filter (!orphanedBy messages ·)
    let shown := s.performAll current (messages.map .filter)
    let shown' := s.performAll current (others.map .filter)
    shown.service = shown'.service ∧ shown.bus = shown'.bus ∧
      shown.effects.hookRuns.Perm shown'.effects.hookRuns ∧
      shown.service = { s with
        sessions := { s.sessions with sessions := left }
        providers := if gone ≠ [] ∧ left = [] then s.providers.release.1 else s.providers } ∧
      shown.effects.hookRuns.Perm (gone.flatMap (·.hookRuns)) ∧
      (Harmless shown.effects ↔ ∀ x ∈ gone, x.Gentle) ∧
      (Harmless shown'.effects ↔ ∀ x ∈ gone, x.Gentle) ∧
      ((∀ occasion ∈ occasions, occasion.operation.Gentle) → o.service.Unbroken occasions) := by
  intro s gone left shown shown'
  have hnumbered : s.sessions.Numbered := (after_replay (start_numbered hstart) occasions).1
  obtain ⟨hservice, hbus, hruns⟩ := performAll_filter hnumbered current messages
  obtain ⟨hservice', hbus', hruns'⟩ := performAll_filter hnumbered current others
  rw [← orphanedBy_congr hsame] at hservice' hbus' hruns'
  exact ⟨hservice.trans hservice'.symm, hbus.trans hbus'.symm, hruns.trans hruns'.symm,
    hservice.trans (s.ended_eq _), hruns, harmless_iff hruns, harmless_iff hruns',
    start_unbroken hstart⟩

/-- Two clients with a session each, and a hook on either. -/
def pair : List Operation :=
  [.sessionFor ":1.1", .sessionFor ":1.2",
    .attachHook "/org/freedesktop/Geoclue/Master/client0" ⟨"first", false⟩,
    .attachHook "/org/freedesktop/Geoclue/Master/client1" ⟨"second", false⟩]

/-- The first client hands a name to the second one, and both leave. -/
def partings : List Bus.Message :=
  [Bus.OwnershipChange.toMessage ⟨"org.shared", ":1.1", ":1.2"⟩,
    Bus.OwnershipChange.toMessage ⟨":1.1", ":1.1", ""⟩,
    Bus.OwnershipChange.toMessage ⟨":1.2", ":1.2", ""⟩]

/-- What is announced is the same, in another order and twice over. -/
def partingsAgain : List Bus.Message :=
  partings.reverse ++ partings

set_option maxRecDepth 8000 in
/-- The second of the `pair` is the last to leave, or the first: the providers go once all the
same. -/
theorem notifications_unordered_partings :
    (∀ m, m ∈ partings ↔ m ∈ partingsAgain) ∧
      ∃ o, start {} {} described = .ok o ∧
        let s := o.service.after (pair.map fun operation => ⟨o.bus, operation⟩)
        let current := (o.service.performAll o.bus pair).bus
        let shown := s.performAll current (partings.map .filter)
        let shown' := s.performAll current (partingsAgain.map .filter)
        shown.service = shown'.service ∧ shown.bus = shown'.bus ∧
          shown.service.sessions.sessions = [] ∧ shown.service.providers.releases = 1 ∧
          (shown'.effects.hookRuns.map (·.1.tag)).Perm ["first", "second"] ∧
          Harmless shown'.effects := by
  have hsame : ∀ m, m ∈ partings ↔ m ∈ partingsAgain := by simp [partingsAgain]
  obtain ⟨o, hstart, hgone, hhooks, hleft, hrecords, hreleases⟩ := exists_start {} {} described
    (fun o =>
      let s := o.service.after (pair.map fun operation => ⟨o.bus, operation⟩)
      let gone := s.sessions.sessions.filter (orphanedBy partings)
      (gone.flatMap (·.hookRuns)).map (·.1.tag) = ["first", "second"] ∧
        (∀ run ∈ gone.flatMap (·.hookRuns), run.1.aborts = false) ∧
        (s.sessions.sessions.filter (!orphanedBy partings ·)).length = 0 ∧
        s.providers.records.length = 1 ∧ s.providers.releases = 0) (by decide +kernel)
  obtain ⟨hservice, hbus, hruns, hshown, hruns', -, hharmless, -⟩ := notifications_unordered hstart
    (pair.map fun operation => ⟨o.bus, operation⟩) (o.service.performAll o.bus pair).bus hsame
  have hsome := List.ne_nil_of_length_eq_add_one hrecords
  have hlast := List.length_eq_zero_iff.mp hleft
  have hmany : List.filter (orphanedBy partings)
      (o.service.after (pair.map fun operation => ⟨o.bus, operation⟩)).sessions.sessions ≠ [] := by
    intro hnone
    rw [hnone] at hgone
    cases hgone
  refine ⟨hsame, o, hstart, hservice, hbus, ?_, ?_, ?_, hharmless.mpr fun x hx => ?_⟩
  · rw [hshown]
    exact hlast
  · rw [hshown]
    dsimp only
    rw [if_pos ⟨hmany, hlast⟩, Provider.Registry.release_of_ne_nil hsome]
    exact congrArg (· + 1) hreleases
  · rw [← hgone]
    exact (hruns.symm.trans hruns').map _
  · exact gentle_iff_hookRuns.mpr fun run hrun => hhooks run (List.mem_flatMap.mpr ⟨x, hx, hrun⟩)

end Service

end LocationBroker.Broker
