import LocationBroker.Bus.MatchRule

/-! # Announcements of ownership

Three readers look at an announcement: the reader of its arguments, the test for a departure, and
the match rule that a subscriber states.  Each is described by what a message has to be for it to
accept the message.
-/

namespace LocationBroker.Bus

theorem Signal.announcesOwnership_iff {s : Signal} :
    s.announcesOwnership = true ↔ s.interface = busInterface ∧ s.member = nameOwnerChanged := by
  simp [announcesOwnership]

namespace OwnershipChange

variable {c : OwnershipChange}

/-- A change is read from two texts if it has no new owner, and otherwise only from three. -/
theorem ofArgs?_eq_some_iff {args : List Argument} :
    ofArgs? args = some c ↔
      args = [.str c.name, .str c.oldOwner, .str c.newOwner] ∨
        c.newOwner = "" ∧ args = [.str c.name, .str c.oldOwner] := by
  constructor
  · intro h
    unfold ofArgs? at h
    -- Two texts, three texts, and all other lists of arguments.
    split at h
    · cases h
      exact .inr ⟨rfl, rfl⟩
    · cases h
      exact .inl rfl
    · cases h
  · rintro (rfl | ⟨hnew, rfl⟩)
    · rfl
    · rw [ofArgs?, ← hnew]

theorem ofMessage?_eq_some_iff {m : Message} :
    ofMessage? m = some c ↔
      ∃ s, m = .signal s ∧ s.announcesOwnership = true ∧
        (s.args = [.str c.name, .str c.oldOwner, .str c.newOwner] ∨
          c.newOwner = "" ∧ s.args = [.str c.name, .str c.oldOwner]) := by
  cases m with
  | call => simp [ofMessage?]
  | signal s =>
    by_cases hannounces : s.announcesOwnership = true
    · simp [ofMessage?, hannounces, ofArgs?_eq_some_iff]
    · simp [ofMessage?, hannounces]

/-- What the bus writes is read as it was meant. -/
theorem ofMessage?_toMessage (c : OwnershipChange) : ofMessage? c.toMessage = some c :=
  ofMessage?_eq_some_iff.mpr
    ⟨c.toSignal, rfl, Signal.announcesOwnership_iff.mpr ⟨rfl, rfl⟩, .inl rfl⟩

theorem isDeparture_iff : c.isDeparture = true ↔ c.oldOwner ≠ "" ∧ c.newOwner = "" := by
  simp [isDeparture]

end OwnershipChange

/-- The rule states what an announcement is known by, and nothing of its sender, its path or its
arguments. -/
theorem MatchRule.ownershipChanges_covers_iff {m : Message} :
    ownershipChanges.covers m = true ↔ ∃ s, m = .signal s ∧ s.announcesOwnership = true := by
  cases m with
  | call =>
    simp [covers, ownershipChanges, agrees, Message.type]
  | signal s =>
    simp [covers, ownershipChanges, agrees, Message.type, Message.interface, Message.member,
      Signal.announcesOwnership_iff]

end LocationBroker.Bus
