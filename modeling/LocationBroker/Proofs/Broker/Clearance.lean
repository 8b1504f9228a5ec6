import LocationBroker.Proofs.Broker.Series

/-! # Clearing away a client

One way to destroy the sessions of a client is to look for the oldest one and to destroy the session
at its path, until there is none to be found (`Clears`).  The search goes by the owner and the
destruction by the path, so the loop makes way only because paths tell sessions apart: what it
destroys is what it found.  It comes to an end, and to the same as a departure (`clears_iff`).
-/

namespace LocationBroker.Broker.Service

variable {s : Service} {bus : Bus} {name : String}

/-- Destroys the oldest session of a client for as long as it has one, and counts. -/
inductive Clears (name : String) : Service → Bus → Outcome Nat → Prop where
  | done {s : Service} {bus : Bus} (hnone : s.sessions.find? name = none) :
      Clears name s bus { result := 0, service := s, bus, effects := [] }
  | again {s : Service} {bus : Bus} {x : Session} {others : Outcome Nat}
      (hfound : s.sessions.find? name = some x)
      (hothers : Clears name (s.teardown bus x.path).service (s.teardown bus x.path).bus others) :
      Clears name s bus { others with
        result := others.result + 1
        effects := (s.teardown bus x.path).effects ++ others.effects }

/-- What is to be done next depends on the broker alone, so the loop can end in one way only. -/
theorem Clears.unique {o other : Outcome Nat} (h : Clears name s bus o)
    (hother : Clears name s bus other) : other = o := by
  induction h generalizing other with
  | done hnone =>
    cases hother with
    | done => rfl
    | again hfound =>
      rw [hnone] at hfound
      cases hfound
  | again hfound _ ih =>
    cases hother with
    | done hnone =>
      rw [hfound] at hnone
      cases hnone
    | again hfound' hothers' =>
      rw [hfound] at hfound'
      cases hfound'
      rw [ih hothers']

/-- The loop destroys the sessions of the client from the oldest to the youngest. -/
theorem clears_teardownAll {gone : List Session} (h : s.sessions.Numbered) (bus : Bus)
    (hgone : s.sessions.sessions.filter (·.belongsTo name) = gone) :
    let all := s.teardownAll bus (gone.map (·.path))
    Clears name s bus { all with result := gone.length } := by
  -- By induction on the sessions that the client still has.
  induction gone generalizing s bus with
  | nil =>
    refine .done ?_
    rw [Session.Registry.find?_eq_head?, hgone]
    rfl
  | cons x rest ih =>
    have hfound : s.sessions.find? name = some x := by
      rw [Session.Registry.find?_eq_head?, hgone]
      rfl
    have hrest : (s.teardown bus x.path).service.sessions.sessions.filter (·.belongsTo name) =
        rest := by
      rw [teardown_sessions]
      exact h.filter_remove_oldest hgone
    exact .again hfound (ih (teardown_numbered h bus x.path) (s.teardown bus x.path).bus hrest)

/-- The loop ends, and leaves what a departure leaves; the departure also tells that it is over. -/
theorem clears_iff (h : s.sessions.Numbered) (bus : Bus) (name : String) :
    let gone := s.sessions.sessions.filter (·.belongsTo name)
    ∃ cleared, (∀ o, Clears name s bus o ↔ o = cleared) ∧
      s.depart bus name =
        { cleared with effects := cleared.effects ++ Operation.farewellTo name gone } := by
  intro gone
  have hcleared : Clears name s bus _ := clears_teardownAll h bus rfl
  refine ⟨_, fun o => ⟨hcleared.unique, ?_⟩, s.depart_eq bus name⟩
  rintro rfl
  exact hcleared

end LocationBroker.Broker.Service
