import LocationBroker.Proofs.Broker.Endings
import LocationBroker.Proofs.Bus.Withdrawal

/-! # Endings one after the other

A broker is asked for several operations in a row, while nobody else does anything on the bus.  If
they only end sessions, it comes to one ending of all the sessions that any of them ends
(`performAll_endings`): the broker is left without these sessions (`ended`), the bus without their
objects, and the order of the operations shows in nothing but the order of what is told.
-/

namespace LocationBroker.Broker.Service

open Session.Registry (Leaving)

variable {s : Service} {gone : List Session} {ends : Session → Bool}

/-- Performs operations one after the other, while nobody else does anything on the bus. -/
def performAll (s : Service) (bus : Bus) : List Operation → Outcome Unit
  | [] => { result := (), service := s, bus, effects := [] }
  | operation :: rest =>
    let first := s.perform bus operation
    let others := first.service.performAll first.bus rest
    { others with effects := first.effects ++ others.effects }

/-! ## The broker without some of its sessions -/

/-- The broker once the sessions with a property are destroyed.  The providers go with the last
session. -/
def ended (s : Service) (ends : Session → Bool) : Service :=
  let left := s.sessions.sessions.filter (!ends ·)
  { s with
    sessions := { s.sessions with sessions := left }
    providers := if s.sessions.sessions ≠ [] ∧ left = [] then s.providers.release.1
      else s.providers }

/-- The last session is gone exactly if some session was destroyed and none is left. -/
theorem ended_providers (s : Service) (ends : Session → Bool) :
    (s.ended ends).providers =
      if s.sessions.sessions.filter ends ≠ [] ∧ (s.ended ends).sessions.sessions = [] then
        s.providers.release.1
      else s.providers := by
  refine if_congr (and_congr_left fun hnone => not_congr ?_) rfl rfl
  constructor
  · intro hempty
    rw [hempty, List.filter_nil]
  · intro hgone
    refine List.eq_nil_iff_forall_not_mem.mpr fun x hx => ?_
    cases hends : ends x with
    | true => exact List.filter_eq_nil_iff.mp hgone x hx hends
    | false => exact List.filter_eq_nil_iff.mp hnone x hx (by rw [hends, Bool.not_false])

theorem ended_eq (s : Service) (ends : Session → Bool) :
    let gone := s.sessions.sessions.filter ends
    let left := s.sessions.sessions.filter (!ends ·)
    s.ended ends = { s with
      sessions := { s.sessions with sessions := left }
      providers := if gone ≠ [] ∧ left = [] then s.providers.release.1 else s.providers } :=
  congrArg (fun providers => ({ s.ended ends with providers } : Service)) (s.ended_providers ends)

theorem ended_eq_self (h : ∀ x ∈ s.sessions.sessions, ends x = false) : s.ended ends = s := by
  have hleft : s.sessions.sessions.filter (!ends ·) = s.sessions.sessions := by simpa using h
  simp [ended, hleft]

/-- To destroy some sessions and then others is to destroy all of them. -/
theorem ended_ended (s : Service) (ends others : Session → Bool) :
    (s.ended ends).ended others = s.ended fun x => ends x || others x := by
  have hleft : (s.sessions.sessions.filter (!ends ·)).filter (!others ·) =
      s.sessions.sessions.filter fun x => !(ends x || others x) := by
    rw [List.filter_filter]
    exact List.filter_congr fun x _ => by rw [Bool.not_or, Bool.and_comm]
  simp only [ended, hleft]
  -- The providers go with the last session, whichever of the two endings that is.
  by_cases hfirst : s.sessions.sessions.filter (!ends ·) = []
  · have hnone : s.sessions.sessions.filter (fun x => !(ends x || others x)) = [] := by
      rw [← hleft, hfirst, List.filter_nil]
    simp only [hfirst, hnone, ne_eq, not_true_eq_false, false_and, if_false]
  · have hsome : s.sessions.sessions ≠ [] := fun hempty => hfirst (by rw [hempty, List.filter_nil])
    simp only [hfirst, hsome, ne_eq, not_false_eq_true, true_and, and_false, if_false]

/-! ## What the ends of sessions leave on the bus -/

theorem teardownAll_bus (s : Service) (bus : Bus) (paths : List Bus.ObjectPath) :
    (s.teardownAll bus paths).bus = bus.withdrawn s.connection paths := by
  induction paths generalizing s bus with
  | nil => exact (bus.withdrawn_nil s.connection).symm
  | cons path rest ih =>
    have hfirst : (s.teardown bus path).bus = bus.withdrawn s.connection [path] := by
      rw [teardown_bus]
      cases s.connection with
      | none => exact (Bus.withdrawn_of_absent (by simp) [path]).symm
      | some peer => exact bus.step_unregisterObject peer path
    have hconnection : (s.teardown bus path).service.connection = s.connection := rfl
    rw [teardownAll]
    dsimp only
    rw [ih, hconnection, hfirst, Bus.withdrawn_withdrawn, List.singleton_append]

theorem teardownAll_ended (h : s.sessions.Numbered) (bus : Bus) (ends : Session → Bool) :
    (s.teardownAll bus ((s.sessions.sessions.filter ends).map (·.path))).service =
      s.ended ends := by
  have hproviders := teardownAll_providers (h.leaving ends) bus
  dsimp only at hproviders
  rw [teardownAll_sessions, h.filter_not_mem ends] at hproviders
  have hended : (s.ended ends).providers =
      (s.teardownAll bus ((s.sessions.sessions.filter ends).map (·.path))).service.providers :=
    (s.ended_providers ends).trans (by simpa [ended] using hproviders.symm)
  rw [teardownAll_service, h.filter_not_mem ends, ← hended]
  rfl

/-- An operation that ends sessions leaves the broker without them and the bus without their
objects. -/
theorem perform_ended (h : s.sessions.Numbered) (bus : Bus) {operation : Operation}
    (hending : operation.isEnding = true) :
    let gone := s.sessions.sessions.filter operation.ends
    (s.perform bus operation).service = s.ended operation.ends ∧
      (s.perform bus operation).bus = bus.withdrawn s.connection (gone.map (·.path)) := by
  obtain ⟨hservice, hbus, -⟩ := perform_ending h bus hending
  exact ⟨hservice.trans (teardownAll_ended h bus _), hbus.trans (s.teardownAll_bus bus _)⟩

theorem filter_or_perm {α : Type} (p q : α → Bool) (l : List α) :
    (l.filter p ++ (l.filter (!p ·)).filter q).Perm (l.filter fun x => p x || q x) := by
  have hparts := List.filter_append_perm p (l.filter fun x => p x || q x)
  have hfirst : (l.filter fun x => p x || q x).filter p = l.filter p := by
    rw [List.filter_filter]
    exact List.filter_congr fun x _ => by cases p x <;> simp
  have hsecond : (l.filter fun x => p x || q x).filter (!p ·) = (l.filter (!p ·)).filter q := by
    rw [List.filter_filter, List.filter_filter]
    exact List.filter_congr fun x _ => by cases p x <;> simp
  rwa [hfirst, hsecond] at hparts

/-- Whatever the order of several operations that end sessions, it comes to one ending. -/
theorem performAll_endings (h : s.sessions.Numbered) (bus : Bus) {operations : List Operation}
    (hending : ∀ operation ∈ operations, operation.isEnding = true) :
    let ends : Session → Bool := fun x => operations.any (·.ends x)
    let gone := s.sessions.sessions.filter ends
    let o := s.performAll bus operations
    o.service = s.ended ends ∧ o.bus = bus.withdrawn s.connection (gone.map (·.path)) ∧
      o.effects.hookRuns.Perm (gone.flatMap (·.hookRuns)) := by
  -- By induction on the operations, since two endings are one.
  induction operations generalizing s bus with
  | nil => simp [performAll, ended_eq_self, Log.Effects.hookRuns]
  | cons operation rest ih =>
    intro ends gone o
    obtain ⟨hfirst, hrest⟩ := List.forall_mem_cons.mp hending
    obtain ⟨hservice, hbus⟩ := perform_ended h bus hfirst
    obtain ⟨-, hruns, -⟩ := perform_ending_leaves h bus hfirst
    obtain ⟨hservice', hbus', hruns'⟩ :=
      ih (perform_numbered h bus operation) (s.perform bus operation).bus hrest
    have hconnection : (s.perform bus operation).service.connection = s.connection := by
      rw [hservice]
      rfl
    have hleft : (s.perform bus operation).service.sessions.sessions =
        s.sessions.sessions.filter (!operation.ends ·) := by
      rw [hservice]
      rfl
    rw [hleft] at hbus' hruns'
    -- What the first operation ends and what the others end is all that any of them ends.
    have hparts : List.Perm _ gone :=
      filter_or_perm operation.ends (fun x => rest.any (·.ends x)) s.sessions.sessions
    refine ⟨?_, ?_, ?_⟩
    · calc
        o.service = (s.perform bus operation).service.ended _ := hservice'
        _ = s.ended ends := by rw [hservice, ended_ended]; rfl
    · calc
        o.bus = _ := hbus'
        _ = bus.withdrawn s.connection _ := by rw [hconnection, hbus, Bus.withdrawn_withdrawn]
        _ = bus.withdrawn s.connection (gone.map (·.path)) :=
          Bus.withdrawn_congr fun path => by rw [← List.map_append, (hparts.map _).mem_iff]
    · refine (List.Perm.of_eq (Log.Effects.hookRuns_append _ _)).trans ?_
      rw [hruns]
      refine (hruns'.append_left _).trans ?_
      rw [← List.flatMap_append]
      exact hparts.flatMap_right _

/-- To release sessions one by one is to destroy them one after the other. -/
theorem performAll_releases (h : Leaving gone s.sessions) (bus : Bus) :
    let all := s.teardownAll bus (gone.map (·.path))
    let o := s.performAll bus (gone.map fun x => .release x.path.text)
    o.service = all.service ∧ o.bus = all.bus ∧ o.effects.hookRuns = all.effects.hookRuns := by
  induction gone generalizing s bus with
  | nil => exact ⟨rfl, rfl, rfl⟩
  | cons x rest ih =>
    have hrelease : s.perform bus (.release x.path.text) = {
        result := ()
        service := (s.teardown bus x.path).service
        bus := (s.teardown bus x.path).bus
        effects := (s.teardown bus x.path).effects ++ [.event (.sessionReleased x.path)] } := by
      rw [perform, release_of_live h.numbered (h.live x List.mem_cons_self)]
      rfl
    obtain ⟨hservice, hbus, hruns⟩ := ih (teardown_leaving h bus) (s.teardown bus x.path).bus
    rw [List.map_cons, List.map_cons, performAll, teardownAll, hrelease]
    refine ⟨hservice, hbus, ?_⟩
    rw [Log.Effects.hookRuns_append, Log.Effects.hookRuns_append, Log.Effects.hookRuns_append,
      hruns]
    simp [Log.Effects.hookRuns]

end LocationBroker.Broker.Service
