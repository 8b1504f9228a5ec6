import LocationBroker.Proofs.Broker.Departure
import LocationBroker.Proofs.Broker.Teardown
import LocationBroker.Proofs.Provider.Alarms

/-! # The ends of sessions

Three operations destroy sessions: a release, a departure, and a message that announces a departure.
Each of them ends the sessions for which `Operation.ends` holds, in the order in which they are
live, and tells something before and after (`perform_ending`).  So what they leave behind is one
statement for all three, whatever the bus answers (`perform_ending_leaves`).
-/

namespace LocationBroker

open Log (Effects)

namespace Session

/-- What is run when the session is destroyed. -/
def hookRuns (x : Session) : List (Hook × Session) :=
  x.hook.toList.map (·, { x with hook := none })

@[simp] theorem Registry.hookRuns_runHook (x : Session) :
    (Registry.runHook x : Effects).hookRuns = x.hookRuns := by
  rw [Registry.runHook, Session.hookRuns]
  cases x.hook <;> rfl

end Session

namespace Broker

open Session.Registry (Leaving)

/-! ## What an operation ends -/

theorem gentle_iff_hookRuns {x : Session} :
    x.Gentle ↔ ∀ run ∈ x.hookRuns, run.1.aborts = false := by
  rw [Session.Gentle, Session.hookRuns]
  cases x.hook <;> simp

/-- What runs the hooks of some sessions goes to its end if none of the hooks ends a worker. -/
theorem harmless_iff {es : Effects} {gone : List Session}
    (h : es.hookRuns.Perm (gone.flatMap (·.hookRuns))) :
    Harmless es ↔ ∀ x ∈ gone, x.Gentle := by
  simp only [harmless_iff_hookRuns, h.mem_iff, List.mem_flatMap, gentle_iff_hookRuns]
  exact ⟨fun h x hx run hrun => h run ⟨x, hx, hrun⟩, fun h run ⟨x, hx, hrun⟩ => h x hx run hrun⟩

namespace Operation

/-- The operation destroys the session if it is live. -/
def ends : Operation → Session → Bool
  | .release path => fun x => decide (x.path.text = path)
  | .depart name => fun x => x.belongsTo name
  | .filter m => fun x => (Presence.departed? m).any x.belongsTo
  | _ => fun _ => false

theorem ends_of_not_ending {operation : Operation} (h : operation.isEnding = false) :
    operation.ends = fun _ => false := by
  cases operation with
  | release | depart | filter => cases h
  | _ => rfl

/-- What is told before the first session is destroyed. -/
def herald : Operation → Effects
  | .filter m => Presence.effects m
  | _ => []

/-- What is told of a peer that is gone, once its sessions are destroyed. -/
def farewellTo (name : String) (gone : List Session) : Effects :=
  if gone.isEmpty then [] else [.event (.clientRemoved gone.length name)]

/-- What is told after the last session is destroyed. -/
def farewell (gone : List Session) : Operation → Effects
  | .release _ => gone.map fun x => .event (.sessionReleased x.path)
  | .depart name => farewellTo name gone
  | .filter m => (Presence.departed? m).toList.flatMap (farewellTo · gone)
  | _ => []

theorem farewellTo_unalarming (name : String) (gone : List Session) :
    (farewellTo name gone).Unalarming := by
  rw [farewellTo]
  split
  · exact List.forall_mem_nil _
  · exact List.forall_mem_singleton.mpr ⟨_, rfl, rfl⟩

/-- What is told beside the ends of the sessions is no cause for alarm, and runs no hooks. -/
theorem told_unalarming (operation : Operation) (gone : List Session) :
    operation.herald.Unalarming ∧ (operation.farewell gone).Unalarming := by
  cases operation with
  | release path =>
    refine ⟨List.forall_mem_nil _, fun e he => ?_⟩
    obtain ⟨x, -, rfl⟩ := List.mem_map.mp he
    exact ⟨_, rfl, rfl⟩
  | depart name => exact ⟨List.forall_mem_nil _, farewellTo_unalarming name gone⟩
  | filter m =>
    constructor
    · rw [herald, Presence.effects]
      split
      · exact List.forall_mem_singleton.mpr ⟨_, rfl, rfl⟩
      · exact List.forall_mem_nil _
    · intro e he
      obtain ⟨name, -, he⟩ := List.mem_flatMap.mp he
      exact farewellTo_unalarming name gone e he
  | _ => exact ⟨List.forall_mem_nil _, List.forall_mem_nil _⟩

end Operation

namespace Service

variable {s : Service} {x : Session} {gone : List Session}

theorem depart_eq (s : Service) (bus : Bus) (name : String) :
    let gone := s.sessions.sessions.filter (·.belongsTo name)
    let all := s.teardownAll bus (gone.map (·.path))
    s.depart bus name = { all with
      result := gone.length
      effects := all.effects ++ Operation.farewellTo name gone } := by
  simp only [depart, Session.Registry.pathsOf_eq, List.length_map, List.isEmpty_map,
    Operation.farewellTo]

theorem release_of_not_live {path : String} (h : ∀ x ∈ s.sessions.sessions, x.path.text ≠ path)
    (bus : Bus) :
    s.release bus path =
      { result := .error (.sessionNotFound path), service := s, bus, effects := [] } := by
  rw [release_eq, onSession_of_not_found (Session.Registry.atText?_eq_none_iff.mpr h)]

theorem release_of_live (h : s.sessions.Numbered) (hx : x ∈ s.sessions.sessions) (bus : Bus) :
    s.release bus x.path.text = {
      result := .ok ()
      service := (s.teardown bus x.path).service
      bus := (s.teardown bus x.path).bus
      effects := (s.teardown bus x.path).effects ++ [.event (.sessionReleased x.path)] } := by
  rw [release_eq, onSession_of_found (h.atText?_live hx)]
  rfl

theorem release_result (h : s.sessions.Numbered) (bus : Bus)
    (hx : x ∈ s.sessions.sessions) : (s.release bus x.path.text).result = .ok () := by
  rw [release_of_live h hx]

theorem depart_result (s : Service) (bus : Bus) (name : String) :
    (s.depart bus name).result = (s.sessions.sessions.filter (·.belongsTo name)).length := by
  rw [depart_eq]

/-- A release, a departure or a message destroys the sessions that it ends, one after the other. -/
theorem perform_ending (h : s.sessions.Numbered) (bus : Bus) {operation : Operation}
    (hending : operation.isEnding = true) :
    let o := s.perform bus operation
    let gone := s.sessions.sessions.filter operation.ends
    let all := s.teardownAll bus (gone.map (·.path))
    o.service = all.service ∧ o.bus = all.bus ∧
      o.effects = operation.herald ++ all.effects ++ operation.farewell gone := by
  cases operation with
  | depart name =>
    rw [perform, depart_eq]
    exact ⟨rfl, rfl, rfl⟩
  | filter m =>
    rw [perform, filter]
    cases hdeparted : Presence.departed? m with
    | none =>
      have hnothing : Presence.effects m = [] := by
        rw [Presence.departed?, Option.map_eq_none_iff] at hdeparted
        rw [Presence.effects, hdeparted]
      simp [Operation.ends, Operation.herald, Operation.farewell, hdeparted, hnothing, teardownAll,
        Outcome.map]
    | some name =>
      simp [Operation.ends, Operation.herald, Operation.farewell, hdeparted, depart_eq, Outcome.map]
  | release path =>
    by_cases hlive : ∃ x ∈ s.sessions.sessions, x.path.text = path
    · -- Paths tell sessions apart, so there is one session to end.
      obtain ⟨x, hx, rfl⟩ := hlive
      have hgone : s.sessions.sessions.filter (Operation.release x.path.text).ends = [x] :=
        h.filter_text hx
      simp [perform, release_of_live h hx, hgone, Operation.herald, Operation.farewell, teardownAll,
        Outcome.map]
    · push Not at hlive
      have hgone : s.sessions.sessions.filter (Operation.release path).ends = [] := by
        simpa [Operation.ends] using hlive
      simp [perform, release_of_not_live hlive, hgone, Operation.herald, Operation.farewell,
        teardownAll, Outcome.map]
  | _ => cases hending

/-! ## What the ends of sessions leave behind -/

theorem teardown_leaving (h : Leaving (x :: gone) s.sessions) (bus : Bus) :
    Leaving gone (s.teardown bus x.path).service.sessions := by
  rw [teardown_sessions]
  exact h.tail

theorem teardown_hookRuns (h : s.sessions.get? x.path = some x) (bus : Bus) :
    (s.teardown bus x.path).effects.hookRuns = x.hookRuns := by
  rw [teardown, Log.Effects.hookRuns_append, (s.withdraw_idle bus x.path).hookRuns,
    Session.Registry.destroy_of_get? h]
  simp [Log.Effects.hookRuns_settle]

theorem teardownAll_hookRuns (h : Leaving gone s.sessions) (bus : Bus) :
    (s.teardownAll bus (gone.map (·.path))).effects.hookRuns = gone.flatMap (·.hookRuns) := by
  induction gone generalizing s bus with
  | nil => rfl
  | cons x rest ih =>
    rw [List.map_cons, teardownAll, Log.Effects.hookRuns_append, teardown_hookRuns h.get? bus,
      ih (teardown_leaving h bus), List.flatMap_cons]

theorem teardown_providers (h : s.sessions.get? x.path = some x) (bus : Bus) :
    (s.teardown bus x.path).service.providers =
      if (s.sessions.remove x.path).sessions = [] then s.providers.release.1 else s.providers := by
  have hlive : x.path ∈ s.sessions.paths :=
    Session.Registry.mem_paths.mpr ⟨x, (Session.Registry.mem_of_get? h).1, rfl⟩
  refine (Session.Registry.destroy_providers s.sessions x.path s.providers).trans ?_
  simp [hlive]

/-- The providers are let go with the last session, and with no other one. -/
theorem teardownAll_providers (h : Leaving gone s.sessions) (bus : Bus) :
    let all := s.teardownAll bus (gone.map (·.path))
    all.service.providers =
      if gone ≠ [] ∧ all.service.sessions.sessions = [] then s.providers.release.1
      else s.providers := by
  induction gone generalizing s bus with
  | nil => rfl
  | cons x rest ih =>
    have hfirst := teardown_providers h.get? bus
    rw [List.map_cons, teardownAll]
    dsimp only
    rw [ih (teardown_leaving h bus)]
    cases rest with
    | nil => simpa [teardownAll, teardown_sessions] using hfirst
    | cons y others =>
      -- The next session is still live, so the first one was not the last.
      have hmore : (s.sessions.remove x.path).sessions ≠ [] :=
        List.ne_nil_of_mem (h.tail.live y List.mem_cons_self)
      rw [hfirst, if_neg hmore]
      simp

/-- An operation that ends sessions leaves the others in their order, runs the hooks of those that
it ends, and lets the providers go if it ends the last one. -/
theorem perform_ending_leaves (h : s.sessions.Numbered) (bus : Bus) {operation : Operation}
    (hending : operation.isEnding = true) :
    let o := s.perform bus operation
    let gone := s.sessions.sessions.filter operation.ends
    o.service.sessions.sessions = s.sessions.sessions.filter (!operation.ends ·) ∧
      o.effects.hookRuns = gone.flatMap (·.hookRuns) ∧
      o.service.providers =
        if gone ≠ [] ∧ o.service.sessions.sessions = [] then s.providers.release.1
        else s.providers := by
  intro o gone
  have hleaving : Leaving gone s.sessions := h.leaving operation.ends
  obtain ⟨hservice, -, heffects⟩ := perform_ending h bus hending
  obtain ⟨hherald, hfarewell⟩ := operation.told_unalarming gone
  refine ⟨?_, ?_, ?_⟩
  · rw [hservice, teardownAll_sessions]
    exact h.filter_not_mem operation.ends
  · rw [heffects, Log.Effects.hookRuns_append, Log.Effects.hookRuns_append, hherald.hookRuns,
      hfarewell.hookRuns, teardownAll_hookRuns hleaving bus, List.nil_append, List.append_nil]
  · rw [hservice]
    exact teardownAll_providers hleaving bus

/-- The hooks that an operation runs are those of the sessions that it ends. -/
theorem perform_hookRuns (h : s.sessions.Numbered) (bus : Bus) (operation : Operation) :
    (s.perform bus operation).effects.hookRuns =
      (s.sessions.sessions.filter operation.ends).flatMap (·.hookRuns) := by
  cases hending : operation.isEnding with
  | true => exact (perform_ending_leaves h bus hending).2.1
  | false =>
    have hnone : s.sessions.sessions.filter operation.ends = [] := by
      rw [Operation.ends_of_not_ending hending]
      exact List.filter_false _
    rw [perform_hookRuns_of_not_ending h bus hending, hnone]
    rfl

/-- An operation goes to its end exactly if the hooks of the sessions that it ends do. -/
theorem perform_harmless_iff (h : s.sessions.Numbered) (bus : Bus) (operation : Operation) :
    Harmless (s.perform bus operation).effects ↔
      ∀ x ∈ s.sessions.sessions.filter operation.ends, x.Gentle :=
  harmless_iff (.of_eq (perform_hookRuns h bus operation))

end Service

end Broker

end LocationBroker
