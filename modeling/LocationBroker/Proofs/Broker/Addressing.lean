import LocationBroker.Proofs.Broker.Creation
import LocationBroker.Proofs.Broker.Endings
import LocationBroker.Proofs.Broker.Exports

/-! # Operations addressed to a session

Four operations name a session by the text of its path.  They are refused exactly if no live session
has the path (`refusal?_eq_some_iff`), and then nothing happens (`perform_unaddressed`); otherwise
they are accepted and touch that session only (`perform_addressed`).  The path of a session that was
created is good until the session is destroyed, and never again (`refusal?_after_create`).
-/

namespace LocationBroker

open Log (Effects)

namespace Session.Registry

variable {r : Registry} {older younger : List Session} {x : Session} {text : String}

/-! ## One session among the others -/

theorem Numbered.path_ne (h : r.Numbered) (hlive : r.sessions = older ++ x :: younger)
    {y : Session} (hy : y ∈ older ++ younger) : y.path ≠ x.path := by
  have hnodup := h.nodup
  rw [paths, hlive, List.map_append, List.map_cons, List.nodup_middle, List.nodup_cons,
    ← List.map_append] at hnodup
  exact fun heq => hnodup.1 (List.mem_map.mpr ⟨y, hy, heq⟩)

theorem Numbered.remove_among (h : r.Numbered) (hlive : r.sessions = older ++ x :: younger) :
    r.remove x.path = { r with sessions := older ++ younger } := by
  have hothers : ∀ y ∈ older ++ younger, decide (y.path ≠ x.path) = true := fun y hy =>
    decide_eq_true (h.path_ne hlive hy)
  rw [List.forall_mem_append] at hothers
  rw [Registry.remove, hlive, List.filter_append, List.filter_cons_of_neg (by simp),
    List.filter_eq_self.mpr hothers.1, List.filter_eq_self.mpr hothers.2]

theorem Numbered.modify_among (h : r.Numbered) (hlive : r.sessions = older ++ x :: younger)
    (change : Session → Session) :
    r.modify x.path change = { r with sessions := older ++ change x :: younger } := by
  have hothers : ∀ y ∈ older ++ younger, (if y.path = x.path then change y else y) = id y :=
    fun y hy => if_neg (h.path_ne hlive hy)
  rw [List.forall_mem_append] at hothers
  rw [Registry.modify, hlive, List.map_append, List.map_cons, if_pos rfl,
    List.map_congr_left hothers.1, List.map_congr_left hothers.2, List.map_id, List.map_id]

end Session.Registry

theorem Log.Effects.courseAt_owners_ne_nil {es : Effects} {path : Bus.ObjectPath}
    (h : path ∈ es.created) : (es.courseAt path).owners ≠ [] := by
  obtain ⟨e, he, hpath⟩ := List.mem_filterMap.mp h
  split at hpath
  · rename_i owner
    cases hpath
    exact List.ne_nil_of_mem (List.mem_filterMap.mpr ⟨_, he, if_pos rfl⟩)
  · cases hpath

namespace Broker

namespace Lived

variable {r : Session.Registry} {path : Bus.ObjectPath} {c : Course}

/-- Nothing is known of the path that the next session gets. -/
theorem fresh (h : r.Numbered) : Lived r r.nextPath {} where
  life := by
    rw [Session.Registry.get?_eq_none_iff.mpr h.nextPath_not_mem]
    exact .ahead
  spent hcreated := absurd rfl hcreated

/-- The path of a session that was created is in use until the session is destroyed. -/
theorem mem_paths_iff (h : Lived r path c) (hcreated : c.owners ≠ []) :
    path ∈ r.paths ↔ c.ends = 0 := by
  have hlife := h.life
  cases hget : r.get? path with
  | none =>
    rw [hget] at hlife
    refine iff_of_false (Session.Registry.get?_eq_none_iff.mp hget) ?_
    cases hlife with
    | ahead => exact absurd rfl hcreated
    | past => exact Nat.one_ne_zero
  | some x =>
    rw [hget] at hlife
    obtain ⟨hx, hpath⟩ := Session.Registry.mem_of_get? hget
    refine iff_of_true (Session.Registry.mem_paths.mpr ⟨x, hx, hpath⟩) ?_
    cases hlife with
    | live => rfl

end Lived

/-! ## What an operation is addressed to -/

/-- The error of an outcome, if it is one. -/
def Outcome.error? {α : Type} (o : Outcome (Except Error α)) : Option Error :=
  match o.result with
  | .ok _ => none
  | .error e => some e

namespace Operation

/-- The text by which the operation names a session. -/
def addressee? : Operation → Option String
  | .release text | .attachHook text _ | .setRequirements text _ | .providersFor text => some text
  | _ => none

/-- What the operation leaves of the session that it is addressed to. -/
def leaves (x : Session) : Operation → Option Session
  | .release _ => none
  | .attachHook _ hook => some { x with hook := some hook }
  | .setRequirements _ c => some { x with requirements := c }
  | _ => some x

end Operation

namespace Service

variable {s : Service} {bus : Bus} {operation : Operation} {older younger : List Session}
  {x : Session} {text : String}

/-- The error with which the broker answers an operation, if it does. -/
def refusal? (s : Service) (bus : Bus) : Operation → Option Error
  | .create source call => (s.create bus source call).error?
  | .release text => (s.release bus text).error?
  | .attachHook text hook => (s.attachHook bus text hook).error?
  | .setRequirements text c => (s.setRequirements bus text c).error?
  | .providersFor text => (s.providersFor bus text).error?
  | .announceOptions options => (s.announceOptions bus options).error?
  | .handleCall .. | .filter _ | .depart _ | .reload _ => none

/-- The connection of the broker is still there. -/
def isOnBus (s : Service) (bus : Bus) : Bool :=
  s.connection.any bus.isConnected

/-! ## No session of the path -/

theorem refusal?_addressed (haddressee : operation.addressee? = some text) (bus : Bus) :
    s.refusal? bus operation =
      if (s.sessions.atText? text).isSome then none else some (.sessionNotFound text) := by
  cases operation with
  | release | attachHook | setRequirements | providersFor =>
    cases haddressee
    simp only [refusal?, release_eq, attachHook, setRequirements, providersFor, Outcome.error?]
    cases hat : s.sessions.atText? text with
    | none =>
      simp only [onSession_of_not_found hat]
      rfl
    | some x =>
      -- What is done with a session that was found is never refused.
      simp only [onSession_of_found hat]
      rfl
  | _ => cases haddressee

theorem refusal?_eq_some_iff (haddressee : operation.addressee? = some text) (bus : Bus) :
    s.refusal? bus operation = some (.sessionNotFound text) ↔
      ∀ x ∈ s.sessions.sessions, x.path.text ≠ text := by
  rw [refusal?_addressed haddressee, ← Session.Registry.atText?_eq_none_iff]
  cases s.sessions.atText? text <;> simp

/-- The path of a session is good exactly while the session is live. -/
theorem refusal?_of_path {path : Bus.ObjectPath}
    (haddressee : operation.addressee? = some path.text) (bus : Bus) :
    s.refusal? bus operation =
      if path ∈ s.sessions.paths then none else some (.sessionNotFound path.text) := by
  have hlive : (s.sessions.atText? path.text).isSome ↔ path ∈ s.sessions.paths := by
    rw [Option.isSome_iff_ne_none, ne_eq, Session.Registry.atText?_eq_none_iff]
    push Not
    rw [Session.Registry.mem_paths]
    refine exists_congr fun x => and_congr_right fun _ => ?_
    exact ⟨fun htext => Keyed.text_inj htext, fun heq => heq ▸ rfl⟩
  rw [refusal?_addressed haddressee, if_congr hlive rfl rfl]

/-- An operation that names no live session is refused, and nothing happens. -/
theorem perform_unaddressed (hdead : ∀ x ∈ s.sessions.sessions, x.path.text ≠ text)
    (haddressee : operation.addressee? = some text) (bus : Bus) :
    let o := s.perform bus operation
    o.service = s ∧ o.bus = bus ∧ o.effects.hookRuns = [] := by
  have hnone := Session.Registry.atText?_eq_none_iff.mpr hdead
  cases operation with
  | release | attachHook | setRequirements | providersFor =>
    cases haddressee
    simp [perform, release_eq, attachHook, setRequirements, providersFor,
      onSession_of_not_found hnone, Outcome.map, Log.Effects.hookRuns]
  | _ => cases haddressee

/-! ## The session of the path -/

/-- The operation is accepted, and of the live sessions it touches this one only: it leaves of it
what it should, and if that is nothing, the object goes from the bus with the session, its hook is
run, and the providers go if there is no other session. -/
structure Affects (s : Service) (bus : Bus) (operation : Operation) (older : List Session)
    (x : Session) (younger : List Session) : Prop where
  accepted : s.refusal? bus operation = none
  service : (s.perform bus operation).service = { s with
    sessions := { s.sessions with
      sessions := older ++ (operation.leaves x).toList ++ younger }
    providers :=
      if (operation.leaves x).isNone ∧ older ++ younger = [] then s.providers.release.1
      else s.providers }
  exported : s.isOnBus bus = true → bus.exporterOf x.path = s.connection
  withdrawn : (s.perform bus operation).bus =
    if (operation.leaves x).isNone ∧ s.isOnBus bus then
      { bus with objects := bus.objects.erase x.path }
    else bus
  hookRuns : (s.perform bus operation).effects.hookRuns =
    if (operation.leaves x).isNone then x.hookRuns else []

theorem Affects.harmless_iff (h : Affects s bus operation older x younger) :
    Harmless (s.perform bus operation).effects ↔ ((operation.leaves x).isNone → x.Gentle) := by
  rw [harmless_iff_hookRuns, gentle_iff_hookRuns, h.hookRuns]
  split
  · rename_i hgone
    simp [hgone]
  · rename_i hkept
    simp [hkept]

theorem Agrees.exported (h : s.Agrees bus) (hx : x ∈ s.sessions.sessions)
    (hpresent : s.isOnBus bus = true) : bus.exporterOf x.path = s.connection := by
  cases hpeer : s.connection with
  | none =>
    rw [isOnBus, hpeer] at hpresent
    cases hpresent
  | some peer =>
    rw [isOnBus, hpeer] at hpresent
    exact h.exporterOf hpeer hpresent hx

theorem Agrees.teardown_bus (h : s.Agrees bus) (hx : x ∈ s.sessions.sessions) :
    (s.teardown bus x.path).bus =
      if s.isOnBus bus then { bus with objects := bus.objects.erase x.path } else bus := by
  rw [Service.teardown_bus]
  cases hpeer : s.connection with
  | none => simp [isOnBus, hpeer]
  | some peer =>
    cases hpresent : bus.isConnected peer with
    | true =>
      have hok : bus.attempt (.unregisterObject peer x.path) =
          .ok { bus with objects := bus.objects.erase x.path } :=
        Bus.unregisterObject_eq_ok_iff.mpr ⟨hpresent, h.exporterOf hpeer hpresent hx, rfl⟩
      simp [isOnBus, hpeer, hpresent, Bus.step_of_ok hok]
    | false =>
      have hrefusal : bus.refusal? (.unregisterObject peer x.path) = some .disconnected := by
        simp [Bus.refusal?_unregisterObject, hpresent]
      simp [isOnBus, hpeer, hpresent, Bus.step_of_error (Bus.refusal?_eq_some_iff.mp hrefusal)]

theorem teardown_among (hnumbered : s.sessions.Numbered)
    (hlive : s.sessions.sessions = older ++ x :: younger) (bus : Bus) :
    (s.teardown bus x.path).service = { s with
      sessions := { s.sessions with sessions := older ++ younger }
      providers := if older ++ younger = [] then s.providers.release.1 else s.providers } := by
  have hx : x ∈ s.sessions.sessions := hlive ▸ List.mem_append_cons_self
  have hproviders := teardown_providers (hnumbered.get?_live hx) bus
  have hsessions := teardown_sessions s bus x.path
  rw [hnumbered.remove_among hlive] at hproviders hsessions
  have hparts : (s.teardown bus x.path).service = { s with
      sessions := (s.teardown bus x.path).service.sessions
      providers := (s.teardown bus x.path).service.providers } := rfl
  rw [hparts, hsessions, hproviders]

theorem Affects.of_kept {y : Session} (haccepted : s.refusal? bus operation = none)
    (hexported : s.isOnBus bus = true → bus.exporterOf x.path = s.connection)
    (hleaves : operation.leaves x = some y)
    (hservice : (s.perform bus operation).service =
      { s with sessions := { s.sessions with sessions := older ++ y :: younger } })
    (hbus : (s.perform bus operation).bus = bus)
    (hquiet : (s.perform bus operation).effects.hookRuns = []) :
    Affects s bus operation older x younger where
  accepted := haccepted
  service := by simp [hservice, hleaves]
  exported := hexported
  withdrawn := by simp [hbus, hleaves]
  hookRuns := by simp [hquiet, hleaves]

/-- An operation that names a live session touches this session only. -/
theorem perform_addressed (hnumbered : s.sessions.Numbered) (hagrees : s.Agrees bus)
    (hlive : s.sessions.sessions = older ++ x :: younger)
    (haddressee : operation.addressee? = some x.path.text) :
    Affects s bus operation older x younger := by
  have hx : x ∈ s.sessions.sessions := hlive ▸ List.mem_append_cons_self
  have hat := hnumbered.atText?_live hx
  have haccepted : s.refusal? bus operation = none := by
    rw [refusal?_addressed haddressee, hat]
    rfl
  have hexported := hagrees.exported hx
  -- Whatever changes the session leaves it at its place among the others.
  have hkept : ∀ change : Session → Session,
      ({ s with sessions := s.sessions.modify x.path change } : Service) =
        { s with sessions := { s.sessions with sessions := older ++ change x :: younger } } :=
    fun change => by rw [hnumbered.modify_among hlive]
  cases operation with
  | release text =>
    cases haddressee
    have hrelease := release_of_live hnumbered hx bus
    refine ⟨haccepted, ?_, hexported, ?_, ?_⟩
    · simp [perform, hrelease, teardown_among hnumbered hlive, Operation.leaves]
    · simp [perform, hrelease, hagrees.teardown_bus hx, Operation.leaves]
    · change (s.release bus x.path.text).effects.hookRuns = x.hookRuns
      rw [hrelease, Log.Effects.hookRuns_append, teardown_hookRuns (hnumbered.get?_live hx) bus]
      exact List.append_nil _
  | attachHook text hook =>
    cases haddressee
    refine .of_kept haccepted hexported rfl ?_ ?_ ?_ <;>
      simp only [perform, attachHook, onSession_of_found hat]
    · exact hkept _
    · rfl
    · rfl
  | setRequirements text c =>
    cases haddressee
    refine .of_kept haccepted hexported rfl ?_ ?_ ?_ <;>
      simp only [perform, setRequirements, onSession_of_found hat]
    · exact hkept _
    · rfl
    · rfl
  | providersFor text =>
    cases haddressee
    have hsame : { s.sessions with sessions := older ++ x :: younger } = s.sessions := by
      rw [← hlive]
    refine .of_kept haccepted hexported rfl ?_ ?_ ?_ <;>
      simp only [perform, providersFor, onSession_of_found hat]
    · exact congrArg (fun sessions => ({ s with sessions } : Service)) hsame.symm
    · rfl
    · exact (s.providers.filterEffects_unalarming x.requirements).hookRuns
  | _ => cases haddressee

/-! ## From the creation to the end -/

/-- The paths of the sessions that the broker destroys on several occasions. -/
def destroyedOn (s : Service) : List Occasion → List Bus.ObjectPath
  | [] => []
  | occasion :: rest =>
    let o := s.perform occasion.bus occasion.operation
    o.effects.destroyed ++ o.service.destroyedOn rest

theorem course_ends (s : Service) (path : Bus.ObjectPath) (occasions : List Occasion) :
    (s.course path occasions).ends = (s.destroyedOn occasions).count path := by
  induction occasions generalizing s with
  | nil => rfl
  | cons occasion rest ih =>
    rw [destroyedOn, List.count_append, ← ih]
    rfl

theorem course_owners_ne_nil {occasion : Occasion} {path : Bus.ObjectPath}
    (h : path ∈ (s.perform occasion.bus occasion.operation).effects.created)
    (rest : List Occasion) : (s.course path (occasion :: rest)).owners ≠ [] :=
  List.append_ne_nil_of_left_ne_nil (Log.Effects.courseAt_owners_ne_nil h) _

/-- A broker that has a connection mints a path for a request, and the path is in use from then on
until the broker tells that the session was destroyed. -/
theorem mem_paths_after_create_iff (h : s.sessions.Numbered) (hfunctional : s.isFunctional = true)
    (bus : Bus) (source : Provider.Source) (call : Bus.MethodCall) (later : List Occasion) :
    s.sessions.nextPath ∈ ((s.create bus source call).service.after later).sessions.paths ↔
      s.sessions.nextPath ∉ (s.create bus source call).effects.destroyed ++
        (s.create bus source call).service.destroyedOn later := by
  have hlived := after_lived h (.fresh h) (⟨bus, .create source call⟩ :: later)
  rw [Course.empty_append] at hlived
  have hminted : s.sessions.nextPath ∈ (s.create bus source call).effects.created := by
    rw [(s.create_mints bus source call).created, if_pos hfunctional]
    exact List.mem_singleton_self _
  have hlive := hlived.mem_paths_iff (course_owners_ne_nil hminted later)
  rw [course_ends, List.count_eq_zero] at hlive
  exact hlive

/-- A request that is granted destroys no session, and one that is refused by the bus destroys the
session that it created. -/
theorem create_destroyed (h : s.sessions.Numbered) (bus : Bus) (source : Provider.Source)
    (call : Bus.MethodCall) :
    (∀ path, (s.create bus source call).result = .ok path →
      s.isFunctional = true ∧ path = s.sessions.nextPath ∧
        (s.create bus source call).effects.destroyed = []) ∧
    ∀ e, (s.create bus source call).result = .error (.bus e) →
      s.isFunctional = true ∧
        (s.create bus source call).effects.destroyed = [s.sessions.nextPath] := by
  have hsessions := (create_accounted h bus source call).sessions
  rw [(s.create_mints bus source call).created] at hsessions
  cases hpeer : s.connection with
  | none =>
    have hresult : (s.create bus source call).result = .error .notConnected := by
      rw [create_of_offline hpeer]
    rw [hresult]
    constructor
    · intro path hok
      cases hok
    · intro e herror
      cases herror
  | some peer =>
    have hfunctional : s.isFunctional = true := by rw [isFunctional, hpeer]; rfl
    rw [if_pos hfunctional] at hsessions
    cases hexport : bus.registerObject peer s.sessions.nextPath with
    | ok after =>
      obtain ⟨hresult, hservice, -⟩ := create_of_exported hpeer hexport source call
      have hpaths : (s.create bus source call).service.sessions.paths =
          s.sessions.paths ++ [s.sessions.nextPath] := by
        rw [hservice]
        exact List.map_append
      -- What was live and what is new is live already, so nothing is left to be gone.
      rw [hpaths] at hsessions
      have hnone : (s.create bus source call).effects.destroyed = [] := by
        simpa using hsessions.length_eq
      rw [hresult]
      constructor
      · intro path hok
        cases hok
        exact ⟨hfunctional, rfl, hnone⟩
      · intro e herror
        cases herror
    | error e =>
      obtain ⟨hresult, hservice, -⟩ := create_of_refused h hpeer hexport source call
      have hpaths : (s.create bus source call).service.sessions.paths = s.sessions.paths := by
        rw [hservice]
        rfl
      rw [hpaths, List.perm_append_left_iff, List.singleton_perm] at hsessions
      rw [hresult]
      constructor
      · intro path hok
        cases hok
      · intro e herror
        exact ⟨hfunctional, hsessions.symm⟩

/-- The path of a session that was created is good until the broker destroys the session, and never
again.  That of a session that could not be exported never is. -/
theorem refusal?_after_create (h : s.sessions.Numbered) (bus : Bus) (source : Provider.Source)
    (call : Bus.MethodCall) (later : List Occasion) (current : Bus) :
    (∀ path, (s.create bus source call).result = .ok path →
      ∀ operation : Operation, operation.addressee? = some path.text →
        ((s.create bus source call).service.after later).refusal? current operation =
          if path ∈ (s.create bus source call).service.destroyedOn later then
            some (.sessionNotFound path.text)
          else none) ∧
    ∀ e, (s.create bus source call).result = .error (.bus e) →
      ∀ operation : Operation, operation.addressee? = some s.sessions.nextPath.text →
        ((s.create bus source call).service.after later).refusal? current operation =
          some (.sessionNotFound s.sessions.nextPath.text) := by
  obtain ⟨hgranted, hrefused⟩ := create_destroyed h bus source call
  constructor
  · intro path hok operation haddressee
    obtain ⟨hfunctional, rfl, hnone⟩ := hgranted path hok
    have hlive := mem_paths_after_create_iff h hfunctional bus source call later
    rw [hnone, List.nil_append] at hlive
    rw [refusal?_of_path haddressee, if_congr hlive rfl rfl, ite_not]
  · intro e herror operation haddressee
    obtain ⟨hfunctional, hgone⟩ := hrefused e herror
    have hlive := mem_paths_after_create_iff h hfunctional bus source call later
    rw [hgone] at hlive
    rw [refusal?_of_path haddressee]
    exact if_neg fun hmem => hlive.mp hmem List.mem_cons_self

end Service

end Broker

end LocationBroker
