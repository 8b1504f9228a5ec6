import LocationBroker.Broker.Worker
import LocationBroker.Proofs.Bus.Discipline
import LocationBroker.Proofs.Session.Numbering
import Mathlib.Logic.Relation

/-! # Operations of a broker

All that a broker can be asked is an `Operation`, and `Service.perform` performs it.  Whatever the
operation is, the broker and the bus go through a sequence of `Move`s, each of which is one small
change: the providers are loaded, a session is opened, refused, closed or given other contents, or a
signal is sent.  `perform_moves` says so; an invariant that every move keeps is kept by every
operation (`Moves.invariant`).
-/

namespace LocationBroker

/-- A source without descriptors. -/
def Provider.Source.none : Provider.Source where
  location := ""
  listing := .ok {}
  read id := .error (.unknown id)

namespace Broker

open Log (Effects)

@[simp] theorem Outcome.map_service {α β : Type} (f : α → β) (o : Outcome α) :
    (o.map f).service = o.service := rfl

@[simp] theorem Outcome.map_bus {α β : Type} (f : α → β) (o : Outcome α) :
    (o.map f).bus = o.bus := rfl

/-- Something that a broker is asked.  What may load descriptors comes with the source as it answers
at that moment. -/
inductive Operation where
  | create (source : Provider.Source) (call : Bus.MethodCall)
  | handleCall (source : Provider.Source) (call : Bus.MethodCall)
  | filter (m : Bus.Message)
  | depart (name : String)
  | release (path : String)
  | attachHook (path : String) (hook : Session.Hook)
  | setRequirements (path : String) (c : Provider.Constraints)
  | providersFor (path : String)
  | reload (source : Provider.Source)
  | announceOptions (options : Ledger String String)

namespace Operation

/-- A peer asks for a session while there are no descriptors. -/
def sessionFor (peer : String) : Operation :=
  .create .none { sender := some peer, path := .root, interface := none, member := createMethod }

/-- The peer on whose behalf the operation may open a session; empty if it is not known. -/
def owner? : Operation → Option String
  | .create _ call | .handleCall _ call => some (call.sender.getD "")
  | _ => none

/-- The source that the operation may load descriptors from. -/
def source? : Operation → Option Provider.Source
  | .create source _ | .handleCall source _ | .reload source => some source
  | _ => none

/-- The operation does nothing but destroy sessions. -/
def isEnding : Operation → Bool
  | .release _ | .depart _ | .filter _ => true
  | _ => false

end Operation

namespace Service

/-- Performs an operation, whatever it answers. -/
def perform (s : Service) (bus : Bus) : Operation → Outcome Unit
  | .create source call => (s.create bus source call).map fun _ => ()
  | .handleCall source call => (s.handleCall bus source call).map fun _ => ()
  | .filter m => (s.filter bus m).map fun _ => ()
  | .depart name => (s.depart bus name).map fun _ => ()
  | .release path => (s.release bus path).map fun _ => ()
  | .attachHook path hook => (s.attachHook bus path hook).map fun _ => ()
  | .setRequirements path c => (s.setRequirements bus path c).map fun _ => ()
  | .providersFor path => (s.providersFor bus path).map fun _ => ()
  | .reload source =>
    { result := (), service := (s.reload source).1, bus, effects := (s.reload source).2.2 }
  | .announceOptions options => (s.announceOptions bus options).map fun _ => ()

/-! ## Moves -/

/-- One small change of a broker and the bus, on behalf of the owner of the session that it may
open. -/
inductive Move (owner? : Option String) : Service × Bus → Service × Bus → Prop where
  | load {s : Service} {bus : Bus} (source : Provider.Source) :
      Move owner? (s, bus) ((s.reload source).1, bus)
  | opened {s : Service} {bus after : Bus} {peer owner : String} (howner : owner? = some owner)
      (hpeer : s.connection = some peer)
      (hexport : bus.registerObject peer s.sessions.nextPath = .ok after) :
      Move owner? (s, bus) ({ s with sessions := (s.sessions.create owner).2.1 }, after)
  | refused {s : Service} {bus : Bus} {peer : String} {e : Bus.Error} (owner : String)
      (hpeer : s.connection = some peer)
      (hexport : bus.registerObject peer s.sessions.nextPath = .error e) :
      Move owner? (s, bus)
        ({ s with
            sessions := ((s.sessions.create owner).2.1.destroy s.sessions.nextPath s.providers).2.1
            providers :=
              ((s.sessions.create owner).2.1.destroy s.sessions.nextPath s.providers).2.2.1 }, bus)
  | closed {s : Service} {bus : Bus} {x : Session} (hx : x ∈ s.sessions.sessions) :
      Move owner? (s, bus) ((s.teardown bus x.path).service, (s.teardown bus x.path).bus)
  | changed {s : Service} {bus : Bus} (path : Bus.ObjectPath) {change : Session → Session}
      (hpath : ∀ x, (change x).path = x.path) (howner : ∀ x, (change x).owner = x.owner) :
      Move owner? (s, bus) ({ s with sessions := s.sessions.modify path change }, bus)
  | emitted {s : Service} {bus after : Bus} {peer : String} {signal : Bus.Signal}
      (hpeer : s.connection = some peer) (hemit : bus.emitSignal peer signal = .ok after) :
      Move owner? (s, bus) (s, after)

/-- Any number of moves, one after the other. -/
abbrev Moves (owner? : Option String) : Service × Bus → Service × Bus → Prop :=
  Relation.ReflTransGen (Move owner?)

/-- What every move keeps, any number of moves keeps. -/
theorem Moves.invariant {owner? : Option String} {P : Service × Bus → Prop}
    {before after : Service × Bus} (hmove : ∀ {a b}, P a → Move owner? a b → P b)
    (h : Moves owner? before after) (hbefore : P before) : P after := by
  induction h with
  | refl => exact hbefore
  | tail _ hlast ih => exact hmove ih hlast

variable {s : Service} {bus : Bus}

/-! ## What every move keeps -/

theorem teardown_sessions (s : Service) (bus : Bus) (path : Bus.ObjectPath) :
    (s.teardown bus path).service.sessions = s.sessions.remove path :=
  Session.Registry.destroy_registry s.sessions path s.providers

/-- Withdrawing an object is an action of the broker's own connection. -/
theorem teardown_bus (s : Service) (bus : Bus) (path : Bus.ObjectPath) :
    (s.teardown bus path).bus =
      match s.connection with
      | none => bus
      | some peer => bus.step (.unregisterObject peer path) := by
  cases hpeer : s.connection with
  | none => simp only [teardown, withdraw, hpeer]
  | some peer =>
    simp only [teardown, withdraw, hpeer, Bus.step, Bus.attempt]
    cases bus.unregisterObject peer path <;> rfl

theorem Move.fixed {owner? : Option String} {before after : Service × Bus}
    (h : Move owner? before after) :
    after.1.connection = before.1.connection ∧ after.1.masterPath = before.1.masterPath ∧
      after.1.config = before.1.config := by
  cases h <;> exact ⟨rfl, rfl, rfl⟩

theorem Move.numbered {owner? : Option String} {before after : Service × Bus}
    (h : Move owner? before after) (hbefore : before.1.sessions.Numbered) :
    after.1.sessions.Numbered := by
  cases h with
  | load | emitted => exact hbefore
  | opened => exact hbefore.create _
  | refused owner =>
    rw [Session.Registry.destroy_registry]
    exact (hbefore.create owner).remove _
  | closed =>
    rw [teardown_sessions]
    exact hbefore.remove _
  | changed path hpath => exact hbefore.modify hpath

/-- A broker does to the bus only what its own connection can do. -/
theorem Move.bus_eq {owner? : Option String} {before after : Service × Bus}
    (h : Move owner? before after) :
    after.2 = before.2 ∨ ∃ action : Bus.Action, action.actor?.isSome ∧
      action.actor? = before.1.connection ∧ after.2 = before.2.step action := by
  cases h with
  | load | refused | changed => exact .inl rfl
  | @opened s bus after peer _ _ hpeer hexport =>
    have hok : bus.attempt (.registerObject peer s.sessions.nextPath) = .ok after := hexport
    exact .inr ⟨.registerObject peer s.sessions.nextPath, rfl, hpeer.symm,
      (Bus.step_of_ok hok).symm⟩
  | @closed s bus x hx =>
    dsimp only
    rw [teardown_bus]
    cases hpeer : s.connection with
    | none => exact .inl rfl
    | some peer => exact .inr ⟨.unregisterObject peer x.path, rfl, rfl, rfl⟩
  | @emitted s bus after peer signal hpeer hemit =>
    have hok : bus.attempt (.emitSignal peer signal) = .ok after := hemit
    exact .inr ⟨.emitSignal peer signal, rfl, hpeer.symm, (Bus.step_of_ok hok).symm⟩

theorem Moves.fixed {owner? : Option String} {before after : Service × Bus}
    (h : Moves owner? before after) :
    after.1.connection = before.1.connection ∧ after.1.masterPath = before.1.masterPath ∧
      after.1.config = before.1.config := by
  induction h with
  | refl => exact ⟨rfl, rfl, rfl⟩
  | tail _ hlast ih =>
    obtain ⟨hconnection, hpath, hconfig⟩ := hlast.fixed
    exact ⟨hconnection.trans ih.1, hpath.trans ih.2.1, hconfig.trans ih.2.2⟩

/-- Any number of moves is a history of the bus that the broker's own connection makes. -/
theorem Moves.history {owner? : Option String} {before after : Service × Bus}
    (h : Moves owner? before after) :
    ∃ history : List Bus.Action, after.2 = before.2.run history ∧
      ∀ action ∈ history, action.actor?.isSome ∧ action.actor? = before.1.connection := by
  induction h with
  | refl => exact ⟨[], rfl, by simp⟩
  | @tail middle last hmoves hlast ih =>
    obtain ⟨history, hbus, hactors⟩ := ih
    obtain hsame | ⟨action, hsome, hactor, hstep⟩ := hlast.bus_eq
    · exact ⟨history, hsame.trans hbus, hactors⟩
    · refine ⟨history ++ [action], ?_, fun other hother => ?_⟩
      · rw [hstep, hbus, Bus.run, Bus.run, List.foldl_append]
        rfl
      · cases List.mem_append.mp hother with
        | inl hother => exact hactors other hother
        | inr hother =>
          rw [List.mem_singleton.mp hother]
          exact ⟨hsome, hactor.trans (Moves.fixed hmoves).1⟩

/-! ## Operations are sequences of moves -/

/-- The providers of a broker that has loaded them on demand for a new session. -/
def supplied (s : Service) (source : Provider.Source) : Provider.Registry :=
  if s.providers.records = [] ∧ s.config.reloadPolicy = .onDemand then
    (s.providers.load source).1
  else s.providers

theorem reloadIfEmpty_service (s : Service) (source : Provider.Source) :
    (s.reloadIfEmpty source).1 = { s with providers := s.supplied source } := by
  rw [reloadIfEmpty, supplied]
  by_cases h : s.providers.records = [] ∧ s.config.reloadPolicy = .onDemand
  · simp [h, reload]
  · simp [h]

theorem reloadIfEmpty_connection (s : Service) (source : Provider.Source) :
    (s.reloadIfEmpty source).1.connection = s.connection := by
  rw [reloadIfEmpty_service]

theorem reloadIfEmpty_sessions (s : Service) (source : Provider.Source) :
    (s.reloadIfEmpty source).1.sessions = s.sessions := by
  rw [reloadIfEmpty_service]

theorem reloadIfEmpty_moves (s : Service) (bus : Bus) (owner? : Option String)
    (source : Provider.Source) : Moves owner? (s, bus) ((s.reloadIfEmpty source).1, bus) := by
  rw [reloadIfEmpty]
  split
  · exact .single (.load source)
  · exact .refl

/-- What can come of a request for a session, if this is the broker when it has loaded and this is
what loading told. -/
inductive Creation (s : Service) (bus : Bus) (owner : String) (loaded : Service)
    (loading : Effects) : Outcome (Except Error Bus.ObjectPath) → Prop where
  | offline (hnone : s.connection = none) :
      Creation s bus owner loaded loading
        { result := .error .notConnected, service := s, bus, effects := [] }
  | exported {peer : String} {after : Bus} (hpeer : s.connection = some peer)
      (hexport : bus.registerObject peer loaded.sessions.nextPath = .ok after) :
      Creation s bus owner loaded loading {
        result := .ok loaded.sessions.nextPath
        service := { loaded with sessions := (loaded.sessions.create owner).2.1 }
        bus := after
        effects := loading ++ (loaded.sessions.create owner).2.2
          ++ [.event (.sessionExported loaded.sessions.nextPath owner)] }
  | refused {peer : String} {e : Bus.Error} (hpeer : s.connection = some peer)
      (hexport : bus.registerObject peer loaded.sessions.nextPath = .error e) :
      Creation s bus owner loaded loading {
        result := .error (.bus e)
        service := { loaded with
          sessions := ((loaded.sessions.create owner).2.1.destroy loaded.sessions.nextPath
            loaded.providers).2.1
          providers := ((loaded.sessions.create owner).2.1.destroy loaded.sessions.nextPath
            loaded.providers).2.2.1 }
        bus
        effects := loading ++ (loaded.sessions.create owner).2.2
          ++ [.event (.exportFailed loaded.sessions.nextPath owner (.bus e))]
          ++ ((loaded.sessions.create owner).2.1.destroy loaded.sessions.nextPath
            loaded.providers).2.2.2 }

theorem exportObject_of_connection {peer : String} (h : s.connection = some peer) (bus : Bus)
    (path : Bus.ObjectPath) :
    s.exportObject bus path = (bus.registerObject peer path).mapError .bus := by
  rw [exportObject, h]

theorem create_of_offline (h : s.connection = none) (bus : Bus) (source : Provider.Source)
    (call : Bus.MethodCall) :
    s.create bus source call =
      { result := .error .notConnected, service := s, bus, effects := [] } := by
  rw [create, h]
  rfl

theorem create_creation (s : Service) (bus : Bus) (source : Provider.Source)
    (call : Bus.MethodCall) :
    Creation s bus (call.sender.getD "") (s.reloadIfEmpty source).1 (s.reloadIfEmpty source).2
      (s.create bus source call) := by
  cases hpeer : s.connection with
  | none =>
    rw [create_of_offline hpeer]
    exact .offline hpeer
  | some peer =>
    -- Loading leaves the connection, so it is still there when the session is exported.
    have hconnection := (reloadIfEmpty_connection s source).trans hpeer
    rw [create, hpeer, Option.isNone_some, if_neg Bool.false_ne_true]
    dsimp only
    have hexporting :
        (s.reloadIfEmpty source).1.exportObject bus
          ((s.reloadIfEmpty source).1.sessions.create (call.sender.getD "")).1.path =
        (bus.registerObject peer (s.reloadIfEmpty source).1.sessions.nextPath).mapError .bus :=
      exportObject_of_connection hconnection bus _
    rw [hexporting]
    cases hexport : bus.registerObject peer (s.reloadIfEmpty source).1.sessions.nextPath with
    | ok after => exact .exported hpeer hexport
    | error e => exact .refused hpeer hexport

/-- What comes of a request is decided by the answer of the bus. -/
theorem Creation.unique {owner : String} {loaded : Service} {loading : Effects}
    {o other : Outcome (Except Error Bus.ObjectPath)} (h : Creation s bus owner loaded loading o)
    (hother : Creation s bus owner loaded loading other) : o = other := by
  cases h with
  | offline hnone =>
    cases hother with
    | offline => rfl
    | exported hpeer | refused hpeer =>
      rw [hnone] at hpeer
      cases hpeer
  | exported hpeer hexport =>
    cases hother with
    | offline hnone =>
      rw [hpeer] at hnone
      cases hnone
    | exported hpeer' hexport' =>
      cases hpeer.symm.trans hpeer'
      cases hexport.symm.trans hexport'
      rfl
    | refused hpeer' hexport' =>
      cases hpeer.symm.trans hpeer'
      cases hexport.symm.trans hexport'
  | refused hpeer hexport =>
    cases hother with
    | offline hnone =>
      rw [hpeer] at hnone
      cases hnone
    | exported hpeer' hexport' =>
      cases hpeer.symm.trans hpeer'
      cases hexport.symm.trans hexport'
    | refused hpeer' hexport' =>
      cases hpeer.symm.trans hpeer'
      cases hexport.symm.trans hexport'
      rfl

theorem create_moves (s : Service) (bus : Bus) (source : Provider.Source) (call : Bus.MethodCall) :
    Moves (some (call.sender.getD "")) (s, bus)
      ((s.create bus source call).service, (s.create bus source call).bus) := by
  have hloading := reloadIfEmpty_moves s bus (some (call.sender.getD "")) source
  -- Loading leaves the connection, so what follows is on behalf of the same peer.
  have hconnection := reloadIfEmpty_connection s source
  have hcreation := create_creation s bus source call
  generalize s.create bus source call = o at hcreation ⊢
  cases hcreation with
  | offline => exact .refl
  | exported hpeer hexport =>
    exact hloading.tail (.opened rfl (hconnection.trans hpeer) hexport)
  | refused hpeer hexport =>
    exact hloading.tail (.refused _ (hconnection.trans hpeer) hexport)

theorem teardown_numbered (h : s.sessions.Numbered) (bus : Bus) (path : Bus.ObjectPath) :
    (s.teardown bus path).service.sessions.Numbered := by
  rw [teardown_sessions]
  exact h.remove path

/-- When the first of several live sessions is destroyed, the others are still there. -/
theorem live_of_cons (s : Service) (bus : Bus) {path : Bus.ObjectPath} {rest : List Bus.ObjectPath}
    (hlive : ∀ other ∈ path :: rest, other ∈ s.sessions.paths) (hnodup : (path :: rest).Nodup) :
    path ∈ s.sessions.paths ∧
      (∀ other ∈ rest, other ∈ (s.teardown bus path).service.sessions.paths) ∧ rest.Nodup := by
  rw [List.nodup_cons] at hnodup
  refine ⟨hlive _ List.mem_cons_self, fun other hother => ?_, hnodup.2⟩
  rw [teardown_sessions, Session.Registry.paths_remove, List.mem_filter]
  refine ⟨hlive other (List.mem_cons_of_mem _ hother), decide_eq_true ?_⟩
  rintro rfl
  exact hnodup.1 hother

theorem teardownAll_moves (owner? : Option String) {paths : List Bus.ObjectPath}
    (hlive : ∀ path ∈ paths, path ∈ s.sessions.paths) (hnodup : paths.Nodup) :
    Moves owner? (s, bus) ((s.teardownAll bus paths).service, (s.teardownAll bus paths).bus) := by
  induction paths generalizing s bus with
  | nil => exact .refl
  | cons path rest ih =>
    obtain ⟨hfirst, hrest, htail⟩ := live_of_cons s bus hlive hnodup
    obtain ⟨x, hx, rfl⟩ := Session.Registry.mem_paths.mp hfirst
    exact .head (.closed hx) (ih hrest htail)

theorem depart_moves (owner? : Option String) (h : s.sessions.Numbered) (bus : Bus)
    (name : String) :
    Moves owner? (s, bus) ((s.depart bus name).service, (s.depart bus name).bus) :=
  teardownAll_moves owner? (h.pathsOf name).1 (h.pathsOf name).2

theorem filter_moves (owner? : Option String) (h : s.sessions.Numbered) (bus : Bus)
    (m : Bus.Message) :
    Moves owner? (s, bus) ((s.filter bus m).service, (s.filter bus m).bus) := by
  rw [filter]
  split
  · exact .refl
  · exact depart_moves owner? h bus _

theorem sessionAt_of_not_found {text : String} (h : s.sessions.atText? text = none) :
    s.sessionPath text = .error (.sessionNotFound text) ∧
      s.sessionAt text = .error (.sessionNotFound text) := by
  have hpath : s.sessionPath text = .error (.sessionNotFound text) := by
    rw [sessionPath, Session.Registry.pathAt?_eq_none_iff.mpr
      (Session.Registry.atText?_eq_none_iff.mp h)]
  exact ⟨hpath, by rw [sessionAt, hpath]⟩

/-- What the first look-up finds, the second one finds again. -/
theorem sessionAt_of_found {text : String} {x : Session} (h : s.sessions.atText? text = some x) :
    s.sessionPath text = .ok x.path ∧ s.sessionAt text = .ok x := by
  rw [Session.Registry.atText?_eq_bind, Option.bind_eq_some_iff] at h
  obtain ⟨path, hpath, hget⟩ := h
  obtain ⟨-, rfl⟩ := Session.Registry.mem_of_get? hget
  have hfound : s.sessionPath text = .ok x.path := by rw [sessionPath, hpath]
  refine ⟨hfound, ?_⟩
  rw [sessionAt, hfound]
  simp only [hget]

theorem onSession_of_not_found {α : Type} {text : String} (h : s.sessions.atText? text = none)
    (act : Session → Outcome α) :
    s.onSession bus text act =
      { result := .error (.sessionNotFound text), service := s, bus, effects := [] } := by
  rw [onSession, (sessionAt_of_not_found h).2, onFound]

theorem onSession_of_found {α : Type} {text : String} {x : Session}
    (h : s.sessions.atText? text = some x) (bus : Bus) (act : Session → Outcome α) :
    s.onSession bus text act = (act x).map .ok := by
  rw [onSession, (sessionAt_of_found h).2]
  rfl

/-- A release needs the path only, and might as well look for the session. -/
theorem release_eq (s : Service) (bus : Bus) (text : String) :
    s.release bus text = s.onSession bus text fun x =>
      let o := s.teardown bus x.path
      { o with effects := o.effects ++ [.event (.sessionReleased x.path)] } := by
  cases hat : s.sessions.atText? text with
  | none =>
    rw [onSession_of_not_found hat, release, (sessionAt_of_not_found hat).1]
    rfl
  | some x =>
    rw [onSession_of_found hat, release, (sessionAt_of_found hat).1]
    rfl

/-- An operation on a session is refused if no session is live at the path. -/
theorem onSession_cases {α : Type} (s : Service) (bus : Bus) (path : String)
    (act : Session → Outcome α) :
    s.onSession bus path act =
        { result := .error (.sessionNotFound path), service := s, bus, effects := [] } ∨
      ∃ x ∈ s.sessions.sessions, x.path.text = path ∧ s.sessions.get? x.path = some x ∧
        s.onSession bus path act = (act x).map .ok := by
  cases hat : s.sessions.atText? path with
  | none => exact .inl (onSession_of_not_found hat act)
  | some x =>
    obtain ⟨htext, hget⟩ := Session.Registry.atText?_eq_some_iff.mp hat
    exact .inr ⟨x, (Session.Registry.mem_of_get? hget).1, htext, hget,
      onSession_of_found hat bus act⟩

theorem onSession_moves {α : Type} {owner? : Option String} {path : String}
    {act : Session → Outcome α}
    (hact : ∀ x ∈ s.sessions.sessions, Moves owner? (s, bus) ((act x).service, (act x).bus)) :
    Moves owner? (s, bus)
      ((s.onSession bus path act).service, (s.onSession bus path act).bus) := by
  obtain h | ⟨x, hx, -, -, h⟩ := onSession_cases s bus path act
  · rw [h]
  · rw [h]
    exact hact x hx

theorem announceOptions_moves (owner? : Option String) (s : Service) (bus : Bus)
    (options : Ledger String String) :
    Moves owner? (s, bus)
      ((s.announceOptions bus options).service, (s.announceOptions bus options).bus) := by
  rw [announceOptions]
  split
  · exact .refl
  · dsimp only
    split
    · exact .single (.emitted ‹_› ‹_›)
    · exact .refl

/-- An operation is a sequence of moves. -/
theorem perform_moves (h : s.sessions.Numbered) (bus : Bus) (operation : Operation) :
    Moves operation.owner? (s, bus)
      ((s.perform bus operation).service, (s.perform bus operation).bus) := by
  cases operation with
  | create source call => exact create_moves s bus source call
  | handleCall source call =>
    simp only [perform, Outcome.map_service, Outcome.map_bus, handleCall]
    split
    · exact create_moves s bus source call
    · exact .refl
  | filter m => exact filter_moves none h bus m
  | depart name => exact depart_moves none h bus name
  | release path =>
    rw [perform, release_eq]
    exact onSession_moves fun x hx => .single (.closed hx)
  | attachHook path hook =>
    exact onSession_moves fun x _ => .single (.changed x.path (fun _ => rfl) fun _ => rfl)
  | setRequirements path c =>
    exact onSession_moves fun x _ => .single (.changed x.path (fun _ => rfl) fun _ => rfl)
  | providersFor path => exact onSession_moves fun _ _ => .refl
  | reload source => exact .single (.load source)
  | announceOptions options => exact announceOptions_moves none s bus options

theorem perform_numbered (h : s.sessions.Numbered) (bus : Bus) (operation : Operation) :
    (s.perform bus operation).service.sessions.Numbered :=
  Moves.invariant (fun hbefore hmove => hmove.numbered hbefore) (perform_moves h bus operation) h

end Service

end Broker

end LocationBroker
