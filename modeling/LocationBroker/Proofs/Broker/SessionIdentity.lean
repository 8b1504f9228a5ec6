import LocationBroker.Proofs.Broker.ProviderLifetime
import LocationBroker.Proofs.Session.Identity

/-! # The identity of a broker's sessions

A broker mints one path for each request for a session, also if the session cannot be exported and
is destroyed at once; nothing else that it does touches the numbering (`perform_mints`).  So the
sessions of a broker are identified as those of a registry by itself are: `session_identity`.
-/

namespace LocationBroker.Broker.Service

open Session (Registry)
open Session.Registry (Identified Minted mintedDuring)

def mints (s : Service) : Operation → Bool
  | .create .. => s.isFunctional
  | .handleCall _ call => s.isFunctional && s.isCreation call
  | _ => false

/-- The paths that the broker mints on several occasions. -/
def mintedOn (s : Service) : List Occasion → List Bus.ObjectPath
  | [] => []
  | occasion :: rest =>
    let o := s.perform occasion.bus occasion.operation
    o.effects.created ++ o.service.mintedOn rest

/-- The outcome tells of these new paths, and the numbering goes on by as many. -/
structure Mints {α : Type} (s : Service) (o : Outcome α) (new : List Bus.ObjectPath) : Prop where
  created : o.effects.created = new
  base : o.service.sessions.base = s.sessions.base
  nextSerial : o.service.sessions.nextSerial = s.sessions.nextSerial + new.length

variable {α : Type} {s : Service} {bus : Bus} {new : List Bus.ObjectPath}

theorem Mints.congr {β : Type} {o : Outcome α} {o' : Outcome β} (h : Mints s o new)
    (hservice : o'.service = o.service) (heffects : o'.effects.created = o.effects.created) :
    Mints s o' new := by
  constructor
  · rw [heffects, h.created]
  · rw [hservice, h.base]
  · rw [hservice, h.nextSerial]

/-! ## What mints nothing -/

theorem teardown_mints (bus : Bus) {path : Bus.ObjectPath} (hpath : path ∈ s.sessions.paths) :
    Mints s (s.teardown bus path) [] where
  created := teardown_created s bus hpath
  base := by rw [teardown_sessions]; rfl
  nextSerial := by rw [teardown_sessions]; rfl

theorem teardownAll_mints (bus : Bus) {paths : List Bus.ObjectPath}
    (hlive : ∀ path ∈ paths, path ∈ s.sessions.paths) (hnodup : paths.Nodup) :
    Mints s (s.teardownAll bus paths) [] := by
  induction paths generalizing s bus with
  | nil => exact ⟨rfl, rfl, rfl⟩
  | cons path rest ih =>
    obtain ⟨hfirst, hrest, htail⟩ := live_of_cons s bus hlive hnodup
    have hhead := teardown_mints bus hfirst
    have hothers := ih (s.teardown bus path).bus hrest htail
    rw [teardownAll]
    refine ⟨?_, hothers.base.trans hhead.base, hothers.nextSerial.trans hhead.nextSerial⟩
    rw [Log.Effects.created_append, hhead.created, hothers.created]
    rfl

theorem depart_mints (h : s.sessions.Numbered) (bus : Bus) (name : String) :
    Mints s (s.depart bus name) [] := by
  obtain ⟨hlive, hnodup⟩ := h.pathsOf name
  obtain ⟨told, hidle, heffects⟩ := s.depart_effects bus name
  refine (teardownAll_mints bus hlive hnodup).congr rfl ?_
  rw [heffects, Log.Effects.created_append, (hidle.quiet none).created, List.append_nil]

theorem filter_mints (h : s.sessions.Numbered) (bus : Bus) (m : Bus.Message) :
    Mints s (s.filter bus m) [] := by
  rw [filter]
  split
  · exact ⟨rfl, rfl, rfl⟩
  · refine (depart_mints h bus _).congr rfl ?_
    rw [Log.Effects.created_append, ((presence_idle m).quiet none).created, List.nil_append]

theorem onSession_mints {path : String} {act : Session → Outcome α}
    (hact : ∀ x ∈ s.sessions.sessions, Mints s (act x) []) :
    Mints s (s.onSession bus path act) [] := by
  obtain h | ⟨x, hx, -, -, h⟩ := onSession_cases s bus path act <;> rw [h]
  · exact ⟨rfl, rfl, rfl⟩
  · exact (hact x hx).congr rfl rfl

/-! ## What mints a path -/

theorem create_mints (s : Service) (bus : Bus) (source : Provider.Source) (call : Bus.MethodCall) :
    Mints s (s.create bus source call) (if s.isFunctional then [s.sessions.nextPath] else []) := by
  -- Loading on demand comes first, and has nothing to do with sessions.
  have hsame := reloadIfEmpty_sessions s source
  have hquiet : (s.reloadIfEmpty source).2.created = [] := by
    rw [reloadIfEmpty]
    split
    · exact (Log.Effects.sessions_load s.providers source).1
    · rfl
  have hcreation := create_creation s bus source call
  generalize s.create bus source call = o at hcreation ⊢
  generalize (s.reloadIfEmpty source).1 = loaded at hcreation hsame
  generalize (s.reloadIfEmpty source).2 = loading at hcreation hquiet
  have hbase : loaded.sessions.base = s.sessions.base := by rw [hsame]
  have hserial : loaded.sessions.nextSerial + 1 = s.sessions.nextSerial + 1 := by rw [hsame]
  rw [isFunctional, ← hsame]
  cases hcreation with
  | offline hnone =>
    rw [hnone]
    exact ⟨rfl, rfl, rfl⟩
  | exported hpeer =>
    rw [hpeer]
    refine ⟨?_, hbase, hserial⟩
    rw [Log.Effects.created_append, Log.Effects.created_append, hquiet]
    rfl
  | refused hpeer =>
    rw [hpeer]
    -- The path of a session that is destroyed again is used up all the same.
    have hlive : loaded.sessions.nextPath ∈
        (loaded.sessions.create (call.sender.getD "")).2.1.paths := by
      simp [Registry.paths_create]
    obtain ⟨hdestroying, -⟩ := Registry.destroy_effects hlive loaded.providers none
    constructor
    · simp only [Log.Effects.created_append, hquiet]
      exact congrArg (loaded.sessions.nextPath :: ·) hdestroying
    · dsimp only
      rw [Registry.destroy_registry]
      exact hbase
    · dsimp only
      rw [Registry.destroy_registry]
      exact hserial

/-- An operation mints the next path if it asks a functional broker for a session, and nothing
otherwise. -/
theorem perform_mints (h : s.sessions.Numbered) (bus : Bus) (operation : Operation) :
    Mints s (s.perform bus operation)
      (if s.mints operation then [s.sessions.nextPath] else []) := by
  cases operation with
  | create source call => exact (create_mints s bus source call).congr rfl rfl
  | handleCall source call =>
    rw [mints, perform, handleCall]
    cases hasked : s.isCreation call with
    | true =>
      rw [Bool.and_true]
      exact (create_mints s bus source call).congr rfl rfl
    | false =>
      rw [Bool.and_false]
      exact ⟨rfl, rfl, rfl⟩
  | filter m => exact (filter_mints h bus m).congr rfl rfl
  | depart name => exact (depart_mints h bus name).congr rfl rfl
  | release path =>
    rw [perform, release_eq]
    refine (onSession_mints fun x hx => ?_).congr rfl rfl
    refine (teardown_mints bus (Registry.mem_paths.mpr ⟨x, hx, rfl⟩)).congr rfl ?_
    rw [Log.Effects.created_append]
    exact List.append_nil _
  | attachHook path hook =>
    refine (onSession_mints fun x _ => ?_).congr rfl rfl
    exact ⟨rfl, rfl, rfl⟩
  | setRequirements path c =>
    refine (onSession_mints fun x _ => ?_).congr rfl rfl
    exact ⟨rfl, rfl, rfl⟩
  | providersFor path =>
    refine (onSession_mints fun x _ => ?_).congr rfl rfl
    exact ⟨rfl, rfl, rfl⟩
  | reload source => exact ⟨(Log.Effects.sessions_load s.providers source).1, rfl, rfl⟩
  | announceOptions options =>
    rw [perform, announceOptions]
    split
    · exact ⟨rfl, rfl, rfl⟩
    · dsimp only
      split <;> exact ⟨rfl, rfl, rfl⟩

/-! ## Any occasions -/

theorem perform_mints_eq (h : s.sessions.Numbered) (bus : Bus) (operation other : Operation) :
    (s.perform bus operation).service.mints other = s.mints other := by
  obtain ⟨hconnection, hmaster, -⟩ := (perform_moves h bus operation).fixed
  dsimp only at hconnection hmaster
  cases other with
  | create | handleCall => simp only [mints, isFunctional, isCreation, hconnection, hmaster]
  | _ => rfl

theorem minted_perform {base : Bus.ObjectPath} {minted : List Bus.ObjectPath}
    (h : Minted base minted s.sessions) (bus : Bus) (operation : Operation) :
    Minted base (minted ++ (s.perform bus operation).effects.created)
      (s.perform bus operation).service.sessions := by
  obtain ⟨hcreated, hbase, hserial⟩ := perform_mints h.numbered bus operation
  rw [hcreated]
  refine h.extend ?_ hbase (perform_numbered h.numbered bus operation) hserial
  split
  · exact .inr rfl
  · exact .inl rfl

theorem minted_after {base : Bus.ObjectPath} {minted : List Bus.ObjectPath}
    (h : Minted base minted s.sessions) (occasions : List Occasion) :
    Minted base (minted ++ s.mintedOn occasions) (s.after occasions).sessions := by
  induction occasions generalizing minted s with
  | nil =>
    rw [mintedOn, List.append_nil]
    exact h
  | cons occasion rest ih =>
    rw [mintedOn, ← List.append_assoc]
    exact ih (minted_perform h occasion.bus occasion.operation)

theorem after_base (h : s.sessions.Numbered) (occasions : List Occasion) :
    (s.after occasions).sessions.base = s.sessions.base :=
  after_invariant (P := fun current => current.sessions.base = s.sessions.base) h rfl
    fun _ hcurrent hbefore => (perform_mints hcurrent _ _).base.trans hbefore

theorem length_mintedOn (h : s.sessions.Numbered) (occasions : List Occasion) :
    (s.mintedOn occasions).length =
      occasions.countP fun occasion => s.mints occasion.operation := by
  induction occasions generalizing s with
  | nil => rfl
  | cons occasion rest ih =>
    obtain ⟨hcreated, -⟩ := perform_mints h occasion.bus occasion.operation
    have hrest := ih (perform_numbered h occasion.bus occasion.operation)
    simp only [perform_mints_eq h] at hrest
    rw [mintedOn, List.length_append, hcreated, hrest, List.countP_cons, Nat.add_comm]
    congr 1
    split <;> rfl

/-- The sessions of a registry are identified by their paths and their owners after any actions, and
its serial is the number of sessions that were created.  The same is true of the sessions of a
broker after any operations, where a session counts also if it could not be exported. -/
theorem session_identity :
    (∀ (base : Bus.ObjectPath) (actions : List Registry.Action),
      let r : Registry := { base }
      Identified base.text (r.mintedDuring actions) (r.run actions) ∧
        (r.run actions).nextSerial = actions.countP Registry.Action.isCreate) ∧
    ∀ {c : Config} {bus : Bus} {source : Provider.Source} {o : Outcome Unit},
      start c bus source = .ok o → ∀ occasions : List Occasion,
        let s := o.service.after occasions
        Identified c.sessionPathPrefix (o.service.mintedOn occasions) s.sessions ∧
          s.sessions.nextSerial =
            occasions.countP fun occasion => o.service.mints occasion.operation := by
  constructor
  · intro base actions r
    have hminted := Registry.minted_run (.empty base) actions
    rw [List.nil_append] at hminted
    exact ⟨hminted.identified, by rw [← hminted.length_eq, Registry.length_mintedDuring]⟩
  · intro c bus source o hstart occasions s
    obtain ⟨-, base, hsessions⟩ := start_sessions hstart
    obtain ⟨-, htext⟩ := start_paths hstart
    have hempty : Minted base [] o.service.sessions := by
      rw [hsessions]
      exact .empty base
    have hminted := minted_after hempty occasions
    rw [List.nil_append] at hminted
    rw [← htext, hsessions]
    exact ⟨hminted.identified,
      by rw [← hminted.length_eq, length_mintedOn (start_numbered hstart)]⟩

/-- The path of the first session of the standard broker. -/
def firstSession : Bus.ObjectPath := ⟨"/org/freedesktop/Geoclue/Master/client0", by decide⟩

/-- The path of the second session of the standard broker. -/
def secondSession : Bus.ObjectPath := ⟨"/org/freedesktop/Geoclue/Master/client1", by decide⟩

/-- Somebody exports an object at the path of the first session. -/
def occupied : List Bus.Action := [.connect .session, .registerObject ":1.0" firstSession]

/-- A peer asks for two sessions while the bus and the source are as they are. -/
def askingTwice (bus : Bus) (source : Provider.Source) : List Occasion :=
  let call : Bus.MethodCall :=
    { sender := some ":1.5", path := .root, interface := none, member := createMethod }
  [⟨bus, .create source call⟩, ⟨bus, .create source call⟩]

set_option maxRecDepth 8000 in
/-- On the bus of `occupied` the first session cannot be exported, and its serial is not used
again. -/
theorem session_identity_occupied :
    ∃ o, start .standard (Bus.run {} occupied) .none = .ok o ∧
      let requests := askingTwice o.bus .none
      let s := o.service.after requests
      (s.sessions.sessions.map fun x => x.path.text)
          = ["/org/freedesktop/Geoclue/Master/client1"] ∧
        Identified "/org/freedesktop/Geoclue/Master/client" (o.service.mintedOn requests)
          s.sessions ∧
        s.sessions.nextSerial = 2 := by
  obtain ⟨o, hstart, hfunctional, hlive⟩ := exists_start .standard (Bus.run {} occupied) .none
    (fun o => o.service.isFunctional = true ∧
      ((o.service.after (askingTwice o.bus .none)).sessions.sessions.map fun x => x.path.text)
        = ["/org/freedesktop/Geoclue/Master/client1"]) (by decide)
  obtain ⟨hidentified, hserial⟩ := session_identity.2 hstart (askingTwice o.bus .none)
  refine ⟨o, hstart, hlive, hidentified, hserial.trans ?_⟩
  simp [askingTwice, mints, hfunctional]

end LocationBroker.Broker.Service
