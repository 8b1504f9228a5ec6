import LocationBroker.Proofs.Broker.Operation
import LocationBroker.Proofs.Provider.Occupancy
import Mathlib.Data.List.Perm.Basic

/-! # The accounts of an operation

The effects of an operation tell which sessions it created and destroyed and what visits it paid to
the registry of providers.  `perform_accounted` says that they tell the truth: the sessions and the
providers after the operation are those before it, with the differences that the effects tell.  The
providers are let go only by an operation that destroys the last session.
-/

namespace LocationBroker

open Log (Effects)

namespace Log.Effects

/-- The paths of the sessions that were created, in order. -/
def created (es : Effects) : List Bus.ObjectPath :=
  es.filterMap fun
    | .event (.sessionCreated path _) => some path
    | _ => none

/-- The paths of the sessions that were destroyed, in order. -/
def destroyed (es : Effects) : List Bus.ObjectPath :=
  es.filterMap fun
    | .event (.sessionDestroyed path _ _) => some path
    | _ => none

@[simp] theorem created_append (first second : Effects) :
    (first ++ second).created = first.created ++ second.created :=
  List.filterMap_append

@[simp] theorem destroyed_append (first second : Effects) :
    (first ++ second).destroyed = first.destroyed ++ second.destroyed :=
  List.filterMap_append

/-- The effects tell nothing of sessions, nor of visits to the providers. -/
structure Quiet (source? : Option Provider.Source) (es : Effects) : Prop where
  created : es.created = []
  destroyed : es.destroyed = []
  visits : es.visits source? = []

/-- The effects are quiet whatever the source is, and no hooks are among them. -/
structure Idle (es : Effects) : Prop where
  quiet : ∀ source?, es.Quiet source?
  hookRuns : es.hookRuns = []

theorem Quiet.nil {source? : Option Provider.Source} : Quiet source? [] :=
  ⟨rfl, rfl, rfl⟩

theorem Idle.nil : Idle [] :=
  ⟨fun _ => .nil, rfl⟩

theorem sessions_load (r : Provider.Registry) (source : Provider.Source) :
    created (r.load source).2.2 = [] ∧ destroyed (r.load source).2.2 = [] := by
  obtain ⟨told, heffects, htold⟩ := r.load_effects source
  rw [heffects]
  constructor
  all_goals
    refine List.filterMap_eq_nil_iff.mpr fun e he => ?_
    obtain rfl | he := List.mem_cons.mp he
    · rfl
    · have hloading := htold e he
      cases e with
      | event e => cases e <;> first | rfl | cases hloading
      | listed | read | hookRun => rfl

end Log.Effects

namespace Session.Registry

variable {r : Registry} {path : Bus.ObjectPath}

/-- When a session has left the registry its end is told, and the providers are let go only if no
session remains. -/
theorem settle_effects (left : Registry) (gone : Session) (providers : Provider.Registry)
    (source? : Option Provider.Source) :
    let settling := (left.settle gone providers).2
    settling.created = [] ∧ settling.destroyed = [gone.path] ∧
      (left.settle gone providers).1 = providers.replay (settling.visits source?) ∧
      (.release ∈ settling.visits source? → left.sessions = []) := by
  rw [settle]
  by_cases hlast : left.sessions = []
  · rw [if_pos (List.isEmpty_iff.mpr hlast)]
    by_cases hempty : providers.records = []
    · rw [Provider.Registry.release_of_nil hempty]
      exact ⟨rfl, rfl, rfl, fun _ => hlast⟩
    · have hrelease := Provider.Registry.release_of_ne_nil hempty
      rw [hrelease]
      exact ⟨rfl, rfl, (congrArg (·.1) hrelease).symm, fun _ => hlast⟩
  · rw [if_neg (mt List.isEmpty_iff.mp hlast)]
    exact ⟨rfl, rfl, rfl, by rintro ⟨⟩⟩

/-- Destroying the session of a path tells of that session, and lets the providers go only if no
session remains. -/
theorem destroy_effects (h : path ∈ r.paths) (providers : Provider.Registry)
    (source? : Option Provider.Source) :
    let destroying := (r.destroy path providers).2.2.2
    destroying.created = [] ∧ destroying.destroyed = [path] ∧
      (r.destroy path providers).2.2.1 = providers.replay (destroying.visits source?) ∧
      (.release ∈ destroying.visits source? → (r.remove path).sessions = []) := by
  cases hget : r.get? path with
  | none => exact absurd h (get?_eq_none_iff.mp hget)
  | some x =>
    obtain ⟨-, rfl⟩ := mem_of_get? hget
    have hhook : (runHook x).Quiet source? := by
      rw [runHook]
      split <;> exact ⟨rfl, rfl, rfl⟩
    have hsettle := settle_effects (r.remove x.path) x providers source?
    rw [destroy_of_get? hget]
    simpa [hhook.created, hhook.destroyed, hhook.visits] using hsettle

theorem destroy_last (h : path ∈ r.paths) (hlast : (r.remove path).sessions = [])
    (providers : Provider.Registry) : (r.destroy path providers).2.2.1.records = [] := by
  rw [destroy_providers, if_pos ⟨h, hlast⟩]
  exact providers.release_records

/-- The live sessions are those that remain and the one that is taken out. -/
theorem Numbered.paths_perm_remove (h : r.Numbered) (hpath : path ∈ r.paths) :
    r.paths.Perm ((r.remove path).paths ++ [path]) := by
  rw [paths_remove]
  have herase : r.paths.filter (· ≠ path) = r.paths.erase path := by
    rw [h.nodup.erase_eq_filter]
    refine List.filter_congr fun other _ => ?_
    rw [Bool.eq_iff_iff]
    simp
  rw [herase]
  exact (List.perm_cons_erase hpath).trans (List.perm_append_singleton path _).symm

end Session.Registry

namespace Broker.Service

open Session.Registry (paths_eq_nil_iff)

/-! ## Accounts -/

/-- The effects of an operation account for its sessions and providers, if this is the source that
it loads from. -/
structure Accounted {α : Type} (source? : Option Provider.Source) (s : Service) (o : Outcome α) :
    Prop where
  sessions : (s.sessions.paths ++ o.effects.created).Perm
    (o.service.sessions.paths ++ o.effects.destroyed)
  providers : o.service.providers = s.providers.replay (o.effects.visits source?)
  /-- Whoever destroys the last session lets the providers go. -/
  emptied : o.effects.destroyed ≠ [] → o.service.sessions.sessions = [] →
    o.service.providers.records = []
  /-- The providers are let go by nobody else. -/
  released : .release ∈ o.effects.visits source? →
    o.effects.destroyed ≠ [] ∧ o.service.sessions.sessions = []

variable {α : Type} {source? : Option Provider.Source} {s : Service} {bus : Bus}

theorem Accounted.of_quiet {o : Outcome α} (hpaths : o.service.sessions.paths = s.sessions.paths)
    (hproviders : o.service.providers = s.providers) (h : o.effects.Quiet source?) :
    Accounted source? s o where
  sessions := by rw [hpaths, h.created, h.destroyed]
  providers := by rw [h.visits]; exact hproviders
  emptied hdestroyed := absurd h.destroyed hdestroyed
  released hrelease := by rw [h.visits] at hrelease; cases hrelease

theorem Accounted.congr {β : Type} {o : Outcome α} {o' : Outcome β} (h : Accounted source? s o)
    (hservice : o'.service = o.service) (heffects : o'.effects = o.effects) :
    Accounted source? s o' := by
  constructor <;> rw [hservice, heffects]
  · exact h.sessions
  · exact h.providers
  · exact h.emptied
  · exact h.released

/-- The accounts do not change with what else is told before or after. -/
theorem Accounted.around {β : Type} {o : Outcome α} {o' : Outcome β}
    (h : Accounted source? s o) (before after : Effects) (hservice : o'.service = o.service)
    (heffects : o'.effects = before ++ o.effects ++ after) (hbefore : before.Quiet source?)
    (hafter : after.Quiet source?) : Accounted source? s o' := by
  have hcreated : o'.effects.created = o.effects.created := by
    simp [heffects, hbefore.created, hafter.created]
  have hdestroyed : o'.effects.destroyed = o.effects.destroyed := by
    simp [heffects, hbefore.destroyed, hafter.destroyed]
  have hvisits : o'.effects.visits source? = o.effects.visits source? := by
    simp [heffects, hbefore.visits, hafter.visits]
  constructor
  · rw [hservice, hcreated, hdestroyed]
    exact h.sessions
  · rw [hservice, hvisits]
    exact h.providers
  · rw [hservice, hdestroyed]
    exact h.emptied
  · rw [hservice, hdestroyed, hvisits]
    exact h.released

/-! ## Destroying sessions -/

theorem withdraw_idle (s : Service) (bus : Bus) (path : Bus.ObjectPath) :
    (s.withdraw bus path).2.Idle := by
  rw [withdraw]
  split
  · exact ⟨fun _ => ⟨rfl, rfl, rfl⟩, rfl⟩
  · split <;> exact ⟨fun _ => ⟨rfl, rfl, rfl⟩, rfl⟩

theorem presence_idle (m : Bus.Message) : (Presence.effects m).Idle := by
  rw [Presence.effects]
  split <;> exact ⟨fun _ => ⟨rfl, rfl, rfl⟩, rfl⟩

/-- What a departure tells is what the ends of the sessions tell, and something idle. -/
theorem depart_effects (s : Service) (bus : Bus) (name : String) :
    ∃ told : Effects, told.Idle ∧ (s.depart bus name).effects =
      (s.teardownAll bus (s.sessions.pathsOf name)).effects ++ told := by
  refine ⟨_, ?_, rfl⟩
  split <;> exact ⟨fun _ => ⟨rfl, rfl, rfl⟩, rfl⟩

theorem teardown_created (s : Service) (bus : Bus) {path : Bus.ObjectPath}
    (h : path ∈ s.sessions.paths) : (s.teardown bus path).effects.created = [] := by
  have hwithdraw := ((s.withdraw_idle bus path).quiet none).created
  have hdestroy := (Session.Registry.destroy_effects h s.providers none).1
  rw [teardown, Log.Effects.created_append, hwithdraw]
  exact hdestroy

theorem destroy_accounted (source? : Option Provider.Source) (h : s.sessions.Numbered) (bus : Bus)
    {path : Bus.ObjectPath} (hpath : path ∈ s.sessions.paths) :
    Accounted source? s {
      result := (), bus
      service := { s with
        sessions := (s.sessions.destroy path s.providers).2.1
        providers := (s.sessions.destroy path s.providers).2.2.1 }
      effects := (s.sessions.destroy path s.providers).2.2.2 } := by
  obtain ⟨hcreated, hdestroyed, hproviders, hreleased⟩ :=
    Session.Registry.destroy_effects hpath s.providers source?
  have hsessions := Session.Registry.destroy_registry s.sessions path s.providers
  constructor <;> dsimp only
  · rw [hcreated, hdestroyed, hsessions, List.append_nil]
    exact h.paths_perm_remove hpath
  · exact hproviders
  · intro _ hlast
    rw [hsessions] at hlast
    exact Session.Registry.destroy_last hpath hlast s.providers
  · intro hrelease
    rw [hdestroyed, hsessions]
    exact ⟨List.cons_ne_nil _ _, hreleased hrelease⟩

theorem teardown_accounted (h : s.sessions.Numbered) (bus : Bus) {path : Bus.ObjectPath}
    (hpath : path ∈ s.sessions.paths) : Accounted source? s (s.teardown bus path) := by
  have hdestroy := destroy_accounted source? h bus hpath
  exact hdestroy.around _ [] rfl (List.append_nil _).symm ((s.withdraw_idle bus path).quiet source?)
    .nil

theorem load_not_mem_visits (source : Provider.Source) (es : Effects) :
    .load source ∉ es.visits none := by
  rw [Log.Effects.visits, List.mem_filterMap]
  rintro ⟨e, -, he⟩
  cases e with
  | listed | read | hookRun => cases he
  | event e => cases e <;> cases he

/-- The accounts of two things in turn, if the second creates no session and nobody loads. -/
theorem Accounted.andThen {first second : Outcome α} (h : Accounted none s first)
    (h' : Accounted none first.service second) (hcreated : second.effects.created = []) :
    Accounted none s { second with effects := first.effects ++ second.effects } := by
  have hperm := h'.sessions
  rw [hcreated, List.append_nil] at hperm
  -- Once no session is left there is nothing more to destroy, and no records come back.
  have hstays : first.service.sessions.sessions = [] →
      second.effects.destroyed = [] ∧ second.service.sessions.sessions = [] := by
    intro hnone
    rw [paths_eq_nil_iff.mpr hnone, List.nil_perm, List.append_eq_nil_iff] at hperm
    exact ⟨hperm.2, paths_eq_nil_iff.mp hperm.1⟩
  constructor <;>
    simp only [Log.Effects.created_append, Log.Effects.destroyed_append, Log.Effects.visits_append]
  · rw [hcreated, List.append_nil]
    refine h.sessions.trans ((hperm.append_right _).trans ?_)
    rw [List.append_assoc]
    exact List.perm_append_comm.append_left _
  · rw [Provider.Registry.replay_append, ← h.providers]
    exact h'.providers
  · intro hdestroyed hnone
    by_cases hlater : second.effects.destroyed = []
    · rw [hlater, List.append_nil] at hdestroyed hperm
      rw [paths_eq_nil_iff.mpr hnone, List.perm_nil] at hperm
      rw [h'.providers]
      exact Provider.Registry.records_replay
        (h.emptied hdestroyed (paths_eq_nil_iff.mp hperm))
        fun source => load_not_mem_visits source _
    · exact h'.emptied hlater hnone
  · intro hrelease
    cases List.mem_append.mp hrelease with
    | inl hrelease =>
      obtain ⟨hdestroyed, hnone⟩ := h.released hrelease
      exact ⟨by simp [hdestroyed], (hstays hnone).2⟩
    | inr hrelease =>
      obtain ⟨hdestroyed, hnone⟩ := h'.released hrelease
      exact ⟨by simp [hdestroyed], hnone⟩

theorem teardownAll_created (s : Service) (bus : Bus) {paths : List Bus.ObjectPath}
    (hlive : ∀ path ∈ paths, path ∈ s.sessions.paths) (hnodup : paths.Nodup) :
    (s.teardownAll bus paths).effects.created = [] := by
  induction paths generalizing s bus with
  | nil => rfl
  | cons path rest ih =>
    obtain ⟨hfirst, hrest, htail⟩ := live_of_cons s bus hlive hnodup
    rw [teardownAll, Log.Effects.created_append, teardown_created s bus hfirst]
    exact ih _ _ hrest htail

theorem teardownAll_accounted (h : s.sessions.Numbered) (bus : Bus) {paths : List Bus.ObjectPath}
    (hlive : ∀ path ∈ paths, path ∈ s.sessions.paths) (hnodup : paths.Nodup) :
    Accounted none s (s.teardownAll bus paths) := by
  induction paths generalizing s bus with
  | nil => exact .of_quiet rfl rfl .nil
  | cons path rest ih =>
    -- The sessions that follow are still live when the first one is gone.
    obtain ⟨hfirst, hrest, htail⟩ := live_of_cons s bus hlive hnodup
    have hothers := ih (teardown_numbered h bus path) (s.teardown bus path).bus hrest htail
    rw [teardownAll]
    exact (teardown_accounted h bus hfirst).andThen hothers (teardownAll_created _ _ hrest htail)

theorem depart_accounted (h : s.sessions.Numbered) (bus : Bus) (name : String) :
    Accounted none s (s.depart bus name) := by
  obtain ⟨hlive, hnodup⟩ := h.pathsOf name
  obtain ⟨told, hidle, heffects⟩ := s.depart_effects bus name
  exact (teardownAll_accounted h bus hlive hnodup).around [] told rfl heffects .nil
    (hidle.quiet none)

theorem filter_accounted (h : s.sessions.Numbered) (bus : Bus) (m : Bus.Message) :
    Accounted none s (s.filter bus m) := by
  have hquiet := (presence_idle m).quiet none
  rw [filter]
  split
  · exact .of_quiet rfl rfl .nil
  · exact (depart_accounted h bus _).around _ [] rfl (List.append_nil _).symm hquiet .nil

/-! ## Creating sessions -/

theorem reload_accounted (s : Service) (bus : Bus) (source : Provider.Source) :
    Accounted (some source) s {
      result := (), bus, service := (s.reload source).1, effects := (s.reload source).2.2 } := by
  obtain ⟨hcreated, hdestroyed⟩ := Log.Effects.sessions_load s.providers source
  have hvisits := Log.Effects.visits_load s.providers source
  constructor <;> simp only [reload]
  · rw [hcreated, hdestroyed]
  · rw [hvisits]
    rfl
  · intro hne
    exact absurd hdestroyed hne
  · intro hrelease
    rw [hvisits] at hrelease
    simp at hrelease

theorem reloadIfEmpty_accounted (s : Service) (bus : Bus) (source : Provider.Source) :
    Accounted (some source) s {
        result := (), bus
        service := (s.reloadIfEmpty source).1
        effects := (s.reloadIfEmpty source).2 } ∧
      (s.reloadIfEmpty source).2.destroyed = [] := by
  rw [reloadIfEmpty]
  split
  · constructor
    · exact (s.reload_accounted bus source).around [.event .registryEmpty] [] rfl
        (List.append_nil _).symm ⟨rfl, rfl, rfl⟩ .nil
    · exact (Log.Effects.sessions_load s.providers source).2
  · exact ⟨.of_quiet rfl rfl .nil, rfl⟩

/-- The accounts of two things in turn, if the first destroys no session. -/
theorem Accounted.followedBy {β γ : Type} {first : Outcome β} {second : Outcome γ} {o : Outcome α}
    (h : Accounted source? s first) (hnone : first.effects.destroyed = [])
    (h' : Accounted source? first.service second) (hservice : o.service = second.service)
    (heffects : o.effects = first.effects ++ second.effects) : Accounted source? s o := by
  have hcreated : o.effects.created = first.effects.created ++ second.effects.created := by
    simp [heffects]
  have hdestroyed : o.effects.destroyed = second.effects.destroyed := by
    simp [heffects, hnone]
  have hvisits : o.effects.visits source?
      = first.effects.visits source? ++ second.effects.visits source? := by
    simp [heffects]
  have hperm := h.sessions
  rw [hnone, List.append_nil] at hperm
  constructor
  · rw [hservice, hcreated, hdestroyed, ← List.append_assoc]
    exact (hperm.append_right _).trans h'.sessions
  · rw [hservice, hvisits, Provider.Registry.replay_append, ← h.providers]
    exact h'.providers
  · rw [hservice, hdestroyed]
    exact h'.emptied
  · intro hrelease
    rw [hservice, hdestroyed]
    rw [hvisits] at hrelease
    cases List.mem_append.mp hrelease with
    | inl hrelease => exact absurd hnone (h.released hrelease).1
    | inr hrelease => exact h'.released hrelease

theorem opening_accounted (s : Service) (bus : Bus) (owner : String) :
    Accounted source? s {
      result := (), bus
      service := { s with sessions := (s.sessions.create owner).2.1 }
      effects := (s.sessions.create owner).2.2 } := by
  have hcreated : (s.sessions.create owner).2.2.created = [s.sessions.nextPath] := rfl
  have hdestroyed : (s.sessions.create owner).2.2.destroyed = [] := rfl
  have hvisits : (s.sessions.create owner).2.2.visits source? = [] := rfl
  constructor
  · simp [Session.Registry.paths_create, hcreated, hdestroyed]
  · simp [hvisits, Provider.Registry.replay]
  · simp [hdestroyed]
  · simp [hvisits]

theorem create_accounted (h : s.sessions.Numbered) (bus : Bus) (source : Provider.Source)
    (call : Bus.MethodCall) : Accounted (some source) s (s.create bus source call) := by
  obtain ⟨hloading, hnone⟩ := reloadIfEmpty_accounted s bus source
  have hnumbered : (s.reloadIfEmpty source).1.sessions.Numbered :=
    (reloadIfEmpty_sessions s source).symm ▸ h
  have hcreation := create_creation s bus source call
  generalize s.create bus source call = o at hcreation ⊢
  -- Loading is accounted for first, then the session that is opened after it.
  generalize (s.reloadIfEmpty source).1 = loaded at hcreation hloading hnumbered
  generalize (s.reloadIfEmpty source).2 = loading at hcreation hloading hnone
  generalize call.sender.getD "" = owner at hcreation
  have hopening : Accounted (some source) s {
      result := (), bus
      service := { loaded with sessions := (loaded.sessions.create owner).2.1 }
      effects := loading ++ (loaded.sessions.create owner).2.2 } :=
    hloading.followedBy hnone (loaded.opening_accounted bus owner) rfl rfl
  cases hcreation with
  | offline => exact .of_quiet rfl rfl .nil
  | exported => exact hopening.around [] _ rfl rfl .nil ⟨rfl, rfl, rfl⟩
  | @refused peer e =>
    -- The session is destroyed again, and the providers go with it if there is no other one.
    have hfailing : Accounted (some source) s {
        result := (), bus
        service := { loaded with sessions := (loaded.sessions.create owner).2.1 }
        effects := loading ++ (loaded.sessions.create owner).2.2
          ++ [.event (.exportFailed loaded.sessions.nextPath owner (.bus e))] } :=
      hopening.around [] _ rfl rfl .nil ⟨rfl, rfl, rfl⟩
    have hlive : loaded.sessions.nextPath ∈ (loaded.sessions.create owner).2.1.paths := by
      simp [Session.Registry.paths_create]
    refine hfailing.followedBy ?_
      (destroy_accounted (some source) (hnumbered.create owner) bus hlive) rfl rfl
    simp only [Log.Effects.destroyed_append, hnone]
    rfl

/-! ## Every operation -/

theorem onSession_accounted {path : String} {act : Session → Outcome α}
    (hact : ∀ x ∈ s.sessions.sessions, Accounted source? s (act x)) :
    Accounted source? s (s.onSession bus path act) := by
  obtain h | ⟨x, hx, -, -, h⟩ := onSession_cases s bus path act <;> rw [h]
  · exact .of_quiet rfl rfl .nil
  · exact (hact x hx).congr rfl rfl

theorem accounted_map {β : Type} (f : α → β) {o : Outcome α} :
    Accounted source? s (o.map f) ↔ Accounted source? s o :=
  ⟨fun h => h.congr rfl rfl, fun h => h.congr rfl rfl⟩

/-- The effects of every operation account for the sessions and the providers. -/
theorem perform_accounted (h : s.sessions.Numbered) (bus : Bus) (operation : Operation) :
    Accounted operation.source? s (s.perform bus operation) := by
  cases operation with
  | create source call =>
    rw [perform, accounted_map]
    exact create_accounted h bus source call
  | handleCall source call =>
    rw [perform, accounted_map, handleCall]
    split
    · exact (create_accounted h bus source call).congr rfl rfl
    · exact .of_quiet rfl rfl .nil
  | filter m =>
    rw [perform, accounted_map]
    exact filter_accounted h bus m
  | depart name =>
    rw [perform, accounted_map]
    exact depart_accounted h bus name
  | release path =>
    rw [perform, accounted_map, release_eq]
    apply onSession_accounted
    intro x hx
    have hlive := Session.Registry.mem_paths.mpr ⟨x, hx, rfl⟩
    exact (teardown_accounted h bus hlive).around [] _ rfl rfl .nil ⟨rfl, rfl, rfl⟩
  | attachHook path hook =>
    rw [perform, accounted_map]
    apply onSession_accounted
    intro x _
    exact .of_quiet (Session.Registry.paths_modify fun _ => rfl) rfl .nil
  | setRequirements path c =>
    rw [perform, accounted_map]
    have hstated : Accounted none s (s.onSession bus path fun session =>
        { result := (), bus, effects := []
          service := { s with sessions := s.sessions.setRequirements session.path c } }) := by
      apply onSession_accounted
      intro x _
      exact .of_quiet (Session.Registry.paths_modify fun _ => rfl) rfl .nil
    exact hstated.around [_] [] rfl (List.append_nil _).symm ⟨rfl, rfl, rfl⟩ .nil
  | providersFor path =>
    rw [perform, accounted_map]
    apply onSession_accounted
    intro x _
    exact .of_quiet rfl rfl ⟨rfl, rfl, rfl⟩
  | reload source => exact s.reload_accounted bus source
  | announceOptions options =>
    rw [perform, accounted_map, announceOptions]
    split
    · exact .of_quiet rfl rfl .nil
    · dsimp only
      split <;> exact .of_quiet rfl rfl ⟨rfl, rfl, rfl⟩

end Broker.Service

end LocationBroker
