import LocationBroker.Proofs.Broker.Hooks
import LocationBroker.Proofs.Broker.Life

/-! # The end of a session

A session that was created is live until it is released, its client departs, or it turns out that it
cannot be exported.  When it ends, the hook that was attached last is run, once, and no other one is
run ever.

* `perform_balance`, `after_balance` — every session that could be created is live, or was released,
  or was counted in a departure.
* `HooksFirst` — the hook of a session is run when the session is not live any more, and before its
  end is told and the providers are released.  So it is in every operation (`perform_hooksFirst`).
* `hooks_and_accounts` — both, for whatever a broker is asked after its start.
-/

namespace LocationBroker.Broker.Service

open Log (Effect Effects)
open Session (Registry)

variable {α : Type} {s : Service} {bus : Bus}

/-! ## What operations answer -/

/-- How many sessions an operation creates with success. -/
def openedOn (s : Service) (occasion : Occasion) : Nat :=
  match occasion.operation with
  | .create source call => (s.create occasion.bus source call).result.isOk.toNat
  | .handleCall source call =>
    (s.isCreation call && (s.create occasion.bus source call).result.isOk).toNat
  | _ => 0

/-- How many sessions an operation releases with success. -/
def releasedOn (s : Service) (occasion : Occasion) : Nat :=
  match occasion.operation with
  | .release text => (s.release occasion.bus text).result.isOk.toNat
  | _ => 0

/-- How many sessions an operation counts in the departure that it is told of, if it is. -/
def departedOn (s : Service) (occasion : Occasion) : Nat :=
  match occasion.operation with
  | .depart name => (s.depart occasion.bus name).result
  | .filter m =>
    match Presence.departed? m with
    | some name => (s.depart occasion.bus name).result
    | none => 0
  | _ => 0

/-- What is counted on several occasions, all together. -/
def total (count : Service → Occasion → Nat) (s : Service) : List Occasion → Nat
  | [] => 0
  | occasion :: rest =>
    count s occasion + (s.perform occasion.bus occasion.operation).service.total count rest

/-! ## The balance of sessions -/

theorem Accounted.length {source? : Option Provider.Source} {o : Outcome α}
    (h : Accounted source? s o) :
    s.sessions.sessions.length + o.effects.created.length =
      o.service.sessions.sessions.length + o.effects.destroyed.length := by
  simpa [Registry.paths] using h.sessions.length_eq

theorem teardown_destroyed (s : Service) (bus : Bus) {path : Bus.ObjectPath}
    (h : path ∈ s.sessions.paths) : (s.teardown bus path).effects.destroyed = [path] := by
  have hwithdraw := ((s.withdraw_idle bus path).quiet none).destroyed
  have hdestroy := (Registry.destroy_effects h s.providers none).2.1
  rw [teardown, Log.Effects.destroyed_append, hwithdraw]
  exact hdestroy

theorem teardownAll_destroyed (s : Service) (bus : Bus) {paths : List Bus.ObjectPath}
    (hlive : ∀ path ∈ paths, path ∈ s.sessions.paths) (hnodup : paths.Nodup) :
    (s.teardownAll bus paths).effects.destroyed = paths := by
  induction paths generalizing s bus with
  | nil => rfl
  | cons path rest ih =>
    obtain ⟨hfirst, hrest, htail⟩ := live_of_cons s bus hlive hnodup
    rw [teardownAll, Log.Effects.destroyed_append, teardown_destroyed s bus hfirst,
      ih _ _ hrest htail]
    rfl

theorem depart_balance (h : s.sessions.Numbered) (bus : Bus) (name : String) :
    s.sessions.sessions.length =
      (s.depart bus name).service.sessions.sessions.length + (s.depart bus name).result := by
  obtain ⟨hlive, hnodup⟩ := h.pathsOf name
  have hlength := (teardownAll_accounted h bus hlive hnodup).length
  rw [teardownAll_created s bus hlive hnodup, teardownAll_destroyed s bus hlive hnodup] at hlength
  exact hlength

/-- A session that is created is live, and one that cannot be exported is not.  Neither has a hook
that could be run. -/
theorem create_answer (h : s.sessions.Numbered) (bus : Bus) (source : Provider.Source)
    (call : Bus.MethodCall) :
    let o := s.create bus source call
    o.effects.hookRuns = [] ∧
      ((o.result = .ok s.sessions.nextPath ∧ o.service.sessions.sessions =
          s.sessions.sessions ++ [{ owner := call.sender.getD "", path := s.sessions.nextPath }]) ∨
        ∃ e, o.result = .error e ∧ o.service.sessions.sessions = s.sessions.sessions) := by
  have hloading : (s.reloadIfEmpty source).2.hookRuns = [] := by
    rw [reloadIfEmpty]
    split
    · exact Log.Effects.hookRuns_load s.providers source
    · rfl
  have hsame := reloadIfEmpty_sessions s source
  have hcreation := create_creation s bus source call
  generalize s.create bus source call = o at hcreation ⊢
  generalize (s.reloadIfEmpty source).1 = loaded at hcreation hsame
  generalize call.sender.getD "" = owner at hcreation
  rw [← hsame] at h ⊢
  cases hcreation with
  | offline => exact ⟨rfl, .inr ⟨_, rfl, congrArg Registry.sessions hsame.symm⟩⟩
  | exported =>
    refine ⟨?_, .inl ⟨rfl, rfl⟩⟩
    simp only [Log.Effects.hookRuns_append, hloading]
    rfl
  | refused =>
    -- The session is found and taken out again as it was created.
    have hget : (loaded.sessions.create owner).2.1.get? loaded.sessions.nextPath =
        some { owner, path := loaded.sessions.nextPath } := by
      rw [Registry.get?_create, Registry.get?_eq_none_iff.mpr h.nextPath_not_mem, if_pos rfl]
      rfl
    rw [Registry.destroy_of_get? hget, h.remove_create]
    refine ⟨?_, .inr ⟨_, rfl, rfl⟩⟩
    simp only [Log.Effects.hookRuns_append, hloading, Log.Effects.hookRuns_settle]
    rfl

theorem create_balance (h : s.sessions.Numbered) (bus : Bus) (source : Provider.Source)
    (call : Bus.MethodCall) :
    s.sessions.sessions.length + (s.create bus source call).result.isOk.toNat =
      (s.create bus source call).service.sessions.sessions.length := by
  obtain ⟨hresult, hsessions⟩ | ⟨e, hresult, hsessions⟩ := (create_answer h bus source call).2
  · rw [hresult, hsessions, List.length_append]
    rfl
  · rw [hresult, hsessions]
    rfl

theorem release_balance (h : s.sessions.Numbered) (bus : Bus) (text : String) :
    s.sessions.sessions.length =
      (s.release bus text).service.sessions.sessions.length
        + (s.release bus text).result.isOk.toNat := by
  rw [release_eq]
  obtain h' | ⟨x, hx, -, -, h'⟩ := onSession_cases s bus text _ <;> rw [h']
  · rfl
  · have hlive := Registry.mem_paths.mpr ⟨x, hx, rfl⟩
    have haccounted : Accounted none s (s.teardown bus x.path) := teardown_accounted h bus hlive
    have hlength := haccounted.length
    rw [teardown_created s bus hlive, teardown_destroyed s bus hlive] at hlength
    exact hlength

theorem onSession_sessions_length {path : String} {act : Session → Outcome α}
    (hact : ∀ x, (act x).service.sessions.sessions.length = s.sessions.sessions.length) :
    (s.onSession bus path act).service.sessions.sessions.length =
      s.sessions.sessions.length := by
  obtain h | ⟨x, -, -, -, h⟩ := onSession_cases s bus path act
  · rw [h]
  · rw [h]
    exact hact x

/-- The sessions before an operation and those that it creates are the sessions after it and those
that it releases or counts in a departure. -/
theorem perform_balance (h : s.sessions.Numbered) (occasion : Occasion) :
    s.sessions.sessions.length + s.openedOn occasion =
      (s.perform occasion.bus occasion.operation).service.sessions.sessions.length
        + s.releasedOn occasion + s.departedOn occasion := by
  obtain ⟨bus, operation⟩ := occasion
  cases operation with
  | create source call => exact create_balance h bus source call
  | handleCall source call =>
    simp only [openedOn, releasedOn, departedOn, perform, handleCall]
    cases s.isCreation call with
    | true => exact create_balance h bus source call
    | false => rfl
  | filter m =>
    simp only [openedOn, releasedOn, departedOn, perform, filter]
    cases Presence.departed? m with
    | none => rfl
    | some name => exact depart_balance h bus name
  | depart name => exact depart_balance h bus name
  | release text => exact release_balance h bus text
  | attachHook text hook | setRequirements text c =>
    exact (onSession_sessions_length fun x => List.length_map ..).symm
  | providersFor text =>
    have hlength : (s.providersFor bus text).service.sessions.sessions.length =
        s.sessions.sessions.length := onSession_sessions_length fun _ => rfl
    exact hlength.symm
  | reload source => rfl
  | announceOptions options =>
    simp only [openedOn, releasedOn, departedOn, perform, announceOptions]
    split
    · rfl
    · split <;> rfl

theorem after_balance (h : s.sessions.Numbered) (occasions : List Occasion) :
    s.sessions.sessions.length + s.total openedOn occasions =
      (s.after occasions).sessions.sessions.length + s.total releasedOn occasions
        + s.total departedOn occasions := by
  induction occasions generalizing s with
  | nil => rfl
  | cons occasion rest ih =>
    have hfirst := perform_balance h occasion
    have hrest := ih (perform_numbered h occasion.bus occasion.operation)
    have hafter : s.after (occasion :: rest) =
        (s.perform occasion.bus occasion.operation).service.after rest := rfl
    simp only [total, hafter]
    omega

/-! ## When a hook is run -/

/-- Whatever stands in one of two lists that are appended stands in the first or in the second. -/
theorem append_eq_append_cons {first second earlier later : Effects} {e : Effect}
    (h : first ++ second = earlier ++ e :: later) :
    (∃ rest, first = earlier ++ e :: rest ∧ later = rest ++ second) ∨
      ∃ rest, earlier = first ++ rest ∧ second = rest ++ e :: later := by
  obtain ⟨rest, hearlier, hsecond⟩ | ⟨rest, hfirst, hlater⟩ := List.append_eq_append_iff.mp h
  · exact .inr ⟨rest, hearlier, hsecond⟩
  · cases rest with
    | nil => exact .inr ⟨[], by simpa using hfirst.symm, hlater.symm⟩
    | cons a rest =>
      obtain ⟨rfl, rfl⟩ := List.cons.inj hlater
      exact .inl ⟨rest, hfirst, rfl⟩

theorem hookRuns_ne_nil {es earlier later : Effects} {hook : Session.Hook} {x : Session}
    (h : es = earlier ++ .hookRun hook x :: later) : es.hookRuns ≠ [] := by
  intro hnone
  have hmem : Effect.hookRun hook x ∈ es := by simp [h]
  cases List.filterMap_eq_nil_iff.mp hnone _ hmem

/-- Only the hooks of live sessions are run, each with its session.  What is told next is the end of
the session, with the number of the sessions that remain; the providers have not been released
before. -/
def HooksFirst (s : Service) (es : Effects) : Prop :=
  ∀ (earlier later : Effects) (hook : Session.Hook) (gone : Session),
    es = earlier ++ .hookRun hook gone :: later →
    (∃ x ∈ s.sessions.sessions, x.hook = some hook ∧ gone = { x with hook := none }) ∧
    .release ∉ earlier.visits none ∧
    ∃ rest, later = .event (.sessionDestroyed gone.path gone.owner
      (s.sessions.sessions.filter (·.path ∉ gone.path :: earlier.destroyed)).length) :: rest

theorem HooksFirst.of_none {es : Effects} (h : es.hookRuns = []) : s.HooksFirst es :=
  fun _ _ _ _ hsplit => absurd h (hookRuns_ne_nil hsplit)

/-- Other things may be told before and after. -/
theorem HooksFirst.around {es before after : Effects} (h : s.HooksFirst es)
    (hbefore : before.Idle) (hafter : after.hookRuns = []) :
    s.HooksFirst (before ++ es ++ after) := by
  -- The hook stands in the middle, since no hook is run before or after.
  intro earlier later hook gone hsplit
  rw [List.append_assoc] at hsplit
  obtain ⟨rest, hfirst, -⟩ | ⟨rest, rfl, hothers⟩ := append_eq_append_cons hsplit
  · exact absurd hbefore.hookRuns (hookRuns_ne_nil hfirst)
  obtain ⟨rest', hes, rfl⟩ | ⟨rest', -, hlast⟩ := append_eq_append_cons hothers
  · obtain ⟨hgiven, hrelease, told, rfl⟩ := h _ _ _ _ hes
    refine ⟨hgiven, ?_, told ++ after, ?_⟩
    · simpa [(hbefore.quiet none).visits] using hrelease
    · simp [(hbefore.quiet none).destroyed]
  · exact absurd hafter (hookRuns_ne_nil hlast)

theorem settle_head (left : Registry) (gone : Session) (providers : Provider.Registry) :
    ∃ told, (left.settle gone providers).2 =
      .event (.sessionDestroyed gone.path gone.owner left.sessions.length) :: told := by
  rw [Registry.settle]
  dsimp only
  split <;> exact ⟨_, rfl⟩

theorem destroy_hooksFirst (s : Service) (path : Bus.ObjectPath) :
    s.HooksFirst (s.sessions.destroy path s.providers).2.2.2 := by
  cases hget : s.sessions.get? path with
  | none =>
    rw [Registry.destroy_of_not_mem (Registry.get?_eq_none_iff.mp hget)]
    exact .of_none rfl
  | some x =>
    obtain ⟨hx, rfl⟩ := Registry.mem_of_get? hget
    rw [Registry.destroy_of_get? hget]
    have hsettle := Log.Effects.hookRuns_settle (s.sessions.remove x.path) x s.providers
    dsimp only
    cases hhook : x.hook with
    | none =>
      rw [Registry.runHook, hhook]
      exact .of_none hsettle
    | some hook =>
      rw [Registry.runHook, hhook]
      intro earlier later other gone hsplit
      cases earlier with
      | nil =>
        obtain ⟨hrun, rfl⟩ := List.cons.inj hsplit
        cases hrun
        obtain ⟨told, htold⟩ := settle_head (s.sessions.remove x.path) x s.providers
        refine ⟨⟨x, hx, hhook, rfl⟩, List.not_mem_nil, told, htold.trans ?_⟩
        simp [Registry.remove, Log.Effects.destroyed]
      | cons e earlier =>
        -- Nothing that follows the hook of the session is a hook.
        obtain ⟨-, hlater⟩ := List.cons.inj hsplit
        exact absurd hsettle (hookRuns_ne_nil hlater)

theorem teardown_hooksFirst (s : Service) (bus : Bus) (path : Bus.ObjectPath) :
    s.HooksFirst (s.teardown bus path).effects := by
  have hdestroy := (destroy_hooksFirst s path).around (s.withdraw_idle bus path)
    Log.Effects.Idle.nil.hookRuns
  rwa [List.append_nil] at hdestroy

theorem teardownAll_hooksFirst (h : s.sessions.Numbered) (bus : Bus) {paths : List Bus.ObjectPath}
    (hlive : ∀ path ∈ paths, path ∈ s.sessions.paths) (hnodup : paths.Nodup) :
    s.HooksFirst (s.teardownAll bus paths).effects := by
  induction paths generalizing s bus with
  | nil => exact .of_none rfl
  | cons path rest ih =>
    obtain ⟨hfirst, hrest, htail⟩ := live_of_cons s bus hlive hnodup
    have hrests := ih (teardown_numbered h bus path) (s.teardown bus path).bus hrest htail
    intro earlier later hook gone hsplit
    obtain ⟨told, hhead, rfl⟩ | ⟨told, rfl, hothers⟩ := append_eq_append_cons hsplit
    · obtain ⟨hgiven, hrelease, last, rfl⟩ := teardown_hooksFirst s bus path _ _ _ _ hhead
      exact ⟨hgiven, hrelease, last ++ _, rfl⟩
    · -- A session is still live when the first one is gone, so the providers are still there.
      obtain ⟨⟨x, hx, hhook, hgone⟩, hrelease, last, hlast⟩ :=
        hrests _ _ _ _ hothers
      have hremains : (s.teardown bus path).service.sessions.sessions ≠ [] :=
        List.ne_nil_of_mem hx
      have haccounted : Accounted none s (s.teardown bus path) := teardown_accounted h bus hfirst
      rw [teardown_sessions] at hx hlast
      refine ⟨⟨x, (List.mem_filter.mp hx).1, hhook, hgone⟩, ?_, last, ?_⟩
      · rw [Log.Effects.visits_append]
        intro hmem
        cases List.mem_append.mp hmem with
        | inl hmem => exact hremains (haccounted.released hmem).2
        | inr hmem => exact hrelease hmem
      · rw [hlast, Log.Effects.destroyed_append, teardown_destroyed s bus hfirst, Registry.remove,
          List.filter_filter]
        congr 4
        refine List.filter_congr fun y _ => ?_
        by_cases hsame : y.path = path <;> simp [hsame]

theorem onSession_hooksFirst {path : String} {act : Session → Outcome α}
    (hact : ∀ x ∈ s.sessions.sessions, s.HooksFirst (act x).effects) :
    s.HooksFirst (s.onSession bus path act).effects := by
  obtain h | ⟨x, hx, -, -, h⟩ := onSession_cases s bus path act <;> rw [h]
  · exact .of_none rfl
  · exact hact x hx

theorem depart_hooksFirst (h : s.sessions.Numbered) (bus : Bus) (name : String) :
    s.HooksFirst (s.depart bus name).effects := by
  obtain ⟨hlive, hnodup⟩ := h.pathsOf name
  obtain ⟨told, hidle, heffects⟩ := s.depart_effects bus name
  rw [heffects]
  exact (teardownAll_hooksFirst h bus hlive hnodup).around .nil hidle.hookRuns

theorem onSession_hookRuns {path : String} {act : Session → Outcome α}
    (hact : ∀ x, (act x).effects.hookRuns = []) :
    (s.onSession bus path act).effects.hookRuns = [] := by
  obtain h | ⟨x, -, -, -, h⟩ := onSession_cases s bus path act <;> rw [h]
  · rfl
  · exact hact x

/-- Who ends no session runs no hook. -/
theorem perform_hookRuns_of_not_ending (h : s.sessions.Numbered) (bus : Bus)
    {operation : Operation} (hnot : operation.isEnding = false) :
    (s.perform bus operation).effects.hookRuns = [] := by
  cases operation with
  | create source call => exact (create_answer h bus source call).1
  | handleCall source call =>
    rw [perform, handleCall]
    split
    · exact (create_answer h bus source call).1
    · rfl
  | attachHook | setRequirements | providersFor => exact onSession_hookRuns fun _ => rfl
  | reload source => exact Log.Effects.hookRuns_load s.providers source
  | announceOptions options =>
    rw [perform, announceOptions]
    split
    · rfl
    · dsimp only
      split <;> rfl
  | filter | depart | release => cases hnot

/-- Every operation runs hooks in this order. -/
theorem perform_hooksFirst (h : s.sessions.Numbered) (bus : Bus) (operation : Operation) :
    s.HooksFirst (s.perform bus operation).effects := by
  cases operation with
  | filter m =>
    rw [perform, filter]
    split
    · exact .of_none rfl
    · rename_i name _
      have hdepart := (depart_hooksFirst h bus name).around (presence_idle m)
        Log.Effects.Idle.nil.hookRuns
      rwa [List.append_nil] at hdepart
  | depart name => exact depart_hooksFirst h bus name
  | release text =>
    rw [perform, release_eq]
    refine onSession_hooksFirst fun x _ => ?_
    exact (teardown_hooksFirst s bus x.path).around .nil rfl
  | _ => exact .of_none (perform_hookRuns_of_not_ending h bus rfl)

/-! ## Any occasions -/

/-- After whatever a broker was asked since its start, a session has been destroyed, once, if it was
created and is not live any more.  Then the hook that was attached to it last has been run, once,
and with the session as it was in the end; no other hook was run for it, nor was any for a session
that has not been destroyed.  A hook is run when its session has left the registry, before the end
of the session is told and the providers are released; all that follows is settled with the registry
that is left.  The sessions that were created with success are those that are live, those that were
released, and those that were counted in departures.

Every operation goes to its end if no hook is attached that ends a worker.  Such a hook breaks the
operation off when its session has left the registry and the providers are as they were. -/
theorem hooks_and_accounts {c : Config} {source : Provider.Source} {o : Outcome Unit}
    (hstart : start c bus source = .ok o) (occasions : List Occasion) :
    let s := o.service.after occasions
    (∀ path : Bus.ObjectPath,
      let known := o.service.course path occasions
      (known.ends ≠ 0 ↔ known.owners ≠ [] ∧ s.sessions.get? path = none) ∧
      (known.ends = 0 → known.runs = []) ∧
      (known.ends ≠ 0 → known.ends = 1 ∧ ∃ owner, known.owners = [owner] ∧
        known.runs = known.hooks.getLast?.toList.map
          (·, { owner, path, requirements := known.stated.getLast?.getD .any }))) ∧
    (∀ (bus : Bus) (operation : Operation), s.HooksFirst (s.perform bus operation).effects) ∧
    (∀ x ∈ s.sessions.sessions,
      let left := s.sessions.remove x.path
      x.path ∉ left.paths ∧
        s.sessions.destroy x.path s.providers =
          (some { x with hook := none }, left, (left.settle x s.providers).1,
            Registry.runHook x ++ (left.settle x s.providers).2)) ∧
    o.service.total openedOn occasions =
      s.sessions.sessions.length + o.service.total releasedOn occasions
        + o.service.total departedOn occasions ∧
    ((∀ occasion ∈ occasions, occasion.operation.Gentle) → o.service.Unbroken occasions) := by
  intro s
  obtain ⟨hnumbered, -⟩ := after_replay (start_numbered hstart) occasions
  refine ⟨fun path => ?_, fun bus operation => perform_hooksFirst hnumbered bus operation,
    fun x hx => ⟨?_, Registry.destroy_of_get? (hnumbered.get?_live hx) s.providers⟩, ?_,
    start_unbroken hstart⟩
  · have hlife := (start_lived hstart occasions path).life
    generalize s.sessions.get? path = found at hlife
    generalize o.service.course path occasions = known at hlife
    cases hlife with
    | ahead => simp
    | live owner hooks stated => simp
    | past owner hooks stated => simp
  · rw [Registry.paths_remove]
    simp
  · have hbalance := after_balance (start_numbered hstart) occasions
    obtain ⟨-, base, hsessions⟩ := start_sessions hstart
    have hnone : o.service.sessions.sessions.length = 0 := by rw [hsessions]; rfl
    rw [hnone, Nat.zero_add] at hbalance
    exact hbalance

/-- A client asks for two sessions, attaches two hooks to the second one, requires something, and
departs.  Then the second session is released and the departure is told again. -/
def leaving (bus : Bus) : List Occasion :=
  askingTwice bus .none ++
    [⟨bus, .attachHook secondSession.text { tag := "first" }⟩,
      ⟨bus, .attachHook secondSession.text { tag := "last" }⟩,
      ⟨bus, .setRequirements secondSession.text { requireUpdates := true }⟩,
      ⟨bus, .depart ":1.5"⟩, ⟨bus, .release secondSession.text⟩, ⟨bus, .depart ":1.5"⟩]

set_option maxRecDepth 8000 in
/-- On the bus of `occupied` the first session of `leaving` cannot be exported, and no hook is run
for it.  The second one departs, and only its last hook is run. -/
theorem hooks_and_accounts_leaving :
    ∃ o, start .standard (Bus.run {} occupied) .none = .ok o ∧
      (o.service.course firstSession (leaving o.bus)).runs = [] ∧
      ((o.service.course secondSession (leaving o.bus)).runs.map fun run =>
        (run.1.tag, run.2.owner, run.2.requirements.requireUpdates)) = [("last", ":1.5", true)] ∧
      o.service.total openedOn (leaving o.bus) = 1 ∧ o.service.Unbroken (leaving o.bus) := by
  obtain ⟨o, hstart, hfirst, hends, howners, hhooks, hstated, hlive, hreleased, hdeparted⟩ :=
    exists_start .standard (Bus.run {} occupied) .none (fun o =>
      ((o.service.course firstSession (leaving o.bus)).ends,
        (o.service.course firstSession (leaving o.bus)).hooks) = (1, []) ∧
      (o.service.course secondSession (leaving o.bus)).ends = 1 ∧
      (o.service.course secondSession (leaving o.bus)).owners = [":1.5"] ∧
      (o.service.course secondSession (leaving o.bus)).hooks =
        [{ tag := "first" }, { tag := "last" }] ∧
      (o.service.course secondSession (leaving o.bus)).stated.map (·.requireUpdates) = [true] ∧
      (o.service.after (leaving o.bus)).sessions.sessions.length = 0 ∧
      o.service.total releasedOn (leaving o.bus) = 0 ∧
      o.service.total departedOn (leaving o.bus) = 1) (by decide +kernel)
  obtain ⟨hcourses, -, -, haccounts, hunbroken⟩ := hooks_and_accounts hstart (leaving o.bus)
  refine ⟨o, hstart, ?_, ?_, ?_, hunbroken ?_⟩
  · obtain ⟨hfirstEnds, hfirstHooks⟩ := Prod.mk.inj hfirst
    obtain ⟨-, owner, -, hruns⟩ := (hcourses firstSession).2.2 (by omega)
    rw [hruns, hfirstHooks]
    rfl
  · obtain ⟨-, owner, howner, hruns⟩ := (hcourses secondSession).2.2 (by omega)
    obtain ⟨required, hrequired, hupdates⟩ := List.map_eq_singleton_iff.mp hstated
    rw [howners] at howner
    obtain rfl := List.singleton_inj.mp howner
    rw [hruns, hhooks, hrequired]
    simp [hupdates]
  · rw [haccounts, hlive, hreleased, hdeparted]
  · simp [leaving, askingTwice, Operation.Gentle]

end LocationBroker.Broker.Service
