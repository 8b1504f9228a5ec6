import LocationBroker.Proofs.Broker.Departure
import LocationBroker.Proofs.Broker.ProviderLifetime

/-! # Hooks that end a worker

An operation that runs a hook goes to its end if the hook does.  Only the hook of a live session is
ever run, and only `attachHook` attaches one; so a broker whose sessions have no hook that ends a
worker brings every operation to its end, and stays such a broker while no such hook is attached
(`Gentle.perform`).  A broker that was started just now is one (`start_unbroken`).  No command
attaches a hook, so a worker that has such a broker serves every command to its end
(`Gentle.apply`).
-/

namespace LocationBroker

/-- The session has no hook that ends a worker. -/
def Session.Gentle (x : Session) : Prop :=
  ∀ hook, x.hook = some hook → hook.aborts = false

namespace Broker

open Log (Effects)

/-- The operation attaches no hook that ends a worker. -/
def Operation.Gentle : Operation → Prop
  | .attachHook _ hook => hook.aborts = false
  | _ => True

/-- None of these effects is a hook that ends the worker, so what had them went to its end. -/
def Harmless (es : Effects) : Prop :=
  ∀ e ∈ es, isAbort e = false

theorem harmless_nil : Harmless [] :=
  List.forall_mem_nil _

theorem harmless_event (e : Log.Event) : Harmless [.event e] :=
  List.forall_mem_singleton.mpr rfl

theorem Harmless.append {first second : Effects} (h : Harmless first) (h' : Harmless second) :
    Harmless (first ++ second) :=
  List.forall_mem_append.mpr ⟨h, h'⟩

theorem Harmless.any_eq_false {es : Effects} (h : Harmless es) : es.any isAbort = false :=
  List.any_eq_false.mpr fun e he => by simp [h e he]

theorem harmless_iff_hookRuns {es : Effects} :
    Harmless es ↔ ∀ run ∈ es.hookRuns, run.1.aborts = false := by
  induction es with
  | nil => exact iff_of_true harmless_nil (List.forall_mem_nil _)
  | cons e es ih =>
    rw [Harmless, List.forall_mem_cons]
    cases e with
    | hookRun hook x =>
      change _ ↔ ∀ run ∈ (hook, x) :: Log.Effects.hookRuns es, run.1.aborts = false
      rw [List.forall_mem_cons]
      exact and_congr_right fun _ => ih
    | event | listed | read => exact (and_iff_right rfl).trans ih

theorem harmless_load (r : Provider.Registry) (source : Provider.Source) :
    Harmless (r.load source).2.2 := by
  rw [harmless_iff_hookRuns, Log.Effects.hookRuns_load]
  exact List.forall_mem_nil _

namespace Service

/-- No session has a hook that ends the worker. -/
def Gentle (s : Service) : Prop :=
  ∀ x ∈ s.sessions.sessions, x.Gentle

variable {s : Service} {bus : Bus}

theorem Gentle.of_subset {after : Service} (h : s.Gentle)
    (hsubset : after.sessions.sessions ⊆ s.sessions.sessions) : after.Gentle :=
  fun x hx => h x (hsubset hx)

/-! ## Destroying sessions -/

theorem Gentle.hooksTell (h : s.Gentle) : HooksTell (fun e => isAbort e = false) s.sessions :=
  h

theorem Gentle.teardown (h : s.Gentle) (bus : Bus) (path : Bus.ObjectPath) :
    Harmless (s.teardown bus path).effects ∧ (s.teardown bus path).service.Gentle := by
  refine ⟨teardown_tells (fun _ => rfl) h.hooksTell bus path, h.of_subset ?_⟩
  rw [teardown_sessions]
  exact List.filter_subset_self _

theorem Gentle.teardownAll (h : s.Gentle) (bus : Bus) (paths : List Bus.ObjectPath) :
    (s.teardownAll bus paths).service.Gentle := by
  refine h.of_subset ?_
  rw [teardownAll_sessions]
  exact List.filter_subset_self _

theorem Gentle.depart (h : s.Gentle) (bus : Bus) (name : String) :
    Harmless (s.depart bus name).effects ∧ (s.depart bus name).service.Gentle :=
  ⟨depart_tells (fun _ => rfl) h.hooksTell bus name, h.teardownAll bus _⟩

theorem Gentle.filter (h : s.Gentle) (bus : Bus) (m : Bus.Message) :
    Harmless (s.filter bus m).effects ∧ (s.filter bus m).service.Gentle := by
  refine ⟨filter_tells (fun _ => rfl) h.hooksTell bus m, ?_⟩
  rw [Service.filter]
  split
  · exact h
  · exact (h.depart bus _).2

/-! ## Every operation -/

theorem Gentle.create (h : s.Gentle) (bus : Bus) (source : Provider.Source)
    (call : Bus.MethodCall) :
    Harmless (s.create bus source call).effects ∧ (s.create bus source call).service.Gentle := by
  have hloading : Harmless (s.reloadIfEmpty source).2 ∧ (s.reloadIfEmpty source).1.Gentle := by
    rw [reloadIfEmpty]
    split
    · exact ⟨(harmless_event _).append (harmless_load s.providers source), h⟩
    · exact ⟨harmless_nil, h⟩
  obtain ⟨hloading, hgentle⟩ := hloading
  have hcreation := create_creation s bus source call
  generalize s.create bus source call = o at hcreation ⊢
  generalize (s.reloadIfEmpty source).1 = loaded at hcreation hgentle
  generalize call.sender.getD "" = owner at hcreation
  -- The session that is opened has no hook yet.
  have hopened :
      ({ loaded with sessions := (loaded.sessions.create owner).2.1 } : Service).Gentle := by
    intro x hx hook hhook
    cases List.mem_append.mp hx with
    | inl hx => exact hgentle x hx hook hhook
    | inr hx =>
      rw [List.mem_singleton.mp hx] at hhook
      cases hhook
  have htold := fun e => (hloading.append (harmless_event
    (.sessionCreated loaded.sessions.nextPath owner))).append (harmless_event e)
  cases hcreation with
  | offline => exact ⟨harmless_nil, h⟩
  | exported => exact ⟨htold _, hopened⟩
  | refused =>
    refine ⟨(htold _).append (destroy_tells (fun _ => rfl) hopened.hooksTell _ loaded.providers),
      hopened.of_subset ?_⟩
    dsimp only
    rw [Session.Registry.destroy_registry]
    exact List.filter_subset_self _

theorem Gentle.onSession {α : Type} {path : String} {act : Session → Outcome α} {P : Prop}
    (h : s.Gentle) (hact : ∀ x ∈ s.sessions.sessions,
      Harmless (act x).effects ∧ (P → (act x).service.Gentle)) :
    Harmless (s.onSession bus path act).effects ∧
      (P → (s.onSession bus path act).service.Gentle) := by
  obtain hout | ⟨x, hx, -, -, hout⟩ := onSession_cases s bus path act <;> rw [hout]
  · exact ⟨harmless_nil, fun _ => h⟩
  · exact hact x hx

theorem Gentle.modify (h : s.Gentle) (path : Bus.ObjectPath) {change : Session → Session}
    (hchange : ∀ x : Session, x.Gentle → (change x).Gentle) :
    ({ s with sessions := s.sessions.modify path change } : Service).Gentle := by
  intro x hx
  obtain ⟨y, hy, rfl⟩ := List.mem_map.mp hx
  split
  · exact hchange y (h y hy)
  · exact h y hy

/-- Every operation goes to its end, and only one that attaches a hook can make a difference. -/
theorem Gentle.perform (h : s.Gentle) (bus : Bus) (operation : Operation) :
    Harmless (s.perform bus operation).effects ∧
      (operation.Gentle → (s.perform bus operation).service.Gentle) := by
  cases operation with
  | create source call => exact (h.create bus source call).imp_right fun hafter _ => hafter
  | handleCall source call =>
    rw [Service.perform, handleCall]
    split
    · exact (h.create bus source call).imp_right fun hafter _ => hafter
    · exact ⟨harmless_nil, fun _ => h⟩
  | filter m => exact (h.filter bus m).imp_right fun hafter _ => hafter
  | depart name => exact (h.depart bus name).imp_right fun hafter _ => hafter
  | release path =>
    rw [Service.perform, release_eq]
    refine h.onSession fun x _ => ?_
    obtain ⟨htold, hafter⟩ := h.teardown bus x.path
    exact ⟨htold.append (harmless_event _), fun _ => hafter⟩
  | attachHook path hook =>
    refine h.onSession fun x _ => ⟨harmless_nil, fun hgentle => h.modify x.path fun _ _ => ?_⟩
    rintro _ ⟨⟩
    exact hgentle
  | setRequirements path c =>
    refine And.imp_left (harmless_event _).append
      (h.onSession fun x _ => ⟨harmless_nil, fun _ => ?_⟩)
    exact h.modify x.path fun _ hx => hx
  | providersFor path => exact h.onSession fun _ _ => ⟨harmless_event _, fun _ => h⟩
  | reload source => exact ⟨harmless_load s.providers source, fun _ => h⟩
  | announceOptions options =>
    rw [Service.perform, announceOptions]
    split
    · exact ⟨harmless_nil, fun _ => h⟩
    · dsimp only
      split <;> exact ⟨harmless_event _, fun _ => h⟩

/-- Every command is served to its end, and no command attaches a hook. -/
theorem Gentle.apply (h : s.Gentle) (bus : Bus) (source : Provider.Source) (c : Command) :
    Harmless (s.apply bus source c).effects ∧ (s.apply bus source c).service.Gentle := by
  have hperform (operation : Operation) (hoperation : operation.Gentle) :=
    (h.perform bus operation).imp_right (· hoperation)
  cases c with
  | deliver m => exact hperform (.filter m) trivial
  | call call => exact hperform (.handleCall source call) trivial
  | create call => exact hperform (.create source call) trivial
  | release path => exact hperform (.release path) trivial
  | setRequirements path c => exact hperform (.setRequirements path c) trivial
  | providersFor path => exact hperform (.providersFor path) trivial
  | announceOptions options => exact hperform (.announceOptions options) trivial
  | stats | shutdown => exact ⟨harmless_nil, h⟩

/-! ## Any occasions -/

/-- Whatever the broker is asked on the occasions goes to its end. -/
def Unbroken (s : Service) : List Occasion → Prop
  | [] => True
  | occasion :: rest =>
    let o := s.perform occasion.bus occasion.operation
    Harmless o.effects ∧ o.service.Unbroken rest

theorem Gentle.unbroken (h : s.Gentle) {occasions : List Occasion}
    (hgentle : ∀ occasion ∈ occasions, occasion.operation.Gentle) : s.Unbroken occasions := by
  induction occasions generalizing s with
  | nil => trivial
  | cons occasion rest ih =>
    rw [List.forall_mem_cons] at hgentle
    obtain ⟨hharmless, hafter⟩ := h.perform occasion.bus occasion.operation
    exact ⟨hharmless, ih (hafter hgentle.1) hgentle.2⟩

theorem start_gentle {c : Config} {source : Provider.Source} {o : Outcome Unit}
    (h : start c bus source = .ok o) : o.service.Gentle := by
  obtain ⟨-, base, hsessions⟩ := start_sessions h
  rw [Gentle, hsessions]
  exact List.forall_mem_nil _

/-- If no hook is attached that ends a worker, every operation goes to its end. -/
theorem start_unbroken {c : Config} {source : Provider.Source} {o : Outcome Unit}
    (h : start c bus source = .ok o) {occasions : List Occasion}
    (hgentle : ∀ occasion ∈ occasions, occasion.operation.Gentle) : o.service.Unbroken occasions :=
  (start_gentle h).unbroken hgentle

end Service

end Broker

end LocationBroker
