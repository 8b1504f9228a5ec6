import LocationBroker.Proofs.Broker.Hooks
import LocationBroker.Proofs.Broker.SessionIdentity
import LocationBroker.Proofs.Provider.Loading

/-! # The availability of providers

Suppose that the source of a broker never changes and offers something.  Then a broker that loads on
demand has all that the source offers or nothing, and all of it while there are sessions.  A broker
that loads at its start only lists the source once, and has nothing any more when the last session
has been destroyed.

* `perform_lists` — how often an operation lists the source, exactly.
* `Stocked` — the invariant of loading on demand, which every operation keeps.
* `availability` — both statements, for whatever a broker is asked after its start.
-/

namespace LocationBroker.Broker

def Operation.isReload : Operation → Bool
  | .reload _ => true
  | _ => false

namespace Service

open Provider.Registry (Visit)

variable {s : Service}

/-! ## How often the source is listed -/

/-- The operation makes the broker list its source. -/
def listsFor (s : Service) (operation : Operation) : Bool :=
  match operation with
  | .reload _ => true
  | _ => s.mints operation &&
      (s.providers.records.isEmpty && decide (s.config.reloadPolicy = .onDemand))

/-- How often the broker lists its source on several occasions. -/
def listsOn (s : Service) : List Occasion → Nat
  | [] => 0
  | occasion :: rest =>
    let o := s.perform occasion.bus occasion.operation
    o.effects.lists + o.service.listsOn rest

theorem hooksTell_ne_listed (r : Session.Registry) : HooksTell (· ≠ .listed) r := by
  intro x _ hook _
  simp

theorem destroy_lists (r : Session.Registry) (path : Bus.ObjectPath)
    (providers : Provider.Registry) : (r.destroy path providers).2.2.2.lists = 0 :=
  Log.Effects.lists_eq_zero_iff.mpr (destroy_tells (by simp) (hooksTell_ne_listed r) path providers)

theorem teardown_lists (s : Service) (bus : Bus) (path : Bus.ObjectPath) :
    (s.teardown bus path).effects.lists = 0 :=
  Log.Effects.lists_eq_zero_iff.mpr
    (teardown_tells (by simp) (hooksTell_ne_listed s.sessions) bus path)

theorem onSession_lists {α : Type} {bus : Bus} {path : String} {act : Session → Outcome α}
    (hact : ∀ x, (act x).effects.lists = 0) : (s.onSession bus path act).effects.lists = 0 := by
  obtain h | ⟨x, -, -, -, h⟩ := onSession_cases s bus path act <;> rw [h]
  · rfl
  · exact hact x

theorem create_lists (s : Service) (bus : Bus) (source : Provider.Source) (call : Bus.MethodCall) :
    (s.create bus source call).effects.lists =
      (s.isFunctional && (s.providers.records.isEmpty
        && decide (s.config.reloadPolicy = .onDemand))).toNat := by
  have hloading : (s.reloadIfEmpty source).2.lists =
      (s.providers.records.isEmpty && decide (s.config.reloadPolicy = .onDemand)).toNat := by
    rw [reloadIfEmpty]
    by_cases hload : s.providers.records.isEmpty ∧ s.config.reloadPolicy = .onDemand
    · rw [if_pos hload, hload.1, decide_eq_true hload.2]
      exact Log.Effects.lists_load s.providers source
    · have hno : (s.providers.records.isEmpty && decide (s.config.reloadPolicy = .onDemand))
          = false := by
        simpa using hload
      rw [if_neg hload, hno]
      rfl
  have hcreation := create_creation s bus source call
  generalize s.create bus source call = o at hcreation ⊢
  rw [isFunctional]
  cases hcreation with
  | offline hnone =>
    rw [hnone]
    rfl
  | exported hpeer =>
    rw [hpeer, Option.isSome_some, Bool.true_and, ← hloading, Log.Effects.lists_append,
      Log.Effects.lists_append]
    rfl
  | refused hpeer =>
    rw [hpeer, Option.isSome_some, Bool.true_and, ← hloading]
    simp only [Log.Effects.lists_append, destroy_lists]
    rfl

theorem perform_lists (s : Service) (bus : Bus) (operation : Operation) :
    (s.perform bus operation).effects.lists = (s.listsFor operation).toNat := by
  cases operation with
  | create source call => exact create_lists s bus source call
  | handleCall source call =>
    rw [listsFor, mints, perform, handleCall]
    · cases s.isCreation call with
      | true =>
        rw [Bool.and_true]
        exact create_lists s bus source call
      | false =>
        rw [Bool.and_false]
        rfl
    · rintro _ ⟨⟩
  | filter m =>
    exact Log.Effects.lists_eq_zero_iff.mpr
      (filter_tells (by simp) (hooksTell_ne_listed s.sessions) bus m)
  | depart name =>
    exact Log.Effects.lists_eq_zero_iff.mpr
      (depart_tells (by simp) (hooksTell_ne_listed s.sessions) bus name)
  | release path =>
    rw [perform, release_eq]
    refine onSession_lists fun x => ?_
    rw [Log.Effects.lists_append, teardown_lists]
    rfl
  | attachHook path hook | providersFor path => exact onSession_lists fun x => rfl
  | setRequirements path c =>
    rw [perform, setRequirements, Outcome.map]
    dsimp only
    rw [← List.singleton_append, Log.Effects.lists_append, onSession_lists fun _ => rfl]
    rfl
  | reload source => exact Log.Effects.lists_load s.providers source
  | announceOptions options =>
    simp only [listsFor, mints, perform, announceOptions]
    split
    · rfl
    · split <;> rfl

/-! ## Loading on demand -/

/-- A broker that loads on demand has all that its source offers or nothing, and all of it while
there are sessions. -/
structure Stocked (source : Provider.Source) (s : Service) : Prop where
  policy : s.config.reloadPolicy = .onDemand
  records : s.providers.records = [] ∨ s.providers.records = source.loadable
  live : s.sessions.sessions ≠ [] → s.providers.records = source.loadable

theorem perform_visits (bus : Bus) {operation : Operation} {source : Provider.Source}
    (hfixed : ∀ other, operation.source? = some other → other = source) :
    ∀ visit ∈ (s.perform bus operation).effects.visits operation.source?,
      visit = .load source ∨ visit = .release := by
  intro visit hvisit
  cases visit with
  | release => exact .inr rfl
  | load other =>
    cases hsource : operation.source? with
    | none =>
      rw [hsource] at hvisit
      exact absurd hvisit (load_not_mem_visits other _)
    | some known =>
      obtain rfl := hfixed known hsource
      rw [hsource, Log.Effects.visits, List.mem_filterMap] at hvisit
      obtain ⟨e, -, he⟩ := hvisit
      refine .inl ?_
      cases e with
      | listed => exact (Option.some.inj he).symm
      | read | hookRun => cases he
      | event e => cases e <;> cases he

/-- A broker without sessions can only come by one if it mints a path. -/
theorem mints_of_live (hnumbered : s.sessions.Numbered) {bus : Bus} {operation : Operation}
    (hnone : s.sessions.sessions = [])
    (hlive : (s.perform bus operation).service.sessions.sessions ≠ []) :
    s.mints operation = true := by
  by_contra hno
  -- The sessions after it are among those before it and those created, so there are none.
  have hperm := (perform_accounted hnumbered bus operation).sessions
  have hcreated := (perform_mints hnumbered bus operation).created
  rw [if_neg hno] at hcreated
  rw [hcreated, Session.Registry.paths_eq_nil_iff.mpr hnone, List.append_nil, List.nil_perm,
    List.append_eq_nil_iff] at hperm
  exact hlive (Session.Registry.paths_eq_nil_iff.mp hperm.1)

/-- Whoever asks for a session while there are no providers makes the broker load. -/
theorem visits_ne_nil_of_mints (bus : Bus) {operation : Operation}
    (hpolicy : s.config.reloadPolicy = .onDemand) (hrecords : s.providers.records = [])
    (hmints : s.mints operation = true) :
    (s.perform bus operation).effects.visits operation.source? ≠ [] := by
  have hlists : (s.perform bus operation).effects.lists = 1 := by
    have hlistsFor : s.listsFor operation = true := by
      cases operation with
      | reload => rfl
      | _ => simp [listsFor, hmints, hpolicy, hrecords]
    rw [perform_lists, hlistsFor]
    rfl
  have hsource : ∃ source, operation.source? = some source := by
    cases operation with
    | create source | handleCall source => exact ⟨source, rfl⟩
    | _ => cases hmints
  obtain ⟨source, hsource⟩ := hsource
  rw [hsource]
  refine Log.Effects.visits_ne_nil_of_lists ?_ source
  rw [hlists]
  exact Nat.one_ne_zero

theorem Stocked.perform {source : Provider.Source} (h : s.Stocked source)
    (hloadable : source.loadable ≠ []) (hnumbered : s.sessions.Numbered) (bus : Bus)
    {operation : Operation} (hfixed : ∀ other, operation.source? = some other → other = source) :
    (s.perform bus operation).service.Stocked source := by
  have haccounted := perform_accounted hnumbered bus operation
  have hvisits := perform_visits (s := s) bus hfixed
  refine ⟨?_, ?_, fun hlive => ?_⟩
  · rw [(perform_moves hnumbered bus operation).fixed.2.2]
    exact h.policy
  · rw [haccounted.providers]
    exact Provider.Registry.replay_records hloadable hvisits h.records
  · -- Nothing is released while a session is live, so all that matters is what was there before.
    have hkept : .release ∉ (s.perform bus operation).effects.visits operation.source? :=
      fun hrelease => hlive (haccounted.released hrelease).2
    rw [haccounted.providers]
    refine Provider.Registry.replay_loads hloadable _ (fun visit hvisit => ?_) fun hnone => ?_
    · obtain rfl | rfl := hvisits visit hvisit
      · rfl
      · exact absurd hvisit hkept
    · by_cases hbefore : s.sessions.sessions = []
      · have hmints := mints_of_live hnumbered hbefore hlive
        obtain hempty | hall := h.records
        · exact absurd hnone (visits_ne_nil_of_mints bus h.policy hempty hmints)
        · exact hall
      · exact h.live hbefore

theorem Stocked.after {source : Provider.Source} (h : s.Stocked source)
    (hloadable : source.loadable ≠ []) (hnumbered : s.sessions.Numbered)
    {occasions : List Occasion} (hfixed : ∀ occasion ∈ occasions, ∀ other,
      occasion.operation.source? = some other → other = source) :
    (s.after occasions).Stocked source :=
  after_invariant hnumbered h fun hmem hcurrent hbefore =>
    hbefore.perform hloadable hcurrent _ (hfixed _ hmem)

/-! ## Loading at the start only -/

/-- An operation that is not asked to load lists nothing, if the broker loads at its start only. -/
theorem perform_lists_of_startupOnly (hpolicy : s.config.reloadPolicy = .startupOnly) (bus : Bus)
    {operation : Operation} (hreload : operation.isReload = false) :
    (s.perform bus operation).effects.lists = 0 := by
  rw [perform_lists]
  cases operation with
  | reload => cases hreload
  | _ => simp [listsFor, hpolicy]

theorem after_lists_of_startupOnly (hpolicy : s.config.reloadPolicy = .startupOnly)
    (hnumbered : s.sessions.Numbered) {occasions : List Occasion}
    (hreload : ∀ occasion ∈ occasions, occasion.operation.isReload = false) :
    s.listsOn occasions = 0 ∧
      (s.providers.records = [] → (s.after occasions).providers.records = []) := by
  induction occasions generalizing s with
  | nil => exact ⟨rfl, id⟩
  | cons occasion rest ih =>
    have hfirst := perform_lists_of_startupOnly hpolicy occasion.bus
      (hreload occasion List.mem_cons_self)
    obtain ⟨hlists, hrecords⟩ := ih (s := (s.perform occasion.bus occasion.operation).service)
      (by rw [(perform_moves hnumbered _ _).fixed.2.2]; exact hpolicy)
      (perform_numbered hnumbered _ _)
      fun other hother => hreload other (List.mem_cons_of_mem _ hother)
    refine ⟨by rw [listsOn, hfirst, hlists], fun hempty => hrecords ?_⟩
    rw [(perform_accounted hnumbered _ _).providers]
    exact Provider.Registry.records_replay hempty fun source =>
      Log.Effects.load_not_mem_visits_of_lists hfirst source _

/-! ## Any occasions -/

theorem start_lists {c : Config} {bus : Bus} {source : Provider.Source} {o : Outcome Unit}
    (h : start c bus source = .ok o) :
    o.effects.lists = o.service.isFunctional.toNat := by
  obtain ⟨masterPath, base, -, -, s, rfl, hcases⟩ := start_cases h
  have hopened : ∀ {result after opened}, join c masterPath bus = (result, after, opened) →
      Log.Effects.lists opened = 0 := by
    intro result after opened hjoin
    obtain rfl | ⟨peer, rfl⟩ := join_effects hjoin <;> rfl
  obtain ⟨e, opened, hjoin, hs, heffects⟩ | ⟨peer, opened, hjoin, hs, heffects⟩ := hcases
  · rw [heffects, hs, Log.Effects.lists_append, hopened hjoin]
    rfl
  · rw [heffects, hs, Log.Effects.lists_append, Log.Effects.lists_append, hopened hjoin]
    exact congrArg (0 + 0 + ·) (Log.Effects.lists_load {} source)

theorem start_records {c : Config} {bus : Bus} {source : Provider.Source} {o : Outcome Unit}
    (h : start c bus source = .ok o) (hfunctional : o.service.isFunctional = true)
    (hloadable : source.loadable ≠ []) : o.service.providers.records = source.loadable := by
  obtain ⟨masterPath, base, -, -, s, rfl, ⟨_, _, _, hs, _⟩ | ⟨_, _, _, hs, _⟩⟩ := start_cases h
  · rw [hs] at hfunctional
    cases hfunctional
  · rw [hs]
    exact Provider.Registry.load_records hloadable {}

/-- A functional broker whose source never changes and offers something has, if it loads on demand,
all that the source offers or nothing, and all of it while there are sessions.  If it loads at its
start only and is not asked to reload, it lists the source once, and it has nothing any more after
an operation that has destroyed the last session.  All that it is asked goes to its end if no hook
is attached that ends a worker. -/
theorem availability {c : Config} {bus : Bus} {source : Provider.Source} {o : Outcome Unit}
    (hstart : start c bus source = .ok o) (hfunctional : o.service.isFunctional = true)
    (hloadable : source.loadable ≠ []) {occasions : List Occasion}
    (hfixed : ∀ occasion ∈ occasions, ∀ other,
      occasion.operation.source? = some other → other = source) :
    let s := o.service.after occasions
    (c.reloadPolicy = .onDemand →
      (s.providers.records = [] ∨ s.providers.records = source.loadable) ∧
        (s.sessions.sessions ≠ [] → s.providers.records = source.loadable)) ∧
    (c.reloadPolicy = .startupOnly →
      (∀ occasion ∈ occasions, occasion.operation.isReload = false) →
      o.effects.lists + o.service.listsOn occasions = 1 ∧
        ∀ before occasion later, occasions = before ++ occasion :: later →
          let last := (o.service.after before).perform occasion.bus occasion.operation
          last.effects.destroyed ≠ [] → last.service.sessions.sessions = [] →
          s.providers.records = []) ∧
    ((∀ occasion ∈ occasions, occasion.operation.Gentle) → o.service.Unbroken occasions) := by
  intro s
  have hnumbered := start_numbered hstart
  have hconfig := (start_sessions hstart).1
  have hrecords := start_records hstart hfunctional hloadable
  refine ⟨fun hpolicy => ?_, fun hpolicy hreload => ⟨?_, ?_⟩, start_unbroken hstart⟩
  · have hstocked : o.service.Stocked source :=
      ⟨by rw [hconfig]; exact hpolicy, .inr hrecords, fun _ => hrecords⟩
    have hafter := hstocked.after hloadable hnumbered hfixed
    exact ⟨hafter.records, hafter.live⟩
  · obtain ⟨hlists, -⟩ :=
      after_lists_of_startupOnly (by rw [hconfig]; exact hpolicy) hnumbered hreload
    rw [start_lists hstart, hfunctional, hlists]
    rfl
  · rintro before occasion later rfl last hdestroyed hnone
    -- The operation has let the providers go, and nothing loads them again later.
    obtain ⟨hbefore, -⟩ := after_replay hnumbered before
    have hemptied := (perform_accounted hbefore occasion.bus occasion.operation).emptied hdestroyed
      hnone
    have hpolicy' : last.service.config.reloadPolicy = .startupOnly := by
      rw [(perform_moves hbefore _ _).fixed.2.2, (after_fixed hnumbered _).2.2, hconfig]
      exact hpolicy
    obtain ⟨-, hstays⟩ := after_lists_of_startupOnly hpolicy'
      (perform_numbered hbefore occasion.bus occasion.operation)
      (fun other hother => hreload other (List.mem_append_right _ (List.mem_cons_of_mem _ hother)))
    have hsplit : s = last.service.after later := by
      simp [s, last, Service.after]
    rw [hsplit]
    exact hstays hemptied

theorem askingTwice_fixed {bus : Bus} {source : Provider.Source} :
    ∀ occasion ∈ askingTwice bus source, ∀ other,
      occasion.operation.source? = some other → other = source := by
  intro occasion hoccasion other hother
  simp only [askingTwice, List.mem_cons, List.not_mem_nil, or_false] at hoccasion
  obtain rfl | rfl := hoccasion <;> exact (Option.some.inj hother).symm

theorem askingTwice_gentle {bus : Bus} {source : Provider.Source} :
    ∀ occasion ∈ askingTwice bus source, occasion.operation.Gentle := by
  simp [askingTwice, Operation.Gentle]

set_option maxRecDepth 8000 in
/-- The first of two sessions cannot be exported.  A broker that loads on demand has the descriptor
again for the second one; a broker that loads at its start only has nothing any more. -/
theorem availability_occupied :
    described.loadable ≠ [] ∧
      (∃ o, start .standard (Bus.run {} occupied) described = .ok o ∧
        (o.service.after (askingTwice o.bus described)).sessions.sessions ≠ [] ∧
        (o.service.after (askingTwice o.bus described)).providers.records
          = described.loadable ∧
        o.service.Unbroken (askingTwice o.bus described)) ∧
      ∃ o, start .loadOnce (Bus.run {} occupied) described = .ok o ∧
        o.effects.lists + o.service.listsOn (askingTwice o.bus described) = 1 ∧
        (o.service.after (askingTwice o.bus described)).sessions.sessions ≠ [] ∧
        (o.service.after (askingTwice o.bus described)).providers.records = [] := by
  have hloadable : described.loadable ≠ [] := by
    have hlength : described.loadable.length = 1 := by decide +kernel
    exact List.ne_nil_of_length_eq_add_one hlength
  refine ⟨hloadable, ?_, ?_⟩
  · obtain ⟨o, hstart, hfunctional, hlive⟩ :=
      exists_start .standard (Bus.run {} occupied) described (fun o =>
        o.service.isFunctional = true ∧
          (o.service.after (askingTwice o.bus described)).sessions.sessions.length = 1)
        (by decide +kernel)
    have hsome := List.ne_nil_of_length_eq_add_one hlive
    obtain ⟨honDemand, -, hunbroken⟩ :=
      availability hstart hfunctional hloadable askingTwice_fixed
    exact ⟨o, hstart, hsome, (honDemand rfl).2 hsome, hunbroken askingTwice_gentle⟩
  · obtain ⟨o, hstart, hfunctional, hlive, hdestroyed, hnone⟩ :=
      exists_start .loadOnce (Bus.run {} occupied) described (fun o =>
        let request : Operation := .create described
          { sender := some ":1.5", path := .root, interface := none, member := createMethod }
        o.service.isFunctional = true ∧
          (o.service.after (askingTwice o.bus described)).sessions.sessions.length = 1 ∧
          (o.service.perform o.bus request).effects.destroyed.length = 1 ∧
          (o.service.perform o.bus request).service.sessions.sessions.length = 0)
        (by decide +kernel)
    obtain ⟨-, hstartupOnly, -⟩ := availability hstart hfunctional hloadable askingTwice_fixed
    obtain ⟨hlists, hemptied⟩ := hstartupOnly rfl (by simp [askingTwice, Operation.isReload])
    refine ⟨o, hstart, hlists, List.ne_nil_of_length_eq_add_one hlive, ?_⟩
    exact hemptied [] _ _ rfl (List.ne_nil_of_length_eq_add_one hdestroyed)
      (List.length_eq_zero_iff.mp hnone)

end Service

end LocationBroker.Broker
