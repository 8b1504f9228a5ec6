import LocationBroker.Proofs.Broker.Availability
import LocationBroker.Proofs.Broker.Life
import LocationBroker.Proofs.Provider.Selection

/-! # What is selected for a session

The providers of a session are those of all records that satisfy what was last required for it.
Other sessions have no part in this: they may be created, fail to be created, be given other
requirements, or end in any way (`selection_isolated`).

* `disturbs` — which operations may change what is selected for a session that stays live.
* `perform_providers`, `statedOn_of_not_disturbs` — what the others leave as it is.
-/

namespace LocationBroker.Broker.Service

open Session (Registry)

variable {s : Service} {path : Bus.ObjectPath}

/-- The operation states requirements for the session of the path, or it lists the source: it is
asked to reload, or it is to create a session while there are no providers. -/
def disturbs (s : Service) (path : Bus.ObjectPath) : Operation → Bool
  | .setRequirements text _ => decide (text = path.text)
  | operation => s.listsFor operation

/-- The session of the path stays live on these occasions, and no operation disturbs it. -/
def undisturbed (s : Service) (path : Bus.ObjectPath) : List Occasion → Bool
  | [] => decide (path ∈ s.sessions.paths)
  | occasion :: rest =>
    decide (path ∈ s.sessions.paths) && !s.disturbs path occasion.operation
      && (s.perform occasion.bus occasion.operation).service.undisturbed path rest

/-! ## What operations leave as it is -/

/-- An operation that does not list the source leaves the providers, unless no session is left. -/
theorem perform_providers (h : s.sessions.Numbered) (bus : Bus) {operation : Operation}
    (hlists : s.listsFor operation = false)
    (hlive : (s.perform bus operation).service.sessions.sessions ≠ []) :
    (s.perform bus operation).service.providers = s.providers := by
  have haccounted := perform_accounted h bus operation
  have hnone : (s.perform bus operation).effects.lists = 0 := by
    rw [perform_lists, hlists]
    rfl
  -- A load would list the source, and a release would need that no session is left.
  have hvisits : (s.perform bus operation).effects.visits operation.source? = [] := by
    refine List.eq_nil_iff_forall_not_mem.mpr fun visit hvisit => ?_
    cases visit with
    | load source => exact Log.Effects.load_not_mem_visits_of_lists hnone source _ hvisit
    | release => exact hlive (haccounted.released hvisit).2
  rw [haccounted.providers, hvisits]
  rfl

theorem statedOn_of_not_disturbs {occasion : Occasion}
    (h : s.disturbs path occasion.operation = false) : s.statedOn occasion path = [] := by
  obtain ⟨bus, operation⟩ := occasion
  cases operation with
  | setRequirements text c =>
    have hother : text ≠ path.text := of_decide_eq_false h
    exact if_neg fun hstated => hother hstated.1
  | _ => rfl

theorem listsFor_of_not_disturbs {operation : Operation} (h : s.disturbs path operation = false) :
    s.listsFor operation = false := by
  cases operation with
  | setRequirements => rfl
  | _ => exact h

theorem live_of_undisturbed {occasions : List Occasion}
    (h : s.undisturbed path occasions = true) : path ∈ s.sessions.paths := by
  cases occasions with
  | nil => exact of_decide_eq_true h
  | cons occasion rest =>
    simp only [undisturbed, Bool.and_eq_true, decide_eq_true_eq] at h
    exact h.1.1

/-- On occasions that do not disturb a session nothing is stated for it, and the providers stay. -/
theorem undisturbed_keeps (h : s.sessions.Numbered) {occasions : List Occasion}
    (hundisturbed : s.undisturbed path occasions = true) :
    path ∈ (s.after occasions).sessions.paths ∧ (s.course path occasions).stated = [] ∧
      (s.after occasions).providers = s.providers := by
  induction occasions generalizing s with
  | nil => exact ⟨of_decide_eq_true hundisturbed, rfl, rfl⟩
  | cons occasion rest ih =>
    simp only [undisturbed, Bool.and_eq_true, decide_eq_true_eq, Bool.not_eq_true'] at hundisturbed
    obtain ⟨⟨-, hdisturbs⟩, hrest⟩ := hundisturbed
    obtain ⟨hlive, hstated, hproviders⟩ :=
      ih (perform_numbered h occasion.bus occasion.operation) hrest
    refine ⟨hlive, ?_, hproviders.trans ?_⟩
    · have hfirst := statedOn_of_not_disturbs hdisturbs
      exact (congrArg₂ (· ++ ·) hfirst hstated)
    · refine perform_providers h occasion.bus (listsFor_of_not_disturbs hdisturbs) fun hnone => ?_
      have hnext := live_of_undisturbed hrest
      rw [Registry.paths_eq_nil_iff.mpr hnone] at hnext
      cases hnext

/-! ## Selecting -/

/-- What is selected for a live session depends on the records and on its last requirements only. -/
theorem providersFor_result {c : Course} (h : Lived s.sessions path c)
    (hlive : path ∈ s.sessions.paths) (bus : Bus) :
    (s.providersFor bus path.text).result =
      .ok (s.providers.records.filter fun record =>
        record.satisfies (c.stated.getLast?.getD .any)) := by
  cases hget : s.sessions.get? path with
  | none => exact absurd hlive (Registry.get?_eq_none_iff.mp hget)
  | some x =>
    obtain ⟨-, hpath⟩ := Registry.mem_of_get? hget
    have hat : s.sessions.atText? path.text = some x :=
      Registry.atText?_eq_some_iff.mpr ⟨by rw [hpath], by rw [hpath]; exact hget⟩
    have hlife : Life path (some x) c := hget ▸ h.life
    rw [providersFor, onSession_of_found hat, ← hlife.requirements_eq]
    rfl

/-- After whatever a broker was asked since its start, what is selected for a live session is all
the records that satisfy what was last required for it, in their order.  As long as the session
stays live, only a statement for this session and a listing of the source change what is selected,
whatever becomes of the other sessions. -/
theorem selection_isolated {c : Config} {bus : Bus} {source : Provider.Source} {o : Outcome Unit}
    (hstart : start c bus source = .ok o) (occasions : List Occasion) :
    let s := o.service.after occasions
    ∀ path ∈ s.sessions.paths,
      (∀ bus, (s.providersFor bus path.text).result =
        .ok (s.providers.records.filter fun record =>
          record.satisfies ((o.service.course path occasions).stated.getLast?.getD .any))) ∧
      ∀ later, s.undisturbed path later = true → ∀ earlierBus laterBus,
        ((s.after later).providersFor laterBus path.text).result =
          (s.providersFor earlierBus path.text).result := by
  intro s path hlive
  have hlived := start_lived hstart occasions path
  obtain ⟨hnumbered, -⟩ := after_replay (start_numbered hstart) occasions
  refine ⟨fun bus => providersFor_result hlived hlive bus, ?_⟩
  intro later hundisturbed earlierBus laterBus
  obtain ⟨hstays, hstated, hproviders⟩ := undisturbed_keeps hnumbered hundisturbed
  have hafter := after_lived hnumbered hlived later
  have hsame : (o.service.course path occasions ++ s.course path later).stated =
      (o.service.course path occasions).stated :=
    (congrArg _ hstated).trans (List.append_nil _)
  rw [providersFor_result hafter hstays, providersFor_result hlived hlive, hproviders, hsame]

/-- The second of two sessions is given other requirements and is released, a third one cannot be
exported since the broker is not on the bus any more, and somebody else departs. -/
def bustle (bus : Bus) : List Occasion :=
  let call : Bus.MethodCall :=
    { sender := some ":1.7", path := .root, interface := none, member := createMethod }
  [⟨bus, .setRequirements secondSession.text { requireUpdates := true }⟩,
    ⟨bus, .release secondSession.text⟩, ⟨{}, .create described call⟩, ⟨bus, .depart ":1.7"⟩]

set_option maxRecDepth 8000 in
/-- While all of `bustle` happens, the only provider stays selected for the first session. -/
theorem selection_isolated_bustle :
    ∃ o, start .standard {} described = .ok o ∧
      let s := o.service.after (askingTwice o.bus described)
      firstSession ∈ s.sessions.paths ∧ s.undisturbed firstSession (bustle o.bus) = true ∧
        s.providers.records.length = 1 ∧
        ((s.after (bustle o.bus)).providersFor o.bus firstSession.text).result =
          .ok s.providers.records := by
  obtain ⟨o, hstart, hlive, hundisturbed, hrecords, hstated⟩ :=
    exists_start .standard {} described (fun o =>
      let s := o.service.after (askingTwice o.bus described)
      firstSession ∈ s.sessions.paths ∧ s.undisturbed firstSession (bustle o.bus) = true ∧
        s.providers.records.length = 1 ∧
        (o.service.course firstSession (askingTwice o.bus described)).stated.length = 0)
      (by decide +kernel)
  obtain ⟨hselected, hstays⟩ :=
    selection_isolated hstart (askingTwice o.bus described) firstSession hlive
  have hnone := List.length_eq_zero_iff.mp hstated
  refine ⟨o, hstart, hlive, hundisturbed, hrecords, (hstays _ hundisturbed o.bus _).trans ?_⟩
  rw [hselected o.bus, hnone, List.getLast?_nil, Option.getD_none]
  simp only [Provider.Record.satisfies_any, List.filter_true]

end LocationBroker.Broker.Service
