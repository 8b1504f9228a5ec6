import LocationBroker.Proofs.Broker.Accounts
import LocationBroker.Proofs.Broker.Start

/-! # The lifetime of the providers

A broker keeps providers for as long as there are sessions to use them: whoever destroys the last
session lets them go, and nobody else does.  `provider_lifetime` says so for whatever a broker is
asked after its start, and that the counter of releases is exact.
-/

namespace LocationBroker.Broker.Service

open Log (Effects)
open Provider.Registry (Visit fillings replay)

/-- An operation, and the bus as it is when the broker is asked for it. -/
structure Occasion where
  bus : Bus
  operation : Operation

/-- The broker after several occasions. -/
def after (s : Service) (occasions : List Occasion) : Service :=
  occasions.foldl (fun s occasion => (s.perform occasion.bus occasion.operation).service) s

/-- The visits that the broker pays to its registry of providers on several occasions. -/
def visitsDuring (s : Service) : List Occasion → List Visit
  | [] => []
  | occasion :: rest =>
    let o := s.perform occasion.bus occasion.operation
    o.effects.visits occasion.operation.source? ++ o.service.visitsDuring rest

variable {c : Config} {bus : Bus} {source : Provider.Source} {o : Outcome Unit}

theorem start_replay (h : start c bus source = .ok o) :
    o.service.providers = replay {} (o.effects.visits (some source)) := by
  obtain ⟨masterPath, base, -, -, s, rfl, hcases⟩ := start_cases h
  have hopened : ∀ {result after opened}, join c masterPath bus = (result, after, opened) →
      Effects.visits (some source) opened = [] := by
    intro result after opened hjoin
    obtain rfl | ⟨peer, rfl⟩ := join_effects hjoin <;> rfl
  obtain ⟨e, opened, hjoin, hs, heffects⟩ | ⟨peer, opened, hjoin, hs, heffects⟩ := hcases
  · rw [hs, heffects, Log.Effects.visits_append, hopened hjoin]
    rfl
  · have hvisits := Log.Effects.visits_load {} source
    rw [hs, heffects, Log.Effects.visits_append, Log.Effects.visits_append, hopened hjoin]
    simp only [reload, hvisits]
    rfl

theorem after_replay {s : Service} (h : s.sessions.Numbered) (occasions : List Occasion) :
    (s.after occasions).sessions.Numbered ∧
      (s.after occasions).providers = s.providers.replay (s.visitsDuring occasions) := by
  induction occasions generalizing s with
  | nil => exact ⟨h, rfl⟩
  | cons occasion rest ih =>
    have haccounted := perform_accounted h occasion.bus occasion.operation
    obtain ⟨hnumbered, hproviders⟩ := ih (perform_numbered h occasion.bus occasion.operation)
    refine ⟨hnumbered, ?_⟩
    rw [visitsDuring, Provider.Registry.replay_append, ← haccounted.providers]
    exact hproviders

/-- What every operation keeps, any occasions keep. -/
theorem after_invariant {s : Service} {P : Service → Prop} (h : s.sessions.Numbered)
    (hbefore : P s) {occasions : List Occasion}
    (hperform : ∀ {current : Service} {occasion : Occasion}, occasion ∈ occasions →
      current.sessions.Numbered → P current →
        P (current.perform occasion.bus occasion.operation).service) :
    P (s.after occasions) := by
  induction occasions generalizing s with
  | nil => exact hbefore
  | cons occasion rest ih =>
    exact ih (perform_numbered h occasion.bus occasion.operation)
      (hperform List.mem_cons_self h hbefore) fun hmem => hperform (List.mem_cons_of_mem _ hmem)

theorem after_fixed {s : Service} (h : s.sessions.Numbered) (occasions : List Occasion) :
    (s.after occasions).connection = s.connection ∧
      (s.after occasions).masterPath = s.masterPath ∧ (s.after occasions).config = s.config := by
  refine after_invariant (P := fun current => current.connection = s.connection ∧
    current.masterPath = s.masterPath ∧ current.config = s.config) h ⟨rfl, rfl, rfl⟩ ?_
  rintro current occasion - hcurrent ⟨hconnection, hmaster, hconfig⟩
  obtain ⟨hconnection', hmaster', hconfig'⟩ :=
    (perform_moves hcurrent occasion.bus occasion.operation).fixed
  exact ⟨hconnection'.trans hconnection, hmaster'.trans hmaster, hconfig'.trans hconfig⟩

/-- After whatever a broker was asked since its start, the releases that it has counted, and one
more while it has providers, are as many as the loads that filled its empty registry.  Whoever
destroys the last session then leaves no providers, and whoever makes the last of the providers go,
even for a moment, destroys the last session. -/
theorem provider_lifetime (hstart : start c bus source = .ok o) (occasions : List Occasion) :
    let s := o.service.after occasions
    let visits := o.effects.visits (some source) ++ o.service.visitsDuring occasions
    s.providers = replay {} visits ∧
      s.providers.releases + (if s.providers.records = [] then 0 else 1) = fillings {} visits ∧
      ∀ (bus : Bus) (operation : Operation),
        let next := s.perform bus operation
        (s.sessions.paths ++ next.effects.created).Perm
            (next.service.sessions.paths ++ next.effects.destroyed) ∧
          (next.effects.destroyed ≠ [] → next.service.sessions.sessions = [] →
            next.service.providers.records = []) ∧
          (s.providers.records ≠ [] → next.service.providers.records = [] →
            next.effects.destroyed ≠ [] ∧ next.service.sessions.sessions = []) ∧
          ∀ earlier visit later,
            next.effects.visits operation.source? = earlier ++ visit :: later →
            (s.providers.replay earlier).records ≠ [] →
            (s.providers.replay (earlier ++ [visit])).records = [] →
            visit = .release ∧ next.effects.destroyed ≠ [] ∧
              next.service.sessions.sessions = [] := by
  intro s visits
  obtain ⟨hnumbered, hafter⟩ := after_replay (start_numbered hstart) occasions
  have hreplay : s.providers = replay {} visits := by
    rw [Provider.Registry.replay_append, ← start_replay hstart]
    exact hafter
  refine ⟨hreplay, ?_, fun bus operation => ?_⟩
  · have hcount := Provider.Registry.releases_add_occupancy {} visits
    rw [← hreplay] at hcount
    simpa [Provider.Registry.occupancy] using hcount
  · have haccounted := perform_accounted hnumbered bus operation
    refine ⟨haccounted.sessions, haccounted.emptied, fun hsome hnone => ?_,
      fun earlier visit later hvisits hsome hnone => ?_⟩
    · -- Without a release the records would still be there.
      by_cases hrelease : .release ∈ (s.perform bus operation).effects.visits operation.source?
      · exact haccounted.released hrelease
      · rw [haccounted.providers] at hnone
        exact absurd hnone (Provider.Registry.replay_ne_nil hsome hrelease)
    · cases visit with
      | load source =>
        rw [Provider.Registry.replay_append] at hnone
        exact absurd hnone (Provider.Registry.load_ne_nil source hsome)
      | release =>
        refine ⟨rfl, haccounted.released ?_⟩
        rw [hvisits]
        simp

/-- A source with one descriptor. -/
def described : Provider.Source where
  location := "memory"
  listing := .ok { accepted := ["a"] }
  read _ := .ok
    "[provider]\nname = \"a\"\nservice = \"a.b\"\npath = \"/a\"\ninterfaces = [\"position\"]\n"

/-- The only client asks for a session, releases it, and asks for another one. -/
def returning (bus : Bus) : List Occasion :=
  let call : Bus.MethodCall :=
    { sender := some ":1.1", path := .root, interface := none, member := "Create" }
  [⟨bus, .create described call⟩, ⟨bus, .release "/org/freedesktop/Geoclue/Master/client0"⟩,
    ⟨bus, .create described call⟩]

/-- For `returning` the registry is filled twice, and was let go once in between. -/
theorem provider_lifetime_returning :
    ∃ o, start {} {} described = .ok o ∧
      (o.service.after (returning o.bus)).providers.releases = 1 ∧
      (o.service.after (returning o.bus)).providers.records ≠ [] ∧
      fillings {} (o.effects.visits (some described) ++ o.service.visitsDuring (returning o.bus))
        = 2 := by
  obtain ⟨o, hstart, hreleases, hrecords⟩ := exists_start {} {} described (fun o =>
    (o.service.after (returning o.bus)).providers.releases = 1 ∧
      (o.service.after (returning o.bus)).providers.records.length = 1) (by decide +kernel)
  have hsome : (o.service.after (returning o.bus)).providers.records ≠ [] := by
    intro hnone
    rw [hnone] at hrecords
    cases hrecords
  obtain ⟨-, hcount, -⟩ := provider_lifetime hstart (returning o.bus)
  rw [hreleases, if_neg hsome] at hcount
  exact ⟨o, hstart, hreleases, hsome, hcount.symm⟩

end LocationBroker.Broker.Service
