import LocationBroker.Provider.Registry

/-! # Visits to the registry of providers

All that ever happens to a registry of providers is that it loads from a source or lets its records
go; each of these is a `Visit`.  The effects of an operation tell its visits in order
(`Effects.visits`), beside the sessions that it created and destroyed.

`releases_add_occupancy` is the law of the counter: over any visits, the releases that are counted,
and one more while there are records, are as many as the loads that found the registry empty and
left records in it.
-/

namespace LocationBroker.Provider.Registry

open Log (Effect Effects)

/-- Something that happens to a registry. -/
inductive Visit where
  | load (source : Source)
  | release

def visit (r : Registry) : Visit → Registry
  | .load source => (r.load source).1
  | .release => r.release.1

def replay (r : Registry) (visits : List Visit) : Registry :=
  visits.foldl visit r

/-- One if there are records, and zero if there are none. -/
def occupancy (r : Registry) : Nat :=
  if r.records.isEmpty then 0 else 1

/-- How many of the visits are loads that find the registry empty and leave records in it. -/
def fillings (r : Registry) : List Visit → Nat
  | [] => 0
  | .load source :: rest =>
    (if r.records.isEmpty ∧ !(r.load source).1.records.isEmpty then 1 else 0)
      + (r.load source).1.fillings rest
  | .release :: rest => r.release.1.fillings rest

variable {r : Registry}

/-- A load leaves the records as they are or replaces them by others, and counts nothing. -/
theorem load_cases (r : Registry) (source : Source) :
    (r.load source).1 = r ∨
      ∃ first rest, (r.load source).1 = { r with records := first :: rest } := by
  rw [load]
  split
  · exact .inl rfl
  · dsimp only
    split
    · exact .inl rfl
    · exact .inr ⟨_, _, rfl⟩

/-- No load ever empties a registry. -/
theorem load_ne_nil (source : Source) (h : r.records ≠ []) : (r.load source).1.records ≠ [] := by
  obtain hsame | ⟨first, rest, hnew⟩ := load_cases r source
  · rwa [hsame]
  · simp [hnew]

theorem release_of_nil (h : r.records = []) : r.release = (r, 0, []) := by
  rw [release, if_pos (List.isEmpty_iff.mpr h)]

theorem release_of_ne_nil (h : r.records ≠ []) :
    r.release = ({ records := [], releases := r.releases + 1 }, r.records.length,
      [.event (.providersReleased r.records.length)]) := by
  rw [release, if_neg (mt List.isEmpty_iff.mp h)]

/-- A release leaves no records, and counts if there were any. -/
theorem release_eq (r : Registry) :
    r.release.1 = { records := [], releases := r.releases + if r.records = [] then 0 else 1 } := by
  by_cases h : r.records = []
  · rw [release_of_nil h, if_pos h, Nat.add_zero, ← h]
  · rw [release_of_ne_nil h, if_neg h]

theorem release_records (r : Registry) : r.release.1.records = [] := by
  rw [release_eq]

theorem replay_append (r : Registry) (first second : List Visit) :
    r.replay (first ++ second) = (r.replay first).replay second :=
  List.foldl_append

/-- A registry without records that is only released stays as it is. -/
theorem records_replay {visits : List Visit} (h : r.records = [])
    (hvisits : ∀ source, .load source ∉ visits) : (r.replay visits).records = [] := by
  induction visits generalizing r with
  | nil => exact h
  | cons visit rest ih =>
    cases visit with
    | load source => exact absurd List.mem_cons_self (hvisits source)
    | release =>
      exact ih (release_records r) fun source hmem => hvisits source (List.mem_cons_of_mem _ hmem)

/-- A registry with records keeps some unless it is released. -/
theorem replay_ne_nil {visits : List Visit} (h : r.records ≠ []) (hvisits : .release ∉ visits) :
    (r.replay visits).records ≠ [] := by
  induction visits generalizing r with
  | nil => exact h
  | cons visit rest ih =>
    have hrest : .release ∉ rest := fun hmem => hvisits (List.mem_cons_of_mem _ hmem)
    cases visit with
    | load source => exact ih (load_ne_nil source h) hrest
    | release => exact absurd List.mem_cons_self hvisits

/-- Whatever visits there are, each filling of an empty registry is followed by one release, except
for the last one if there are records still. -/
theorem releases_add_occupancy (r : Registry) (visits : List Visit) :
    (r.replay visits).releases + (r.replay visits).occupancy =
      r.releases + r.occupancy + r.fillings visits := by
  induction visits generalizing r with
  | nil => rfl
  | cons visit rest ih =>
    cases visit with
    | load source =>
      -- A load counts no release, so all that matters is whether it fills an empty registry.
      have hreplay : r.replay (.load source :: rest) = (r.load source).1.replay rest := rfl
      rw [hreplay, ih, fillings]
      obtain hsame | ⟨first, others, hnew⟩ := load_cases r source
      · by_cases hempty : r.records.isEmpty <;> simp [hsame, hempty]
      · by_cases hempty : r.records.isEmpty <;> simp [hnew, hempty, occupancy]
        omega
    | release =>
      -- A release counts one exactly if the registry stops being occupied.
      have hreplay : r.replay (.release :: rest) = r.release.1.replay rest := rfl
      rw [hreplay, ih, fillings]
      by_cases hempty : r.records = []
      · rw [release_of_nil hempty]
      · rw [release_of_ne_nil hempty]
        simp [occupancy, hempty]

/-! ## The effects of a load -/

/-- Whether the effect is one of a load once the source is listed. -/
def tellsLoading : Effect → Bool
  | .read _ | .event (.scanned _) | .event (.listingFailed _) | .event (.providerLoaded ..)
  | .event (.descriptorSkipped ..) | .event (.recordsKept _) | .event (.registryLoaded ..) => true
  | _ => false

theorem tellsLoading_of_mem_keepEffects {e : Effect} (h : e ∈ r.keepEffects) :
    tellsLoading e = true := by
  rw [keepEffects] at h
  split at h
  · cases h
  · rw [List.mem_singleton.mp h]
    rfl

theorem tellsLoading_of_mem_attemptEffects {attempt : String × Except Error Record} {e : Effect}
    (h : e ∈ attemptEffects attempt) : tellsLoading e = true := by
  obtain ⟨id, result⟩ := attempt
  obtain rfl | h := List.mem_cons.mp h
  · rfl
  · rw [List.mem_singleton.mp h]
    cases result <;> rfl

theorem load_effects (r : Registry) (source : Source) :
    ∃ told, (r.load source).2.2 = .listed :: told ∧ ∀ e ∈ told, tellsLoading e = true := by
  have hnotes : ∀ e ∈ source.notes.map fun n => Effect.event (.scanned n),
      tellsLoading e = true := by
    intro e he
    obtain ⟨n, -, rfl⟩ := List.mem_map.mp he
    rfl
  rw [load]
  split
  · refine ⟨_, rfl, fun e he => ?_⟩
    cases List.mem_append.mp he with
    | inl he =>
      cases List.mem_append.mp he with
      | inl he => exact hnotes e he
      | inr he =>
        rw [List.mem_singleton.mp he]
        rfl
    | inr he => exact tellsLoading_of_mem_keepEffects he
  · rename_i listing _
    have htried : ∀ e ∈ (attempts source listing.accepted).flatMap attemptEffects,
        tellsLoading e = true := by
      intro e he
      obtain ⟨attempt, -, he⟩ := List.mem_flatMap.mp he
      exact tellsLoading_of_mem_attemptEffects he
    dsimp only
    split
    · refine ⟨_, rfl, fun e he => ?_⟩
      simp only [List.append_eq, List.mem_append, List.mem_singleton] at he
      obtain ((he | he) | he) | rfl := he
      · exact hnotes e he
      · exact htried e he
      · exact tellsLoading_of_mem_keepEffects he
      · rfl
    · refine ⟨_, rfl, fun e he => ?_⟩
      simp only [List.append_eq, List.mem_append, List.mem_singleton] at he
      obtain (he | he) | rfl := he
      · exact hnotes e he
      · exact htried e he
      · rfl

end LocationBroker.Provider.Registry

namespace LocationBroker.Log.Effects

open Provider.Registry (Visit tellsLoading)

/-- The visits that effects tell, if it was this source that was listed. -/
def visits (source? : Option Provider.Source) (es : Effects) : List Visit :=
  es.filterMap fun
    | .listed => source?.map .load
    | .event (.providersReleased _) => some .release
    | _ => none

@[simp] theorem visits_append (source? : Option Provider.Source) (first second : Effects) :
    visits source? (first ++ second) = visits source? first ++ visits source? second :=
  List.filterMap_append

/-- Loading from a source is one visit. -/
@[simp] theorem visits_load (r : Provider.Registry) (source : Provider.Source) :
    visits (some source) (r.load source).2.2 = [.load source] := by
  obtain ⟨told, heffects, htold⟩ := r.load_effects source
  have hquiet : visits (some source) told = [] := by
    refine List.filterMap_eq_nil_iff.mpr fun e he => ?_
    have hloading := htold e he
    cases e with
    | listed => cases hloading
    | event e => cases e <;> first | rfl | cases hloading
    | read | hookRun => rfl
  rw [heffects]
  exact congrArg (Visit.load source :: ·) hquiet

@[simp] theorem hookRuns_append (first second : Effects) :
    hookRuns (first ++ second) = hookRuns first ++ hookRuns second :=
  List.filterMap_append

/-- No hook is run while descriptors are loaded. -/
theorem hookRuns_load (r : Provider.Registry) (source : Provider.Source) :
    hookRuns (r.load source).2.2 = [] := by
  obtain ⟨told, heffects, htold⟩ := r.load_effects source
  rw [heffects]
  refine List.filterMap_eq_nil_iff.mpr fun e he => ?_
  obtain rfl | he := List.mem_cons.mp he
  · rfl
  · have hloading := htold e he
    cases e with
    | hookRun => cases hloading
    | event | listed | read => rfl

end LocationBroker.Log.Effects
