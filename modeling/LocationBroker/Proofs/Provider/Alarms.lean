import LocationBroker.Proofs.Provider.Loading

/-! # The alarms of a load

A load warns of each thing that went wrong and of nothing else: that the source cannot be listed,
that a descriptor cannot be loaded, and that earlier records had to be kept.  All of this is in the
report, so the report says which alarms there were (`load_alarms`).
-/

namespace LocationBroker

open Log (Effects Event)

namespace Log.Effects

variable {es : Effects}

@[simp] theorem alarms_append (first second : Effects) :
    (first ++ second).alarms = first.alarms ++ second.alarms := by
  simp [alarms, events]

theorem mem_alarms {e : Event} : e ∈ es.alarms ↔ .event e ∈ es ∧ e.level.isAlarm = true := by
  rw [alarms, List.mem_filter, events, List.mem_filterMap]
  refine and_congr_left fun _ => ⟨?_, fun he => ⟨_, he, rfl⟩⟩
  rintro ⟨effect, heffect, hevent⟩
  cases effect <;> cases hevent
  exact heffect

/-- The effects are events that alarm nobody. -/
def Unalarming (es : Effects) : Prop :=
  ∀ e ∈ es, ∃ event, e = .event event ∧ event.level.isAlarm = false

theorem Unalarming.alarms (h : es.Unalarming) : es.alarms = [] := by
  refine List.eq_nil_iff_forall_not_mem.mpr fun e he => ?_
  obtain ⟨hevent, halarm⟩ := mem_alarms.mp he
  obtain ⟨_, hsame, hmild⟩ := h _ hevent
  cases hsame
  rw [halarm] at hmild
  cases hmild

theorem Unalarming.hookRuns (h : es.Unalarming) : es.hookRuns = [] := by
  refine List.filterMap_eq_nil_iff.mpr fun e he => ?_
  obtain ⟨event, rfl, -⟩ := h e he
  rfl

end Log.Effects

namespace Provider

/-- The alarms that belong to a report, in the order in which they are raised. -/
def Report.alarms (report : Report) : List Event :=
  report.sourceError.toList.map .listingFailed
    ++ report.skipped.map (fun skipped => .descriptorSkipped skipped.1 skipped.2)
    ++ if report.retained = 0 then [] else [.recordsKept report.retained]

theorem Report.alarms_cases {report : Report} {alarm : Event} (h : alarm ∈ report.alarms) :
    (∃ e, alarm = .listingFailed e) ∨ (∃ id e, alarm = .descriptorSkipped id e) ∨
      ∃ count, alarm = .recordsKept count := by
  rw [Report.alarms, List.mem_append, List.mem_append] at h
  obtain (h | h) | h := h
  · obtain ⟨e, -, rfl⟩ := List.mem_map.mp h
    exact .inl ⟨e, rfl⟩
  · obtain ⟨skipped, -, rfl⟩ := List.mem_map.mp h
    exact .inr (.inl ⟨_, _, rfl⟩)
  · split at h
    · cases h
    · exact .inr (.inr ⟨_, List.mem_singleton.mp h⟩)

theorem Report.alarms_level {report : Report} {alarm : Event} (h : alarm ∈ report.alarms) :
    alarm.level = .warn := by
  obtain ⟨e, rfl⟩ | ⟨id, e, rfl⟩ | ⟨count, rfl⟩ := Report.alarms_cases h <;> rfl

namespace Registry

theorem listing_alarms (source : Source) :
    Effects.alarms (.listed :: source.notes.map fun n => .event (.scanned n)) = [] := by
  have hnotes : Effects.Unalarming (source.notes.map fun n => .event (.scanned n)) := by
    intro e he
    obtain ⟨note, -, rfl⟩ := List.mem_map.mp he
    exact ⟨_, rfl, by cases note <;> rfl⟩
  exact hnotes.alarms

/-- Of the descriptors that are tried, exactly those that are skipped raise an alarm. -/
theorem attempts_alarms (tried : List (String × Except Error Record)) :
    Effects.alarms (tried.flatMap attemptEffects) =
      (skippedOf tried).map fun skipped => Event.descriptorSkipped skipped.1 skipped.2 := by
  induction tried with
  | nil => rfl
  | cons attempt rest ih =>
    obtain ⟨id, result⟩ := attempt
    rw [List.flatMap_cons, Log.Effects.alarms_append, ih]
    cases result <;> rfl

theorem keepEffects_alarms (r : Registry) :
    r.keepEffects.alarms =
      if r.records.length = 0 then [] else [.recordsKept r.records.length] := by
  rw [keepEffects]
  by_cases hempty : r.records = []
  · simp [hempty, Effects.alarms, Effects.events]
  · rw [if_neg (mt List.isEmpty_iff.mp hempty), if_neg (mt List.length_eq_zero_iff.mp hempty)]
    rfl

theorem load_alarms (r : Registry) (source : Source) :
    (r.load source).2.2.alarms = (r.load source).2.1.alarms := by
  have hloaded : ∀ report, Effects.alarms [.event (.registryLoaded source.location report)] = [] :=
    fun _ => rfl
  rw [load]
  cases source.listing with
  | error e =>
    simp only [Log.Effects.alarms_append, listing_alarms, keepEffects_alarms]
    rfl
  | ok listing =>
    dsimp only
    cases loadedOf (attempts source listing.accepted) with
    | nil =>
      simp only [Log.Effects.alarms_append, listing_alarms, attempts_alarms, keepEffects_alarms,
        hloaded]
      simp [Report.alarms, keptReport]
    | cons first rest =>
      simp only [Log.Effects.alarms_append, listing_alarms, attempts_alarms, hloaded]
      simp [Report.alarms]

/-- Letting the records go and selecting among them is no cause for alarm. -/
theorem release_unalarming (r : Registry) : r.release.2.2.Unalarming := by
  rw [release]
  split
  · exact List.forall_mem_nil _
  · exact List.forall_mem_singleton.mpr ⟨_, rfl, rfl⟩

theorem filterEffects_unalarming (r : Registry) (c : Constraints) :
    (r.filterEffects c).Unalarming :=
  List.forall_mem_singleton.mpr ⟨_, rfl, rfl⟩

end Registry

end Provider

end LocationBroker
