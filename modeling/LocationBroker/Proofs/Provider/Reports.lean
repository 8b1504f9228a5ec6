import LocationBroker.Proofs.Provider.Validity

/-! # What a load's report says

Every descriptor that a source lists gives a record or a reason (`Source.Yields`).  A load takes
over all these records, or keeps the ones that are there if it gets none, and its report says which
of the two happened, which records are there now, and what became of every descriptor that was
listed (`load_all_or_none`).
-/

namespace LocationBroker.Provider

/-- What the descriptors with the given identifiers yield: each gives its record, or the reason why
it cannot be loaded. -/
inductive Source.Yields (source : Source) :
    List String → List Record → List (String × Error) → Prop
  | nil : Yields source [] [] []
  | loaded {id ids record records failures} (hload : Record.load source id = .ok record)
      (hrest : Yields source ids records failures) :
      Yields source (id :: ids) (record :: records) failures
  | failed {id ids e records failures} (hload : Record.load source id = .error e)
      (hrest : Yields source ids records failures) :
      Yields source (id :: ids) records ((id, e) :: failures)

/-- Every identifier is that of one record or has one reason. -/
theorem Source.Yields.perm {source : Source} {ids : List String} {records : List Record}
    {failures : List (String × Error)} (h : source.Yields ids records failures) :
    (records.map (·.id) ++ failures.map (·.1)).Perm ids := by
  induction h with
  | nil => exact .nil
  | loaded hload _ ih =>
    obtain ⟨rfl, -⟩ := Record.load_eq_ok_iff.mp hload
    exact ih.cons _
  | failed _ _ ih => exact List.perm_middle.trans (ih.cons _)

namespace Registry

variable {source : Source}

theorem yields_attempts (ids : List String) :
    source.Yields ids (loadedOf (attempts source ids)) (skippedOf (attempts source ids)) := by
  induction ids with
  | nil => exact .nil
  | cons id ids ih =>
    simp only [attempts, loadedOf, skippedOf] at ih ⊢
    cases hload : Record.load source id with
    | ok record => simpa [hload, Except.toOption] using ih.loaded hload
    | error e => simpa [hload, Except.toOption] using ih.failed hload

theorem yields_of_ok {listing : Listing} (h : source.listing = .ok listing) :
    source.Yields listing.accepted source.loadable source.unloadable := by
  rw [loadable_of_ok h, unloadable_of_ok h]
  exact yields_attempts listing.accepted

/-- A load replaces all records by those that the listed descriptors yield, in their order, or keeps
them all if the source cannot be listed or none of its descriptors can be loaded.  The report names
the records that are there afterwards, and accounts for every descriptor that was listed: each was
loaded, or is reported with the reason why not.  A load never counts as a release, and never empties
a registry. -/
theorem load_all_or_none (r : Registry) (source : Source) :
    let after := (r.load source).1
    let report := (r.load source).2.1
    (match source.listing with
      | .error e =>
        after.records = r.records ∧ report.retained = r.records.length ∧
          report.sourceError = some e ∧ report.skipped = [] ∧ report.ignored = []
      | .ok listing =>
        ∃ records failures, source.Yields listing.accepted records failures ∧
          (records.map (·.id) ++ failures.map (·.1)).Perm listing.accepted ∧
          (records = [] → after.records = r.records ∧ report.retained = r.records.length) ∧
          (records ≠ [] → after.records = records ∧ report.retained = 0) ∧
          report.sourceError = none ∧ report.skipped = failures ∧
          report.ignored = listing.ignored) ∧
      report.loaded = after.records.map (·.id) ∧ after.releases = r.releases ∧
      (r.records ≠ [] → after.records ≠ []) := by
  intro after report
  obtain ⟨hafter, hreport⟩ := load_outcome r source
  change after = _ at hafter
  change report = _ at hreport
  refine ⟨?_, congrArg Report.loaded hreport, load_releases r source, load_ne_nil source⟩
  cases hlisting : source.listing with
  | error e =>
    rw [if_pos (loadable_of_error hlisting)] at hafter hreport
    rw [hafter, hreport]
    simp [Source.unlistable?, Source.unloadable, Source.ignored, hlisting]
  | ok listing =>
    have hyields := yields_of_ok hlisting
    refine ⟨_, _, hyields, hyields.perm, fun hnone => ?_, fun hsome => ?_, ?_, ?_, ?_⟩
    · rw [if_pos hnone] at hafter hreport
      rw [hafter, hreport]
      exact ⟨rfl, rfl⟩
    · rw [if_neg hsome] at hafter hreport
      rw [hafter, hreport]
      exact ⟨rfl, rfl⟩
    · rw [hreport, Source.unlistable?, hlisting]
    · rw [hreport]
    · rw [hreport, Source.ignored, hlisting]

/-- A source with the two descriptors that cannot be loaded, and no other. -/
def barren : Source :=
  { mixed with listing := .ok { accepted := ["lame", "lost"], ignored := ["readme"] } }

set_option maxRecDepth 8000 in
/-- Both listed descriptors are reported, so none was loaded and the earlier record stays. -/
theorem load_all_or_none_barren :
    let r := replay {} [.load mixed]
    r.records ≠ [] ∧ (r.load barren).1.records = r.records ∧ (r.load barren).1.records ≠ [] ∧
      (r.load barren).2.1.retained = 1 ∧ (r.load barren).2.1.loaded = ["sound"] := by
  intro r
  have hids : r.records.map (·.id) = ["sound"] := by decide +kernel
  have hreported : (r.load barren).2.1.skipped.map (·.1) = ["lame", "lost"] := by decide +kernel
  have hsome : r.records ≠ [] := by
    intro hnone
    simp [hnone] at hids
  obtain ⟨⟨records, failures, -, hperm, hnone, -, -, hskipped, -⟩, hloaded, -, hkept⟩ :=
    load_all_or_none r barren
  have hempty : records = [] := by
    have hlength := hperm.length_eq
    rw [← hskipped, hreported] at hlength
    simpa using hlength
  obtain ⟨hsame, hretained⟩ := hnone hempty
  have hone : r.records.length = 1 := by simpa using congrArg List.length hids
  refine ⟨hsome, hsame, hkept hsome, hretained.trans hone, ?_⟩
  rw [hloaded, hsame, hids]

end Registry

end LocationBroker.Provider
