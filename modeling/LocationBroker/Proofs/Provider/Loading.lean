import LocationBroker.Proofs.Provider.Occupancy

/-! # What loads get

A load gets all that a source offers (`load_records`), so a registry that loads from one source has
all of it or nothing, and all of it as long as it is not released (`replay_records`,
`replay_loads`).  The effects of an operation tell how often it listed the source; an operation that
did not list it did not load either.
-/

namespace LocationBroker

open Log (Effect Effects)

/-! ## What a load gets -/

/-- The records of all descriptors that can be loaded, in the order of the listing. -/
def Provider.Source.loadable (source : Source) : List Record :=
  match source.listing with
  | .error _ => []
  | .ok listing => listing.accepted.filterMap fun id => (Record.load source id).toOption

/-- The descriptors that cannot be loaded, each with the reason, in the order of the listing. -/
def Provider.Source.unloadable (source : Source) : List (String × Error) :=
  match source.listing with
  | .error _ => []
  | .ok listing => listing.accepted.filterMap fun id =>
    match Record.load source id with
    | .ok _ => none
    | .error e => some (id, e)

/-- Why the source cannot be listed, if it cannot. -/
def Provider.Source.unlistable? (source : Source) : Option Error :=
  match source.listing with
  | .error e => some e
  | .ok _ => none

/-- What the source lists and is no descriptor. -/
def Provider.Source.ignored (source : Source) : List String :=
  match source.listing with
  | .error _ => []
  | .ok listing => listing.ignored

namespace Provider.Registry

variable {source : Source}

theorem loadable_of_error {e : Error} (h : source.listing = .error e) : source.loadable = [] := by
  rw [Source.loadable, h]

theorem loadable_of_ok {listing : Listing} (h : source.listing = .ok listing) :
    source.loadable = loadedOf (attempts source listing.accepted) := by
  rw [Source.loadable, h, loadedOf, attempts, List.filterMap_map]
  rfl

theorem unloadable_of_ok {listing : Listing} (h : source.listing = .ok listing) :
    source.unloadable = skippedOf (attempts source listing.accepted) := by
  rw [Source.unloadable, h, skippedOf, attempts, List.filterMap_map]
  rfl

/-- A load replaces the records by all that the source offers, or leaves them if that is nothing.
Either way the report says what has come of it. -/
theorem load_outcome (r : Registry) (source : Source) :
    (r.load source).1 =
        (if source.loadable = [] then r else { r with records := source.loadable }) ∧
      (r.load source).2.1 = {
        loaded := (r.load source).1.records.map (·.id)
        ignored := source.ignored
        skipped := source.unloadable
        sourceError := source.unlistable?
        retained := if source.loadable = [] then r.records.length else 0 } := by
  rw [Source.unlistable?, Source.ignored]
  cases hlisting : source.listing with
  | error e => simp [load, hlisting, Source.loadable, Source.unloadable, keptReport]
  | ok listing =>
    rw [loadable_of_ok hlisting, unloadable_of_ok hlisting, load, hlisting]
    dsimp only
    cases loadedOf (attempts source listing.accepted) with
    | nil => simp [keptReport]
    | cons first rest => simp

theorem load_records (h : source.loadable ≠ []) (r : Registry) :
    (r.load source).1.records = source.loadable := by
  rw [(r.load_outcome source).1, if_neg h]

theorem load_records_eq_nil_iff (r : Registry) (source : Source) :
    (r.load source).1.records = [] ↔ r.records = [] ∧ source.loadable = [] := by
  rw [(r.load_outcome source).1]
  by_cases hnone : source.loadable = [] <;> simp [hnone]

theorem load_releases (r : Registry) (source : Source) :
    (r.load source).1.releases = r.releases := by
  rw [(r.load_outcome source).1]
  split <;> rfl

/-- Loads from one source and releases leave all that it offers, or nothing. -/
theorem replay_records (h : source.loadable ≠ []) {r : Registry} {visits : List Visit}
    (hvisits : ∀ visit ∈ visits, visit = .load source ∨ visit = .release)
    (hbefore : r.records = [] ∨ r.records = source.loadable) :
    (r.replay visits).records = [] ∨ (r.replay visits).records = source.loadable := by
  induction visits generalizing r with
  | nil => exact hbefore
  | cons visit rest ih =>
    have hrest := fun other hother => hvisits other (List.mem_cons_of_mem _ hother)
    obtain rfl | rfl := hvisits visit List.mem_cons_self
    · exact ih hrest (.inr (load_records h r))
    · exact ih hrest (.inl r.release_records)

/-- Loads from one source without a release leave all that it offers. -/
theorem replay_loads (h : source.loadable ≠ []) (r : Registry) {visits : List Visit}
    (hvisits : ∀ visit ∈ visits, visit = .load source)
    (hbefore : visits = [] → r.records = source.loadable) :
    (r.replay visits).records = source.loadable := by
  induction visits generalizing r with
  | nil => exact hbefore rfl
  | cons visit rest ih =>
    obtain rfl := hvisits visit List.mem_cons_self
    exact ih _ (fun other hother => hvisits other (List.mem_cons_of_mem _ hother))
      fun _ => load_records h r

end Provider.Registry

/-! ## How often the source is looked at -/

namespace Log.Effects

@[simp] theorem lists_append (first second : Effects) :
    (first ++ second).lists = first.lists + second.lists :=
  List.countP_append

@[simp] theorem reads_append (first second : Effects) :
    (first ++ second).reads = first.reads ++ second.reads :=
  List.filterMap_append

theorem lists_eq_zero_iff {es : Effects} : es.lists = 0 ↔ ∀ e ∈ es, e ≠ .listed := by
  rw [lists, List.countP_eq_zero]
  refine forall₂_congr fun e _ => ?_
  cases e <;> simp

theorem lists_load (r : Provider.Registry) (source : Provider.Source) :
    lists (r.load source).2.2 = 1 := by
  obtain ⟨told, heffects, htold⟩ := r.load_effects source
  have hquiet : lists told = 0 := by
    refine lists_eq_zero_iff.mpr ?_
    rintro e he rfl
    cases htold _ he
  rw [heffects, lists, List.countP_cons_of_pos rfl]
  exact congrArg Nat.succ hquiet

/-- Whoever does not list the source does not load. -/
theorem load_not_mem_visits_of_lists {es : Effects} (h : es.lists = 0)
    (source : Provider.Source) (source? : Option Provider.Source) :
    .load source ∉ es.visits source? := by
  rw [visits, List.mem_filterMap]
  rintro ⟨e, he, hvisit⟩
  cases e with
  | listed => exact lists_eq_zero_iff.mp h _ he rfl
  | read | hookRun => cases hvisit
  | event e => cases e <;> cases hvisit

theorem visits_ne_nil_of_lists {es : Effects} (h : es.lists ≠ 0) (source : Provider.Source) :
    es.visits (some source) ≠ [] := by
  intro hnone
  refine h (lists_eq_zero_iff.mpr ?_)
  rintro e he rfl
  cases List.filterMap_eq_nil_iff.mp hnone _ he

end Log.Effects

end LocationBroker
