import LocationBroker.Provider.Registry
import Mathlib.Order.BoundedOrder.Basic
import Mathlib.Order.Lattice

/-! # Selection by constraints

Constraints are ordered by what they ask for: `c ≤ d` if `c` asks for at least as much as `d` in
each of its parts.  In this order `Constraints.meet` is the greatest lower bound and
`Constraints.any` the top, and a record satisfies what is above the tightest constraints that it
satisfies (`satisfies_iff`).  So selection takes meets to intersections, and tighter constraints
select less (`filter_meet_any_mono`).
-/

namespace LocationBroker.Provider

/-! ## The parts of constraints -/

namespace Choice

variable {ι : Type} [Vocabulary ι] {a b c : Choice ι}

theorem subset_refl (a : Choice ι) : a.subset a = true :=
  subset_iff.mpr fun _ hi => hi

theorem subset_trans (h : a.subset b = true) (h' : b.subset c = true) : a.subset c = true :=
  subset_iff.mpr fun i hi => subset_iff.mp h' i (subset_iff.mp h i hi)

theorem subset_antisymm (h : a.subset b = true) (h' : b.subset a = true) : a = b := by
  refine Choice.ext fun i => Bool.eq_iff_iff.mpr ?_
  exact ⟨subset_iff.mp h i, subset_iff.mp h' i⟩

theorem union_subset_iff :
    (a.union b).subset c = true ↔ a.subset c = true ∧ b.subset c = true := by
  simp only [subset_iff, union, Bool.or_eq_true, or_imp, forall_and]

theorem subset_inter_iff :
    a.subset (b.inter c) = true ↔ a.subset b = true ∧ a.subset c = true := by
  simp only [subset_iff, inter, Bool.and_eq_true, imp_and, forall_and]

end Choice

namespace Accuracy

theorem atLeast_iff {a minimum : Accuracy} : a.atLeast minimum = true ↔ minimum.rank ≤ a.rank :=
  decide_eq_true_iff

theorem rank_max (a b : Accuracy) : (a.max b).rank = Nat.max a.rank b.rank := by
  rw [Accuracy.max]
  split
  · exact (Nat.max_eq_left (atLeast_iff.mp ‹_›)).symm
  · rename_i hless
    rw [atLeast_iff] at hless
    exact (Nat.max_eq_right (by omega)).symm

theorem rank_injective {a b : Accuracy} (h : a.rank = b.rank) : a = b := by
  cases a <;> cases b <;> first | rfl | cases h

end Accuracy

/-! ## Constraints by what they ask for -/

namespace Constraints

variable {c d e : Constraints}

/-- The first constraints ask for at least as much as the second ones, in each part. -/
structure AsksAtLeast (c d : Constraints) : Prop where
  interfaces : d.interfaces.subset c.interfaces = true
  minAccuracy : d.minAccuracy.rank ≤ c.minAccuracy.rank
  requireUpdates : d.requireUpdates = true → c.requireUpdates = true
  allowedResources : c.allowedResources.subset d.allowedResources = true

theorem AsksAtLeast.refl (c : Constraints) : c.AsksAtLeast c where
  interfaces := Choice.subset_refl _
  minAccuracy := Nat.le_refl _
  requireUpdates h := h
  allowedResources := Choice.subset_refl _

theorem AsksAtLeast.trans (h : c.AsksAtLeast d) (h' : d.AsksAtLeast e) : c.AsksAtLeast e where
  interfaces := Choice.subset_trans h'.interfaces h.interfaces
  minAccuracy := Nat.le_trans h'.minAccuracy h.minAccuracy
  requireUpdates hi := h.requireUpdates (h'.requireUpdates hi)
  allowedResources := Choice.subset_trans h.allowedResources h'.allowedResources

theorem AsksAtLeast.antisymm (h : c.AsksAtLeast d) (h' : d.AsksAtLeast c) : c = d := by
  have hinterfaces := Choice.subset_antisymm h'.interfaces h.interfaces
  have haccuracy := Accuracy.rank_injective (Nat.le_antisymm h'.minAccuracy h.minAccuracy)
  have hupdates : c.requireUpdates = d.requireUpdates :=
    Bool.eq_iff_iff.mpr ⟨h'.requireUpdates, h.requireUpdates⟩
  have hresources := Choice.subset_antisymm h.allowedResources h'.allowedResources
  cases c
  cases d
  cases hinterfaces
  cases haccuracy
  cases hupdates
  cases hresources
  rfl

theorem meet_asksAtLeast_left (c d : Constraints) : (c.meet d).AsksAtLeast c where
  interfaces := (Choice.union_subset_iff.mp (Choice.subset_refl _)).1
  minAccuracy := (Accuracy.rank_max _ _).symm ▸ Nat.le_max_left _ _
  requireUpdates h := by simp [meet, h]
  allowedResources := (Choice.subset_inter_iff.mp (Choice.subset_refl _)).1

theorem meet_asksAtLeast_right (c d : Constraints) : (c.meet d).AsksAtLeast d where
  interfaces := (Choice.union_subset_iff.mp (Choice.subset_refl _)).2
  minAccuracy := (Accuracy.rank_max _ _).symm ▸ Nat.le_max_right _ _
  requireUpdates h := by simp [meet, h]
  allowedResources := (Choice.subset_inter_iff.mp (Choice.subset_refl _)).2

theorem AsksAtLeast.meet (h : e.AsksAtLeast c) (h' : e.AsksAtLeast d) :
    e.AsksAtLeast (c.meet d) where
  interfaces := Choice.union_subset_iff.mpr ⟨h.interfaces, h'.interfaces⟩
  minAccuracy := (Accuracy.rank_max _ _).symm ▸ Nat.max_le.mpr ⟨h.minAccuracy, h'.minAccuracy⟩
  requireUpdates hi := (Bool.or_eq_true _ _ ▸ hi).elim h.requireUpdates h'.requireUpdates
  allowedResources := Choice.subset_inter_iff.mpr ⟨h.allowedResources, h'.allowedResources⟩

instance : SemilatticeInf Constraints where
  le := AsksAtLeast
  inf := meet
  le_refl := .refl
  le_trans _ _ _ := .trans
  le_antisymm _ _ := AsksAtLeast.antisymm
  inf_le_left := meet_asksAtLeast_left
  inf_le_right := meet_asksAtLeast_right
  le_inf _ _ _ := .meet

/-- Nothing asks for less than constraints that accept every provider. -/
instance : OrderTop Constraints where
  top := any
  le_top _ := {
    interfaces := Choice.subset_iff.mpr nofun
    minAccuracy := Nat.zero_le _
    requireUpdates := nofun
    allowedResources := Choice.subset_iff.mpr fun _ _ => rfl }

end Constraints

/-! ## Records -/

namespace Record

variable {r : Record} {c : Constraints}

/-- The constraints that ask for all that the record has, and allow no more than it needs. -/
def tightest (r : Record) : Constraints where
  interfaces := r.interfaces
  minAccuracy := r.accuracy
  requireUpdates := r.canUpdate
  allowedResources := r.requires

/-- A record satisfies what asks for no more than the record has. -/
theorem satisfies_iff : r.satisfies c = true ↔ r.tightest ≤ c := by
  rw [satisfies, Bool.and_eq_true, Bool.and_eq_true, Bool.and_eq_true, Accuracy.atLeast_iff]
  constructor
  · rintro ⟨⟨⟨hinterfaces, haccuracy⟩, hupdates⟩, hresources⟩
    refine ⟨hinterfaces, haccuracy, fun hrequired => ?_, hresources⟩
    rw [hrequired] at hupdates
    exact hupdates
  · rintro ⟨hinterfaces, haccuracy, hupdates, hresources⟩
    refine ⟨⟨⟨hinterfaces, haccuracy⟩, ?_⟩, hresources⟩
    cases hrequired : c.requireUpdates with
    | false => rfl
    | true => exact hupdates hrequired

theorem satisfies_meet (r : Record) (c d : Constraints) :
    r.satisfies (c.meet d) = (r.satisfies c && r.satisfies d) := by
  rw [Bool.eq_iff_iff, Bool.and_eq_true, satisfies_iff, satisfies_iff, satisfies_iff]
  exact le_inf_iff

theorem satisfies_any (r : Record) : r.satisfies .any = true :=
  satisfies_iff.mpr le_top

end Record

/-! ## Registries -/

namespace Registry

theorem mem_filter {r : Registry} {c : Constraints} {record : Record} :
    record ∈ r.filter c ↔ record ∈ r.records ∧ record.satisfies c = true :=
  List.mem_filter

theorem filter_meet (r : Registry) (c d : Constraints) :
    r.filter (c.meet d) = (r.filter d).filter (·.satisfies c) := by
  rw [filter, filter, List.filter_filter]
  exact List.filter_congr fun record _ => record.satisfies_meet c d

/-- Tighter constraints select again from what was selected. -/
theorem filter_of_le (r : Registry) {c d : Constraints} (h : c ≤ d) :
    r.filter c = (r.filter d).filter (·.satisfies c) := by
  have hmeet : c.meet d = c := inf_eq_left.mpr h
  rw [← filter_meet, hmeet]

open scoped Classical in
/-- For two constraints together those records are selected, in the order of the registry, that are
selected for both of them.  Constraints that ask for nothing select every record, and constraints
that ask for at least as much as others in each part select nothing that these do not select, and
leave what they select in its order and as often as it is there. -/
theorem filter_meet_any_mono (r : Registry) :
    (∀ c d : Constraints, r.filter (c.meet d) =
      r.records.filter fun record => record ∈ r.filter c ∧ record ∈ r.filter d) ∧
    r.filter .any = r.records ∧
    ∀ c d : Constraints, c.AsksAtLeast d →
      (r.filter c).Sublist (r.filter d) ∧
        ∀ record ∈ r.filter c, (r.filter c).count record = (r.filter d).count record := by
  refine ⟨fun c d => ?_, ?_, fun c d h => ?_⟩
  · refine List.filter_congr fun record hrecord => ?_
    rw [Record.satisfies_meet, Bool.eq_iff_iff, Bool.and_eq_true, decide_eq_true_iff, mem_filter,
      mem_filter, and_iff_right hrecord, and_iff_right hrecord]
  · exact List.filter_eq_self.mpr fun record _ => record.satisfies_any
  · have hagain := r.filter_of_le (show c ≤ d from h)
    refine ⟨hagain ▸ List.filter_sublist, fun record hrecord => ?_⟩
    rw [hagain]
    exact List.count_filter (mem_filter.mp hrecord).2

/-- A provider that looks up where an address is. -/
def hostip : Record where
  id := "hostip"
  name := "Hostip"
  service := "a.Hostip"
  path := .root
  accuracy := .locality
  interfaces := .ofList [.position, .address]
  provides := .ofList [.cacheable]
  requires := .ofList [.network]

/-- A provider that announces where it is. -/
def receiver : Record where
  id := "receiver"
  name := "Receiver"
  service := "a.Receiver"
  path := .root
  accuracy := .detailed
  interfaces := .ofList [.position, .velocity]
  provides := .ofList [.updates]
  requires := .ofList [.gps]

/-- Of three records, two of which are the same, all are good enough for a town without the cell
network, and only the receiver is good enough for a street. -/
theorem filter_meet_any_mono_street :
    let r : Registry := { records := [hostip, receiver, hostip] }
    let town : Constraints :=
      { minAccuracy := .locality, allowedResources := .ofList [.network, .gps] }
    let street : Constraints := { town with minAccuracy := .street }
    street.AsksAtLeast town ∧ (r.filter town).map (·.id) = ["hostip", "receiver", "hostip"] ∧
      (r.filter street).map (·.id) = ["receiver"] ∧ (r.filter street).Sublist (r.filter town) ∧
      r.filter .any = r.records := by
  intro r town street
  obtain ⟨-, hany, hmono⟩ := filter_meet_any_mono r
  have hasks : street.AsksAtLeast town := ⟨by decide, by decide, id, by decide⟩
  exact ⟨hasks, by decide, by decide, (hmono street town hasks).1, hany⟩

end Registry

end LocationBroker.Provider
