import LocationBroker.Proofs.Bus.Action

/-! # Withdrawing several objects

A peer that withdraws its objects one after the other is left with those at other paths.  A path at
which it exports nothing changes nothing, and once the peer is gone no path does, so neither the
order of the paths nor their repetition matters: `withdrawn` is one filter, and
`withdrawn_withdrawn` says that two of them are one.
-/

namespace LocationBroker.Bus

variable {bus : Bus} {peer : String} {peer? : Option String} {paths others : List ObjectPath}

/-- The bus when somebody, who may have left it, has withdrawn what it exports at some paths. -/
def withdrawn (bus : Bus) (peer? : Option String) (paths : List ObjectPath) : Bus :=
  { bus with objects := bus.objects.filter fun path exporter =>
      !(decide (peer? = some exporter ∧ path ∈ paths) && bus.isConnected exporter) }

theorem withdrawn_congr (h : ∀ path, path ∈ paths ↔ path ∈ others) :
    bus.withdrawn peer? paths = bus.withdrawn peer? others := by
  simp only [withdrawn, h]

/-- Where the peer exports nothing, or cannot withdraw anything, the bus stays as it is. -/
theorem withdrawn_eq_self (h : ∀ path ∈ paths, ∀ exporter, peer? = some exporter →
      bus.isConnected exporter = true → bus.exporterOf path ≠ some exporter) :
    bus.withdrawn peer? paths = bus := by
  refine congrArg (fun objects => ({ bus with objects } : Bus)) ?_
  refine Ledger.filter_eq_self (l := bus.objects) fun path exporter hexported => ?_
  rw [Bool.not_eq_true', Bool.and_eq_false_imp, decide_eq_true_iff]
  rintro ⟨hpeer, hpath⟩
  exact Bool.eq_false_iff.mpr fun hconnected => h path hpath exporter hpeer hconnected hexported

@[simp] theorem withdrawn_nil (bus : Bus) (peer? : Option String) :
    bus.withdrawn peer? [] = bus :=
  withdrawn_eq_self fun _ hpath => absurd hpath List.not_mem_nil

/-- Who is not on the bus withdraws nothing. -/
theorem withdrawn_of_absent (h : ∀ peer, peer? = some peer → bus.isConnected peer = false)
    (paths : List ObjectPath) : bus.withdrawn peer? paths = bus := by
  refine withdrawn_eq_self fun path _ exporter hpeer hconnected => ?_
  rw [h exporter hpeer] at hconnected
  cases hconnected

/-- If the peer exports the objects at all the paths, all of them go. -/
theorem withdrawn_of_exported (hconnected : bus.isConnected peer = true)
    (hexported : ∀ path ∈ paths, bus.exporterOf path = some peer) :
    bus.withdrawn (some peer) paths =
      { bus with objects := bus.objects.filter fun path _ => path ∉ paths } := by
  refine congrArg (fun objects => ({ bus with objects } : Bus)) ?_
  refine Ledger.filter_congr (l := bus.objects) fun path exporter hexporter => ?_
  by_cases hpath : path ∈ paths
  · have hpeer : exporter = peer := Option.some.inj (hexporter.symm.trans (hexported path hpath))
    simp [hpath, hpeer, hconnected]
  · simp [hpath]

/-- Withdrawing some objects and then others is withdrawing all of them. -/
theorem withdrawn_withdrawn (bus : Bus) (peer? : Option String) (paths others : List ObjectPath) :
    (bus.withdrawn peer? paths).withdrawn peer? others = bus.withdrawn peer? (paths ++ others) := by
  refine congrArg (fun objects => ({ bus with objects } : Bus)) ?_
  simp only [withdrawn, Ledger.filter_filter]
  refine Ledger.filter_congr (l := bus.objects) fun path exporter _ => ?_
  simp only [isConnected, List.mem_append]
  by_cases hpath : path ∈ paths <;> by_cases hother : path ∈ others <;> simp [hpath, hother]

theorem step_unregisterObject (bus : Bus) (peer : String) (path : ObjectPath) :
    bus.step (.unregisterObject peer path) = bus.withdrawn (some peer) [path] := by
  by_cases h : bus.isConnected peer = true ∧ bus.exporterOf path = some peer
  · obtain ⟨hconnected, hexported⟩ := h
    have hok : bus.attempt (.unregisterObject peer path) =
        .ok { bus with objects := bus.objects.erase path } :=
      unregisterObject_eq_ok_iff.mpr ⟨hconnected, hexported, rfl⟩
    rw [step_of_ok hok, withdrawn_of_exported hconnected (by simpa using hexported)]
    simp only [Ledger.erase, List.mem_singleton]
  · -- What is refused is not there to be withdrawn.
    have hnothing : bus.withdrawn (some peer) [path] = bus := by
      refine withdrawn_eq_self fun other hother exporter hpeer hconnected hexported => ?_
      cases hpeer
      rw [List.mem_singleton.mp hother] at hexported
      exact h ⟨hconnected, hexported⟩
    obtain hsame | ⟨_, -, hchange⟩ := bus.step_cases (.unregisterObject peer path)
    · rw [hsame, hnothing]
    · cases hchange with
      | unregisterObject hconnected hexported => exact absurd ⟨hconnected, hexported⟩ h

end LocationBroker.Bus
