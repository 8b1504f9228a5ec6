import LocationBroker.Host.Basic
import LocationBroker.Proofs.Broker.Availability
import LocationBroker.Proofs.Broker.FailedStart

/-! # What a start depends on

Whether a broker is started depends on its configuration alone (`start_eq_error_iff`), and whether
it is functional on three things that the bus can be asked (`functional_iff`).  A functional broker
has loaded its descriptors once; one that is not functional has not looked at their source
(`start_loads`).
-/

namespace LocationBroker.Broker.Service

variable {c : Config} {bus : Bus} {source : Provider.Source} {o : Outcome Unit}

theorem start_eq_error_iff {e : Error} :
    start c bus source = .error e ↔ ∃ fault, c.fault? = some fault ∧ e = .configuration fault := by
  cases hfault : c.fault? with
  | none =>
    obtain ⟨o, hstart⟩ := exists_start_of_valid hfault bus source
    simp [hstart]
  | some fault =>
    rw [start, ofConfig_eq_error_iff.mpr hfault]
    simp [eq_comm]

/-- Nothing is done for a configuration that cannot be used. -/
theorem startBroker_of_fault {fault : ConfigFault} (h : c.fault? = some fault) (host : Host)
    (fromDirectory : Bool) :
    host.startBroker c fromDirectory =
      (.error (.configuration fault), { host with brokers := host.brokers ++ [none] }, []) := by
  rw [Host.startBroker, start_eq_error_iff.mpr ⟨fault, h, rfl⟩]

theorem functional_iff (hproper : bus.Proper) (hstart : start c bus source = .ok o)
    {masterPath : Bus.ObjectPath} (hmaster : masterPath.text = c.masterPath) :
    o.service.isFunctional = true ↔
      bus.available = true ∧ bus.ownerOf c.serviceName = none ∧
        bus.exporterOf masterPath = none := by
  rw [start_functional_iff hproper hstart, Clear, Claimable, and_assoc]
  refine and_congr_right fun _ => and_congr_right fun _ => ⟨fun hfree => hfree _ hmaster, ?_⟩
  intro hfree path hpath
  rwa [Keyed.text_inj (a := path) (hpath.trans hmaster.symm)]

/-- The source is looked at for the first load and for nothing else. -/
theorem start_loads (h : start c bus source = .ok o) :
    let loaded := ({} : Provider.Registry).load source
    if o.service.isFunctional then
      o.service.providers = loaded.1 ∧ o.effects.lists = 1 ∧ o.effects.reads = loaded.2.2.reads
    else o.service.providers = {} ∧ o.effects.lists = 0 ∧ o.effects.reads = [] := by
  intro loaded
  have hlists := start_lists h
  obtain ⟨masterPath, base, -, -, s, rfl, hcases⟩ := start_cases h
  have hopened : ∀ {result after opened}, join c masterPath bus = (result, after, opened) →
      Log.Effects.reads opened = [] := by
    intro result after opened hjoin
    obtain rfl | ⟨peer, rfl⟩ := join_effects hjoin <;> rfl
  obtain ⟨e, opened, hjoin, hs, heffects⟩ | ⟨peer, opened, hjoin, hs, heffects⟩ := hcases
  · rw [hs] at hlists ⊢
    refine ⟨rfl, hlists, ?_⟩
    rw [heffects, Log.Effects.reads_append, hopened hjoin]
    rfl
  · rw [hs] at hlists ⊢
    refine ⟨rfl, hlists, ?_⟩
    rw [heffects, Log.Effects.reads_append, Log.Effects.reads_append, hopened hjoin]
    rfl

/-- A start fails exactly if the check of the configuration does, and for the same fault; the bus
and the source are as they were, and what the check lets through needs no other one.  After any
history of the bus, a broker that is started is functional exactly if the bus takes connections,
nobody owns the broker's name, and nobody exports an object at its path.  It has loaded its
descriptors, once, exactly if it is functional; otherwise nobody has looked at the source. -/
theorem startup_exact (available : Bool) (history : List Bus.Action) (c : Config)
    (source : Provider.Source) :
    let bus := Bus.run { available } history
    (∀ e, start c bus source = .error e ↔
      ∃ fault, c.fault? = some fault ∧ e = .configuration fault) ∧
    (∀ fault, c.fault? = some fault → ∀ (host : Host) (fromDirectory : Bool),
      host.startBroker c fromDirectory =
        (.error (.configuration fault), { host with brokers := host.brokers ++ [none] }, [])) ∧
    (c.fault? = none → ∃ masterPath base o,
      Bus.ObjectPath.parse c.masterPath = .ok masterPath ∧
      Bus.ObjectPath.parse c.sessionPathPrefix = .ok base ∧
      start c bus source = .ok o ∧
      (o.service.isFunctional = true ↔
        bus.available = true ∧ bus.ownerOf c.serviceName = none ∧
          bus.exporterOf masterPath = none) ∧
      let loaded := ({} : Provider.Registry).load source
      if o.service.isFunctional then
        o.service.providers = loaded.1 ∧ o.effects.lists = 1 ∧ o.effects.reads = loaded.2.2.reads
      else o.service.providers = {} ∧ o.effects.lists = 0 ∧ o.effects.reads = []) := by
  intro bus
  have hproper : bus.Proper := Bus.proper_run available history
  refine ⟨fun e => start_eq_error_iff, fun fault => startBroker_of_fault, fun hvalid => ?_⟩
  obtain ⟨masterPath, base, hmaster, hbase⟩ := paths_of_valid hvalid
  obtain ⟨o, hstart⟩ := exists_start_of_valid hvalid bus source
  exact ⟨masterPath, base, o, Bus.ObjectPath.parse_eq_ok_iff.mpr hmaster,
    Bus.ObjectPath.parse_eq_ok_iff.mpr hbase, hstart, functional_iff hproper hstart hmaster,
    start_loads hstart⟩

/-- A configuration whose sessions would have no object paths. -/
def pathless : Config := { Config.standard with sessionPathPrefix := "client" }

set_option maxRecDepth 8000 in
/-- `pathless` is refused wherever it is tried.  The standard configuration is started: on a fresh
bus it loads the descriptor, and on the bus of `squatted` it does not look for it. -/
theorem startup_exact_squatted :
    let fault := ConfigFault.sessionPathPrefix "client"
    pathless.fault? = some fault ∧
      start pathless (Bus.run {} squatted) described = .error (.configuration fault) ∧
      (∀ host : Host, (host.startBroker pathless true).2.1.bus = host.bus ∧
        (host.startBroker pathless false).2.1.shared = host.shared) ∧
      Config.standard.fault? = none ∧
      (∃ o, start .standard {} described = .ok o ∧ o.service.isFunctional = true ∧
        o.service.providers = (({} : Provider.Registry).load described).1 ∧
        o.effects.reads = ["a"]) ∧
      ∃ o, start .standard (Bus.run {} squatted) described = .ok o ∧
        o.service.isFunctional = false ∧ o.service.providers = {} ∧ o.effects.lists = 0 := by
  intro fault
  have hfault : pathless.fault? = some fault := by rfl
  have hvalid : Config.standard.fault? = none := by decide
  obtain ⟨herror, hhost, -⟩ := startup_exact true squatted pathless described
  obtain ⟨-, -, hfresh⟩ := startup_exact true [] .standard described
  obtain ⟨-, -, hsquatted⟩ := startup_exact true squatted .standard described
  refine ⟨hfault, (herror _).mpr ⟨fault, hfault, rfl⟩, fun host => ?_, hvalid, ?_, ?_⟩
  · rw [hhost fault hfault host true, hhost fault hfault host false]
    exact ⟨rfl, rfl⟩
  · obtain ⟨masterPath, base, o, -, -, hstart, hfunctional, hloads⟩ := hfresh hvalid
    have hyes : o.service.isFunctional = true := hfunctional.mpr ⟨rfl, rfl, rfl⟩
    rw [if_pos hyes] at hloads
    obtain ⟨hproviders, -, hreads⟩ := hloads
    exact ⟨o, hstart, hyes, hproviders, hreads.trans (by decide +kernel)⟩
  · obtain ⟨masterPath, base, o, hmaster, -, hstart, hfunctional, hloads⟩ := hsquatted hvalid
    -- The path of the broker's object is the one that is taken.
    have hno : ¬ o.service.isFunctional = true := by
      rw [hfunctional, Keyed.text_inj (a := masterPath) (b := standardObject)
        (Bus.ObjectPath.parse_eq_ok_iff.mp hmaster)]
      decide
    rw [if_neg hno] at hloads
    obtain ⟨hproviders, hlists, -⟩ := hloads
    exact ⟨o, hstart, Bool.eq_false_iff.mpr hno, hproviders, hlists⟩

end LocationBroker.Broker.Service
