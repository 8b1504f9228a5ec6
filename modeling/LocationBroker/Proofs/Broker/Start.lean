import LocationBroker.Proofs.Broker.Exports

/-! # Starting a broker

A broker that starts does to the bus what a new connection can do: it joins, and goes through
`joining` until something fails.  If nothing fails it is functional, and it exports its own object
alone (`start_agrees`); whether it is functional or not, it starts without sessions.
-/

namespace LocationBroker.Broker.Service

/-- What a broker does on the bus once its connection is open. -/
def joining (c : Config) (masterPath : Bus.ObjectPath) (peer : String) : List Bus.Action :=
  [.requestName peer c.serviceName, .addMatch peer Presence.rule, .registerObject peer masterPath]

/-- Doing one thing after the other is a history of the bus, up to the first failure. -/
theorem inTurn_history (bus : Bus) (actions : List Bus.Action) :
    ∃ done : List Bus.Action, done <+: actions ∧
      (inTurn bus (actions.map fun action b => b.attempt action)).2 = bus.run done ∧
      ((inTurn bus (actions.map fun action b => b.attempt action)).1 = none → done = actions) := by
  induction actions generalizing bus with
  | nil => exact ⟨[], List.prefix_rfl, rfl, fun _ => rfl⟩
  | cons action rest ih =>
    rw [List.map_cons, inTurn]
    cases h : bus.attempt action with
    | error e => exact ⟨[], List.nil_prefix, rfl, fun h => by cases h⟩
    | ok after =>
      obtain ⟨done, hprefix, hbus, hall⟩ := ih after
      refine ⟨action :: done, List.cons_prefix_cons.mpr ⟨rfl, hprefix⟩, ?_, fun hnone => ?_⟩
      · rw [Bus.run, List.foldl_cons, Bus.step_of_ok h]
        exact hbus
      · rw [hall hnone]

theorem inTurn_ok {bus after : Bus} {act : Bus → Except Bus.Error Bus}
    {rest : List (Bus → Except Bus.Error Bus)} (h : inTurn bus (act :: rest) = (none, after)) :
    ∃ next, act bus = .ok next ∧ inTurn next rest = (none, after) := by
  rw [inTurn] at h
  split at h
  · exact ⟨_, ‹_›, h⟩
  · cases h

theorem join_eq (c : Config) (masterPath : Bus.ObjectPath) (bus : Bus) :
    join c masterPath bus =
      match bus.connect c.bus with
      | .error e => (.error e, bus, [])
      | .ok (peer, joined) =>
        match inTurn joined ((joining c masterPath peer).map fun action b => b.attempt action) with
        | (some e, after) => (.error e, after, [.event (.connectionOpened peer c.bus)])
        | (none, after) => (.ok peer, after, [.event (.connectionOpened peer c.bus)]) := rfl

/-- Joining tells of the connection that it opens, and of nothing else. -/
theorem join_effects {c : Config} {masterPath : Bus.ObjectPath} {bus after : Bus}
    {result : Except Bus.Error String} {opened : Log.Effects}
    (h : join c masterPath bus = (result, after, opened)) :
    opened = [] ∨ ∃ peer, opened = [.event (.connectionOpened peer c.bus)] := by
  rw [join_eq] at h
  split at h
  · cases h
    exact .inl rfl
  · split at h <;> cases h <;> exact .inr ⟨_, rfl⟩

/-- What joining does is a history of the bus, also when it fails on the way. -/
theorem join_history (c : Config) (masterPath : Bus.ObjectPath) (bus : Bus) :
    ∃ done, done <+: joining c masterPath (Bus.uniqueName bus.nextSerial) ∧
      (join c masterPath bus).2.1 = bus.run (.connect c.bus :: done) := by
  rw [join_eq]
  cases hconnect : bus.connect c.bus with
  | error e =>
    have hstep : bus.step (.connect c.bus) = bus :=
      Bus.step_of_error (by rw [Bus.attempt, hconnect]; rfl)
    exact ⟨[], List.nil_prefix, hstep.symm⟩
  | ok joined =>
    obtain ⟨peer, next⟩ := joined
    have hstep : bus.step (.connect c.bus) = next :=
      Bus.step_of_ok (by rw [Bus.attempt, hconnect]; rfl)
    obtain ⟨-, rfl, -⟩ := Bus.connect_eq_ok_iff.mp hconnect
    obtain ⟨done, hprefix, hbus, -⟩ :=
      inTurn_history next (joining c masterPath (Bus.uniqueName bus.nextSerial))
    refine ⟨done, hprefix, ?_⟩
    rw [Bus.run, List.foldl_cons, hstep]
    dsimp only
    split
    · rename_i hturn
      rw [hturn] at hbus
      exact hbus
    · rename_i hturn
      rw [hturn] at hbus
      exact hbus

/-- A broker that joins the bus goes all the way. -/
theorem join_ok {c : Config} {masterPath : Bus.ObjectPath} {bus after : Bus} {peer : String}
    {opened : Log.Effects} (h : join c masterPath bus = (.ok peer, after, opened)) :
    peer = Bus.uniqueName bus.nextSerial ∧
      after = bus.run (.connect c.bus :: joining c masterPath peer) ∧
      ∃ claimed subscribed, bus.addPeer.2.requestName peer c.serviceName = .ok claimed ∧
        claimed.addMatch peer Presence.rule = .ok subscribed ∧
        subscribed.registerObject peer masterPath = .ok after := by
  rw [join_eq] at h
  split at h
  · cases h
  · rename_i other joined hconnect
    split at h
    · cases h
    · rename_i final hturn
      cases h
      have hstep : bus.step (.connect c.bus) = joined :=
        Bus.step_of_ok (by rw [Bus.attempt, hconnect]; rfl)
      obtain ⟨-, hpeer, rfl⟩ := Bus.connect_eq_ok_iff.mp hconnect
      refine ⟨hpeer, ?_, ?_⟩
      · obtain ⟨done, -, hbus, hall⟩ := inTurn_history bus.addPeer.2 (joining c masterPath peer)
        rw [hturn] at hbus hall
        rw [Bus.run, List.foldl_cons, hstep, ← hall rfl]
        exact hbus
      · obtain ⟨claimed, hclaim, hturn⟩ := inTurn_ok hturn
        obtain ⟨subscribed, hsubscribe, hturn⟩ := inTurn_ok hturn
        obtain ⟨exported, hexport, hturn⟩ := inTurn_ok hturn
        cases hturn
        exact ⟨claimed, subscribed, hclaim, hsubscribe, hexport⟩

/-! ## The start -/

theorem ofConfig_eq_ok_iff {c : Config} {s : Service} :
    ofConfig c = .ok s ↔ c.fault? = none ∧ ∃ masterPath base,
      masterPath.text = c.masterPath ∧ base.text = c.sessionPathPrefix ∧
        s = { config := c, masterPath, sessions := { base } } := by
  rw [ofConfig]
  cases hfault : c.fault? with
  | some fault => simp
  | none =>
    dsimp only
    constructor
    · intro h
      split at h
      · rename_i masterPath base hmaster hbase
        cases h
        exact ⟨rfl, masterPath, base, Bus.ObjectPath.parse_eq_ok_iff.mp hmaster,
          Bus.ObjectPath.parse_eq_ok_iff.mp hbase, rfl⟩
      · cases h
      · cases h
    · rintro ⟨-, masterPath, base, hmaster, hbase, rfl⟩
      rw [Bus.ObjectPath.parse_eq_ok_iff.mpr hmaster, Bus.ObjectPath.parse_eq_ok_iff.mpr hbase]

/-- A configuration that can be used states two object paths. -/
theorem paths_of_valid {c : Config} (h : c.fault? = none) :
    ∃ masterPath base : Bus.ObjectPath,
      masterPath.text = c.masterPath ∧ base.text = c.sessionPathPrefix := by
  have hpaths : Bus.ObjectPath.isValid c.masterPath = true ∧
      Bus.ObjectPath.isValid c.sessionPathPrefix = true := by
    rw [Config.fault?] at h
    grind
  exact ⟨⟨_, hpaths.1⟩, ⟨_, hpaths.2⟩, rfl, rfl⟩

/-- Nothing but the check of the configuration refuses it. -/
theorem ofConfig_eq_error_iff {c : Config} {fault : ConfigFault} :
    ofConfig c = .error fault ↔ c.fault? = some fault := by
  cases hfault : c.fault? with
  | some other => simp [ofConfig, hfault]
  | none =>
    obtain ⟨masterPath, base, hmaster, hbase⟩ := paths_of_valid hfault
    rw [ofConfig_eq_ok_iff.mpr ⟨hfault, masterPath, base, hmaster, hbase, rfl⟩]
    simp

/-- A broker that starts either joins the bus and loads its descriptors, or does neither. -/
theorem start_cases {c : Config} {bus : Bus} {source : Provider.Source} {o : Outcome Unit}
    (h : start c bus source = .ok o) :
    ∃ masterPath base, masterPath.text = c.masterPath ∧ base.text = c.sessionPathPrefix ∧
      ∃ s : Service, s = { config := c, masterPath, sessions := { base } } ∧
      ((∃ e opened, join c masterPath bus = (.error e, o.bus, opened) ∧ o.service = s ∧
          o.effects = opened ++ [.event (.brokerNotJoined c.bus (.bus e))]) ∨
        ∃ peer opened, join c masterPath bus = (.ok peer, o.bus, opened) ∧
          o.service = ({ s with connection := some peer }.reload source).1 ∧
          o.effects = opened ++ [.event (.brokerJoined c.bus peer c.serviceName)]
            ++ ({ s with connection := some peer }.reload source).2.2) := by
  rw [start] at h
  split at h
  · cases h
  · rename_i s hconfig
    obtain ⟨-, masterPath, base, hmaster, hbase, rfl⟩ := ofConfig_eq_ok_iff.mp hconfig
    refine ⟨masterPath, base, hmaster, hbase, _, rfl, ?_⟩
    split at h
    · rename_i e after opened hjoin
      cases h
      exact .inl ⟨e, opened, hjoin, rfl, rfl⟩
    · rename_i peer after opened hjoin
      cases h
      exact .inr ⟨peer, opened, hjoin, rfl, rfl⟩

/-- A start is known by what can be computed of it. -/
theorem exists_start (c : Config) (bus : Bus) (source : Provider.Source) (P : Outcome Unit → Prop)
    [DecidablePred P]
    (h : (match start c bus source with
      | .ok o => decide (P o)
      | .error _ => false) = true) : ∃ o, start c bus source = .ok o ∧ P o := by
  cases hstart : start c bus source with
  | error e =>
    rw [hstart] at h
    cases h
  | ok o =>
    rw [hstart] at h
    exact ⟨o, rfl, of_decide_eq_true h⟩

section Started

variable {c : Config} {bus : Bus} {source : Provider.Source} {o : Outcome Unit}

theorem start_sessions (h : start c bus source = .ok o) :
    o.service.config = c ∧ ∃ base, o.service.sessions = { base } := by
  obtain ⟨masterPath, base, -, -, s, rfl, ⟨_, _, _, hs, _⟩ | ⟨_, _, _, hs, _⟩⟩ := start_cases h
  · rw [hs]
    exact ⟨rfl, base, rfl⟩
  · rw [hs]
    exact ⟨rfl, base, rfl⟩

theorem start_paths (h : start c bus source = .ok o) :
    o.service.masterPath.text = c.masterPath ∧
      o.service.sessions.base.text = c.sessionPathPrefix := by
  obtain ⟨masterPath, base, hmaster, hbase, s, rfl, ⟨_, _, _, hs, _⟩ | ⟨_, _, _, hs, _⟩⟩ :=
    start_cases h
  · rw [hs]
    exact ⟨hmaster, hbase⟩
  · rw [hs]
    exact ⟨hmaster, hbase⟩

theorem start_numbered (h : start c bus source = .ok o) : o.service.sessions.Numbered := by
  obtain ⟨-, base, hsessions⟩ := start_sessions h
  rw [hsessions]
  exact .empty base

/-- What a start does to the bus is a history of a connection that is opened for it. -/
theorem start_history (h : start c bus source = .ok o) :
    ∃ history : List Bus.Action, o.bus = bus.run history ∧
      ∀ action ∈ history,
        action.actor? = none ∨ action.actor? = some (Bus.uniqueName bus.nextSerial) := by
  obtain ⟨masterPath, base, -, -, s, -, hcases⟩ := start_cases h
  have hbus : o.bus = (join c masterPath bus).2.1 := by
    obtain ⟨_, _, hjoin, _⟩ | ⟨_, _, hjoin, _⟩ := hcases <;> rw [hjoin]
  obtain ⟨done, hprefix, hrun⟩ := join_history c masterPath bus
  refine ⟨_, hbus.trans hrun, fun action haction => ?_⟩
  obtain rfl | haction := List.mem_cons.mp haction
  · exact .inl rfl
  · have hjoining := hprefix.subset haction
    simp only [joining, List.mem_cons, List.not_mem_nil, or_false] at hjoining
    obtain rfl | rfl | rfl := hjoining <;> exact .inr rfl

/-- A functional broker has the connection that was opened for it, and has gone all the way. -/
theorem start_functional {peer : String} (h : start c bus source = .ok o)
    (hpeer : o.service.connection = some peer) :
    ∃ opened, join c o.service.masterPath bus = (.ok peer, o.bus, opened) := by
  obtain ⟨masterPath, base, -, -, s, rfl, ⟨_, _, _, hs, _⟩ | ⟨other, opened, hjoin, hs, _⟩⟩ :=
    start_cases h
  · rw [hs] at hpeer
    cases hpeer
  · rw [hs] at hpeer ⊢
    obtain rfl : other = peer := Option.some.inj hpeer
    exact ⟨opened, hjoin⟩

theorem start_connected {peer : String} (h : start c bus source = .ok o)
    (hpeer : o.service.connection = some peer) :
    peer = Bus.uniqueName bus.nextSerial ∧ o.bus.isConnected peer = true := by
  obtain ⟨opened, hjoin⟩ := start_functional h hpeer
  obtain ⟨hname, -, claimed, subscribed, -, -, hexport⟩ := join_ok hjoin
  obtain ⟨hconnected, -, hafter⟩ := Bus.registerObject_eq_ok_iff.mp hexport
  rw [hafter]
  exact ⟨hname, hconnected⟩

/-- A functional broker starts with its own object as its only export. -/
theorem start_agrees (h : start c bus source = .ok o) (hbus : bus.Proper) :
    o.service.Agrees o.bus := by
  intro peer hpeer hconnected
  obtain ⟨opened, hjoin⟩ := start_functional h hpeer
  obtain ⟨rfl, -, claimed, subscribed, hclaim, hsubscribe, hexport⟩ := join_ok hjoin
  obtain ⟨-, base, hsessions⟩ := start_sessions h
  have hpaths : o.service.sessions.paths = [] := by rw [hsessions]; rfl
  rw [hpaths]
  refine ⟨List.not_mem_nil, fun path => ?_⟩
  have hclaimed : claimed.objects = bus.objects := by
    obtain ⟨-, ⟨-, rfl⟩ | ⟨-, rfl⟩⟩ := Bus.requestName_eq_ok_iff.mp hclaim <;> rfl
  have hsubscribed : subscribed.objects = bus.objects := by
    obtain ⟨-, rfl⟩ := Bus.addMatch_eq_ok_iff.mp hsubscribe
    exact hclaimed
  obtain ⟨-, -, hafter⟩ := Bus.registerObject_eq_ok_iff.mp hexport
  -- Nobody exported anything under the unique name before it was handed out.
  have hnew : bus.exporterOf path ≠ some (Bus.uniqueName bus.nextSerial) := fun hpath =>
    bus.not_handedOut_next (hbus.handedOut (hbus.exporters hpath))
  rw [Bus.exporterOf] at hnew
  rw [hafter, Bus.exporterOf, Ledger.get?_insert, hsubscribed]
  by_cases hmaster : o.service.masterPath = path
  · simp [hmaster]
  · simpa [hmaster, Ne.symm hmaster] using hnew

end Started

end LocationBroker.Broker.Service
