import LocationBroker.Proofs.Broker.Start

/-! # Starts that fail

A broker joins the bus step by step, and what it has done before a step fails stays done.  A start
that fails at the first two steps leaves the names, the objects and the subscriptions as they are.
A start that fails because somebody exports the broker's object comes too late for that: its
connection has claimed the name by then and has subscribed, and it is still connected.  Nobody holds
that connection any more, so the name is taken for as long as nobody removes the peer.

`failed_start_traceless_iff` says so for every bus and every configuration that can be used.
-/

namespace LocationBroker.Broker.Service

/-- The bus takes connections, and nobody owns the broker's name. -/
def Claimable (c : Config) (bus : Bus) : Prop :=
  bus.available = true ∧ bus.ownerOf c.serviceName = none

/-- Nothing keeps a broker of the configuration from joining the bus. -/
def Clear (c : Config) (bus : Bus) : Prop :=
  Claimable c bus ∧ ∀ path, path.text = c.masterPath → bus.exporterOf path = none

/-- The bus once a new connection has claimed the broker's name and has subscribed. -/
def claimed (c : Config) (bus : Bus) : Bus :=
  { bus.addPeer.2 with
    names := bus.names.insert c.serviceName (Bus.uniqueName bus.nextSerial)
    rules := bus.rules ++ [(Bus.uniqueName bus.nextSerial, Presence.rule)] }

variable {c : Config} {bus : Bus} {source : Provider.Source} {o : Outcome Unit}

/-! ## The steps of joining -/

theorem join_of_unavailable (masterPath : Bus.ObjectPath) (h : bus.available = false) :
    ∃ e, join c masterPath bus = (.error e, bus, []) := by
  rw [join_eq, Bus.connect, if_neg (by simp [h])]
  exact ⟨_, rfl⟩

theorem join_of_available (masterPath : Bus.ObjectPath) (h : bus.available = true) :
    ∃ opened, join c masterPath bus =
      match inTurn bus.addPeer.2 ((joining c masterPath (Bus.uniqueName bus.nextSerial)).map
          fun action b => b.attempt action) with
      | (some e, after) => (.error e, after, opened)
      | (none, after) => (.ok (Bus.uniqueName bus.nextSerial), after, opened) := by
  rw [join_eq, Bus.connect, if_pos h]
  exact ⟨_, rfl⟩

theorem join_of_taken (hproper : bus.Proper) (masterPath : Bus.ObjectPath) {owner : String}
    (havailable : bus.available = true) (howner : bus.ownerOf c.serviceName = some owner) :
    ∃ e opened, join c masterPath bus = (.error e, bus.addPeer.2, opened) := by
  -- Whoever owns the name is connected, and so is not the connection that is opened now.
  have hother : owner ≠ Bus.uniqueName bus.nextSerial := by
    rintro rfl
    exact bus.not_handedOut_next (hproper.handedOut (hproper.owners howner))
  have hrefused : bus.addPeer.2.requestName (Bus.uniqueName bus.nextSerial) c.serviceName =
      .error (.nameTaken c.serviceName) := by
    have hsame : bus.addPeer.2.ownerOf c.serviceName = some owner := howner
    rw [Bus.requestName, Bus.whileConnected, if_pos bus.isConnected_addPeer_self, hsame]
    exact if_neg hother
  obtain ⟨opened, hjoin⟩ := join_of_available (c := c) masterPath havailable
  rw [joining, List.map_cons, inTurn, Bus.attempt, hrefused] at hjoin
  exact ⟨_, opened, hjoin⟩

/-- Only the last step can fail once the name is free. -/
theorem join_of_claimable (masterPath : Bus.ObjectPath) (h : Claimable c bus) :
    ∃ opened, join c masterPath bus =
      match (claimed c bus).registerObject (Bus.uniqueName bus.nextSerial) masterPath with
      | .error e => (.error e, claimed c bus, opened)
      | .ok after => (.ok (Bus.uniqueName bus.nextSerial), after, opened) := by
  obtain ⟨havailable, hfree⟩ := h
  have hclaim : bus.addPeer.2.requestName (Bus.uniqueName bus.nextSerial) c.serviceName =
      .ok { bus.addPeer.2 with
        names := bus.names.insert c.serviceName (Bus.uniqueName bus.nextSerial) } :=
    Bus.requestName_eq_ok_iff.mpr ⟨bus.isConnected_addPeer_self, .inr ⟨hfree, rfl⟩⟩
  have hsubscribe : ({ bus.addPeer.2 with
      names := bus.names.insert c.serviceName (Bus.uniqueName bus.nextSerial) } : Bus).addMatch
        (Bus.uniqueName bus.nextSerial) Presence.rule = .ok (claimed c bus) :=
    Bus.addMatch_eq_ok_iff.mpr ⟨bus.isConnected_addPeer_self, rfl⟩
  obtain ⟨opened, hjoin⟩ := join_of_available (c := c) masterPath havailable
  simp only [joining, List.map_cons, List.map_nil, Bus.attempt, inTurn, hclaim, hsubscribe]
    at hjoin
  refine ⟨opened, hjoin.trans ?_⟩
  cases (claimed c bus).registerObject (Bus.uniqueName bus.nextSerial) masterPath <;> rfl

/-! ## What a start leaves on the bus -/

theorem exists_start_of_valid (hvalid : c.fault? = none) (bus : Bus) (source : Provider.Source) :
    ∃ o, start c bus source = .ok o := by
  obtain ⟨masterPath, base, hmaster, hbase⟩ := paths_of_valid hvalid
  rw [start, ofConfig_eq_ok_iff.mpr ⟨hvalid, masterPath, base, hmaster, hbase, rfl⟩]
  dsimp only
  split <;> exact ⟨_, rfl⟩

theorem start_of_not_claimable (hproper : bus.Proper) (h : start c bus source = .ok o)
    (hclaimable : ¬ Claimable c bus) :
    o.service.isFunctional = false ∧ o.bus.names = bus.names ∧ o.bus.objects = bus.objects ∧
      o.bus.rules = bus.rules := by
  obtain ⟨masterPath, base, -, -, s, rfl, hcases⟩ := start_cases h
  have hjoin : ∃ e opened after, join c masterPath bus = (.error e, after, opened) ∧
      after.names = bus.names ∧ after.objects = bus.objects ∧ after.rules = bus.rules := by
    cases havailable : bus.available with
    | false =>
      obtain ⟨e, hjoin⟩ := join_of_unavailable (c := c) masterPath havailable
      exact ⟨e, _, _, hjoin, rfl, rfl, rfl⟩
    | true =>
      cases howner : bus.ownerOf c.serviceName with
      | none => exact absurd ⟨havailable, howner⟩ hclaimable
      | some owner =>
        obtain ⟨e, opened, hjoin⟩ := join_of_taken hproper masterPath havailable howner
        exact ⟨e, _, _, hjoin, rfl, rfl, rfl⟩
  obtain ⟨e, opened, after, hjoin, hsame⟩ := hjoin
  obtain ⟨_, _, hjoin', hs, -⟩ | ⟨_, _, hjoin', -⟩ := hcases
  all_goals
    rw [hjoin] at hjoin'
    cases hjoin'
  rw [hs]
  exact ⟨rfl, hsame⟩

theorem start_of_claimable (h : start c bus source = .ok o) (hclaimable : Claimable c bus) :
    o.bus.names = (claimed c bus).names ∧ o.bus.rules = (claimed c bus).rules ∧
      (o.service.isFunctional = true ↔ bus.exporterOf o.service.masterPath = none) ∧
      (o.service.isFunctional = false → o.bus.objects = bus.objects) := by
  obtain ⟨masterPath, base, -, -, s, rfl, hcases⟩ := start_cases h
  obtain ⟨opened, hjoin⟩ := join_of_claimable masterPath hclaimable
  cases hexport : (claimed c bus).registerObject (Bus.uniqueName bus.nextSerial) masterPath with
  | error e =>
    -- The connection is open, so the path must have been taken.
    have htaken : bus.exporterOf masterPath ≠ none := by
      intro hfree
      have hok : (claimed c bus).registerObject (Bus.uniqueName bus.nextSerial) masterPath
          = .ok _ :=
        Bus.registerObject_eq_ok_iff.mpr ⟨bus.isConnected_addPeer_self, hfree, rfl⟩
      rw [hok] at hexport
      cases hexport
    rw [hexport] at hjoin
    obtain ⟨_, _, hjoin', hs, -⟩ | ⟨_, _, hjoin', -⟩ := hcases
    · have hbus : o.bus = claimed c bus := congrArg (·.2.1) (hjoin'.symm.trans hjoin)
      rw [hs, hbus]
      exact ⟨rfl, rfl, iff_of_false Bool.false_ne_true htaken, fun _ => rfl⟩
    · rw [hjoin] at hjoin'
      cases hjoin'
  | ok after =>
    obtain ⟨-, hfree, hafter⟩ := Bus.registerObject_eq_ok_iff.mp hexport
    rw [hexport] at hjoin
    obtain ⟨_, _, hjoin', -⟩ | ⟨_, _, hjoin', hs, -⟩ := hcases
    · rw [hjoin] at hjoin'
      cases hjoin'
    · have hbus : o.bus = after := congrArg (·.2.1) (hjoin'.symm.trans hjoin)
      rw [hs, hbus, hafter]
      exact ⟨rfl, rfl, iff_of_true rfl hfree, fun hno => nomatch hno⟩

theorem start_functional_iff (hproper : bus.Proper) (h : start c bus source = .ok o) :
    o.service.isFunctional = true ↔ Clear c bus := by
  by_cases hclaimable : Claimable c bus
  · obtain ⟨-, -, hfunctional, -⟩ := start_of_claimable h hclaimable
    obtain ⟨hmaster, -⟩ := start_paths h
    rw [hfunctional]
    constructor
    · intro hfree
      refine ⟨hclaimable, fun path hpath => ?_⟩
      rw [Keyed.text_inj (a := path) (hpath.trans hmaster.symm)]
      exact hfree
    · intro hclear
      exact hclear.2 _ hmaster
  · obtain ⟨hno, -⟩ := start_of_not_claimable hproper h hclaimable
    exact iff_of_false (by simp [hno]) fun hclear => hclaimable hclear.1

/-- A start that fails leaves the objects as they are.  It leaves the names and the subscriptions
as they are exactly if it fails before it gets its name; otherwise it leaves behind a peer that owns
the name and is subscribed, and until this peer is removed no other start with the configuration
succeeds.  But for that, a start succeeds as soon as the bus is clear. -/
theorem failed_start_traceless_iff (before : List Bus.Action) (hvalid : c.fault? = none)
    (source : Provider.Source) :
    let bus := Bus.run {} before
    let peer := Bus.uniqueName bus.nextSerial
    ∃ o, start c bus source = .ok o ∧ (o.service.isFunctional = true ↔ Clear c bus) ∧
      (o.service.isFunctional = false →
        o.bus.objects = bus.objects ∧
          (o.bus.names = bus.names ∧ o.bus.rules = bus.rules ↔ ¬ Claimable c bus) ∧
          (Claimable c bus → o.bus.names = bus.names.insert c.serviceName peer ∧
            o.bus.rules = bus.rules ++ [(peer, Presence.rule)])) ∧
      ∀ (later : List Bus.Action) (source' : Provider.Source),
        ∃ o', start c (o.bus.run later) source' = .ok o' ∧
          (o'.service.isFunctional = true ↔ Clear c (o.bus.run later)) ∧
          (Claimable c bus → .removePeer peer ∉ later → o'.service.isFunctional = false) := by
  intro bus peer
  have hproper : bus.Proper := Bus.Proper.empty.run before
  obtain ⟨o, hstart⟩ := exists_start_of_valid hvalid bus source
  have hnames : Claimable c bus → o.bus.names = bus.names.insert c.serviceName peer :=
    fun hclaimable => (start_of_claimable hstart hclaimable).1
  refine ⟨o, hstart, start_functional_iff hproper hstart, fun hno => ?_, fun later source' => ?_⟩
  · by_cases hclaimable : Claimable c bus
    · obtain ⟨-, hrules, -, hobjects⟩ := start_of_claimable hstart hclaimable
      refine ⟨hobjects hno, iff_of_false (fun hsame => ?_) (not_not_intro hclaimable),
        fun _ => ⟨hnames hclaimable, hrules⟩⟩
      -- The name had no owner and has one now.
      have hfree : bus.names.get? c.serviceName = none := hclaimable.2
      rw [← hsame.1, hnames hclaimable, Ledger.get?_insert, if_pos rfl] at hfree
      cases hfree
    · obtain ⟨-, hsame, hobjects, hrules⟩ := start_of_not_claimable hproper hstart hclaimable
      exact ⟨hobjects, iff_of_true ⟨hsame, hrules⟩ hclaimable, fun h => absurd h hclaimable⟩
  · obtain ⟨o', hstart'⟩ := exists_start_of_valid hvalid (o.bus.run later) source'
    obtain ⟨history, hbus, -⟩ := start_history hstart
    have hproper' : (o.bus.run later).Proper := by
      rw [hbus]
      exact (hproper.run history).run later
    have hfunctional := start_functional_iff hproper' hstart'
    refine ⟨o', hstart', hfunctional, fun hclaimable hstays => ?_⟩
    rw [Bool.eq_false_iff, Ne, hfunctional]
    rintro ⟨⟨-, hfree⟩, -⟩
    have howner : o.bus.ownerOf c.serviceName = some peer := by
      rw [Bus.ownerOf, hnames hclaimable, Ledger.get?_insert, if_pos rfl]
    rw [Bus.ownerOf_run howner hstays] at hfree
    cases hfree

def standardObject : Bus.ObjectPath := ⟨Config.standard.masterPath, by decide⟩

/-- Somebody exports the object of the standard broker. -/
def squatted : List Bus.Action := [.connect .session, .registerObject ":1.0" standardObject]

set_option maxRecDepth 8000 in
/-- On the bus of `squatted` the standard broker fails and leaves its name taken: when the object is
withdrawn, it still cannot start. -/
theorem squatted_start_keeps_name :
    ∃ o, start .standard (Bus.run {} squatted) .none = .ok o ∧
      o.service.isFunctional = false ∧
      (Bus.run {} squatted).ownerOf Config.standard.serviceName = none ∧
      o.bus.ownerOf Config.standard.serviceName = some ":1.1" ∧
      o.bus.rules = [(":1.1", Presence.rule)] ∧
      let freed := o.bus.step (.unregisterObject ":1.0" standardObject)
      freed.available = true ∧ freed.objects.keys = [] ∧
        (match start .standard freed .none with
          | .ok o' => o'.service.isFunctional
          | .error _ => true) = false :=
  exists_start _ _ _ _ (by decide)

set_option maxRecDepth 8000 in
theorem failed_start_traceless_iff_squatted :
    Config.standard.fault? = none ∧
      ∃ o, start .standard (Bus.run {} squatted) .none = .ok o ∧ o.service.isFunctional = false ∧
        o.bus.objects = (Bus.run {} squatted).objects ∧
        ¬ (o.bus.names = (Bus.run {} squatted).names ∧
          o.bus.rules = (Bus.run {} squatted).rules) ∧
        ∃ o', start .standard (o.bus.run [.unregisterObject ":1.0" standardObject]) .none = .ok o' ∧
          o'.service.isFunctional = false := by
  have hvalid : Config.standard.fault? = none := by decide
  have hclaimable : Claimable .standard (Bus.run {} squatted) := ⟨by decide, by decide⟩
  have hsquatted : ¬ Clear .standard (Bus.run {} squatted) := by
    intro hclear
    have hfree := hclear.2 standardObject rfl
    revert hfree
    decide
  obtain ⟨o, hstart, hfunctional, hfailed, hlater⟩ :=
    failed_start_traceless_iff squatted hvalid .none
  have hno : o.service.isFunctional = false := by
    rw [Bool.eq_false_iff, Ne, hfunctional]
    exact hsquatted
  obtain ⟨hobjects, htraceless, -⟩ := hfailed hno
  obtain ⟨o', hstart', -, hagain⟩ := hlater [.unregisterObject ":1.0" standardObject] .none
  exact ⟨hvalid, o, hstart, hno, hobjects, fun hsame => htraceless.mp hsame hclaimable, o', hstart',
    hagain hclaimable (by simp)⟩

end LocationBroker.Broker.Service
