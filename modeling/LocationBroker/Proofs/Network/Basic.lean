import LocationBroker.Proofs.Broker.Start

/-! # A network

A network is one bus with any number of brokers on it.  Brokers are started and asked for
operations, and everybody else does to the bus what can be done to it; only the connections of the
brokers are used by nobody else.  `Sound` is the invariant that every history of a network keeps
(`Sound.run`).
-/

namespace LocationBroker

/-- One bus and the brokers that were started on it. -/
structure Network where
  bus : Bus := {}
  brokers : List Broker.Service := []

namespace Network

/-- Something that happens on a network. -/
inductive Action where
  /-- Something is done to the bus, but not by a broker. -/
  | bus (action : Bus.Action)
  /-- A broker is started. -/
  | start (c : Broker.Config) (source : Provider.Source)
  /-- The broker of a number is asked for something. -/
  | ask (n : Nat) (operation : Broker.Operation)

def isBrokers (w : Network) (peer : String) : Bool :=
  w.brokers.any fun s => s.connection = some peer

/-- Whether the action can be taken by somebody who is no broker. -/
def admits (w : Network) (action : Bus.Action) : Bool :=
  action.actor?.all fun peer => !w.isBrokers peer

def step (w : Network) : Action → Network
  | .bus action => if w.admits action then { w with bus := w.bus.step action } else w
  | .start c source =>
    match Broker.Service.start c w.bus source with
    | .ok o => { bus := o.bus, brokers := w.brokers ++ [o.service] }
    | .error _ => w
  | .ask n operation =>
    match w.brokers[n]? with
    | some s =>
      let o := s.perform w.bus operation
      { bus := o.bus, brokers := w.brokers.set n o.service }
    | none => w

def run (w : Network) (history : List Action) : Network :=
  history.foldl step w

/-! ## The invariant -/

/-- The bus is in order, each broker has a numbered registry and exports what it should, and no two
brokers have one connection. -/
structure Sound (w : Network) : Prop where
  proper : w.bus.Proper
  numbered : ∀ {i : Nat} {s : Broker.Service}, w.brokers[i]? = some s → s.sessions.Numbered
  agrees : ∀ {i : Nat} {s : Broker.Service}, w.brokers[i]? = some s → s.Agrees w.bus
  handedOut : ∀ {i : Nat} {s : Broker.Service} {peer : String}, w.brokers[i]? = some s →
    s.connection = some peer → w.bus.HandedOut peer
  distinct : ∀ {i j : Nat} {s t : Broker.Service} {peer : String}, w.brokers[i]? = some s →
    w.brokers[j]? = some t → s.connection = some peer → t.connection = some peer → i = j

theorem Sound.empty : Sound {} where
  proper := .empty
  numbered h := by simp at h
  agrees h := by simp at h
  handedOut h := by simp at h
  distinct h := by simp at h

/-! ## What a step leaves to the brokers that are there -/

/-- What somebody who is no broker does leaves a broker what it has. -/
theorem Sound.spares_bus {w : Network} (h : w.Sound) {action : Bus.Action}
    (hadmits : w.admits action = true) {i : Nat} {s : Broker.Service} {peer : String}
    (hs : w.brokers[i]? = some s) (hpeer : s.connection = some peer) :
    w.bus.Spares peer (w.bus.step action) := by
  refine Bus.spares_step (h.handedOut hs hpeer) fun hactor => ?_
  have hbrokers : w.isBrokers peer = true :=
    List.any_eq_true.mpr ⟨s, List.mem_of_getElem? hs, decide_eq_true hpeer⟩
  rw [admits, hactor] at hadmits
  simp [hbrokers] at hadmits

/-- The brokers that are there have other connections than the next one to be opened. -/
theorem Sound.ne_next {w : Network} (h : w.Sound) {i : Nat} {s : Broker.Service} {peer : String}
    (hs : w.brokers[i]? = some s) (hpeer : s.connection = some peer) :
    peer ≠ Bus.uniqueName w.bus.nextSerial := by
  rintro rfl
  exact w.bus.not_handedOut_next (h.handedOut hs hpeer)

/-- A broker that starts leaves the others what they have. -/
theorem Sound.spares_start {w : Network} (h : w.Sound) {c : Broker.Config}
    {source : Provider.Source} {o : Broker.Outcome Unit}
    (hstart : Broker.Service.start c w.bus source = .ok o) {i : Nat} {s : Broker.Service}
    {peer : String} (hs : w.brokers[i]? = some s) (hpeer : s.connection = some peer) :
    w.bus.Spares peer o.bus := by
  obtain ⟨history, hbus, hactors⟩ := Broker.Service.start_history hstart
  rw [hbus]
  refine Bus.spares_run (h.handedOut hs hpeer) fun action haction hactor => ?_
  cases hactors action haction with
  | inl hnone =>
    rw [hactor] at hnone
    cases hnone
  | inr hnew =>
    rw [hactor] at hnew
    exact h.ne_next hs hpeer (Option.some.inj hnew)

/-- A broker that is asked for something leaves the others what they have, since their connections
are others. -/
theorem Sound.spares_ask {w : Network} (h : w.Sound) {n : Nat} {s : Broker.Service}
    (hs : w.brokers[n]? = some s) (operation : Broker.Operation) {i : Nat} {t : Broker.Service}
    {peer : String} (hi : i ≠ n) (ht : w.brokers[i]? = some t) (hpeer : t.connection = some peer) :
    w.bus.Spares peer (s.perform w.bus operation).bus := by
  obtain ⟨history, hbus, hactors⟩ :=
    (Broker.Service.perform_moves (h.numbered hs) w.bus operation).history
  dsimp only at hbus hactors
  rw [hbus]
  refine Bus.spares_run (h.handedOut ht hpeer) fun action haction hactor => hi ?_
  exact h.distinct ht hs hpeer ((hactors action haction).2.symm.trans hactor)

theorem getElem?_concat_cases {α : Type} {l : List α} {x y : α} {i : Nat}
    (h : (l ++ [x])[i]? = some y) : l[i]? = some y ∨ i = l.length ∧ y = x := by
  rw [List.getElem?_append] at h
  split at h
  · exact .inl h
  · obtain ⟨hi, hy⟩ := List.getElem?_eq_some_iff.mp h
    rw [List.length_singleton] at hi
    exact .inr ⟨by omega, by simpa using hy.symm⟩

theorem getElem?_set_cases {α : Type} {l : List α} {x y : α} {n i : Nat}
    (h : (l.set n x)[i]? = some y) : i ≠ n ∧ l[i]? = some y ∨ i = n ∧ y = x := by
  rw [List.getElem?_set] at h
  split at h
  · split at h
    · exact .inr ⟨Eq.symm ‹_›, (Option.some.inj h).symm⟩
    · cases h
  · exact .inl ⟨Ne.symm ‹_›, h⟩

/-! ## Every step keeps the invariant -/

theorem Sound.bus {w : Network} (h : w.Sound) {action : Bus.Action}
    (hadmits : w.admits action = true) : Sound { w with bus := w.bus.step action } where
  proper := h.proper.step action
  numbered := h.numbered
  agrees hs := (h.agrees hs).spared fun _ hpeer => h.spares_bus hadmits hs hpeer
  handedOut hs hpeer := (h.handedOut hs hpeer).mono (w.bus.nextSerial_le_step action)
  distinct := h.distinct

theorem Sound.start {w : Network} (h : w.Sound) {c : Broker.Config} {source : Provider.Source}
    {o : Broker.Outcome Unit} (hstart : Broker.Service.start c w.bus source = .ok o) :
    Sound { bus := o.bus, brokers := w.brokers ++ [o.service] } := by
  obtain ⟨history, hbus, -⟩ := Broker.Service.start_history hstart
  have hproper : o.bus.Proper := hbus ▸ h.proper.run history
  refine ⟨hproper, fun hs => ?_, fun hs => ?_, fun hs hpeer => ?_, fun hs ht hpeer hpeer' => ?_⟩
  · obtain hs | ⟨-, rfl⟩ := getElem?_concat_cases hs
    · exact h.numbered hs
    · exact Broker.Service.start_numbered hstart
  · obtain hs | ⟨-, rfl⟩ := getElem?_concat_cases hs
    · exact (h.agrees hs).spared fun peer hpeer => h.spares_start hstart hs hpeer
    · exact Broker.Service.start_agrees hstart h.proper
  · obtain hs | ⟨-, rfl⟩ := getElem?_concat_cases hs
    · exact (h.handedOut hs hpeer).mono (h.spares_start hstart hs hpeer).serials
    · exact hproper.handedOut (Broker.Service.start_connected hstart hpeer).2
  · obtain hs | ⟨hi, rfl⟩ := getElem?_concat_cases hs <;>
      obtain ht | ⟨hj, rfl⟩ := getElem?_concat_cases ht
    · exact h.distinct hs ht hpeer hpeer'
    · exact absurd (Broker.Service.start_connected hstart hpeer').1 (h.ne_next hs hpeer)
    · exact absurd (Broker.Service.start_connected hstart hpeer).1 (h.ne_next ht hpeer')
    · rw [hi, hj]

theorem Sound.ask {w : Network} (h : w.Sound) {n : Nat} {s : Broker.Service}
    (hs : w.brokers[n]? = some s) (operation : Broker.Operation) :
    Sound {
      bus := (s.perform w.bus operation).bus
      brokers := w.brokers.set n (s.perform w.bus operation).service } := by
  have hmoves := Broker.Service.perform_moves (h.numbered hs) w.bus operation
  obtain ⟨history, hbus, -⟩ := hmoves.history
  have hconnection : (s.perform w.bus operation).service.connection = s.connection :=
    hmoves.fixed.1
  dsimp only at hbus
  have hserials : w.bus.nextSerial ≤ (s.perform w.bus operation).bus.nextSerial := by
    rw [hbus]
    exact w.bus.nextSerial_le_run history
  -- Every broker has the connection that it had before.
  have hbefore : ∀ {i : Nat} {t : Broker.Service},
      (w.brokers.set n (s.perform w.bus operation).service)[i]? = some t →
      ∃ old, w.brokers[i]? = some old ∧ t.connection = old.connection := by
    intro i t ht
    obtain ⟨-, ht⟩ | ⟨rfl, rfl⟩ := getElem?_set_cases ht
    · exact ⟨t, ht, rfl⟩
    · exact ⟨s, hs, hconnection⟩
  refine ⟨hbus ▸ h.proper.run history, fun ht => ?_, fun ht => ?_, fun ht hpeer => ?_,
    fun ht hu hpeer hpeer' => ?_⟩
  · obtain ⟨-, ht⟩ | ⟨rfl, rfl⟩ := getElem?_set_cases ht
    · exact h.numbered ht
    · exact Broker.Service.perform_numbered (h.numbered hs) w.bus operation
  · obtain ⟨hi, ht⟩ | ⟨rfl, rfl⟩ := getElem?_set_cases ht
    · exact (h.agrees ht).spared fun peer hpeer => h.spares_ask hs operation hi ht hpeer
    · exact (h.agrees hs).perform (h.numbered hs) operation
  · obtain ⟨old, hold, heq⟩ := hbefore ht
    exact (h.handedOut hold (heq.symm.trans hpeer)).mono hserials
  · obtain ⟨old, hold, heq⟩ := hbefore ht
    obtain ⟨old', hold', heq'⟩ := hbefore hu
    exact h.distinct hold hold' (heq.symm.trans hpeer) (heq'.symm.trans hpeer')

theorem Sound.step {w : Network} (h : w.Sound) (action : Action) : (w.step action).Sound := by
  cases action with
  | bus action =>
    rw [Network.step]
    split
    · exact h.bus ‹_›
    · exact h
  | start c source =>
    rw [Network.step]
    split
    · exact h.start ‹_›
    · exact h
  | ask n operation =>
    rw [Network.step]
    split
    · exact h.ask ‹_› operation
    · exact h

theorem Sound.run {w : Network} (h : w.Sound) (history : List Action) : (w.run history).Sound := by
  induction history generalizing w with
  | nil => exact h
  | cons action history ih => exact ih (h.step action)

/-! ## What every broker keeps -/

/-- What a step means for a broker that is there afterwards. -/
inductive Fate (w : Network) (after : Bus) (i : Nat) : Broker.Service → Prop where
  /-- The broker was there, and is left what it has. -/
  | spared {s : Broker.Service} (hs : w.brokers[i]? = some s)
      (hspares : ∀ peer, s.connection = some peer → w.bus.Spares peer after) : Fate w after i s
  | performed {s : Broker.Service} (operation : Broker.Operation) (hs : w.brokers[i]? = some s)
      (hafter : after = (s.perform w.bus operation).bus) :
      Fate w after i (s.perform w.bus operation).service
  /-- The broker is new, and has a number of its own. -/
  | started {c : Broker.Config} {source : Provider.Source} {o : Broker.Outcome Unit}
      (hnew : w.brokers[i]? = none) (hstart : Broker.Service.start c w.bus source = .ok o)
      (hafter : after = o.bus) : Fate w after i o.service

theorem Sound.fate {w : Network} (h : w.Sound) (action : Action) {i : Nat} {s : Broker.Service}
    (hs : (w.step action).brokers[i]? = some s) : Fate w (w.step action).bus i s := by
  have hsame : w.brokers[i]? = some s → Fate w w.bus i s :=
    fun hs => .spared hs fun peer _ => .refl peer w.bus
  cases action with
  | bus action =>
    rw [Network.step] at hs ⊢
    split at hs
    · rw [if_pos ‹_›]
      exact .spared hs fun _ hpeer => h.spares_bus ‹_› hs hpeer
    · rw [if_neg ‹_›]
      exact hsame hs
  | start c source =>
    rw [Network.step] at hs ⊢
    cases hstart : Broker.Service.start c w.bus source with
    | error e =>
      rw [hstart] at hs
      exact hsame hs
    | ok o =>
      rw [hstart] at hs
      obtain hs | ⟨hi, rfl⟩ := getElem?_concat_cases hs
      · exact .spared hs fun _ hpeer => h.spares_start hstart hs hpeer
      · exact .started (List.getElem?_eq_none (Nat.le_of_eq hi.symm)) hstart rfl
  | ask n operation =>
    rw [Network.step] at hs ⊢
    cases hn : w.brokers[n]? with
    | none =>
      rw [hn] at hs
      exact hsame hs
    | some t =>
      rw [hn] at hs
      obtain ⟨hi, hs⟩ | ⟨rfl, rfl⟩ := getElem?_set_cases hs
      · exact .spared hs fun _ hpeer => h.spares_ask hn operation hi hs hpeer
      · exact .performed operation hn rfl

theorem length_brokers_le_step (w : Network) (action : Action) :
    w.brokers.length ≤ (w.step action).brokers.length := by
  cases action with
  | bus action =>
    rw [step]
    split <;> exact Nat.le_refl _
  | start c source =>
    rw [step]
    split
    · simp
    · exact Nat.le_refl _
  | ask n operation =>
    rw [step]
    split
    · simp
    · exact Nat.le_refl _

/-- A broker that is there stays there, and is left what it has or performs an operation. -/
theorem Sound.next {w : Network} (h : w.Sound) (action : Action) {i : Nat} {s : Broker.Service}
    (hs : w.brokers[i]? = some s) :
    ∃ t, (w.step action).brokers[i]? = some t ∧
      ((t = s ∧ ∀ peer, s.connection = some peer → w.bus.Spares peer (w.step action).bus) ∨
        ∃ operation, t = (s.perform w.bus operation).service ∧
          (w.step action).bus = (s.perform w.bus operation).bus) := by
  -- Numbers stay in use, and what has the number afterwards cannot be new.
  have hlength : i < (w.step action).brokers.length :=
    Nat.lt_of_lt_of_le (List.getElem?_eq_some_iff.mp hs).1 (w.length_brokers_le_step action)
  refine ⟨_, List.getElem?_eq_getElem hlength, ?_⟩
  have hfate := h.fate action (List.getElem?_eq_getElem hlength)
  generalize (w.step action).brokers[i] = t at hfate ⊢
  cases hfate with
  | spared hold hspares =>
    rw [hs] at hold
    cases hold
    exact .inl ⟨rfl, hspares⟩
  | performed operation hold hafter =>
    rw [hs] at hold
    cases hold
    exact .inr ⟨operation, rfl, hafter⟩
  | started hnew =>
    rw [hs] at hnew
    cases hnew

/-- What a broker has from its start, keeps in its own operations and is left by whatever leaves it
what it has on the bus, every broker of a network has. -/
theorem Sound.every_broker {P : Broker.Service → Bus → Prop}
    (hstarted : ∀ {c bus source o}, Broker.Service.start c bus source = .ok o → bus.Proper →
      P o.service o.bus)
    (hperformed : ∀ {s bus} operation, s.sessions.Numbered → P s bus →
      P (s.perform bus operation).service (s.perform bus operation).bus)
    (hspared : ∀ {s bus after}, P s bus →
      (∀ peer, s.connection = some peer → bus.Spares peer after) → P s after)
    {w : Network} (h : w.Sound)
    (hall : ∀ (i : Nat) (s : Broker.Service), w.brokers[i]? = some s → P s w.bus)
    (history : List Action) :
    ∀ (i : Nat) (s : Broker.Service), (w.run history).brokers[i]? = some s →
      P s (w.run history).bus := by
  induction history generalizing w with
  | nil => exact hall
  | cons action rest ih =>
    refine ih (h.step action) fun i s hs => ?_
    cases h.fate action hs with
    | spared hold hspares => exact hspared (hall i s hold) hspares
    | performed operation hold hafter =>
      rw [hafter]
      exact hperformed operation (h.numbered hold) (hall i _ hold)
    | started _ hstart hafter =>
      rw [hafter]
      exact hstarted hstart h.proper

end Network

end LocationBroker
