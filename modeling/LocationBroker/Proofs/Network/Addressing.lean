import LocationBroker.Proofs.Broker.Addressing
import LocationBroker.Proofs.Broker.Squatting
import LocationBroker.Proofs.Network.Hooks

/-! # Texts for sessions

Whatever happened on a network, the texts by which a broker can be asked for something about a
session are those of the paths of its live sessions.  What happens to one broker in a history of the
network is what it is asked, each time with the bus as it is then (`run_broker`); so the life of a
session on the network is that of a session of the broker (`addressing_exact`).
-/

namespace LocationBroker.Network

open Broker (Harmless Operation Service)
open Broker.Service (Affects Occasion firstSession secondSession thirdSession)

variable {w : Network} {i : Nat} {s : Service}

/-! ## One broker in a history -/

/-- What the broker of a number is asked by an action. -/
def occasion? (w : Network) (i : Nat) : Action → Option Occasion
  | .ask n operation => if n = i then some ⟨w.bus, operation⟩ else none
  | .bus _ | .start .. => none

/-- What the broker of a number is asked in a history. -/
def occasions (w : Network) (i : Nat) : List Action → List Occasion
  | [] => []
  | action :: rest => (w.occasion? i action).toList ++ (w.step action).occasions i rest

theorem step_broker (hs : w.brokers[i]? = some s) (action : Action) :
    (w.step action).brokers[i]? = some (s.after (w.occasion? i action).toList) := by
  cases action with
  | bus action =>
    rw [step]
    split <;> exact hs
  | start c source =>
    rw [step]
    split
    · exact (List.getElem?_append_left (List.getElem?_eq_some_iff.mp hs).1).trans hs
    · exact hs
  | ask n operation =>
    rw [step, occasion?]
    by_cases hn : n = i
    · subst hn
      rw [hs, if_pos rfl]
      exact List.getElem?_set_self (List.getElem?_eq_some_iff.mp hs).1
    · rw [if_neg hn]
      split
      · exact (List.getElem?_set_ne hn).trans hs
      · exact hs

/-- A broker goes through what it is asked, and nothing else that happens changes it. -/
theorem run_broker (hs : w.brokers[i]? = some s) (history : List Action) :
    (w.run history).brokers[i]? = some (s.after (w.occasions i history)) := by
  induction history generalizing w s with
  | nil => exact hs
  | cons action rest ih =>
    rw [occasions, Service.after, List.foldl_append]
    exact ih (step_broker hs action)

/-- The paths of the sessions that a broker destroys in a history. -/
def destroyedBy (w : Network) (i : Nat) (history : List Action) : List Bus.ObjectPath :=
  match w.brokers[i]? with
  | some s => s.destroyedOn (w.occasions i history)
  | none => []

/-! ## The texts that name sessions -/

/-- On any network, a text with which a broker is asked for something about a session is refused
exactly if no live session has it for a path, be it no path at all, the path of a session that is
gone, or one that nobody got; and then neither the broker nor the bus changes, and no hook is run.
Otherwise no other session has the path, the broker does what it is asked, and all else stays as it
is.  What the first look-up finds, the second one finds again.  So the path of a session that was
created is good until the broker destroys the session, and never again, whatever else happens on the
network; that of a session that could not be exported never is.

A release goes to its end exactly if the hook of the session does, and any other operation on a
session does so anyway.  All that was asked before went to its end if nobody asked for a hook that
ends a worker. -/
theorem addressing_exact (history : List Action) (hs : (run {} history).brokers[i]? = some s) :
    let w := run {} history
    (∀ (operation : Operation) text, operation.addressee? = some text →
      (s.refusal? w.bus operation = some (.sessionNotFound text) ↔
        ∀ x ∈ s.sessions.sessions, x.path.text ≠ text) ∧
      ((∀ x ∈ s.sessions.sessions, x.path.text ≠ text) →
        let o := s.perform w.bus operation
        o.service = s ∧ o.bus = w.bus ∧ o.effects.hookRuns = []) ∧
      ∀ older x younger, s.sessions.sessions = older ++ x :: younger → x.path.text = text →
        (∀ y ∈ older ++ younger, y.path.text ≠ text) ∧
          Affects s w.bus operation older x younger ∧
          (Harmless (s.perform w.bus operation).effects ↔
            ((operation.leaves x).isNone → x.Gentle))) ∧
    ((∀ action ∈ history, action.Gentle) → Unbroken {} history) ∧
    (∀ x ∈ s.sessions.sessions,
      (s.providersFor w.bus x.path.text).result = .ok (s.providers.filter x.requirements)) ∧
    (∀ text,
      (s.sessions.pathAt? text = none ↔ ∀ x ∈ s.sessions.sessions, x.path.text ≠ text) ∧
      ∀ path, s.sessions.pathAt? text = some path →
        ∃ x, s.sessions.get? path = some x ∧ x.path.text = text) ∧
    ∀ source call later,
      let created := s.create w.bus source call
      let next := w.step (.ask i (.create source call))
      ∃ t, (next.run later).brokers[i]? = some t ∧
        (∀ path, created.result = .ok path →
          ∀ operation : Operation, operation.addressee? = some path.text →
            t.refusal? (next.run later).bus operation =
              if path ∈ next.destroyedBy i later then some (.sessionNotFound path.text)
              else none) ∧
        ∀ e, created.result = .error (.bus e) →
          ∀ operation : Operation, operation.addressee? = some s.sessions.nextPath.text →
            t.refusal? (next.run later).bus operation =
              some (.sessionNotFound s.sessions.nextPath.text) := by
  intro w
  have hsound : w.Sound := Sound.empty.run history
  have hnumbered : s.sessions.Numbered := hsound.numbered hs
  refine ⟨fun operation text haddressee => ⟨?_, fun hdead => ?_, ?_⟩, unbroken_of_gentle,
    fun x hx => ?_,
    fun text => ⟨Session.Registry.pathAt?_eq_none_iff, fun _ => Session.Registry.get?_of_pathAt?⟩,
    fun source call later => ?_⟩
  · exact Service.refusal?_eq_some_iff haddressee w.bus
  · exact Service.perform_unaddressed hdead haddressee w.bus
  · rintro older x younger hlive rfl
    have haffects := Service.perform_addressed hnumbered (hsound.agrees hs) hlive haddressee
    exact ⟨fun y hy htext => hnumbered.path_ne hlive hy (Keyed.text_inj htext), haffects,
      haffects.harmless_iff⟩
  · rw [Service.providersFor, Service.onSession_of_found (hnumbered.atText?_live hx)]
    rfl
  · intro created next
    have hnext : next.brokers[i]? = some created.service := by
      -- The request is the only thing that the broker is asked in this step.
      have hasked := step_broker hs (.ask i (.create source call))
      rw [occasion?, if_pos rfl] at hasked
      exact hasked
    have htold : next.destroyedBy i later =
        created.service.destroyedOn (next.occasions i later) := by
      rw [destroyedBy, hnext]
    refine ⟨_, run_broker hnext later, ?_⟩
    rw [htold]
    exact Service.refusal?_after_create hnumbered w.bus source call _ _

/-- A client with two sessions, of which the first has a hook. -/
def paired : List Action :=
  [.start {} .none, .bus .addPeer, .ask 0 (.sessionFor ":1.1"), .ask 0 (.sessionFor ":1.1"),
    .ask 0 (.attachHook firstSession.text ⟨"farewell", false⟩)]

set_option maxRecDepth 8000 in
/-- After `paired` the name of a session alone is refused, and the release of the first session
leaves the second one.  The path of a third session is good when another one is released, and no
longer when that session is. -/
theorem addressing_exact_paired :
    let w := run {} paired
    let next := w.step (.ask 0 (.sessionFor ":1.1"))
    Unbroken {} paired ∧ ∃ s, w.brokers[0]? = some s ∧
      s.refusal? w.bus (.release "client0") = some (.sessionNotFound "client0") ∧
      s.refusal? w.bus (.release firstSession.text) = none ∧
      (s.perform w.bus (.release firstSession.text)).service.sessions.paths = [secondSession] ∧
      (s.perform w.bus (.release firstSession.text)).bus.exporterOf firstSession = none ∧
      (s.perform w.bus (.release firstSession.text)).effects.hookRuns.map (·.1.tag) =
        ["farewell"] ∧
      (∃ t, (next.run [.ask 0 (.release secondSession.text)]).brokers[0]? = some t ∧
        t.refusal? (next.run [.ask 0 (.release secondSession.text)]).bus
          (.providersFor thirdSession.text) = none) ∧
      ∃ t, (next.run [.ask 0 (.release thirdSession.text)]).brokers[0]? = some t ∧
        t.refusal? (next.run [.ask 0 (.release thirdSession.text)]).bus
          (.providersFor thirdSession.text) = some (.sessionNotFound thirdSession.text) := by
  intro w next
  let call : Bus.MethodCall :=
    { sender := some ":1.1", path := .root, interface := none, member := Broker.createMethod }
  have hsessions : (w.brokers[0]?.map fun s =>
      s.sessions.sessions.map fun x => (x.path, x.hook.map (·.tag)))
      = some [(firstSession, some "farewell"), (secondSession, none)] := by decide +kernel
  have hpresent : w.brokers[0]?.map (·.isOnBus w.bus) = some true := by decide +kernel
  have hgranted : (w.brokers[0]?.map fun s => (s.create w.bus .none call).result.toOption)
      = some (some thirdSession) := by decide +kernel
  have hkept : thirdSession ∉ next.destroyedBy 0 [.ask 0 (.release secondSession.text)] := by
    decide +kernel
  have hgone : thirdSession ∈ next.destroyedBy 0 [.ask 0 (.release thirdSession.text)] := by
    decide +kernel
  obtain ⟨s, hs, hsessions⟩ := Option.map_eq_some_iff.mp hsessions
  rw [hs, Option.map_some, Option.some.injEq] at hpresent hgranted
  obtain ⟨x, others, hlive, hx, hothers⟩ := List.map_eq_cons_iff.mp hsessions
  obtain ⟨y, rfl, hy⟩ := List.map_eq_singleton_iff.mp hothers
  obtain ⟨hxpath, hxhook⟩ := Prod.mk.inj hx
  obtain ⟨hypath, -⟩ := Prod.mk.inj hy
  have hok : (s.create w.bus .none call).result = .ok thirdSession := by
    cases hresult : (s.create w.bus .none call).result with
    | error e =>
      rw [hresult] at hgranted
      cases hgranted
    | ok path =>
      rw [hresult] at hgranted
      exact congrArg _ (Option.some.inj hgranted)
  obtain ⟨haddressed, hunbroken, -, -, hcreated⟩ := addressing_exact paired hs
  obtain ⟨-, haffects, -⟩ := (haddressed (.release firstSession.text) _ rfl).2.2 [] x [y] hlive
    (by rw [hxpath])
  have hends : (Operation.release firstSession.text).leaves x = none := rfl
  have hgentle : ∀ action ∈ paired, action.Gentle := by
    simp [paired, Action.Gentle, Operation.Gentle, Operation.sessionFor]
  refine ⟨hunbroken hgentle, s, hs, ?_, haffects.accepted, ?_, ?_, ?_, ?_, ?_⟩
  · refine (haddressed (.release "client0") "client0" rfl).1.mpr fun z hz => ?_
    rw [hlive] at hz
    obtain rfl | hz := List.mem_cons.mp hz
    · rw [hxpath]
      decide
    · rw [List.mem_singleton.mp hz, hypath]
      decide
  · rw [haffects.service]
    simp [Session.Registry.paths, hends, hypath]
  · rw [haffects.withdrawn, if_pos ⟨rfl, hpresent⟩, hxpath]
    simp [Bus.exporterOf, Ledger.get?_erase]
  · obtain ⟨hook, hsome, htag⟩ := Option.map_eq_some_iff.mp hxhook
    rw [haffects.hookRuns]
    simp [hends, Session.hookRuns, hsome, htag]
  · obtain ⟨t, ht, hgood, -⟩ := hcreated .none call [.ask 0 (.release secondSession.text)]
    exact ⟨t, ht, (hgood thirdSession hok _ rfl).trans (if_neg hkept)⟩
  · obtain ⟨t, ht, hgood, -⟩ := hcreated .none call [.ask 0 (.release thirdSession.text)]
    exact ⟨t, ht, (hgood thirdSession hok _ rfl).trans (if_pos hgone)⟩

end LocationBroker.Network
