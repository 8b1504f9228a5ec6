import LocationBroker.Proofs.Broker.Hooks
import LocationBroker.Proofs.Network.Basic

/-! # Hooks on a network

Brokers that are started have no sessions, and only by being asked for it does a broker get a hook.
So while nobody asks for a hook that ends a worker, whatever the brokers of a network are asked goes
to its end (`unbroken_of_gentle`).
-/

namespace LocationBroker.Network

open Broker (Harmless)

/-- The action attaches no hook that ends a worker. -/
def Action.Gentle : Action → Prop
  | .ask _ operation => operation.Gentle
  | .bus _ | .start .. => True

/-- No broker has a session with a hook that ends a worker. -/
def Gentle (w : Network) : Prop :=
  ∀ {i : Nat} {s : Broker.Service}, w.brokers[i]? = some s → s.Gentle

/-- Whatever brokers are asked in the history goes to its end. -/
def Unbroken (w : Network) : List Action → Prop
  | [] => True
  | action :: rest =>
    (∀ n operation s, action = .ask n operation → w.brokers[n]? = some s →
      Harmless (s.perform w.bus operation).effects) ∧ (w.step action).Unbroken rest

variable {w : Network}

theorem Gentle.step (h : w.Gentle) {action : Action} (haction : action.Gentle) :
    (w.step action).Gentle := by
  intro i s hs
  cases action with
  | bus action =>
    rw [Network.step] at hs
    split at hs <;> exact h hs
  | start c source =>
    rw [Network.step] at hs
    split at hs
    · obtain hs | ⟨-, rfl⟩ := getElem?_concat_cases hs
      · exact h hs
      · exact Broker.Service.start_gentle ‹_›
    · exact h hs
  | ask n operation =>
    rw [Network.step] at hs
    split at hs
    · obtain ⟨-, hs⟩ | ⟨-, rfl⟩ := getElem?_set_cases hs
      · exact h hs
      · exact ((h ‹_›).perform w.bus operation).2 haction
    · exact h hs

theorem Gentle.unbroken (h : w.Gentle) {history : List Action}
    (hgentle : ∀ action ∈ history, action.Gentle) : w.Unbroken history := by
  induction history generalizing w with
  | nil => trivial
  | cons action rest ih =>
    rw [List.forall_mem_cons] at hgentle
    exact ⟨fun n operation s _ hs => ((h hs).perform w.bus operation).1,
      ih (h.step hgentle.1) hgentle.2⟩

theorem unbroken_of_gentle {history : List Action}
    (hgentle : ∀ action ∈ history, action.Gentle) : Unbroken {} history :=
  Gentle.unbroken (fun hs => by simp at hs) hgentle

end LocationBroker.Network
