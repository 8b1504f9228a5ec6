import LocationBroker.Proofs.Office.Basic
import Mathlib.Data.List.Induction

/-! # The office and the broker by itself

The worker does to its broker and to the bus what comes of the same commands if they are applied
directly: `Faithful`.  What is answered to a command is what it answers after the deeds before it
(`exists_serve_of_mem_replies`).
-/

namespace LocationBroker

open Broker (Error Letter Reply Service Worker)
open Log (Effects)

variable {κ : Type} {s : Service} {bus : Bus}

/-! ## Replies -/

/-- Where something stands in a list with a last element, if it is not the last one itself. -/
theorem concat_eq_split {α : Type} {front before after : List α} {last x : α}
    (h : front ++ [last] = before ++ x :: after) :
    before = front ∧ x = last ∨ ∃ rest, front = before ++ x :: rest := by
  rcases List.eq_nil_or_concat after with rfl | ⟨rest, y, rfl⟩
  · obtain ⟨hfront, hlast⟩ := List.append_inj' h rfl
    exact .inl ⟨hfront.symm, (List.singleton_inj.mp hlast).symm⟩
  · rw [List.concat_eq_append, ← List.cons_append, ← List.append_assoc] at h
    exact .inr ⟨rest, (List.append_inj' h rfl).1⟩

theorem mem_replies_append {deeds : List (Deed κ)} {reply : Post κ × Reply} (deed : Deed κ)
    (h : reply ∈ (direct s bus deeds).replies) :
    reply ∈ (direct s bus (deeds ++ [deed])).replies := by
  rw [direct_append]
  cases deed with
  | serve => exact List.mem_append_left _ h
  | breakOff | elsewhere => exact h

/-- What a command answers is what it answers after the deeds before it. -/
theorem exists_serve_of_mem_replies {deeds : List (Deed κ)} {post : Post κ} {r : Reply}
    (h : (post, r) ∈ (direct s bus deeds).replies) :
    ∃ before source after, deeds = before ++ .serve source post :: after ∧
      let a := direct s bus before
      r = (a.service.apply a.bus source post.errand.command).result := by
  induction deeds using List.reverseRecOn with
  | nil => cases h
  | append_singleton deeds deed ih =>
    have hearlier : (post, r) ∈ (direct s bus deeds).replies →
        ∃ before source after, deeds ++ [deed] = before ++ .serve source post :: after ∧
          let a := direct s bus before
          r = (a.service.apply a.bus source post.errand.command).result := by
      intro hmem
      obtain ⟨before, source, after, rfl, hreply⟩ := ih hmem
      exact ⟨before, source, after ++ [deed], by simp, hreply⟩
    rw [direct_append] at h
    cases deed with
    | serve source served =>
      cases List.mem_append.mp h with
      | inl h => exact hearlier h
      | inr h =>
        cases List.mem_singleton.mp h
        exact ⟨deeds, source, [], rfl, rfl⟩
    | breakOff | elsewhere => exact hearlier h

namespace Office

/-- What a worker tells when it stops. -/
def farewell (last : Service) : Worker.Phase → Effects
  | .stopped => [.event .workerStopping, .event (.workerStopped last.stats)]
  | .running _ | .crashed => []

/-- The broker and the bus are as if the commands that were served had been applied directly, and
the worker has told what they tell. -/
structure Faithful (s : Service) (bus : Bus) (o : Office κ) : Prop where
  bus_eq : o.bus = (direct s bus o.deeds).bus
  service_eq : ∀ {current}, o.worker.phase = .running current →
    current = (direct s bus o.deeds).service
  told : o.effects = .event (.workerStarted s.stats) :: (direct s bus o.deeds).effects
    ++ farewell (direct s bus o.deeds).service o.worker.phase
  /-- A command is broken off only by a hook that it runs. -/
  aborted : ∀ before source post after, o.deeds = before ++ .breakOff source post :: after →
    let a := direct s bus before
    (a.service.apply a.bus source post.errand.command).effects.any Broker.isAbort = true

theorem Faithful.opened (s : Service) (bus : Bus) : (opened s bus : Office κ).Faithful s bus where
  bus_eq := rfl
  service_eq h := (Worker.Phase.running.inj h).symm
  told := rfl
  aborted before source post after h := by simp [Office.opened] at h

variable [DecidableEq κ] {programs : κ → List Errand} {action : Action κ} {o o' : Office κ}

theorem Faithful.change (h : o.Faithful s bus) (hchange : Change programs o action o') :
    o'.Faithful s bus := by
  -- A deed that is not broken off leaves those before it as they are.
  have haborted : ∀ {deed : Deed κ}, (∀ source post, deed ≠ .breakOff source post) →
      ∀ before source post after, o.deeds ++ [deed] = before ++ .breakOff source post :: after →
        let a := direct s bus before
        (a.service.apply a.bus source post.errand.command).effects.any Broker.isAbort = true := by
    intro deed hdeed before source post after hsplit
    obtain ⟨-, hlast⟩ | ⟨rest, hdeeds⟩ := concat_eq_split hsplit
    · exact absurd hlast.symm (hdeed source post)
    · exact h.aborted before source post rest hdeeds
  have htold := h.told
  cases hchange with
  | accepted | refused | abandoned | closed | closedLate =>
    exact ⟨h.bus_eq, h.service_eq, h.told, h.aborted⟩
  | @served current source post rest running queue whole =>
    obtain rfl := h.service_eq running
    rw [running, farewell, List.append_nil] at htold
    refine ⟨?_, fun hphase => ?_, ?_, haborted (by simp)⟩ <;> dsimp only <;> rw [direct_append]
    · rw [h.bus_eq]
      rfl
    · rw [h.bus_eq] at hphase
      exact (Worker.Phase.running.inj hphase).symm
    · rw [htold, h.bus_eq, farewell, List.append_nil]
      rfl
  | @broken current source post rest running queue abort =>
    -- The broker is lost, but the bus is as the hook has left it.
    obtain rfl := h.service_eq running
    rw [running, farewell, List.append_nil] at htold
    refine ⟨?_, fun hphase => absurd hphase (by simp), ?_,
      fun before source' post' after hsplit => ?_⟩
    · dsimp only
      rw [direct_append, h.bus_eq]
      rfl
    · dsimp only
      rw [direct_append, htold, h.bus_eq, farewell, List.append_nil]
      rfl
    · obtain ⟨rfl, hlast⟩ | ⟨rest, hdeeds⟩ := concat_eq_split hsplit
      · cases hlast
        dsimp only
        rw [← h.bus_eq]
        exact abort
      · exact h.aborted before source' post' rest hdeeds
  | @ended current source rest running queue =>
    obtain rfl := h.service_eq running
    rw [running, farewell, List.append_nil] at htold
    refine ⟨h.bus_eq, fun hphase => absurd hphase (by simp), ?_, h.aborted⟩
    dsimp only
    rw [htold]
    rfl
  | elsewhere action =>
    refine ⟨?_, fun hphase => ?_, ?_, haborted (by simp)⟩ <;> dsimp only <;> rw [direct_append]
    · rw [h.bus_eq]
      rfl
    · exact h.service_eq hphase
    · exact htold

end Office

end LocationBroker
