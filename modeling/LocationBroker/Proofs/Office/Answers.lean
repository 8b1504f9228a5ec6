import LocationBroker.Proofs.Office.Direct
import LocationBroker.Proofs.Office.Order

/-! # The answers of an office

A client that posts a command gets one answer for it: the reply of the worker to this command, or
that the worker has ended, unless the client does not wait for it.  `Informed` says so; every action
keeps it (`Informed.change`).
-/

namespace LocationBroker

open Broker (Error Letter Reply Service Worker)

variable {κ : Type}

theorem Broker.Service.apply_silent (s : Service) (bus : Bus) (source : Provider.Source)
    {c : Broker.Command} (h : ¬ c.expectsReply = true) : (s.apply bus source c).result = .none := by
  cases c with
  | deliver | shutdown => rfl
  | _ => exact absurd rfl h

/-- What a client got for the commands of its program is what these replies say; a client is told
that the worker has ended only if it has crashed. -/
structure Client.Answered (program : List Errand) (replies : List (Post κ × Reply)) (crashed : Prop)
    (i : κ) (c : Client) : Prop where
  given : ∀ {n : Nat} {r : Reply}, c.answers[n]? = some (.given (.ok r)) →
    ∃ errand : Errand, program[n]? = some errand ∧
      if errand.command.expectsReply then (⟨i, n, errand⟩, r) ∈ replies else r = .none
  refused : ∀ {e : Error}, .given (.error e) ∈ c.answers → e = .workerDisconnected ∧ crashed

namespace Client.Answered

variable {program : List Errand} {replies : List (Post κ × Reply)} {crashed : Prop} {i : κ}
  {c : Client}

theorem mono {more : List (Post κ × Reply)} {crashed' : Prop}
    (h : c.Answered program replies crashed i) (hreplies : ∀ reply ∈ replies, reply ∈ more)
    (hcrashed : crashed → crashed') : c.Answered program more crashed' i where
  given hr := by
    obtain ⟨errand, herrand, hreply⟩ := h.given hr
    refine ⟨errand, herrand, ?_⟩
    split
    · rename_i hexpects
      rw [if_pos hexpects] at hreply
      exact hreplies _ hreply
    · rename_i hexpects
      rw [if_neg hexpects] at hreply
      exact hreply
  refused he := (h.refused he).imp_right hcrashed

theorem get {answer : Answer} (h : c.Answered program replies crashed i)
    (hgiven : ∀ r, answer = .given (.ok r) → ∃ errand : Errand,
      program[c.answers.length]? = some errand ∧
        if errand.command.expectsReply then (⟨i, c.answers.length, errand⟩, r) ∈ replies
        else r = .none)
    (hrefused : ∀ e, answer = .given (.error e) → e = .workerDisconnected ∧ crashed) :
    (c.get answer).Answered program replies crashed i where
  given {n r} hr := by
    rw [Client.get, List.getElem?_append] at hr
    split at hr
    · exact h.given hr
    · rename_i hlast
      obtain ⟨hlt, hanswer⟩ := List.getElem?_eq_some_iff.mp hr
      have hn : n = c.answers.length := by
        rw [List.length_singleton] at hlt
        omega
      subst hn
      exact hgiven r (by simpa using hanswer)
  refused {e} he := by
    cases List.mem_append.mp he with
    | inl he => exact h.refused he
    | inr he => exact hrefused e (List.mem_singleton.mp he).symm

theorem disconnect (h : c.Answered program replies crashed i)
    (hcrashed : c.waiting = true → crashed) :
    c.disconnect.Answered program replies crashed i := by
  rw [Client.disconnect]
  split
  · rename_i hwaiting
    refine h.get (by simp) fun e he => ?_
    cases he
    exact ⟨rfl, hcrashed hwaiting⟩
  · exact h

end Client.Answered

theorem Client.waiting_disconnect (c : Client) : c.disconnect.waiting = false := by
  rw [disconnect]
  split
  · rfl
  · exact Bool.eq_false_iff.mpr ‹_›

/-- A client waits only for what the worker is still going to serve. -/
def Client.Attended (w : Worker (Option (Post κ))) (i : κ) (c : Client) : Prop :=
  c.waiting = true → (∃ s, w.phase = .running s) ∧
    ∃ errand : Errand, (⟨i, c.answers.length, errand⟩ : Post κ).letter ∈ w.queue

theorem Client.Attended.of_not_waiting {w : Worker (Option (Post κ))} {i : κ} {c : Client}
    (h : c.waiting = false) : c.Attended w i := by
  intro hwaiting
  rw [h] at hwaiting
  cases hwaiting

theorem Client.Attended.send {w : Worker (Option (Post κ))} {i : κ} {c : Client}
    (h : c.Attended w i) (letter : Letter (Option (Post κ))) :
    c.Attended { w with queue := w.queue ++ [letter] } i := by
  intro hwaiting
  obtain ⟨hrunning, errand, hletter⟩ := h hwaiting
  exact ⟨hrunning, errand, List.mem_append_left _ hletter⟩

namespace Office

/-- Every client is told what its commands answer if they are applied directly. -/
structure Informed (programs : κ → List Errand) (s : Service) (bus : Bus) (o : Office κ) :
    Prop where
  answered : ∀ i, (o.clients i).Answered (programs i) (direct s bus o.deeds).replies
    (o.worker.phase = .crashed) i
  attended : ∀ i, (o.clients i).Attended o.worker i

theorem Informed.opened (programs : κ → List Errand) (s : Service) (bus : Bus) :
    (opened s bus : Office κ).Informed programs s bus where
  answered _ := ⟨(fun hr => nomatch hr), fun he => nomatch he⟩
  attended _ := .of_not_waiting rfl

variable [DecidableEq κ] {programs : κ → List Errand} {s : Service} {bus : Bus} {action : Action κ}
  {o o' : Office κ}

/-- The first command in the queue stands at its place in the program of its client. -/
theorem Queued.first (h : o.Queued programs) {current : Service} {post : Post κ}
    {rest : List (Letter (Option (Post κ)))} (hphase : o.worker.phase = .running current)
    (hqueue : o.worker.queue = post.letter :: rest) :
    (programs post.client)[post.number]? = some post.errand := by
  obtain ⟨-, waiting, hsent, hletters⟩ := h.running hphase
  obtain ⟨others, rfl, -⟩ := waiting_cons (hletters.symm.trans hqueue)
  have hplanned := h.planned post.client
  rw [hsent, ← List.singleton_append, ← List.append_assoc, List.filter_append,
    List.filter_append] at hplanned
  have hself : [post].filter (·.client = post.client) = [post] := by simp
  rw [hself] at hplanned
  exact (Post.of_prefix_plan ((List.prefix_append _ _).trans hplanned)).2.2.1

theorem Informed.change (h : o.Informed programs s bus) (hqueued : o.Queued programs)
    (hfaithful : o.Faithful s bus) (hchange : Change programs o action o') :
    o'.Informed programs s bus := by
  cases hchange with
  | @accepted current post running idle still number errand =>
    constructor
    · refine (Function.forall_update_iff o.clients _).mpr ⟨?_, fun j _ => h.answered j⟩
      have hbefore := h.answered post.client
      split
      · exact ⟨hbefore.given, hbefore.refused⟩
      · -- A delivery counts as answered when it is posted.
        rename_i hsilent
        refine hbefore.get (fun r hr => ⟨post.errand, by rw [← number]; exact errand, ?_⟩) (by simp)
        rw [if_neg hsilent]
        cases hr
        rfl
    · refine (Function.forall_update_iff o.clients _).mpr
        ⟨?_, fun j _ => (h.attended j).send post.letter⟩
      split
      · intro _
        refine ⟨⟨current, running⟩, post.errand, List.mem_append_right _ ?_⟩
        rw [← number]
        exact List.mem_singleton_self _
      · exact .of_not_waiting rfl
  | @refused i ended still idle =>
    constructor
    · refine (Function.forall_update_iff o.clients _).mpr ⟨?_, fun j _ => h.answered j⟩
      refine (h.answered i).get (by simp) fun e he => ?_
      cases he
      exact ⟨rfl, hqueued.crashed_of_ended ended still⟩
    · exact (Function.forall_update_iff o.clients _).mpr
        ⟨.of_not_waiting rfl, fun j _ => h.attended j⟩
  | @abandoned i waits =>
    constructor
    · exact (Function.forall_update_iff o.clients _).mpr
        ⟨(h.answered i).get (by simp) (by simp), fun j _ => h.answered j⟩
    · exact (Function.forall_update_iff o.clients _).mpr
        ⟨.of_not_waiting rfl, fun j _ => h.attended j⟩
  | @served current source post rest running queue whole =>
    obtain rfl := hfaithful.service_eq running
    -- The new reply is one more, and the worker is still running.
    have hmore : ∀ i, (o.clients i).Answered (programs i)
        (direct s bus (o.deeds ++ [.serve source post])).replies False i := fun i =>
      (h.answered i).mono (fun _ => mem_replies_append (.serve source post)) (by simp [running])
    constructor
    · intro i
      dsimp only
      rw [hand]
      split
      · -- The client whose command was served waits for just this reply.
        rename_i htaken
        obtain ⟨rfl, -, hnumber⟩ := htaken
        refine ((hmore post.client).get (fun r hr => ⟨post.errand, ?_, ?_⟩) (by simp)).mono
          (fun _ hreply => hreply) False.elim
        · rw [hnumber]
          exact hqueued.first running queue
        · cases hr
          split
          · rw [direct_append, hnumber, hfaithful.bus_eq]
            exact List.mem_append_right _ List.mem_cons_self
          · exact Broker.Service.apply_silent _ _ _ ‹_›
      · exact (hmore i).mono (fun _ hreply => hreply) False.elim
    · intro i
      dsimp only
      rw [hand]
      split
      · exact .of_not_waiting rfl
      · rename_i hother
        intro hwaiting
        obtain ⟨-, errand, hletter⟩ := h.attended i hwaiting
        rw [queue] at hletter
        refine ⟨⟨_, rfl⟩, errand, ?_⟩
        -- What this client waits for is not the command that has just been served.
        obtain hfirst | hrest := List.mem_cons.mp hletter
        · obtain rfl := Option.some.inj (congrArg Letter.address hfirst)
          exact absurd ⟨rfl, hwaiting, rfl⟩ hother
        · exact hrest
  | @broken current source post rest running queue abort =>
    refine ⟨fun i => ?_, fun i => .of_not_waiting (o.clients i).waiting_disconnect⟩
    have hcrashed : o.worker.phase = .crashed → (Worker.Phase.crashed = .crashed) := fun _ => rfl
    exact ((h.answered i).mono (fun _ => mem_replies_append (.breakOff source post))
      hcrashed).disconnect fun _ => rfl
  | @ended current source rest running queue =>
    -- Nobody waits any more when the worker reads the last of its letters.
    have hidle : ∀ i, (o.clients i).waiting = false := by
      intro i
      rw [← Bool.not_eq_true]
      intro hwaiting
      obtain ⟨-, errand, hletter⟩ := h.attended i hwaiting
      obtain ⟨-, waiting, -, hletters⟩ := hqueued.running running
      obtain ⟨rfl, hclosed⟩ := waiting_nil (hletters.symm.trans queue)
      rw [hletters, if_pos hclosed] at hletter
      cases congrArg Letter.address (List.mem_singleton.mp hletter)
    refine ⟨fun i => ?_, fun i => .of_not_waiting (o.clients i).waiting_disconnect⟩
    dsimp only
    rw [Client.disconnect, if_neg (by simp [hidle i])]
    exact (h.answered i).mono (fun _ hreply => hreply) (by simp [running])
  | elsewhere action =>
    exact ⟨fun i => (h.answered i).mono (fun _ => mem_replies_append (.elsewhere action)) id,
      h.attended⟩
  | @closed current running still =>
    exact ⟨h.answered, fun i => (h.attended i).send goodbye⟩
  | closedLate ended => exact ⟨h.answered, h.attended⟩

end Office

end LocationBroker
