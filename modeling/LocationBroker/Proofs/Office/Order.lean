import LocationBroker.Proofs.Office.Basic

/-! # The order of an office

What the clients post stands in the queue of the worker in the order in which it was posted, and is
served in this order, each client's posts in the order of its program.  `Queued` says so; every
action keeps it (`Queued.change`).
-/

namespace LocationBroker

open Broker (Error Letter Reply Service Worker)
open Log (Effects)

variable {κ : Type}

namespace Post

theorem getElem?_plan (client : κ) (program : List Errand) (n : Nat) :
    (plan client program)[n]? = program[n]?.map fun errand => ⟨client, n, errand⟩ :=
  List.getElem?_mapIdx

/-- The next post of a client goes on with its plan. -/
theorem plan_concat {client : κ} {program : List Errand} {posts : List (Post κ)} {errand : Errand}
    (h : posts <+: plan client program) (herrand : program[posts.length]? = some errand) :
    posts ++ [⟨client, posts.length, errand⟩] <+: plan client program := by
  rw [List.prefix_iff_eq_take] at h
  have hnext : (plan client program)[posts.length]? = some ⟨client, posts.length, errand⟩ := by
    rw [getElem?_plan, herrand]
    rfl
  -- The posts are a beginning of the plan, and the next one is what the plan has next.
  have htake := List.take_add_one (l := plan client program) (i := posts.length)
  rw [← h, hnext, Option.toList_some] at htake
  rw [← htake]
  exact List.take_prefix _ _

/-- A post in a plan is told by its number, and is preceded there by those of lower numbers. -/
theorem of_prefix_plan {client : κ} {program : List Errand} {before : List (Post κ)}
    {post : Post κ} (h : before ++ [post] <+: plan client program) :
    post.client = client ∧ post.number = before.length ∧
      program[post.number]? = some post.errand ∧
      before = (plan client program).take post.number := by
  have hpost : (plan client program)[before.length]? = some post := by
    rw [List.prefix_iff_getElem?.mp h before.length (by simp)]
    simp
  have hbefore := List.prefix_iff_eq_take.mp ((List.prefix_append before [post]).trans h)
  rw [getElem?_plan, Option.map_eq_some_iff] at hpost
  obtain ⟨errand, herrand, rfl⟩ := hpost
  exact ⟨rfl, rfl, herrand, hbefore⟩

end Post

namespace Deed

def breaks : Deed κ → Bool
  | .breakOff .. => true
  | _ => false

def Unbroken (deeds : List (Deed κ)) : Prop :=
  ∀ deed ∈ deeds, deed.breaks = false

theorem Unbroken.concat {deeds : List (Deed κ)} {deed : Deed κ} (h : Unbroken deeds)
    (hdeed : deed.breaks = false) : Unbroken (deeds ++ [deed]) := by
  intro other hother
  cases List.mem_append.mp hother with
  | inl hother => exact h other hother
  | inr hother =>
    rw [List.mem_singleton.mp hother]
    exact hdeed

@[simp] theorem posts_append (first second : List (Deed κ)) :
    posts (first ++ second) = posts first ++ posts second :=
  List.filterMap_append

end Deed

namespace Office

/-- If a command stands first in the queue, it is the first one that waits. -/
theorem waiting_cons {waiting : List (Post κ)} {post : Post κ} {closed : Bool}
    {rest : List (Letter (Option (Post κ)))}
    (h : waiting.map Post.letter ++ (if closed then [goodbye] else []) = post.letter :: rest) :
    ∃ others, waiting = post :: others ∧
      rest = others.map Post.letter ++ if closed then [goodbye] else [] := by
  cases waiting with
  | nil =>
    split at h
    · cases h
    · cases h
  | cons first others =>
    obtain ⟨hfirst, hrest⟩ := List.cons.inj h
    obtain rfl : first = post := Option.some.inj (congrArg Letter.address hfirst)
    exact ⟨others, rfl, hrest.symm⟩

/-- If the end of the worker stands first in the queue, nothing waits any more. -/
theorem waiting_nil {waiting : List (Post κ)} {closed : Bool}
    {rest : List (Letter (Option (Post κ)))}
    (h : waiting.map Post.letter ++ (if closed then [goodbye] else []) = goodbye :: rest) :
    waiting = [] ∧ closed = true := by
  cases waiting with
  | nil =>
    split at h
    · exact ⟨rfl, ‹_›⟩
    · cases h
  | cons first others =>
    obtain ⟨hfirst, -⟩ := List.cons.inj h
    cases congrArg Letter.address hfirst

variable [DecidableEq κ]

/-! ## The order -/

/-- What was posted is served in the order in which it was posted, each client's posts in the order
of its program. -/
structure Queued (programs : κ → List Errand) (o : Office κ) : Prop where
  planned : ∀ i, o.sent.filter (·.client = i) <+: Post.plan i (programs i)
  posted : o.worker.phase ≠ .crashed →
    ∀ i, (o.sent.filter (·.client = i)).length = (o.clients i).posted
  /-- What is not served yet waits in the queue, and the end of the worker waits behind it. -/
  running : ∀ {s}, o.worker.phase = .running s → Deed.Unbroken o.deeds ∧
    ∃ waiting, o.sent = Deed.posts o.deeds ++ waiting ∧
      o.worker.queue = waiting.map Post.letter ++ if o.closed then [goodbye] else []
  /-- All is served before the worker stops. -/
  stopped : o.worker.phase = .stopped →
    Deed.Unbroken o.deeds ∧ o.sent = Deed.posts o.deeds ∧ o.closed = true
  /-- Nothing is served any more once a command has been broken off. -/
  crashed : o.worker.phase = .crashed → Deed.posts o.deeds <+: o.sent ∧
    ∃ before source post after, o.deeds = before ++ .breakOff source post :: after ∧
      Deed.Unbroken before ∧ Deed.posts after = []
  /-- A worker that has ended keeps nothing. -/
  emptied : (∀ s, o.worker.phase ≠ .running s) → o.worker.queue = []

variable {programs : κ → List Errand} {action : Action κ} {o o' : Office κ}

theorem Queued.opened (programs : κ → List Errand) (s : Service) (bus : Bus) :
    (opened s bus : Office κ).Queued programs where
  planned _ := List.nil_prefix
  posted _ _ := rfl
  running _ := ⟨by simp [Office.opened, Deed.Unbroken], [], rfl, rfl⟩
  stopped h := nomatch h
  crashed h := nomatch h
  emptied h := absurd rfl (h s)

theorem Queued.letters (h : o.Queued programs) (s : Service)
    (hphase : o.worker.phase = .running s) :
    ∀ letter ∈ o.worker.queue, letter = goodbye ∨ ∃ post : Post κ, letter = post.letter := by
  obtain ⟨-, waiting, -, hqueue⟩ := h.running hphase
  intro letter hletter
  rw [hqueue] at hletter
  cases List.mem_append.mp hletter with
  | inl hletter =>
    obtain ⟨post, -, rfl⟩ := List.mem_map.mp hletter
    exact .inr ⟨post, rfl⟩
  | inr hletter =>
    split at hletter
    · exact .inl (List.mem_singleton.mp hletter)
    · cases hletter

theorem Queued.served_prefix (h : o.Queued programs) : Deed.posts o.deeds <+: o.sent := by
  cases hphase : o.worker.phase with
  | running s =>
    obtain ⟨-, waiting, hsent, -⟩ := h.running hphase
    rw [hsent]
    exact List.prefix_append _ _
  | stopped =>
    obtain ⟨-, hsent, -⟩ := h.stopped hphase
    exact ⟨[], by rw [List.append_nil, hsent]⟩
  | crashed => exact (h.crashed hphase).1

/-- Only a worker that has crashed refuses a command, as nobody posts after the closing. -/
theorem Queued.crashed_of_ended (h : o.Queued programs) (hended : ∀ s, o.worker.phase ≠ .running s)
    (hopen : o.closed = false) : o.worker.phase = .crashed := by
  cases hphase : o.worker.phase with
  | running s => exact absurd hphase (hended s)
  | stopped =>
    rw [(h.stopped hphase).2.2] at hopen
    cases hopen
  | crashed => rfl

/-- What is posted next goes on with the plan of its client. -/
theorem Queued.accepted {post : Post κ} (h : o.Queued programs) (hphase : o.worker.phase ≠ .crashed)
    (hidle : (o.clients post.client).waiting = false)
    (hnumber : post.number = (o.clients post.client).answers.length)
    (herrand : (programs post.client)[post.number]? = some post.errand) (i : κ) :
    (o.sent ++ [post]).filter (·.client = i) <+: Post.plan i (programs i) ∧
      ((o.sent ++ [post]).filter (·.client = i)).length =
        (o.clients i).posted + if post.client = i then 1 else 0 := by
  have hplanned := h.planned i
  have hposted := h.posted hphase i
  by_cases hclient : post.client = i
  · subst hclient
    -- The client does not wait, so it has posted as many commands as it has answers.
    have hlength : (o.sent.filter (·.client = post.client)).length = post.number := by
      rw [hposted, Client.posted, hidle, hnumber]
      rfl
    have hpost : [post].filter (·.client = post.client) = [post] := by simp
    rw [List.filter_append, hpost, if_pos rfl, List.length_append, hposted]
    refine ⟨?_, rfl⟩
    rw [← hlength] at herrand
    have hnext := Post.plan_concat hplanned herrand
    rw [hlength] at hnext
    exact hnext
  · have hpost : [post].filter (·.client = i) = [] := by simp [hclient]
    rw [List.filter_append, hpost, if_neg hclient, List.append_nil]
    exact ⟨hplanned, hposted⟩

theorem Queued.change (h : o.Queued programs) (hchange : Change programs o action o') :
    o'.Queued programs := by
  cases hchange with
  | @accepted s post running idle still number errand =>
    have hphase : o.worker.phase ≠ .crashed := by simp [running]
    have hpost := h.accepted hphase idle number errand
    refine ⟨fun i => (hpost i).1, fun _ => ?_, fun _ => ?_, fun hstopped => ?_,
      fun hcrashed => absurd hcrashed hphase, fun hended => absurd running (hended s)⟩
    · refine (Function.forall_update_iff o.clients fun i c =>
        ((o.sent ++ [post]).filter (·.client = i)).length = c.posted).mpr ⟨?_, fun i hother => ?_⟩
      · rw [(hpost post.client).2, if_pos rfl]
        split
        · simp [Client.posted, idle]
        · rw [Client.posted_get, Client.posted, idle]
          rfl
      · rw [(hpost i).2, if_neg hother.symm]
        rfl
    · -- The handle is still open, so what is posted goes to the end of the queue.
      obtain ⟨hunbroken, waiting, hsent, hqueue⟩ := h.running running
      rw [still] at hqueue
      refine ⟨hunbroken, waiting ++ [post], ?_, ?_⟩
      · dsimp only
        rw [hsent, List.append_assoc]
      · dsimp only
        rw [hqueue, still]
        simp
    · exact absurd hstopped (by simp [running])
  | @refused i ended still idle =>
    have hcrashed := h.crashed_of_ended ended still
    exact ⟨h.planned, fun hphase => absurd hcrashed hphase, h.running, h.stopped, h.crashed,
      h.emptied⟩
  | @abandoned i waits =>
    refine ⟨h.planned, fun hphase => ?_, h.running, h.stopped, h.crashed, h.emptied⟩
    refine (Function.forall_update_iff o.clients fun j c =>
      (o.sent.filter (·.client = j)).length = c.posted).mpr ⟨?_, fun j _ => h.posted hphase j⟩
    rw [h.posted hphase i, Client.posted_get, Client.posted, waits]
    rfl
  | @served s source post rest running queue whole =>
    obtain ⟨hunbroken, waiting, hsent, hqueue⟩ := h.running running
    -- What is served is the first that waits, so it goes to the end of what has been served.
    obtain ⟨others, rfl, hrest⟩ := waiting_cons (hqueue.symm.trans queue)
    refine ⟨h.planned, fun _ i => ?_, fun _ => ⟨?_, others, ?_, hrest⟩,
      fun hphase => absurd hphase (by simp), fun hphase => absurd hphase (by simp),
      fun hended => absurd rfl (hended _)⟩
    · dsimp only
      rw [posted_hand]
      exact h.posted (by simp [running]) i
    · exact hunbroken.concat rfl
    · dsimp only
      rw [hsent, Deed.posts_append, List.append_assoc]
      rfl
  | @broken s source post rest running queue abort =>
    obtain ⟨hunbroken, waiting, hsent, hqueue⟩ := h.running running
    -- The others that wait are never served, so what is served remains a beginning only.
    obtain ⟨others, rfl, -⟩ := waiting_cons (hqueue.symm.trans queue)
    refine ⟨h.planned, fun hphase => absurd rfl hphase, fun hphase => absurd hphase (by simp),
      fun hphase => absurd hphase (by simp),
      fun _ => ⟨?_, o.deeds, source, post, [], rfl, hunbroken, rfl⟩, fun _ => rfl⟩
    dsimp only
    rw [hsent, Deed.posts_append]
    exact List.prefix_append_right_inj _ |>.mpr (List.prefix_append [post] others)
  | @ended s source rest running queue =>
    obtain ⟨hunbroken, waiting, hsent, hqueue⟩ := h.running running
    -- The end of the worker stands behind all that was posted, so nothing waits now.
    obtain ⟨rfl, hclosed⟩ := waiting_nil (hqueue.symm.trans queue)
    rw [List.append_nil] at hsent
    refine ⟨h.planned, fun _ i => ?_, fun hphase => absurd hphase (by simp),
      fun _ => ⟨hunbroken, hsent, hclosed⟩, fun hphase => absurd hphase (by simp), fun _ => rfl⟩
    dsimp only
    rw [Client.posted_disconnect]
    exact h.posted (by simp [running]) i
  | elsewhere action =>
    have hposts : Deed.posts (o.deeds ++ [.elsewhere action]) = Deed.posts o.deeds := by
      rw [Deed.posts_append]
      exact List.append_nil _
    refine ⟨h.planned, h.posted, fun hphase => ?_, fun hphase => ?_, fun hphase => ?_, h.emptied⟩
    · obtain ⟨hunbroken, waiting, hsent, hqueue⟩ := h.running hphase
      exact ⟨hunbroken.concat rfl, waiting, by rw [hposts]; exact hsent, hqueue⟩
    · obtain ⟨hunbroken, hsent, hclosed⟩ := h.stopped hphase
      exact ⟨hunbroken.concat rfl, by rw [hposts]; exact hsent, hclosed⟩
    · obtain ⟨hserved, before, source, post, later, hdeeds, hunbroken, hlater⟩ := h.crashed hphase
      refine ⟨by rw [hposts]; exact hserved, before, source, post, later ++ [.elsewhere action], ?_,
        hunbroken, ?_⟩
      · dsimp only
        rw [hdeeds, List.append_assoc]
        rfl
      · rw [Deed.posts_append, hlater]
        rfl
  | @closed s running still =>
    refine ⟨h.planned, h.posted, fun _ => ?_, fun hphase => absurd hphase (by simp [running]),
      fun hphase => absurd hphase (by simp [running]), fun hended => absurd running (hended s)⟩
    obtain ⟨hunbroken, waiting, hsent, hqueue⟩ := h.running running
    refine ⟨hunbroken, waiting, hsent, ?_⟩
    dsimp only
    rw [hqueue, still]
    simp
  | closedLate ended =>
    refine ⟨h.planned, h.posted, fun hphase => absurd hphase (ended _), fun hphase => ?_, h.crashed,
      h.emptied⟩
    obtain ⟨hunbroken, hsent, -⟩ := h.stopped hphase
    exact ⟨hunbroken, hsent, rfl⟩

end Office

end LocationBroker
