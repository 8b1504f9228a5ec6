import LocationBroker.Broker.Worker
import LocationBroker.Proofs.Bus.Action
import Mathlib.Logic.Function.Basic

/-! # The office

An office is a worker with the clients that share its handle.  Each client goes through a program of
its own: it posts one command after the other, and waits for the answer to each that is answered
before it posts the next one, unless it stops waiting.  The worker serves what was posted in the
order in which it was posted.  Steps of the clients, of the worker and of other peers on the bus
come in any order; an action that is not possible changes nothing.

The handle is closed at most once; then nobody posts anything any more.  When the worker has ended,
whoever still waits is told so, and so is whoever posts something afterwards.

An office remembers what was posted (`sent`) and what became of the broker and the bus (`deeds`).
`direct` is what comes of the same deeds if the commands are applied to the broker by themselves.
-/

namespace LocationBroker

open Broker (Command Error Letter Reply Service Worker)
open Log (Effects)

/-- Whether a command is answered when it has been served. -/
def Broker.Command.expectsReply : Command → Bool
  | .deliver _ | .shutdown => false
  | _ => true

/-- A command that a client may give; ending the worker is not up to clients. -/
structure Errand where
  command : Command
  command_ne : command ≠ .shutdown

/-- What a client gets for a command. -/
inductive Answer where
  | given (reply : Except Error Reply)
  /-- The client did not wait for the answer. -/
  | abandoned

structure Client where
  /-- What the client got for its commands so far, in order. -/
  answers : List Answer := []
  /-- Whether it waits for the answer to the next one. -/
  waiting : Bool := false

namespace Client

def get (c : Client) (answer : Answer) : Client :=
  { answers := c.answers ++ [answer], waiting := false }

def posted (c : Client) : Nat :=
  c.answers.length + c.waiting.toNat

/-- Tells the client, if it waits, that the worker has ended. -/
def disconnect (c : Client) : Client :=
  if c.waiting then c.get (.given (.error .workerDisconnected)) else c

theorem posted_get (c : Client) (answer : Answer) :
    (c.get answer).posted = c.answers.length + 1 := by
  simp [get, posted]

theorem mem_get {c : Client} {answer other : Answer} (h : other ∈ (c.get answer).answers) :
    other ∈ c.answers ∨ answer = other :=
  (List.mem_append.mp h).imp_right fun hlast => (List.mem_singleton.mp hlast).symm

theorem posted_disconnect (c : Client) : c.disconnect.posted = c.posted := by
  rw [disconnect]
  split
  · rename_i hwaiting
    rw [posted_get, posted, hwaiting]
    rfl
  · rfl

end Client

/-- A command of a client, with its place in the client's program. -/
structure Post (κ : Type) where
  client : κ
  number : Nat
  errand : Errand

namespace Post

variable {κ : Type}

def letter (post : Post κ) : Letter (Option (Post κ)) :=
  ⟨some post, post.errand.command⟩

/-- The posts of a client that goes through a program. -/
def plan (client : κ) (program : List Errand) : List (Post κ) :=
  program.mapIdx fun number errand => ⟨client, number, errand⟩

end Post

/-- Something that becomes of the broker and the bus. -/
inductive Deed (κ : Type) where
  | serve (source : Provider.Source) (post : Post κ)
  /-- A hook has ended the worker in the middle of the command. -/
  | breakOff (source : Provider.Source) (post : Post κ)
  /-- Somebody else has done something on the bus. -/
  | elsewhere (action : Bus.Action)

namespace Deed

variable {κ : Type}

def post? : Deed κ → Option (Post κ)
  | .serve _ post | .breakOff _ post => some post
  | .elsewhere _ => none

def posts (deeds : List (Deed κ)) : List (Post κ) :=
  deeds.filterMap post?

end Deed

/-! ## Applying commands directly -/

/-- What came of several deeds. -/
structure Account (κ : Type) where
  service : Service
  bus : Bus
  replies : List (Post κ × Reply) := []
  effects : Effects := []

namespace Account

variable {κ : Type}

def enter (a : Account κ) : Deed κ → Account κ
  | .serve source post =>
    let o := a.service.apply a.bus source post.errand.command
    { service := o.service, bus := o.bus
      replies := a.replies ++ [(post, o.result)]
      effects := a.effects ++ o.effects }
  | .breakOff source post =>
    let o := a.service.apply a.bus source post.errand.command
    { a with
      bus := a.service.busAtAbort a.bus post.errand.command
      effects := a.effects ++ Broker.untilAbort o.effects }
  | .elsewhere action => { a with bus := a.bus.step action }

end Account

/-- What comes of the deeds if the commands are applied to the broker one after the other. -/
def direct {κ : Type} (s : Service) (bus : Bus) (deeds : List (Deed κ)) : Account κ :=
  deeds.foldl Account.enter { service := s, bus }

theorem direct_append {κ : Type} (s : Service) (bus : Bus) (deeds : List (Deed κ))
    (deed : Deed κ) : direct s bus (deeds ++ [deed]) = (direct s bus deeds).enter deed := by
  rw [direct, List.foldl_append]
  rfl

/-! ## The system -/

/-- A worker with the clients that share its handle. -/
structure Office (κ : Type) where
  worker : Worker (Option (Post κ))
  bus : Bus
  /-- What the worker told so far. -/
  effects : Effects
  clients : κ → Client
  closed : Bool := false
  /-- What the clients have posted, in the order of the worker's queue. -/
  sent : List (Post κ) := []
  deeds : List (Deed κ) := []

namespace Office

inductive Action (κ : Type) where
  /-- A client posts its next command. -/
  | issue (client : κ)
  /-- A client stops waiting for its answer. -/
  | abandon (client : κ)
  /-- The worker serves the first of its commands, with the source as it answers now. -/
  | turn (source : Provider.Source)
  | elsewhere (action : Bus.Action)
  /-- The handle is shut down or dropped. -/
  | close

variable {κ : Type}

theorem serve_letter (s : Service) (bus : Bus) (source : Provider.Source) (post : Post κ)
    (rest : List (Letter (Option (Post κ)))) :
    Worker.serve s bus source post.letter rest =
      let done := s.apply bus source post.errand.command
      if done.effects.any Broker.isAbort then {
        worker := { phase := .crashed }
        bus := s.busAtAbort bus post.errand.command
        effects := Broker.untilAbort done.effects
        reply := none }
      else {
        worker := { phase := .running done.service, queue := rest }
        bus := done.bus
        effects := done.effects
        reply := some (some post, done.result) } := by
  rw [Worker.serve]
  split
  · rename_i hcommand
    exact absurd hcommand post.errand.command_ne
  · rfl

theorem send_running {o : Office κ} {s : Service} (h : o.worker.phase = .running s)
    (letter : Letter (Option (Post κ))) :
    o.worker.send letter = .ok { o.worker with queue := o.worker.queue ++ [letter] } := by
  rw [Worker.send]
  split
  · rfl
  all_goals
    rename_i hphase
    rw [h] at hphase
    cases hphase

theorem send_ended {o : Office κ} (h : ∀ s, o.worker.phase ≠ .running s)
    (letter : Letter (Option (Post κ))) :
    o.worker.send letter = .error .workerDisconnected := by
  rw [Worker.send]
  split
  · rename_i s hphase
    exact absurd hphase (h s)
  · rfl
  · rfl

theorem running_or_ended (o : Office κ) :
    (∃ s, o.worker.phase = .running s) ∨ ∀ s, o.worker.phase ≠ .running s := by
  cases o.worker.phase with
  | running s => exact .inl ⟨s, rfl⟩
  | stopped | crashed => exact .inr (by simp)

/-- The letter that ends the worker; nobody awaits an answer to it. -/
def goodbye : Letter (Option (Post κ)) :=
  ⟨none, .shutdown⟩

/-- Moves a broker to an office that nobody has used yet. -/
def opened (s : Service) (bus : Bus) : Office κ :=
  let (worker, effects) := Worker.spawn s
  { worker, bus, effects, clients := fun _ => {} }

/-- What becomes of the broker by a turn of the worker, if it is a command that is served. -/
def deedOf (source : Provider.Source) (queue : List (Letter (Option (Post κ))))
    (worker : Worker (Option (Post κ))) : List (Deed κ) :=
  match queue.head?.bind (·.address), worker.phase with
  | some post, .crashed => [.breakOff source post]
  | some post, _ => [.serve source post]
  | none, _ => []

def close (o : Office κ) : Office κ :=
  if o.closed then o
  else
    match o.worker.send goodbye with
    | .ok worker => { o with worker, closed := true }
    | .error _ => { o with closed := true }

variable [DecidableEq κ]

def post (o : Office κ) (post : Post κ) : Office κ :=
  let client := o.clients post.client
  match o.worker.send post.letter with
  | .error e =>
    { o with clients := Function.update o.clients post.client (client.get (.given (.error e))) }
  | .ok worker =>
    -- Nobody waits for an answer that is not given.
    let client := if post.errand.command.expectsReply then { client with waiting := true }
      else client.get (.given (.ok .none))
    { o with
      worker, sent := o.sent ++ [post], clients := Function.update o.clients post.client client }

def issue (o : Office κ) (programs : κ → List Errand) (i : κ) : Office κ :=
  let client := o.clients i
  if client.waiting ∨ o.closed then o
  else
    match (programs i)[client.answers.length]? with
    | some errand => o.post ⟨i, client.answers.length, errand⟩
    | none => o

def abandon (o : Office κ) (i : κ) : Office κ :=
  if (o.clients i).waiting then
    { o with clients := Function.update o.clients i ((o.clients i).get .abandoned) }
  else o

/-- Gives a reply to the client that waits for it, if it still does. -/
def hand (clients : κ → Client) : Option (Option (Post κ) × Reply) → κ → Client
  | some (some post, r), i =>
    let client := clients i
    if post.client = i ∧ client.waiting ∧ client.answers.length = post.number then
      client.get (.given (.ok r))
    else client
  | _, i => clients i

def turn (o : Office κ) (source : Provider.Source) : Office κ :=
  match o.worker.turn o.bus source with
  | none => o
  | some t =>
    { o with
      worker := t.worker
      bus := t.bus
      effects := o.effects ++ t.effects
      deeds := o.deeds ++ deedOf source o.worker.queue t.worker
      clients := match t.worker.phase with
        | .running _ => hand o.clients t.reply
        | _ => fun i => (o.clients i).disconnect }

def step (programs : κ → List Errand) (o : Office κ) : Action κ → Office κ
  | .issue i => o.issue programs i
  | .abandon i => o.abandon i
  | .turn source => o.turn source
  | .elsewhere action =>
    { o with bus := o.bus.step action, deeds := o.deeds ++ [.elsewhere action] }
  | .close => o.close

def run (programs : κ → List Errand) (o : Office κ) (actions : List (Action κ)) : Office κ :=
  actions.foldl (step programs) o

theorem run_append (programs : κ → List Errand) (o : Office κ) (first second : List (Action κ)) :
    o.run programs (first ++ second) = (o.run programs first).run programs second :=
  List.foldl_append

/-- A client that posts a command when the worker has ended is told so at once. -/
theorem issue_ended {programs : κ → List Errand} {o : Office κ} {i : κ} {errand : Errand}
    (hended : ∀ s, o.worker.phase ≠ .running s) (hidle : (o.clients i).waiting = false)
    (hopen : o.closed = false)
    (herrand : (programs i)[(o.clients i).answers.length]? = some errand) :
    o.issue programs i = { o with
      clients := Function.update o.clients i
        ((o.clients i).get (.given (.error .workerDisconnected))) } := by
  rw [issue, if_neg (by simp [hidle, hopen])]
  simp only [herrand]
  rw [post, send_ended hended]

/-! ## What an action can do -/

section Turn

variable {o : Office κ} {s : Service} {source : Provider.Source} {post : Post κ}
  {rest : List (Letter (Option (Post κ)))}

theorem turn_idle (h : ∀ s, o.worker.phase = .running s → o.worker.queue = []) :
    o.turn source = o := by
  have hnone : o.worker.turn o.bus source = none := by
    rw [Worker.turn]
    split
    · rename_i hphase hqueue
      rw [h _ hphase] at hqueue
      cases hqueue
    · rfl
  rw [turn, hnone]

theorem turn_served (hphase : o.worker.phase = .running s)
    (hqueue : o.worker.queue = post.letter :: rest)
    (hno : (s.apply o.bus source post.errand.command).effects.any Broker.isAbort = false) :
    o.turn source =
      let done := s.apply o.bus source post.errand.command
      { o with
        worker := { phase := .running done.service, queue := rest }
        bus := done.bus
        effects := o.effects ++ done.effects
        deeds := o.deeds ++ [.serve source post]
        clients := hand o.clients (some (some post, done.result)) } := by
  rw [turn, Worker.turn, hphase, hqueue]
  simp only [serve_letter, hno]
  rfl

theorem turn_broken (hphase : o.worker.phase = .running s)
    (hqueue : o.worker.queue = post.letter :: rest)
    (habort : (s.apply o.bus source post.errand.command).effects.any Broker.isAbort = true) :
    o.turn source =
      { o with
        worker := { phase := .crashed }
        bus := s.busAtAbort o.bus post.errand.command
        effects := o.effects
          ++ Broker.untilAbort (s.apply o.bus source post.errand.command).effects
        deeds := o.deeds ++ [.breakOff source post]
        clients := fun i => (o.clients i).disconnect } := by
  rw [turn, Worker.turn, hphase, hqueue]
  simp only [serve_letter, habort]
  rfl

theorem turn_ended (hphase : o.worker.phase = .running s)
    (hqueue : o.worker.queue = goodbye :: rest) :
    o.turn source =
      { o with
        worker := { phase := .stopped }
        effects := o.effects ++ [.event .workerStopping, .event (.workerStopped s.stats)]
        clients := fun i => (o.clients i).disconnect } := by
  rw [turn, Worker.turn, hphase, hqueue]
  simp [Worker.serve, goodbye, deedOf]

end Turn

theorem posted_hand (clients : κ → Client) (post : Post κ) (r : Reply) (i : κ) :
    (hand clients (some (some post, r)) i).posted = (clients i).posted := by
  rw [hand]
  split
  · rename_i htaken
    rw [Client.posted_get, Client.posted, htaken.2.1]
    rfl
  · rfl

/-- What an action does that changes the office, with what it needs to do so. -/
inductive Change (programs : κ → List Errand) (o : Office κ) : Action κ → Office κ → Prop where
  | accepted {s : Service} {post : Post κ} (running : o.worker.phase = .running s)
      (idle : (o.clients post.client).waiting = false) (still : o.closed = false)
      (number : post.number = (o.clients post.client).answers.length)
      (errand : (programs post.client)[post.number]? = some post.errand) :
      Change programs o (.issue post.client) { o with
        worker := { o.worker with queue := o.worker.queue ++ [post.letter] }
        sent := o.sent ++ [post]
        clients := Function.update o.clients post.client
          (if post.errand.command.expectsReply then
            { (o.clients post.client) with waiting := true }
          else (o.clients post.client).get (.given (.ok .none))) }
  | refused {i : κ} (ended : ∀ s, o.worker.phase ≠ .running s) (still : o.closed = false)
      (idle : (o.clients i).waiting = false) :
      Change programs o (.issue i) { o with
        clients := Function.update o.clients i
          ((o.clients i).get (.given (.error .workerDisconnected))) }
  | abandoned {i : κ} (waits : (o.clients i).waiting = true) :
      Change programs o (.abandon i) { o with
        clients := Function.update o.clients i ((o.clients i).get .abandoned) }
  | served {s : Service} {source : Provider.Source} {post : Post κ}
      {rest : List (Letter (Option (Post κ)))} (running : o.worker.phase = .running s)
      (queue : o.worker.queue = post.letter :: rest)
      (whole : (s.apply o.bus source post.errand.command).effects.any Broker.isAbort = false) :
      Change programs o (.turn source) { o with
        worker := {
          phase := .running (s.apply o.bus source post.errand.command).service, queue := rest }
        bus := (s.apply o.bus source post.errand.command).bus
        effects := o.effects ++ (s.apply o.bus source post.errand.command).effects
        deeds := o.deeds ++ [.serve source post]
        clients := hand o.clients
          (some (some post, (s.apply o.bus source post.errand.command).result)) }
  | broken {s : Service} {source : Provider.Source} {post : Post κ}
      {rest : List (Letter (Option (Post κ)))} (running : o.worker.phase = .running s)
      (queue : o.worker.queue = post.letter :: rest)
      (abort : (s.apply o.bus source post.errand.command).effects.any Broker.isAbort = true) :
      Change programs o (.turn source) { o with
        worker := { phase := .crashed }
        bus := s.busAtAbort o.bus post.errand.command
        effects := o.effects
          ++ Broker.untilAbort (s.apply o.bus source post.errand.command).effects
        deeds := o.deeds ++ [.breakOff source post]
        clients := fun i => (o.clients i).disconnect }
  | ended {s : Service} (source : Provider.Source) {rest : List (Letter (Option (Post κ)))}
      (running : o.worker.phase = .running s) (queue : o.worker.queue = goodbye :: rest) :
      Change programs o (.turn source) { o with
        worker := { phase := .stopped }
        effects := o.effects ++ [.event .workerStopping, .event (.workerStopped s.stats)]
        clients := fun i => (o.clients i).disconnect }
  | elsewhere (action : Bus.Action) :
      Change programs o (.elsewhere action) { o with
        bus := o.bus.step action, deeds := o.deeds ++ [.elsewhere action] }
  | closed {s : Service} (running : o.worker.phase = .running s) (still : o.closed = false) :
      Change programs o .close { o with
        worker := { o.worker with queue := o.worker.queue ++ [goodbye] }, closed := true }
  | closedLate (ended : ∀ s, o.worker.phase ≠ .running s) :
      Change programs o .close { o with closed := true }

section Cases

variable {o : Office κ} (programs : κ → List Errand)
  (hqueue : ∀ s, o.worker.phase = .running s → ∀ letter ∈ o.worker.queue,
    letter = goodbye ∨ ∃ post : Post κ, letter = post.letter)

include hqueue

/-- A turn changes the office, unless the worker has ended or nothing waits for it. -/
theorem turn_cases (source : Provider.Source) :
    (∀ s, o.worker.phase = .running s → o.worker.queue = []) ∧ o.turn source = o ∨
      Change programs o (.turn source) (o.turn source) := by
  obtain ⟨s, hrunning⟩ | hended := o.running_or_ended
  · cases hletters : o.worker.queue with
    | nil => exact .inl ⟨fun _ _ => rfl, turn_idle fun _ _ => hletters⟩
    | cons letter rest =>
      right
      -- The worker reads either its end or a command, and a hook may end it there.
      obtain rfl | ⟨post, rfl⟩ := hqueue s hrunning letter
        (by rw [hletters]; exact List.mem_cons_self)
      · rw [turn_ended hrunning hletters]
        exact .ended source hrunning hletters
      · cases habort : (s.apply o.bus source post.errand.command).effects.any Broker.isAbort with
        | true =>
          rw [turn_broken hrunning hletters habort]
          exact .broken hrunning hletters habort
        | false =>
          rw [turn_served hrunning hletters habort]
          exact .served hrunning hletters habort
  · exact .inl ⟨fun s hs => absurd hs (hended s), turn_idle fun s hs => absurd hs (hended s)⟩

/-- An action changes the office in one of these ways, or not at all. -/
theorem step_cases (action : Action κ) :
    o.step programs action = o ∨ Change programs o action (o.step programs action) := by
  have hphase := o.running_or_ended
  cases action with
  | issue i =>
    rw [step, issue]
    split
    · exact .inl rfl
    · rename_i hfree
      rw [not_or, Bool.not_eq_true, Bool.not_eq_true] at hfree
      split
      · rename_i errand herrand
        right
        obtain ⟨s, hrunning⟩ | hended := hphase
        · rw [post, send_running hrunning]
          exact @Change.accepted _ _ _ _ s ⟨i, _, errand⟩ hrunning hfree.1 hfree.2 rfl herrand
        · rw [post, send_ended hended]
          exact .refused hended hfree.2 hfree.1
      · exact .inl rfl
  | abandon i =>
    rw [step, abandon]
    split
    · exact .inr (.abandoned ‹_›)
    · exact .inl rfl
  | turn source => exact (turn_cases programs hqueue source).imp_left And.right
  | elsewhere action => exact .inr (.elsewhere action)
  | close =>
    rw [step, close]
    split
    · exact .inl rfl
    · rename_i hopen
      rw [Bool.not_eq_true] at hopen
      right
      obtain ⟨s, hrunning⟩ | hended := hphase
      · rw [send_running hrunning]
        exact .closed hrunning hopen
      · rw [send_ended hended]
        exact .closedLate hended

end Cases

end Office

end LocationBroker
