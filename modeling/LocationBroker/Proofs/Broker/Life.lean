import LocationBroker.Proofs.Broker.SessionIdentity

/-! # The life of a session

There is no session at a path before one is created there, and none ever again once that one has
been destroyed.  A `Course` is what became known of a path so far: what the effects tell of it, and
what was attached and stated there.  `Life` says how the course of a path and the session that is
live there belong together, and every operation of a broker keeps it (`perform_lived`,
`after_lived`).
-/

namespace LocationBroker

open Log (Effects)

namespace Session.Registry

variable {r : Registry} {path other : Bus.ObjectPath}

/-! ## What is found at a path -/

theorem get?_create (r : Registry) (owner : String) (path : Bus.ObjectPath) :
    (r.create owner).2.1.get? path =
      (r.get? path).or
        (if r.nextPath = path then some { owner, path := r.nextPath } else none) := by
  rw [get?, create_sessions, List.find?_append]
  congr 1
  by_cases h : r.nextPath = path <;> simp [h]

theorem get?_remove (r : Registry) (path other : Bus.ObjectPath) :
    (r.remove path).get? other = if other = path then none else r.get? other := by
  rw [get?, remove, List.find?_filter]
  split
  · rename_i hsame
    simp [hsame]
  · rename_i hother
    congr 1
    funext x
    by_cases h : x.path = other <;> simp [h, hother]

theorem get?_modify {change : Session → Session} (hpath : ∀ x, (change x).path = x.path)
    (path other : Bus.ObjectPath) :
    (r.modify path change).get? other =
      if other = path then (r.get? other).map change else r.get? other := by
  have hfound : ∀ x : Session, (if x.path = path then change x else x).path = x.path := by
    intro x
    split
    · exact hpath x
    · rfl
  have hlook : (r.modify path change).get? other =
      (r.get? other).map fun x => if x.path = path then change x else x := by
    simp only [get?, modify, List.find?_map]
    congr 2
    funext x
    simp [hfound x]
  rw [hlook]
  cases hget : r.get? other with
  | none => simp
  | some x =>
    obtain ⟨-, rfl⟩ := mem_of_get? hget
    split <;> simp [*]

end Session.Registry

/-! ## What becomes known of a path -/

namespace Broker

/-- What became known of a path so far. -/
structure Course where
  /-- The peers for which sessions were created at the path. -/
  owners : List String := []
  /-- How often a session of the path was destroyed. -/
  ends : Nat := 0
  /-- The hooks that were run for a session of the path, each with what it was given. -/
  runs : List (Session.Hook × Session) := []
  /-- The hooks that were attached to a session of the path. -/
  hooks : List Session.Hook := []
  /-- What clients required for a session of the path. -/
  stated : List Provider.Constraints := []

namespace Course

instance : Append Course where
  append a b := {
    owners := a.owners ++ b.owners
    ends := a.ends + b.ends
    runs := a.runs ++ b.runs
    hooks := a.hooks ++ b.hooks
    stated := a.stated ++ b.stated }

@[simp] theorem mk_append (owners owners' : List String) (ends ends' : Nat)
    (runs runs' : List (Session.Hook × Session)) (hooks hooks' : List Session.Hook)
    (stated stated' : List Provider.Constraints) :
    (⟨owners, ends, runs, hooks, stated⟩ : Course) ++
        (⟨owners', ends', runs', hooks', stated'⟩ : Course) =
      ⟨owners ++ owners', ends + ends', runs ++ runs', hooks ++ hooks', stated ++ stated'⟩ := rfl

@[simp] theorem append_empty (c : Course) : c ++ ({} : Course) = c := by
  cases c
  simp

@[simp] theorem empty_append (c : Course) : ({} : Course) ++ c = c := by
  cases c
  simp

theorem append_assoc (a b c : Course) : a ++ b ++ c = a ++ (b ++ c) := by
  cases a
  cases b
  cases c
  simp [Nat.add_assoc]

end Course

end Broker

namespace Log.Effects

open Broker (Course)

/-- What effects tell of a path. -/
def courseAt (es : Effects) (path : Bus.ObjectPath) : Course where
  owners := es.filterMap fun
    | .event (.sessionCreated other owner) => if other = path then some owner else none
    | _ => none
  ends := es.destroyed.count path
  runs := es.hookRuns.filter fun run => run.2.path = path

variable {path : Bus.ObjectPath}

@[simp] theorem courseAt_append (first second : Effects) (path : Bus.ObjectPath) :
    courseAt (first ++ second) path = courseAt first path ++ courseAt second path := by
  simp [courseAt, List.filterMap_append]

/-- What creates no session tells only of hooks and of ends. -/
theorem courseAt_of_created {es : Effects} (h : es.created = []) (path : Bus.ObjectPath) :
    courseAt es path = {
      ends := es.destroyed.count path
      runs := es.hookRuns.filter fun run => run.2.path = path } := by
  rw [courseAt]
  congr 1
  refine List.filterMap_eq_nil_iff.mpr fun e he => ?_
  have hnone := List.filterMap_eq_nil_iff.mp h e he
  cases e with
  | event e => cases e <;> first | rfl | cases hnone
  | listed | read | hookRun => rfl

/-- Idle effects tell nothing of any path. -/
theorem Idle.courseAt {es : Effects} (h : es.Idle) (path : Bus.ObjectPath) :
    es.courseAt path = {} := by
  rw [courseAt_of_created (h.quiet none).created, (h.quiet none).destroyed, h.hookRuns]
  rfl

theorem courseAt_load (r : Provider.Registry) (source : Provider.Source) :
    courseAt (r.load source).2.2 path = {} := by
  obtain ⟨hcreated, hdestroyed⟩ := sessions_load r source
  rw [courseAt_of_created hcreated, hdestroyed, hookRuns_load]
  rfl

theorem hookRuns_settle (left : Session.Registry) (gone : Session)
    (providers : Provider.Registry) : hookRuns (left.settle gone providers).2 = [] := by
  refine List.filterMap_eq_nil_iff.mpr fun e he => ?_
  obtain ⟨event, rfl⟩ := Session.Registry.event_of_mem_settle he
  rfl

theorem courseAt_settle (left : Session.Registry) (gone : Session)
    (providers : Provider.Registry) :
    courseAt (left.settle gone providers).2 path =
      { ends := if gone.path = path then 1 else 0 } := by
  obtain ⟨hcreated, hdestroyed, -⟩ :=
    Session.Registry.settle_effects left gone providers none
  rw [courseAt_of_created hcreated, hdestroyed, hookRuns_settle]
  simp [List.count_singleton]

theorem courseAt_runHook (x : Session) :
    courseAt (Session.Registry.runHook x) path =
      { runs := if x.path = path then x.hook.toList.map (·, { x with hook := none }) else [] } := by
  rw [Session.Registry.runHook]
  cases x.hook with
  | none => simp [courseAt, destroyed, hookRuns]
  | some hook => by_cases h : x.path = path <;> simp [courseAt, destroyed, hookRuns, h]

end Log.Effects

/-! ## Life -/

namespace Broker

open Session (Registry)

/-- How the session that is live at a path and the course of the path belong together. -/
inductive Life (path : Bus.ObjectPath) : Option Session → Course → Prop where
  /-- No session has been created at the path. -/
  | ahead : Life path none {}
  /-- The session has the hook that was attached last, and the last requirements. -/
  | live (owner : String) (hooks : List Session.Hook) (stated : List Provider.Constraints) :
      Life path
        (some { owner, path, requirements := stated.getLast?.getD .any, hook := hooks.getLast? })
        { owners := [owner], hooks, stated }
  /-- The session was destroyed, and the hook that was attached last has been run. -/
  | past (owner : String) (hooks : List Session.Hook) (stated : List Provider.Constraints) :
      Life path none {
        owners := [owner], ends := 1, hooks, stated
        runs := hooks.getLast?.toList.map
          (·, { owner, path, requirements := stated.getLast?.getD .any }) }

namespace Life

variable {path : Bus.ObjectPath} {x : Session} {c : Course}

theorem requirements_eq (h : Life path (some x) c) :
    x.requirements = c.stated.getLast?.getD .any := by
  cases h with
  | live => rfl

theorem ended (h : Life path (some x) c) :
    Life path none
      (c ++ { ends := 1, runs := x.hook.toList.map (·, { x with hook := none }) }) := by
  cases h with
  | live owner hooks stated => simpa using Life.past owner hooks stated

theorem attach (h : Life path (some x) c) (hook : Session.Hook) :
    Life path (some { x with hook := some hook }) (c ++ { hooks := [hook] }) := by
  cases h with
  | live owner hooks stated => simpa using Life.live owner (hooks ++ [hook]) stated

theorem state (h : Life path (some x) c) (required : Provider.Constraints) :
    Life path (some { x with requirements := required }) (c ++ { stated := [required] }) := by
  cases h with
  | live owner hooks stated => simpa using Life.live owner hooks (stated ++ [required])

end Life

/-- The course of a path is that of a life, and there will not be another one at the path. -/
structure Lived (r : Registry) (path : Bus.ObjectPath) (c : Course) : Prop where
  life : Life path (r.get? path) c
  spent : c.owners ≠ [] → ∃ serial < r.nextSerial, path = r.base.withSerial serial

namespace Lived

variable {r after : Registry} {path : Bus.ObjectPath} {c new : Course}

theorem empty (base path : Bus.ObjectPath) : Lived { base } path {} where
  life := .ahead
  spent h := absurd rfl h

/-- A life goes on while the numbering does, as long as no session is created at the path. -/
theorem extend (h : Lived r path c) (hlife : Life path (after.get? path) (c ++ new))
    (hnew : new.owners = []) (hbase : after.base = r.base)
    (hserial : r.nextSerial ≤ after.nextSerial) : Lived after path (c ++ new) := by
  refine ⟨hlife, fun howners => ?_⟩
  have howners' : c.owners ≠ [] := by
    intro hnone
    have happend : (c ++ new).owners = c.owners ++ new.owners := rfl
    rw [happend, hnone, hnew] at howners
    exact howners rfl
  obtain ⟨serial, hlt, hpath⟩ := h.spent howners'
  exact ⟨serial, by omega, by rw [hbase]; exact hpath⟩

theorem congr (h : Lived r path c) (hget : after.get? path = r.get? path)
    (hbase : after.base = r.base) (hserial : r.nextSerial ≤ after.nextSerial) :
    Lived after path c := by
  have hlife : Life path (after.get? path) (c ++ {}) := by
    rw [hget, Course.append_empty]
    exact h.life
  simpa using h.extend hlife rfl hbase hserial

/-- Nothing is known of the next path. -/
theorem eq_empty (h : Lived r r.nextPath c) (hnumbered : r.Numbered) :
    r.get? r.nextPath = none ∧ c = {} := by
  have hnone := Registry.get?_eq_none_iff.mpr hnumbered.nextPath_not_mem
  have hunspent : c.owners = [] := by
    by_contra howners
    obtain ⟨serial, hlt, hpath⟩ := h.spent howners
    have hserial := Bus.ObjectPath.withSerial_injective hpath
    omega
  have hlife := h.life
  rw [hnone] at hlife
  cases hlife with
  | ahead => exact ⟨hnone, rfl⟩
  | past => cases hunspent

theorem create (h : Lived r path c) (hnumbered : r.Numbered) (owner : String) :
    Lived (r.create owner).2.1 path (c ++ (r.create owner).2.2.courseAt path) := by
  have hcourse : (r.create owner).2.2.courseAt path =
      { owners := if r.nextPath = path then [owner] else [] } := by
    by_cases hnew : r.base.withSerial r.nextSerial = path <;>
      simp [Registry.create, Registry.nextPath, Log.Effects.courseAt, Log.Effects.destroyed,
        Log.Effects.hookRuns, hnew]
  rw [hcourse]
  by_cases hnew : r.nextPath = path
  · subst hnew
    obtain ⟨hnone, rfl⟩ := h.eq_empty hnumbered
    refine ⟨?_, fun _ => ⟨r.nextSerial, Nat.lt_succ_self _, rfl⟩⟩
    rw [Registry.get?_create, hnone, if_pos rfl, if_pos rfl]
    exact .live owner [] []
  · rw [if_neg hnew, Course.append_empty]
    refine h.congr ?_ rfl (Nat.le_succ _)
    rw [Registry.get?_create, if_neg hnew, Option.or_none]

theorem destroy (h : Lived r path c) (other : Bus.ObjectPath) (providers : Provider.Registry) :
    Lived (r.destroy other providers).2.1 path
      (c ++ (r.destroy other providers).2.2.2.courseAt path) := by
  cases hget : r.get? other with
  | none =>
    rw [Registry.destroy_of_not_mem (Registry.get?_eq_none_iff.mp hget)]
    exact (Course.append_empty c).symm ▸ h
  | some x =>
    obtain ⟨-, rfl⟩ := Registry.mem_of_get? hget
    rw [Registry.destroy_of_get? hget]
    dsimp only
    rw [Log.Effects.courseAt_append, Log.Effects.courseAt_runHook, Log.Effects.courseAt_settle]
    by_cases hsame : x.path = path
    · -- The session of the path comes to its end.
      subst hsame
      have hlife : Life x.path (some x) c := hget ▸ h.life
      rw [if_pos rfl, if_pos rfl, Course.mk_append]
      refine h.extend ?_ rfl rfl (Nat.le_refl _)
      rw [Registry.get?_remove, if_pos rfl]
      simpa using hlife.ended
    · rw [if_neg hsame, if_neg hsame, Course.append_empty, Course.append_empty]
      refine h.congr ?_ rfl (Nat.le_refl _)
      rw [Registry.get?_remove, if_neg (Ne.symm hsame)]

/-- Changing the session of another path is nothing to a path. -/
theorem modify_of_ne (h : Lived r path c) {other : Bus.ObjectPath} {change : Session → Session}
    (hpath : ∀ x, (change x).path = x.path) (hother : path ≠ other) :
    Lived (r.modify other change) path c := by
  refine h.congr ?_ rfl (Nat.le_refl _)
  rw [Registry.get?_modify hpath, if_neg hother]

theorem modify (h : Lived r path c) {x : Session} {change : Session → Session}
    (hpath : ∀ x, (change x).path = x.path) (hget : r.get? path = some x)
    (hlife : Life path (some x) c → Life path (some (change x)) (c ++ new))
    (hnew : new.owners = []) : Lived (r.modify path change) path (c ++ new) := by
  refine h.extend ?_ hnew rfl (Nat.le_refl _)
  rw [Registry.get?_modify hpath, if_pos rfl, hget]
  exact hlife (hget ▸ h.life)

end Lived

/-! ## Every operation -/

namespace Service

/-- The hooks that an operation attaches to the session of a path. -/
def attachedOn (s : Service) (occasion : Occasion) (path : Bus.ObjectPath) : List Session.Hook :=
  match occasion.operation with
  | .attachHook text hook =>
    if text = path.text ∧ (s.attachHook occasion.bus text hook).result.isOk then [hook] else []
  | _ => []

/-- What an operation makes the requirements of the session of a path. -/
def statedOn (s : Service) (occasion : Occasion) (path : Bus.ObjectPath) :
    List Provider.Constraints :=
  match occasion.operation with
  | .setRequirements text c =>
    if text = path.text ∧ (s.setRequirements occasion.bus text c).result.isOk then [c] else []
  | _ => []

/-- What becomes known of a path on one occasion. -/
def courseOn (s : Service) (occasion : Occasion) (path : Bus.ObjectPath) : Course :=
  { (s.perform occasion.bus occasion.operation).effects.courseAt path with
    hooks := s.attachedOn occasion path
    stated := s.statedOn occasion path }

/-- What becomes known of a path on several occasions. -/
def course (s : Service) (path : Bus.ObjectPath) : List Occasion → Course
  | [] => {}
  | occasion :: rest =>
    s.courseOn occasion path
      ++ (s.perform occasion.bus occasion.operation).service.course path rest

variable {α : Type} {s : Service} {bus : Bus}

/-- What the outcome tells of a path is how the life at the path goes on. -/
def Carries (s : Service) (o : Outcome α) : Prop :=
  ∀ (path : Bus.ObjectPath) (c : Course), Lived s.sessions path c →
    Lived o.service.sessions path (c ++ o.effects.courseAt path)

theorem Carries.refl (result : α) (s : Service) (bus : Bus) :
    Carries s { result, service := s, bus, effects := [] } := by
  intro path c h
  exact (Course.append_empty c).symm ▸ h

theorem Carries.congr {β : Type} {o : Outcome α} {o' : Outcome β} (h : Carries s o)
    (hservice : o'.service.sessions = o.service.sessions) (heffects : o'.effects = o.effects) :
    Carries s o' := by
  intro path c hlived
  rw [hservice, heffects]
  exact h path c hlived

theorem Carries.around {β : Type} {o : Outcome α} {o' : Outcome β} (h : Carries s o)
    (before after : Effects) (hservice : o'.service.sessions = o.service.sessions)
    (heffects : o'.effects = before ++ o.effects ++ after) (hbefore : before.Idle)
    (hafter : after.Idle) : Carries s o' := by
  intro path c hlived
  rw [hservice, heffects, Log.Effects.courseAt_append, Log.Effects.courseAt_append,
    hbefore.courseAt, hafter.courseAt, Course.append_empty, Course.empty_append]
  exact h path c hlived

theorem Carries.andThen {β γ : Type} {first : Outcome α} {second : Outcome β} {o : Outcome γ}
    (h : Carries s first) (h' : Carries first.service second)
    (hservice : o.service.sessions = second.service.sessions)
    (heffects : o.effects = first.effects ++ second.effects) : Carries s o := by
  intro path c hlived
  rw [hservice, heffects, Log.Effects.courseAt_append, ← Course.append_assoc]
  exact h' path _ (h path c hlived)

/-! ## Destroying sessions -/

theorem destroy_carries (s : Service) (bus : Bus) (path : Bus.ObjectPath) :
    Carries s {
      result := (), bus
      service := { s with sessions := (s.sessions.destroy path s.providers).2.1 }
      effects := (s.sessions.destroy path s.providers).2.2.2 } :=
  fun _ _ hlived => hlived.destroy path s.providers

theorem teardown_carries (s : Service) (bus : Bus) (path : Bus.ObjectPath) :
    Carries s (s.teardown bus path) :=
  (destroy_carries s bus path).around _ [] rfl (List.append_nil _).symm
    (s.withdraw_idle bus path) .nil

theorem teardownAll_carries (s : Service) (bus : Bus) (paths : List Bus.ObjectPath) :
    Carries s (s.teardownAll bus paths) := by
  induction paths generalizing s bus with
  | nil => exact .refl () s bus
  | cons path rest ih => exact (teardown_carries s bus path).andThen (ih _ _) rfl rfl

theorem depart_carries (s : Service) (bus : Bus) (name : String) :
    Carries s (s.depart bus name) := by
  obtain ⟨told, hidle, heffects⟩ := s.depart_effects bus name
  exact (teardownAll_carries s bus _).around [] told rfl heffects .nil hidle

theorem filter_carries (s : Service) (bus : Bus) (m : Bus.Message) :
    Carries s (s.filter bus m) := by
  rw [filter]
  split
  · exact .refl _ s bus
  · exact (depart_carries s bus _).around _ [] rfl (List.append_nil _).symm (presence_idle m) .nil

/-! ## Creating sessions -/

theorem reload_carries (s : Service) (bus : Bus) (source : Provider.Source) :
    Carries s {
      result := (), bus, service := (s.reload source).1, effects := (s.reload source).2.2 } := by
  intro path c hlived
  have hcourse : (s.reload source).2.2.courseAt path = {} :=
    Log.Effects.courseAt_load s.providers source
  rw [hcourse, Course.append_empty]
  exact hlived

theorem reloadIfEmpty_carries (s : Service) (bus : Bus) (source : Provider.Source) :
    Carries s {
      result := (), bus
      service := (s.reloadIfEmpty source).1
      effects := (s.reloadIfEmpty source).2 } := by
  rw [reloadIfEmpty]
  split
  · exact (s.reload_carries bus source).around [.event .registryEmpty] [] rfl
      (List.append_nil _).symm ⟨fun _ => ⟨rfl, rfl, rfl⟩, rfl⟩ .nil
  · exact .refl () s bus

theorem opening_carries (h : s.sessions.Numbered) (bus : Bus) (owner : String) :
    Carries s {
      result := (), bus
      service := { s with sessions := (s.sessions.create owner).2.1 }
      effects := (s.sessions.create owner).2.2 } :=
  fun _ _ hlived => hlived.create h owner

theorem create_carries (h : s.sessions.Numbered) (bus : Bus) (source : Provider.Source)
    (call : Bus.MethodCall) : Carries s (s.create bus source call) := by
  have hloading := reloadIfEmpty_carries s bus source
  have hnumbered : (s.reloadIfEmpty source).1.sessions.Numbered :=
    (reloadIfEmpty_sessions s source).symm ▸ h
  have hcreation := create_creation s bus source call
  generalize s.create bus source call = o at hcreation ⊢
  generalize (s.reloadIfEmpty source).1 = loaded at hcreation hloading hnumbered
  generalize (s.reloadIfEmpty source).2 = loading at hcreation hloading
  generalize call.sender.getD "" = owner at hcreation
  have hopening : Carries s {
      result := (), bus
      service := { loaded with sessions := (loaded.sessions.create owner).2.1 }
      effects := loading ++ (loaded.sessions.create owner).2.2 } :=
    hloading.andThen (opening_carries hnumbered bus owner) rfl rfl
  cases hcreation with
  | offline => exact .refl _ s bus
  | exported => exact hopening.around [] _ rfl rfl .nil ⟨fun _ => ⟨rfl, rfl, rfl⟩, rfl⟩
  | @refused peer e =>
    -- The session that could not be exported comes to its end at once.
    have hfailing : Carries s {
        result := (), bus
        service := { loaded with sessions := (loaded.sessions.create owner).2.1 }
        effects := loading ++ (loaded.sessions.create owner).2.2
          ++ [.event (.exportFailed loaded.sessions.nextPath owner (.bus e))] } :=
      hopening.around [] _ rfl rfl .nil ⟨fun _ => ⟨rfl, rfl, rfl⟩, rfl⟩
    exact hfailing.andThen (destroy_carries _ bus loaded.sessions.nextPath) rfl rfl

/-! ## Any operation -/

theorem onSession_carries {path : String} {act : Session → Outcome α}
    (hact : ∀ x, Carries s (act x)) : Carries s (s.onSession bus path act) := by
  obtain h | ⟨x, -, -, -, h⟩ := onSession_cases s bus path act <;> rw [h]
  · exact .refl _ s bus
  · exact (hact x).congr rfl rfl

theorem announceOptions_carries (s : Service) (bus : Bus) (options : Ledger String String) :
    Carries s (s.announceOptions bus options) := by
  rw [announceOptions]
  split
  · exact .refl _ s bus
  · have hquiet := Carries.refl () s bus
    dsimp only
    split <;> exact hquiet.around [_] [] rfl rfl ⟨fun _ => ⟨rfl, rfl, rfl⟩, rfl⟩ .nil

/-- An operation that changes a session, if one is found, carries on the life at its path. -/
theorem onSession_lived {path : Bus.ObjectPath} {c new : Course} (hlived : Lived s.sessions path c)
    (bus : Bus) (text : String) {change : Session → Session}
    (hpath : ∀ x, (change x).path = x.path) (hnew : new.owners = [])
    (hlife : ∀ {x}, Life path (some x) c → Life path (some (change x)) (c ++ new)) :
    let o := s.onSession bus text fun x =>
      { result := (), bus, effects := []
        service := { s with sessions := s.sessions.modify x.path change } }
    Lived o.service.sessions path (c ++ if text = path.text ∧ o.result.isOk then new else {}) := by
  dsimp only
  obtain h | ⟨x, -, rfl, hget, h⟩ := onSession_cases s bus text _ <;> rw [h]
  · rw [if_neg (by rintro ⟨-, ⟨⟩⟩), Course.append_empty]
    exact hlived
  · by_cases hsame : path = x.path
    · subst hsame
      rw [if_pos ⟨rfl, rfl⟩]
      exact hlived.modify hpath hget hlife hnew
    · have hother : x.path.text ≠ path.text := fun htext => hsame (Keyed.text_inj htext).symm
      rw [if_neg fun h => hother h.1, Course.append_empty]
      exact hlived.modify_of_ne hpath hsame

/-- Every operation carries on the life at every path. -/
theorem perform_lived (h : s.sessions.Numbered) (occasion : Occasion) {path : Bus.ObjectPath}
    {c : Course} (hlived : Lived s.sessions path c) :
    Lived (s.perform occasion.bus occasion.operation).service.sessions path
      (c ++ s.courseOn occasion path) := by
  obtain ⟨bus, operation⟩ := occasion
  cases operation with
  | create source call => exact create_carries h bus source call path c hlived
  | handleCall source call =>
    have hcarries : Carries s (s.handleCall bus source call) := by
      rw [handleCall]
      split
      · exact (create_carries h bus source call).congr rfl rfl
      · exact .refl _ s bus
    exact hcarries path c hlived
  | filter m => exact filter_carries s bus m path c hlived
  | depart name => exact depart_carries s bus name path c hlived
  | release text =>
    have hcarries : Carries s (s.release bus text) := by
      rw [release_eq]
      refine onSession_carries fun x => ?_
      exact (teardown_carries s bus x.path).around [] _ rfl rfl .nil ⟨fun _ => ⟨rfl, rfl, rfl⟩, rfl⟩
    exact hcarries path c hlived
  | attachHook text hook =>
    have hcourse : s.courseOn ⟨bus, .attachHook text hook⟩ path =
        if text = path.text ∧ (s.attachHook bus text hook).result.isOk then { hooks := [hook] }
        else {} := by
      have htold : (s.attachHook bus text hook).effects = [] := by
        obtain h | ⟨x, -, -, -, h⟩ := onSession_cases s bus text _ <;> rw [attachHook, h]
        rfl
      simp only [courseOn, attachedOn, statedOn, perform, Outcome.map, htold]
      split <;> rfl
    rw [hcourse]
    exact onSession_lived hlived bus text (fun _ => rfl) rfl fun hlife => hlife.attach hook
  | setRequirements text required =>
    have hcourse : s.courseOn ⟨bus, .setRequirements text required⟩ path =
        if text = path.text ∧ (s.setRequirements bus text required).result.isOk then
          { stated := [required] }
        else {} := by
      have htold : (s.setRequirements bus text required).effects =
          [.event (.requirementsStated text required)] := by
        obtain h | ⟨x, -, -, -, h⟩ := onSession_cases s bus text _ <;> rw [setRequirements, h]
        rfl
      simp only [courseOn, attachedOn, statedOn, perform, Outcome.map, htold]
      split <;> rfl
    rw [hcourse]
    exact onSession_lived hlived bus text (fun _ => rfl) rfl fun hlife => hlife.state required
  | providersFor text =>
    have hcarries : Carries s (s.providersFor bus text) :=
      onSession_carries fun x => (Carries.refl () s bus).around [] _ rfl rfl .nil
        ⟨fun _ => ⟨rfl, rfl, rfl⟩, rfl⟩
    exact hcarries path c hlived
  | reload source => exact reload_carries s bus source path c hlived
  | announceOptions options => exact announceOptions_carries s bus options path c hlived

theorem after_lived (h : s.sessions.Numbered) {path : Bus.ObjectPath} {c : Course}
    (hlived : Lived s.sessions path c) (occasions : List Occasion) :
    Lived (s.after occasions).sessions path (c ++ s.course path occasions) := by
  induction occasions generalizing s c with
  | nil =>
    rw [course, Course.append_empty]
    exact hlived
  | cons occasion rest ih =>
    rw [course, ← Course.append_assoc]
    exact ih (perform_numbered h occasion.bus occasion.operation) (perform_lived h occasion hlived)

/-- Whatever a broker was asked since its start, the course of every path is that of a life. -/
theorem start_lived {c : Config} {source : Provider.Source} {o : Outcome Unit}
    (hstart : start c bus source = .ok o) (occasions : List Occasion) (path : Bus.ObjectPath) :
    Lived (o.service.after occasions).sessions path (o.service.course path occasions) := by
  obtain ⟨-, base, hsessions⟩ := start_sessions hstart
  have hempty : Lived o.service.sessions path {} := hsessions ▸ .empty base path
  simpa using after_lived (start_numbered hstart) hempty occasions

end Service

end Broker

end LocationBroker
