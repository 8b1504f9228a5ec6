import LocationBroker.Proofs.Session.Numbering

/-! # The identity of sessions

Every session that a registry creates gets a path of its own, and the registry finds a live session
under its path and the oldest one of an owner under the owner.  `Identified` says so of a registry
and all the paths that it has minted.  It follows from `Minted`, which every change keeps that mints
the next path or none (`Minted.extend`); the actions of a registry are such changes (`minted_run`).
-/

namespace LocationBroker.Session.Registry

variable {base : Bus.ObjectPath} {minted : List Bus.ObjectPath} {r after : Registry}

/-! ## Minting -/

/-- These are the paths that the registry has minted so far, in order. -/
structure Minted (base : Bus.ObjectPath) (minted : List Bus.ObjectPath) (r : Registry) : Prop where
  base_eq : r.base = base
  numbered : r.Numbered
  minted_eq : minted = (List.range r.nextSerial).map base.withSerial

/-- All that identifies the sessions of a registry whose paths begin with a text. -/
structure Identified (start : String) (minted : List Bus.ObjectPath) (r : Registry) : Prop where
  /-- The serials of the minted paths are those below the next one. -/
  minted_texts : minted.map (·.text) = (List.range r.nextSerial).map fun serial =>
    start ++ toString serial
  nodup : minted.Nodup
  valid : ∀ serial < r.nextSerial, Bus.ObjectPath.isValid (start ++ toString serial) = true
  live_texts : ∃ serials : List Nat, serials.Pairwise (· < ·) ∧
    (∀ serial ∈ serials, serial < r.nextSerial) ∧
    (r.sessions.map fun x => x.path.text) = serials.map fun serial => start ++ toString serial
  get_live : ∀ x ∈ r.sessions, r.get? x.path = some x
  /-- What is found for an owner is the oldest of the owner's sessions. -/
  find_oldest : ∀ owner, owner ≠ "" → ∀ x, r.find? owner = some x ↔
    x.owner = owner ∧ ∃ older younger, r.sessions = older ++ x :: younger ∧
      ∀ y ∈ older, y.owner ≠ owner
  find_unknown : r.find? "" = none

theorem Minted.empty (base : Bus.ObjectPath) : Minted base [] { base } :=
  ⟨rfl, .empty base, rfl⟩

theorem Minted.length_eq (h : Minted base minted r) : minted.length = r.nextSerial := by
  simp [h.minted_eq]

/-- What mints the next path or none goes on with the list of minted paths. -/
theorem Minted.extend {new : List Bus.ObjectPath} (h : Minted base minted r)
    (hnew : new = [] ∨ new = [r.nextPath]) (hbase : after.base = r.base)
    (hnumbered : after.Numbered) (hserial : after.nextSerial = r.nextSerial + new.length) :
    Minted base (minted ++ new) after := by
  refine ⟨hbase.trans h.base_eq, hnumbered, ?_⟩
  obtain rfl | rfl := hnew
  · rw [hserial, List.append_nil]
    exact h.minted_eq
  · rw [hserial, h.minted_eq, List.length_singleton, List.range_succ, List.map_append, nextPath,
      h.base_eq]
    rfl

/-! ## Looking up -/

theorem Numbered.get?_live (h : r.Numbered) {x : Session} (hx : x ∈ r.sessions) :
    r.get? x.path = some x := by
  cases hget : r.get? x.path with
  | none => exact absurd (mem_paths.mpr ⟨x, hx, rfl⟩) (get?_eq_none_iff.mp hget)
  | some y =>
    obtain ⟨hy, hpath⟩ := mem_of_get? hget
    rw [h.eq_of_path hy hx hpath]

theorem Numbered.atText?_live (h : r.Numbered) {x : Session} (hx : x ∈ r.sessions) :
    r.atText? x.path.text = some x :=
  atText?_eq_some_iff.mpr ⟨rfl, h.get?_live hx⟩

theorem find?_eq_some_iff {owner : String} (howner : owner ≠ "") {x : Session} :
    r.find? owner = some x ↔
      x.owner = owner ∧ ∃ older younger, r.sessions = older ++ x :: younger ∧
        ∀ y ∈ older, y.owner ≠ owner := by
  rw [find?, if_neg (by simpa using howner), List.find?_eq_some_iff_append]
  simp

theorem Minted.identified (h : Minted base minted r) : Identified base.text minted r where
  minted_texts := by
    rw [h.minted_eq, List.map_map]
    rfl
  nodup := by
    rw [h.minted_eq]
    exact List.nodup_range.map fun _ _ => Bus.ObjectPath.withSerial_injective
  valid serial _ := (base.withSerial serial).valid
  live_texts := by
    obtain ⟨serials, hsorted, hbound, hpaths⟩ := h.numbered
    refine ⟨serials, hsorted, hbound, ?_⟩
    have htexts := congrArg (List.map Bus.ObjectPath.text) hpaths
    rw [paths, List.map_map, List.map_map, h.base_eq] at htexts
    exact htexts
  get_live _ hx := h.numbered.get?_live hx
  find_oldest _ howner _ := find?_eq_some_iff howner
  find_unknown := rfl

/-! ## Any actions of a registry -/

inductive Action where
  | create (owner : String)
  | destroy (path : Bus.ObjectPath) (providers : Provider.Registry)
  | setRequirements (path : Bus.ObjectPath) (c : Provider.Constraints)
  | attachHook (path : Bus.ObjectPath) (hook : Hook)
  | get (path : Bus.ObjectPath)
  | find (owner : String)

def Action.isCreate : Action → Bool
  | .create _ => true
  | _ => false

def step (r : Registry) : Action → Registry
  | .create owner => (r.create owner).2.1
  | .destroy path providers => (r.destroy path providers).2.1
  | .setRequirements path c => r.setRequirements path c
  | .attachHook path hook => r.attachHook path hook
  | .get _ | .find _ => r

def run (r : Registry) (actions : List Action) : Registry :=
  actions.foldl step r

/-- The path that an action mints, if it does. -/
def mint (r : Registry) : Action → List Bus.ObjectPath
  | .create owner => [(r.create owner).1.path]
  | _ => []

def mintedDuring (r : Registry) : List Action → List Bus.ObjectPath
  | [] => []
  | action :: rest => r.mint action ++ (r.step action).mintedDuring rest

theorem length_mint (r : Registry) (action : Action) :
    (r.mint action).length = if action.isCreate then 1 else 0 := by
  cases action <;> rfl

theorem length_mintedDuring (r : Registry) (actions : List Action) :
    (r.mintedDuring actions).length = actions.countP Action.isCreate := by
  induction actions generalizing r with
  | nil => rfl
  | cons action rest ih =>
    rw [mintedDuring, List.length_append, length_mint, ih, List.countP_cons, Nat.add_comm]

theorem minted_step (h : Minted base minted r) (action : Action) :
    Minted base (minted ++ r.mint action) (r.step action) := by
  cases action with
  | create owner => exact h.extend (.inr rfl) rfl (h.numbered.create owner) rfl
  | destroy path providers =>
    rw [step, destroy_registry]
    exact h.extend (.inl rfl) rfl (h.numbered.remove path) rfl
  | setRequirements path c | attachHook path c =>
    exact h.extend (.inl rfl) rfl (h.numbered.modify fun _ => rfl) rfl
  | get | find => exact h.extend (.inl rfl) rfl h.numbered rfl

theorem minted_run (h : Minted base minted r) (actions : List Action) :
    Minted base (minted ++ r.mintedDuring actions) (r.run actions) := by
  induction actions generalizing minted r with
  | nil =>
    rw [mintedDuring, List.append_nil]
    exact h
  | cons action rest ih =>
    rw [mintedDuring, ← List.append_assoc]
    exact ih (minted_step h action)

end LocationBroker.Session.Registry
