import LocationBroker.Proofs.Bus.Serial
import LocationBroker.Session.Registry
import Mathlib.Data.List.Nodup

/-! # The numbering of sessions

The live sessions stand in the order of their serials, and every serial in use is below the next
one.  So no two live sessions have the same path, and the next path is not in use.

* `Numbered` — the invariant; `Numbered.create`, `Numbered.remove` and `Numbered.modify` say that
  the operations of a registry keep it.
* `Numbered.remove_create`, `destroy_of_get?` — what the operations do to a registry; all else about
  the destruction of a session follows from `destroy_of_get?`.
-/

namespace LocationBroker.Session.Registry

open Log (Effects)

variable {r : Registry}

/-- The paths of the live sessions, oldest first. -/
def paths (r : Registry) : List Bus.ObjectPath :=
  r.sessions.map (·.path)

/-- The path that the next session gets. -/
def nextPath (r : Registry) : Bus.ObjectPath :=
  r.base.withSerial r.nextSerial

/-- The live sessions have ascending serials below the next one. -/
def Numbered (r : Registry) : Prop :=
  ∃ serials : List Nat, serials.Pairwise (· < ·) ∧ (∀ serial ∈ serials, serial < r.nextSerial) ∧
    r.paths = serials.map r.base.withSerial

@[simp] theorem create_sessions (r : Registry) (owner : String) :
    (r.create owner).2.1.sessions = r.sessions ++ [{ owner, path := r.nextPath }] := rfl

@[simp] theorem create_nextSerial (r : Registry) (owner : String) :
    (r.create owner).2.1.nextSerial = r.nextSerial + 1 := rfl

theorem mem_paths {path : Bus.ObjectPath} : path ∈ r.paths ↔ ∃ x ∈ r.sessions, x.path = path :=
  List.mem_map

theorem paths_eq_nil_iff : r.paths = [] ↔ r.sessions = [] :=
  List.map_eq_nil_iff

theorem paths_create (r : Registry) (owner : String) :
    (r.create owner).2.1.paths = r.paths ++ [r.nextPath] := by
  simp [paths]

theorem paths_remove (r : Registry) (path : Bus.ObjectPath) :
    (r.remove path).paths = r.paths.filter (· ≠ path) := by
  simp only [paths, remove, List.filter_map]
  rfl

theorem paths_modify {path : Bus.ObjectPath} {change : Session → Session}
    (hpath : ∀ x, (change x).path = x.path) : (r.modify path change).paths = r.paths := by
  simp only [paths, modify, List.map_map]
  refine List.map_congr_left fun x _ => ?_
  by_cases h : x.path = path <;> simp [h, hpath]

/-! ## The invariant -/

theorem Numbered.empty (base : Bus.ObjectPath) : Numbered { base } :=
  ⟨[], .nil, by simp, rfl⟩

theorem Numbered.nodup (h : r.Numbered) : r.paths.Nodup := by
  obtain ⟨serials, hsorted, -, hpaths⟩ := h
  rw [hpaths, List.nodup_iff_pairwise_ne, List.pairwise_map]
  refine hsorted.imp fun hlt heq => ?_
  have := Bus.ObjectPath.withSerial_injective heq
  omega

theorem Numbered.nextPath_not_mem (h : r.Numbered) : r.nextPath ∉ r.paths := by
  obtain ⟨serials, -, hbound, hpaths⟩ := h
  rw [hpaths, List.mem_map]
  rintro ⟨serial, hserial, heq⟩
  have := Bus.ObjectPath.withSerial_injective heq
  have := hbound serial hserial
  omega

theorem Numbered.create (h : r.Numbered) (owner : String) : (r.create owner).2.1.Numbered := by
  obtain ⟨serials, hsorted, hbound, hpaths⟩ := h
  -- The new serial is above those in use, and below the next one.
  refine ⟨serials ++ [r.nextSerial], ?_, fun serial hserial => ?_, ?_⟩
  · refine List.pairwise_append.mpr ⟨hsorted, List.pairwise_singleton _ _, fun a ha b hb => ?_⟩
    rw [List.mem_singleton.mp hb]
    exact hbound a ha
  · rw [create_nextSerial]
    cases List.mem_append.mp hserial with
    | inl hserial =>
      have := hbound serial hserial
      omega
    | inr hserial =>
      have := List.mem_singleton.mp hserial
      omega
  · rw [paths_create, hpaths, List.map_append]
    rfl

theorem Numbered.remove (h : r.Numbered) (path : Bus.ObjectPath) : (r.remove path).Numbered := by
  obtain ⟨serials, hsorted, hbound, hpaths⟩ := h
  refine ⟨serials.filter fun serial => r.base.withSerial serial ≠ path, hsorted.filter _,
    fun serial hserial => hbound serial (List.mem_filter.mp hserial).1, ?_⟩
  rw [paths_remove, hpaths, List.filter_map]
  rfl

theorem Numbered.modify (h : r.Numbered) {path : Bus.ObjectPath} {change : Session → Session}
    (hpath : ∀ x, (change x).path = x.path) : (r.modify path change).Numbered := by
  obtain ⟨serials, hsorted, hbound, hpaths⟩ := h
  exact ⟨serials, hsorted, hbound, (paths_modify hpath).trans hpaths⟩

/-! ## Looking up and taking out -/

theorem get?_eq_none_iff {path : Bus.ObjectPath} : r.get? path = none ↔ path ∉ r.paths := by
  simp [get?, paths]

theorem mem_of_get? {path : Bus.ObjectPath} {x : Session} (h : r.get? path = some x) :
    x ∈ r.sessions ∧ x.path = path := by
  refine ⟨List.mem_of_find?_eq_some h, ?_⟩
  simpa using List.find?_some h

/-- The session that a text names. -/
def atText? (r : Registry) (text : String) : Option Session :=
  (Bus.ObjectPath.ofString? text).bind r.get?

theorem atText?_eq_some_iff {text : String} {x : Session} :
    r.atText? text = some x ↔ x.path.text = text ∧ r.get? x.path = some x := by
  rw [atText?, Option.bind_eq_some_iff]
  constructor
  · rintro ⟨found, hfound, hget⟩
    obtain ⟨-, rfl⟩ := mem_of_get? hget
    exact ⟨Bus.ObjectPath.ofString?_eq_some_iff.mp hfound, hget⟩
  · rintro ⟨htext, hget⟩
    exact ⟨x.path, Bus.ObjectPath.ofString?_eq_some_iff.mpr htext, hget⟩

theorem atText?_eq_none_iff {text : String} :
    r.atText? text = none ↔ ∀ x ∈ r.sessions, x.path.text ≠ text := by
  rw [Option.eq_none_iff_forall_ne_some]
  constructor
  · rintro hnone x hx rfl
    cases hget : r.get? x.path with
    | none => exact get?_eq_none_iff.mp hget (mem_paths.mpr ⟨x, hx, rfl⟩)
    | some y =>
      obtain ⟨-, hpath⟩ := mem_of_get? hget
      exact hnone y (atText?_eq_some_iff.mpr ⟨by rw [hpath], by rw [hpath, hget]⟩)
  · intro hdead x hx
    obtain ⟨htext, hget⟩ := atText?_eq_some_iff.mp hx
    exact hdead x (mem_of_get? hget).1 htext

/-! ## The two look-ups -/

/-- The second look-up finds the session for which the first one found the path. -/
theorem get?_of_pathAt? {text : String} {path : Bus.ObjectPath} (h : r.pathAt? text = some path) :
    ∃ x, r.get? path = some x ∧ x.path.text = text := by
  obtain ⟨hpath, hfound⟩ := Option.filter_eq_some_iff.mp h
  obtain ⟨x, hx⟩ := Option.isSome_iff_exists.mp hfound
  refine ⟨x, hx, ?_⟩
  rw [(mem_of_get? hx).2]
  exact Bus.ObjectPath.ofString?_eq_some_iff.mp hpath

theorem atText?_eq_bind (r : Registry) (text : String) :
    r.atText? text = (r.pathAt? text).bind r.get? := by
  rw [pathAt?, atText?]
  cases Bus.ObjectPath.ofString? text with
  | none => rw [Option.filter_none, Option.bind_none]
  | some path =>
    rw [Option.bind_some, Option.filter_some]
    cases hget : r.get? path <;> simp [hget]

theorem pathAt?_eq_none_iff {text : String} :
    r.pathAt? text = none ↔ ∀ x ∈ r.sessions, x.path.text ≠ text := by
  rw [← atText?_eq_none_iff, atText?_eq_bind, Option.bind_eq_none_iff]
  constructor
  · intro hnone path hpath
    rw [hnone] at hpath
    cases hpath
  · intro hnone
    refine Option.eq_none_iff_forall_ne_some.mpr fun path hpath => ?_
    obtain ⟨x, hx, -⟩ := get?_of_pathAt? hpath
    rw [hnone path hpath] at hx
    cases hx

theorem Numbered.eq_of_path (h : r.Numbered) {x y : Session} (hx : x ∈ r.sessions)
    (hy : y ∈ r.sessions) (heq : x.path = y.path) : x = y :=
  List.inj_on_of_nodup_map h.nodup hx hy heq

/-- The sessions of a client are live ones, and each has its own path. -/
theorem Numbered.pathsOf (h : r.Numbered) (name : String) :
    (∀ path ∈ r.pathsOf name, path ∈ r.paths) ∧ (r.pathsOf name).Nodup := by
  have hsublist : (r.pathsOf name).Sublist r.paths := by
    rw [Registry.pathsOf]
    split
    · exact List.nil_sublist _
    · exact List.filter_sublist.map _
  exact ⟨fun path hpath => hsublist.subset hpath, h.nodup.sublist hsublist⟩

theorem remove_of_not_mem {path : Bus.ObjectPath} (h : path ∉ r.paths) : r.remove path = r := by
  have hsessions : r.sessions.filter (fun x => x.path ≠ path) = r.sessions := by
    refine List.filter_eq_self.mpr fun x hx => ?_
    simpa using fun heq => h (mem_paths.mpr ⟨x, hx, heq⟩)
  rw [remove, hsessions]

/-- A session that is taken out as soon as it is created leaves a used serial behind. -/
theorem Numbered.remove_create (h : r.Numbered) (owner : String) :
    (r.create owner).2.1.remove r.nextPath = { r with nextSerial := r.nextSerial + 1 } := by
  have hsessions : r.sessions.filter (fun x => x.path ≠ r.nextPath) = r.sessions := by
    refine List.filter_eq_self.mpr fun x hx => ?_
    simpa using fun heq => h.nextPath_not_mem (mem_paths.mpr ⟨x, hx, heq⟩)
  have hnew : [({ owner, path := r.nextPath } : Session)].filter (fun x => x.path ≠ r.nextPath)
      = [] := by
    simp
  rw [Registry.remove, create_sessions, List.filter_append, hsessions, hnew, List.append_nil]
  rfl

/-! ## Destroying -/

theorem destroy_of_not_mem {path : Bus.ObjectPath} (h : path ∉ r.paths)
    (providers : Provider.Registry) : r.destroy path providers = (none, r, providers, []) := by
  rw [destroy, get?_eq_none_iff.mpr h]

/-- What is left to do when a session is no longer in the registry and its hook has run. -/
def settle (left : Registry) (gone : Session) (providers : Provider.Registry) :
    Provider.Registry × Effects :=
  let told : Effects := [.event (.sessionDestroyed gone.path gone.owner left.sessions.length)]
  if left.sessions.isEmpty then
    let (providers, released, releasing) := providers.release
    (providers, told ++ releasing ++ [.event (.lastSessionGone released)])
  else (providers, told)

/-- A live session is taken out of the registry first, its hook is run next, and all that follows
depends only on the registry without it. -/
theorem destroy_of_get? {path : Bus.ObjectPath} {x : Session} (h : r.get? path = some x)
    (providers : Provider.Registry) :
    r.destroy path providers =
      (some { x with hook := none }, r.remove path, ((r.remove path).settle x providers).1,
        runHook x ++ ((r.remove path).settle x providers).2) := by
  rw [destroy, h]
  dsimp only [settle]
  split
  · simp only [List.append_assoc]
  · rfl

/-- Destroying a session takes it out of the registry, whether it is there or not. -/
theorem destroy_registry (r : Registry) (path : Bus.ObjectPath) (providers : Provider.Registry) :
    (r.destroy path providers).2.1 = r.remove path := by
  cases hget : r.get? path with
  | none =>
    have hnot := get?_eq_none_iff.mp hget
    rw [destroy_of_not_mem hnot, remove_of_not_mem hnot]
  | some x => rw [destroy_of_get? hget]

theorem settle_providers (left : Registry) (gone : Session) (providers : Provider.Registry) :
    (left.settle gone providers).1 =
      if left.sessions = [] then providers.release.1 else providers := by
  rw [settle]
  by_cases hlast : left.sessions = [] <;> simp [hlast]

/-- The providers are released exactly with the last session. -/
theorem destroy_providers (r : Registry) (path : Bus.ObjectPath) (providers : Provider.Registry) :
    (r.destroy path providers).2.2.1 =
      if path ∈ r.paths ∧ (r.remove path).sessions = [] then providers.release.1
      else providers := by
  cases hget : r.get? path with
  | none =>
    have hnot := get?_eq_none_iff.mp hget
    rw [destroy_of_not_mem hnot, if_neg (mt And.left hnot)]
  | some x =>
    obtain ⟨hx, hpath⟩ := mem_of_get? hget
    rw [destroy_of_get? hget, settle_providers]
    simp only [mem_paths.mpr ⟨x, hx, hpath⟩, true_and]

/-- All that is left to do is told as events. -/
theorem event_of_mem_settle {left : Registry} {gone : Session} {providers : Provider.Registry}
    {e : Log.Effect} (h : e ∈ (left.settle gone providers).2) : ∃ event, e = .event event := by
  have hrelease : ∀ e ∈ providers.release.2.2, ∃ event, e = .event event := by
    rw [Provider.Registry.release]
    split <;> simp
  rw [settle] at h
  dsimp only at h
  split at h
  · simp only [List.mem_append, List.mem_singleton] at h
    obtain (rfl | h) | rfl := h
    · exact ⟨_, rfl⟩
    · exact hrelease e h
    · exact ⟨_, rfl⟩
  · exact ⟨_, List.mem_singleton.mp h⟩

end LocationBroker.Session.Registry
