import LocationBroker.Proofs.Session.Identity

/-! # Sessions that leave together

Sessions are looked up by their owner but destroyed by their path.  Since paths tell sessions apart,
nothing is lost by that: the sessions at the paths of some sessions are these sessions and no others
(`Numbered.filter_not_mem`), and when the first of them is destroyed the others are still there
(`Leaving.tail`).
-/

namespace LocationBroker.Session

/-- The session belongs to the peer of a name.  A session whose peer is not known belongs to
nobody. -/
def belongsTo (x : Session) (name : String) : Bool :=
  decide (name ≠ "" ∧ x.owner = name)

namespace Registry

variable {r : Registry} {x : Session} {gone rest : List Session} {name : String}

/-! ## The sessions of a client -/

theorem pathsOf_eq (r : Registry) (name : String) :
    r.pathsOf name = (r.sessions.filter (·.belongsTo name)).map (·.path) := by
  rw [pathsOf]
  by_cases hname : name = ""
  · simp [hname, belongsTo]
  · simp [hname, belongsTo]

theorem find?_eq_head? (r : Registry) (name : String) :
    r.find? name = (r.sessions.filter (·.belongsTo name)).head? := by
  rw [find?, List.head?_filter]
  by_cases hname : name = ""
  · have hnobody : r.sessions.find? (fun _ => false) = none := by simp
    simp [hname, belongsTo, hnobody]
  · simp [hname, belongsTo]

theorem filter_belongsTo_eq_nil (h : name = "" ∨ ∀ x ∈ r.sessions, x.owner ≠ name) :
    r.sessions.filter (·.belongsTo name) = [] := by
  refine List.filter_eq_nil_iff.mpr fun x hx => ?_
  rw [belongsTo, decide_eq_true_iff]
  rintro ⟨hname, howner⟩
  cases h with
  | inl hempty => exact hname hempty
  | inr hothers => exact hothers x hx howner

/-! ## One after the other -/

/-- The sessions are live and each has its own path, so they can be destroyed one after the
other. -/
structure Leaving (gone : List Session) (r : Registry) : Prop where
  numbered : r.Numbered
  live : ∀ x ∈ gone, x ∈ r.sessions
  nodup : (gone.map (·.path)).Nodup

theorem Numbered.leaving (h : r.Numbered) (p : Session → Bool) :
    Leaving (r.sessions.filter p) r where
  numbered := h
  live _ hx := (List.mem_filter.mp hx).1
  nodup := h.nodup.sublist (List.filter_sublist.map _)

theorem Leaving.get? (h : Leaving (x :: gone) r) : r.get? x.path = some x :=
  h.numbered.get?_live (h.live x List.mem_cons_self)

/-- When the first of the sessions is destroyed, the others are still there. -/
theorem Leaving.tail (h : Leaving (x :: gone) r) : Leaving gone (r.remove x.path) := by
  obtain ⟨hnumbered, hlive, hnodup⟩ := h
  rw [List.map_cons, List.nodup_cons] at hnodup
  refine ⟨hnumbered.remove x.path, fun y hy => List.mem_filter.mpr ⟨?_, ?_⟩, hnodup.2⟩
  · exact hlive y (List.mem_cons_of_mem _ hy)
  · exact decide_eq_true fun hpath => hnodup.1 (List.mem_map.mpr ⟨y, hy, hpath⟩)

theorem Leaving.mem_iff (h : Leaving gone r) (hx : x ∈ r.sessions) :
    x.path ∈ gone.map (·.path) ↔ x ∈ gone := by
  constructor
  · intro hpath
    obtain ⟨y, hy, heq⟩ := List.mem_map.mp hpath
    rwa [← h.numbered.eq_of_path (h.live y hy) hx heq]
  · exact List.mem_map_of_mem

/-- Paths tell sessions apart, so what is at no path of the sessions with a property are the
sessions without it. -/
theorem Numbered.filter_not_mem (h : r.Numbered) (p : Session → Bool) :
    r.sessions.filter (·.path ∉ (r.sessions.filter p).map (·.path)) =
      r.sessions.filter (!p ·) := by
  refine List.filter_congr fun x hx => ?_
  have hmem : x.path ∈ (r.sessions.filter p).map (·.path) ↔ p x = true := by
    rw [(h.leaving p).mem_iff hx, List.mem_filter, and_iff_right hx]
  rw [Bool.eq_iff_iff, decide_eq_true_iff, hmem]
  simp

/-- One session alone is live at a path. -/
theorem Numbered.filter_text (h : r.Numbered) (hx : x ∈ r.sessions) :
    r.sessions.filter (fun y => y.path.text = x.path.text) = [x] := by
  classical
  have hsame : ∀ y ∈ r.sessions, decide (y.path.text = x.path.text) = decide (y = x) := by
    intro y hy
    rw [decide_eq_decide]
    exact ⟨fun htext => h.eq_of_path hy hx (Keyed.text_inj htext), fun heq => heq ▸ rfl⟩
  rw [List.filter_congr hsame, List.filter_eq, List.count_eq_one_of_mem h.nodup.of_map hx]
  rfl

/-- Without the oldest session of a client the younger ones are left. -/
theorem Numbered.filter_remove_oldest (h : r.Numbered)
    (hfound : r.sessions.filter (·.belongsTo name) = x :: rest) :
    (r.remove x.path).sessions.filter (·.belongsTo name) = rest := by
  have hleaving : Leaving (x :: rest) r := hfound ▸ h.leaving _
  have hothers : ∀ y ∈ rest, y.path ≠ x.path := by
    intro y hy heq
    exact (List.nodup_cons.mp hleaving.nodup).1 (List.mem_map.mpr ⟨y, hy, heq⟩)
  have hswap : (r.remove x.path).sessions.filter (·.belongsTo name) =
      (r.sessions.filter (·.belongsTo name)).filter (·.path ≠ x.path) := by
    rw [Registry.remove, List.filter_filter, List.filter_filter]
    exact List.filter_congr fun y _ => Bool.and_comm ..
  rw [hswap, hfound, List.filter_cons_of_neg (by simp), List.filter_eq_self]
  exact fun y hy => decide_eq_true (hothers y hy)

end Registry

end LocationBroker.Session
