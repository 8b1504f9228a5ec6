import LocationBroker.Proofs.Document.Fields
import LocationBroker.Proofs.Text.Scan
import LocationBroker.Toml.Document

/-! # Documents say everything once

A table that states a key twice is no table of a document.  Tables under construction are kept free
of such keys by every statement that is added (`insertPair_keeps`, `descend_keeps`), and tables on
one line are built in the same way, so whatever a text is read as has distinct keys at every depth
(`parse?_unambiguous`).
-/

namespace LocationBroker

/-! ## Values -/

namespace Document

def Value.isLeaf : Value → Bool
  | .array _ | .table _ => false
  | _ => true

/-- No table of the value states a key twice. -/
inductive Value.Unambiguous : Value → Prop
  | leaf {v} : v.isLeaf = true → Unambiguous v
  | array {items} : (∀ v ∈ items, Unambiguous v) → Unambiguous (.array items)
  | table {entries} : Distinct entries → (∀ e ∈ entries, Unambiguous e.2) →
      Unambiguous (.table entries)

/-- No table that a text is read as states a key twice. -/
def Parser.Unambiguous (parse : Parser) : Prop :=
  ∀ text entries, parse text = some entries → (Value.table entries).Unambiguous

theorem Parser.Unambiguous.distinct {parse : Parser} (hparse : parse.Unambiguous) {text : String}
    {entries : List (String × Value)} (h : parse text = some entries) : Distinct entries := by
  cases hparse text entries h with
  | leaf hleaf => cases hleaf
  | table hdistinct _ => exact hdistinct

end Document

namespace Toml

open Document (Distinct Value)

/-! ## Tables under construction -/

inductive Draft.Unambiguous : Draft → Prop
  | value {v} : v.Unambiguous → Unambiguous (.value v)
  | table {origin entries} : (entries.map (·.1)).Nodup → (∀ e ∈ entries, Unambiguous e.2) →
      Unambiguous (.table origin entries)
  | elements {tables} : (∀ entries ∈ tables, (entries.map (·.1)).Nodup) →
      (∀ entries ∈ tables, ∀ e ∈ entries, Unambiguous e.2) → Unambiguous (.elements tables)

structure Entries.Unambiguous (entries : Entries) : Prop where
  distinct : (entries.map (·.1)).Nodup
  drafts : ∀ e ∈ entries, e.2.Unambiguous

namespace Entries

variable {entries after : Entries} {tables : List Entries} {key : String} {d : Draft} {v : Value}
  {path : List String}

theorem unambiguous_nil : Unambiguous [] :=
  ⟨List.nodup_nil, List.forall_mem_nil _⟩

theorem Unambiguous.draft (h : Unambiguous entries) (hget : get? key entries = some d) :
    d.Unambiguous := by
  obtain ⟨e, he, rfl⟩ := Option.map_eq_some_iff.mp hget
  exact h.drafts e (List.mem_of_find?_eq_some he)

theorem Unambiguous.concat (h : Unambiguous entries) (hfresh : get? key entries = none)
    (hd : d.Unambiguous) : Unambiguous (entries ++ [(key, d)]) where
  distinct := by
    have hkey : key ∉ entries.map (·.1) := by
      rw [get?, Option.map_eq_none_iff, List.find?_eq_none] at hfresh
      rintro hmem
      obtain ⟨e, he, rfl⟩ := List.mem_map.mp hmem
      exact hfresh e he (decide_eq_true rfl)
    rw [List.map_append, List.nodup_append]
    refine ⟨h.distinct, by simp, ?_⟩
    rintro other hother _ hlast rfl
    obtain rfl : other = key := by simpa using hlast
    exact hkey hother
  drafts := by
    rw [List.forall_mem_append, List.forall_mem_singleton]
    exact ⟨h.drafts, hd⟩

theorem Unambiguous.set (h : Unambiguous entries) (hd : d.Unambiguous) :
    Unambiguous (set key d entries) where
  distinct := by
    have hkeys : (Entries.set key d entries).map (·.1) = entries.map (·.1) := by
      rw [Entries.set, List.map_map]
      refine List.map_congr_left fun e _ => ?_
      by_cases he : e.1 = key <;> simp [he]
    rw [hkeys]
    exact h.distinct
  drafts := by
    rw [Entries.set, List.forall_mem_map]
    intro e he
    split
    · exact hd
    · exact h.drafts e he

theorem Unambiguous.remove (h : Unambiguous entries) : Unambiguous (remove key entries) where
  distinct := h.distinct.sublist (List.filter_sublist.map _)
  drafts e he := h.drafts e (List.mem_filter.mp he).1

/-- A change that states no key twice. -/
def Keeps (change : Entries → Option Entries) : Prop :=
  ∀ {entries after}, Unambiguous entries → change entries = some after → Unambiguous after

theorem Keeps.updateLast {change : Entries → Option Entries} (h : Keeps change)
    {changed : List Entries} (htables : ∀ t ∈ tables, Unambiguous t)
    (hchanged : updateLast change tables = some changed) : ∀ t ∈ changed, Unambiguous t := by
  fun_induction Entries.updateLast change tables generalizing changed with
  | case1 => cases hchanged
  | case2 last =>
    obtain ⟨t, ht, rfl⟩ := Option.map_eq_some_iff.mp hchanged
    rw [List.forall_mem_singleton] at htables ⊢
    exact h htables ht
  | case3 first second rest ih =>
    obtain ⟨ts, hts, rfl⟩ := Option.map_eq_some_iff.mp hchanged
    rw [List.forall_mem_cons] at htables ⊢
    exact ⟨htables.1, ih htables.2 hts⟩

theorem Unambiguous.elements (h : Unambiguous entries)
    (hget : get? key entries = some (.elements tables)) : ∀ t ∈ tables, Unambiguous t := by
  cases h.draft hget with
  | elements hkeys hdrafts => exact fun t ht => ⟨hkeys t ht, hdrafts t ht⟩

theorem Unambiguous.inner {origin : Origin} {inner : Entries} (h : Unambiguous entries)
    (hget : get? key entries = some (.table origin inner)) : Unambiguous inner := by
  cases h.draft hget with
  | table hkeys hdrafts => exact ⟨hkeys, hdrafts⟩

theorem Unambiguous.toTable (h : Unambiguous entries) (origin : Origin) :
    (Draft.table origin entries).Unambiguous :=
  .table h.distinct h.drafts

theorem unambiguous_elements (h : ∀ t ∈ tables, Unambiguous t) :
    (Draft.elements tables).Unambiguous :=
  .elements (fun t ht => (h t ht).distinct) fun t ht => (h t ht).drafts

theorem insertPair_keeps (hv : v.Unambiguous) (path : List String) :
    Keeps (insertPair key v path) := by
  induction path with
  | nil =>
    intro entries after h hinsert
    rw [insertPair] at hinsert
    split at hinsert
    · cases hinsert
    · rename_i hfresh
      cases hinsert
      exact h.concat hfresh (.value hv)
  | cons p path ih =>
    intro entries after h hinsert
    rw [insertPair] at hinsert
    split at hinsert
    · rename_i hfresh
      obtain ⟨inner, hinner, rfl⟩ := Option.map_eq_some_iff.mp hinsert
      exact h.concat hfresh ((ih unambiguous_nil hinner).toTable _)
    · cases hinsert
    · rename_i hget
      split at hinsert
      · cases hinsert
      · obtain ⟨ts, hts, rfl⟩ := Option.map_eq_some_iff.mp hinsert
        exact h.set (unambiguous_elements (ih.updateLast (h.elements hget) hts))
    · cases hinsert
    · rename_i hget
      split at hinsert
      · cases hinsert
      · obtain ⟨inner, hinner, rfl⟩ := Option.map_eq_some_iff.mp hinsert
        exact h.set ((ih (h.inner hget) hinner).toTable _)
    · rename_i hget
      obtain ⟨inner, hinner, rfl⟩ := Option.map_eq_some_iff.mp hinsert
      exact h.set ((ih (h.inner hget) hinner).toTable _)

theorem descend_keeps {change : Entries → Option Entries} (hchange : Keeps change)
    (path : List String) : Keeps (descend change path) := by
  induction path with
  | nil => exact hchange
  | cons p path ih =>
    intro entries after h hdescend
    rw [descend] at hdescend
    split at hdescend
    · rename_i hfresh
      obtain ⟨inner, hinner, rfl⟩ := Option.map_eq_some_iff.mp hdescend
      exact h.concat hfresh ((ih unambiguous_nil hinner).toTable _)
    · cases hdescend
    · rename_i hget
      obtain ⟨ts, hts, rfl⟩ := Option.map_eq_some_iff.mp hdescend
      exact h.set (unambiguous_elements (ih.updateLast (h.elements hget) hts))
    · rename_i hget
      obtain ⟨inner, hinner, rfl⟩ := Option.map_eq_some_iff.mp hdescend
      exact h.set ((ih (h.inner hget) hinner).toTable _)

theorem insertPairs_keeps {pairs : List (List String × String × Value)}
    (hpairs : ∀ p ∈ pairs, p.2.2.Unambiguous) : Keeps (insertPairs pairs) := by
  induction pairs with
  | nil =>
    rintro entries after h ⟨⟩
    exact h
  | cons p pairs ih =>
    intro entries after h hinsert
    rw [List.forall_mem_cons] at hpairs
    obtain ⟨between, hfirst, hrest⟩ := Option.bind_eq_some_iff.mp hinsert
    exact ih hpairs.2 (insertPair_keeps hpairs.1 _ h hfirst) hrest

theorem attachTable_keeps {pairs : List (List String × String × Value)}
    (hpairs : ∀ p ∈ pairs, p.2.2.Unambiguous) : Keeps (attachTable path key pairs) := by
  refine descend_keeps (fun {entries after} h hattach => ?_) path
  split at hattach
  · rename_i hfresh
    obtain ⟨t, ht, rfl⟩ := Option.map_eq_some_iff.mp hattach
    exact h.concat hfresh ((insertPairs_keeps hpairs unambiguous_nil ht).toTable _)
  · rename_i hget
    obtain ⟨t, ht, rfl⟩ := Option.map_eq_some_iff.mp hattach
    refine h.remove.concat ?_ ((insertPairs_keeps hpairs (h.inner hget) ht).toTable _)
    simp [get?, remove]
  · cases hattach

theorem attachElement_keeps {pairs : List (List String × String × Value)}
    (hpairs : ∀ p ∈ pairs, p.2.2.Unambiguous) : Keeps (attachElement path key pairs) := by
  refine descend_keeps (fun {entries after} h hattach => ?_) path
  split at hattach
  · rename_i hfresh
    obtain ⟨t, ht, rfl⟩ := Option.map_eq_some_iff.mp hattach
    have hone := insertPairs_keeps hpairs unambiguous_nil ht
    exact h.concat hfresh (unambiguous_elements (List.forall_mem_singleton.mpr hone))
  · rename_i tables hget
    obtain ⟨t, ht, rfl⟩ := Option.map_eq_some_iff.mp hattach
    have hone := insertPairs_keeps hpairs unambiguous_nil ht
    refine h.set (unambiguous_elements ?_)
    rw [List.forall_mem_append, List.forall_mem_singleton]
    exact ⟨h.elements hget, hone⟩
  · cases hattach

end Entries

/-! ## Finished tables -/

theorem finishEntries_eq (entries : Entries) :
    finishEntries entries = entries.map fun e => (e.1, e.2.finish) := by
  induction entries with
  | nil => rfl
  | cons e rest ih =>
    obtain ⟨key, d⟩ := e
    rw [finishEntries, finishEntry, ih]
    rfl

theorem finishTables_eq (tables : List Entries) :
    finishTables tables = tables.map fun entries => .table (finishEntries entries) := by
  induction tables with
  | nil => rfl
  | cons entries rest ih => rw [finishTables, ih]; rfl

theorem finish_table {entries : Entries} (hkeys : (entries.map (·.1)).Nodup)
    (h : ∀ e ∈ entries, e.2.finish.Unambiguous) :
    (Value.table (finishEntries entries)).Unambiguous := by
  rw [finishEntries_eq]
  refine .table ?_ (List.forall_mem_map.mpr h)
  rw [Distinct, List.map_map]
  exact hkeys

theorem Draft.Unambiguous.finish {d : Draft} (h : d.Unambiguous) : d.finish.Unambiguous := by
  induction h with
  | value hv => exact hv
  | table hkeys _ ih => exact finish_table hkeys ih
  | elements hkeys _ ih =>
    rw [Draft.finish, finishTables_eq]
    exact .array (List.forall_mem_map.mpr fun t ht => finish_table (hkeys t ht) (ih t ht))

theorem Entries.Unambiguous.finish {entries : Entries} (h : entries.Unambiguous) :
    (Value.table (finishEntries entries)).Unambiguous :=
  finish_table h.distinct fun e he => (h.drafts e he).finish

/-! ## Values -/

open Text (Scan)
open Text.Scan

def IsLeaf (v : Value) : Prop := v.isLeaf = true

theorem decimalFloat_yields : decimalFloat.Yields IsLeaf := by
  unfold decimalFloat
  refine .after fun negative => .after fun whole => .after fun places => .after fun power => ?_
  refine .ite (.after fun _ => ?_) ?_
  · exact .ite (.pure rfl) (.ite .failure (.pure rfl))
  · exact .ite (.pure rfl) (.ite .failure (.pure rfl))

theorem integer_yields : integer.Yields IsLeaf := by
  have hbounded (n : Int) : (bounded n).Yields IsLeaf := .ite (.pure rfl) .failure
  have hbased (mark : Char) (base : Nat) : (basedInteger mark base).Yields IsLeaf :=
    .after fun _ => .after fun _ => hbounded _
  refine .orElse (hbased _ _) (.orElse (hbased _ _) (.orElse (hbased _ _) ?_))
  exact .after fun _ => .after fun _ => hbounded _

theorem scalar_yields : scalar.Yields IsLeaf := by
  refine .orElse ((Yields.any text).map fun _ _ => rfl) (.orElse ?_ (.orElse ?_ ?_))
  · exact .orElse (.seqRight (.pure rfl)) (.seqRight (.pure rfl))
  · exact .after fun _ => .pure rfl
  · refine .orElse decimalFloat_yields (.orElse ?_ integer_yields)
    exact .after fun _ => .after fun _ => .pure rfl

theorem arrayOf_yields {item : Scan Value} (h : item.Yields Value.Unambiguous) :
    (arrayOf item).Yields Value.Unambiguous := by
  unfold arrayOf
  have hitem : (gap *> item <* gap).Yields Value.Unambiguous := h.seqRight.seqLeft
  refine .after fun _ => hitem.separated?.bind fun items hitems => ?_
  have hclosed : (gap >>= fun _ => exactly ']' >>= fun _ => pure (Value.array items)).Yields
      Value.Unambiguous := .after fun _ => .after fun _ => .pure (.array hitems)
  exact .ite (.after fun _ => hclosed) hclosed

theorem inlineTableOf_yields {item : Scan Value} (h : item.Yields Value.Unambiguous) :
    (inlineTableOf item).Yields Value.Unambiguous := by
  unfold inlineTableOf
  refine .after fun _ => Yields.bind
    (Yields.separated? (p := fun pair => pair.2.2.Unambiguous) ?_) fun pairs hpairs => ?_
  · refine .after fun _ => .after fun _ => ?_
    exact h.seqRight.seqLeft.bind fun v hv => .pure hv
  · refine .after fun _ => .after fun _ => ?_
    cases hentries : Entries.insertPairs pairs [] with
    | none => exact .failure
    | some entries =>
      exact .pure (Entries.insertPairs_keeps hpairs Entries.unambiguous_nil hentries).finish

theorem value_yields (depth : Nat) : (value depth).Yields Value.Unambiguous := by
  have hscalar : scalar.Yields Value.Unambiguous := fun s v rest h =>
    .leaf (scalar_yields s v rest h)
  induction depth with
  | zero => exact hscalar
  | succ depth ih =>
    intro s v rest h
    rw [value] at h
    dsimp only at h
    split at h
    · exact arrayOf_yields ih _ _ _ h
    · exact inlineTableOf_yields ih _ _ _ h
    · exact hscalar _ _ _ h

/-! ## Documents -/

/-- The statement's value, if it has one, states no key twice. -/
def Statement.Unambiguous : Statement → Prop
  | .pair _ _ v => v.Unambiguous
  | .table _ _ | .element _ _ => True

theorem header_yields : header.Yields Statement.Unambiguous := by
  intro s st rest h
  unfold header at h
  split at h
  · have helement : (key >>= fun k => word [']', ']'] >>= fun _ =>
        (pure (Statement.element k.1 k.2) : Scan Statement)).Yields Statement.Unambiguous :=
      .after fun _ => .after fun _ => .pure trivial
    exact helement _ _ _ h
  · have htable : (key >>= fun k => exactly ']' >>= fun _ =>
        (pure (Statement.table k.1 k.2) : Scan Statement)).Yields Statement.Unambiguous :=
      .after fun _ => .after fun _ => .pure trivial
    exact htable _ _ _ h
  · cases h

theorem pair_yields : pair.Yields Statement.Unambiguous :=
  .after fun _ => .after fun _ => .after fun _ =>
    (value_yields depthLimit).bind fun _ hv => .pure hv

theorem line_yields : line.Yields fun st => ∀ s ∈ st, s.Unambiguous := by
  have hnone {scan : Scan Unit} :
      (scan *> pure none : Scan (Option Statement)).Yields fun st => ∀ s ∈ st, s.Unambiguous :=
    .seqRight (.pure fun s hs => nomatch hs)
  have hsome {scan : Scan Statement} {ending : Scan Unit} (h : scan.Yields Statement.Unambiguous) :
      (some <$> scan <* ending : Scan (Option Statement)).Yields fun st =>
        ∀ s ∈ st, s.Unambiguous :=
    .seqLeft (h.map fun s hs other hother => Option.mem_some.mp hother ▸ hs)
  unfold line
  refine .after fun _ => .after fun next => ?_
  split
  · exact .failure
  · exact hnone
  · exact hnone
  · exact hnone
  · exact hsome header_yields
  · exact hsome pair_yields

theorem statements_yields : statements.Yields fun all => ∀ s ∈ all, s.Unambiguous := by
  unfold statements
  refine .after fun _ => line_yields.many.bind fun lines hlines => ?_
  refine .after fun _ => .after fun _ => .pure fun s hs => ?_
  obtain ⟨st, hst, rfl⟩ := List.mem_filterMap.mp hs
  exact hlines _ hst s rfl

theorem leadingPairs_unambiguous {all : List Statement} (h : ∀ s ∈ all, s.Unambiguous) :
    ∀ p ∈ leadingPairs all, p.2.2.Unambiguous := by
  fun_induction leadingPairs all with
  | case1 path key v rest ih =>
    rw [List.forall_mem_cons] at h ⊢
    exact ⟨h.1, ih h.2⟩
  | case2 => exact List.forall_mem_nil _

theorem attachSections_keeps {all : List Statement} (h : ∀ s ∈ all, s.Unambiguous) :
    Entries.Keeps (attachSections all) := by
  induction all with
  | nil =>
    rintro entries after hentries ⟨⟩
    exact hentries
  | cons s rest ih =>
    rw [List.forall_mem_cons] at h
    have hpairs := leadingPairs_unambiguous h.2
    intro entries after hentries hattach
    cases s with
    | pair path key v => exact ih h.2 hentries hattach
    | table path key =>
      obtain ⟨between, hfirst, hrest⟩ := Option.bind_eq_some_iff.mp hattach
      exact ih h.2 (Entries.attachTable_keeps hpairs hentries hfirst) hrest
    | element path key =>
      obtain ⟨between, hfirst, hrest⟩ := Option.bind_eq_some_iff.mp hattach
      exact ih h.2 (Entries.attachElement_keeps hpairs hentries hfirst) hrest

/-- Whatever a text is read as, no table in it states a key twice. -/
theorem parse?_unambiguous : Document.Parser.Unambiguous parse? := by
  intro document entries h
  obtain ⟨⟨all, rest⟩, hall, h⟩ := Option.bind_eq_some_iff.mp h
  obtain ⟨top, htop, h⟩ := Option.bind_eq_some_iff.mp h
  obtain ⟨sections, hsections, h⟩ := Option.bind_eq_some_iff.mp h
  cases h
  have hstatements := statements_yields _ _ _ hall
  have hpairs := leadingPairs_unambiguous hstatements
  have hproper := Entries.insertPairs_keeps hpairs Entries.unambiguous_nil htop
  exact (attachSections_keeps hstatements hproper hsections).finish

end Toml

end LocationBroker
