import LocationBroker.Text.Order

/-! # Ledgers

A ledger holds at most one value for each key and lists its entries in the order of the keys' texts.
The order is part of the type, so two ledgers with the same entries are equal.  The main statements
give each operation through the look-up: `get?_insert`, `get?_erase` and `get?_filter`.
-/

namespace LocationBroker

open Text (Before)

/-- Where keys are distinct, a key finds the item that has it. -/
theorem find?_key_eq_some_iff {ι κ : Type} [DecidableEq κ] {key : ι → κ} {items : List ι}
    (h : (items.map key).Nodup) {k : κ} {i : ι} :
    items.find? (fun i => key i = k) = some i ↔ i ∈ items ∧ key i = k := by
  induction items with
  | nil => simp
  | cons first rest ih =>
    obtain ⟨hfresh, hrest⟩ := List.nodup_cons.mp h
    by_cases hk : key first = k
    · subst hk
      have hne : ∀ i ∈ rest, key i ≠ key first := fun i hi heq =>
        hfresh (heq ▸ List.mem_map_of_mem hi)
      simp only [List.find?_cons, decide_true, Option.some.injEq, List.mem_cons]
      constructor
      · rintro rfl
        exact ⟨.inl rfl, rfl⟩
      · rintro ⟨rfl | hi, hkey⟩
        · rfl
        · exact absurd hkey (hne i hi)
    · simp only [List.find?_cons, hk, decide_false, ih hrest, List.mem_cons]
      constructor
      · exact fun ⟨hi, hkey⟩ => ⟨.inr hi, hkey⟩
      · rintro ⟨rfl | hi, hkey⟩
        · exact absurd hkey hk
        · exact ⟨hi, hkey⟩

theorem find?_value_eq_some_iff {κ α : Type} [DecidableEq κ] {entries : List (κ × α)}
    (h : (entries.map (·.1)).Nodup) {k : κ} {v : α} :
    (entries.find? fun e => e.1 = k).map (·.2) = some v ↔ (k, v) ∈ entries := by
  rw [Option.map_eq_some_iff]
  simp only [find?_key_eq_some_iff h]
  constructor
  · rintro ⟨e, ⟨hmem, rfl⟩, rfl⟩
    exact hmem
  · intro hmem
    exact ⟨_, ⟨hmem, rfl⟩, rfl⟩

/-- Keys that are ordered by a text which determines them. -/
class Keyed (κ : Type) where
  /-- The text that a key is ordered by. -/
  text : κ → String
  /-- The text determines the key. -/
  text_inj : ∀ {a b : κ}, text a = text b → a = b

instance : Keyed String := ⟨id, id⟩

/-- Entries in ascending order of their keys, each key once. -/
structure Ledger (κ α : Type) [Keyed κ] where
  entries : List (κ × α)
  sorted : entries.Pairwise fun a b => Before (Keyed.text a.1) (Keyed.text b.1)

namespace Ledger

variable {κ α : Type} [Keyed κ]

/-- The ledger without entries. -/
def empty : Ledger κ α := ⟨[], .nil⟩

instance : Inhabited (Ledger κ α) := ⟨empty⟩

def get? [DecidableEq κ] (l : Ledger κ α) (k : κ) : Option α :=
  (l.entries.find? fun e => e.1 = k).map (·.2)

def contains [DecidableEq κ] (l : Ledger κ α) (k : κ) : Bool :=
  (l.get? k).isSome

def keys (l : Ledger κ α) : List κ :=
  l.entries.map (·.1)

/-- The keys come in ascending order. -/
theorem keys_ascending (l : Ledger κ α) :
    l.keys.Pairwise fun a b => Before (Keyed.text a) (Keyed.text b) :=
  List.pairwise_map.mpr l.sorted

def size (l : Ledger κ α) : Nat :=
  l.entries.length

/-- Puts an entry at its place, in the stead of an entry of the same key. -/
def insertEntry (k : κ) (v : α) : List (κ × α) → List (κ × α)
  | [] => [(k, v)]
  | e :: rest =>
    if Before (Keyed.text k) (Keyed.text e.1) then (k, v) :: e :: rest
    else if Before (Keyed.text e.1) (Keyed.text k) then e :: insertEntry k v rest
    else (k, v) :: rest

theorem mem_insertEntry {k : κ} {v : α} {es : List (κ × α)} {e : κ × α}
    (h : e ∈ insertEntry k v es) : e = (k, v) ∨ e ∈ es := by
  induction es with
  | nil => simpa [insertEntry] using h
  | cons d es ih =>
    rw [insertEntry] at h
    split at h
    · simpa using h
    · split at h
      · rcases List.mem_cons.mp h with h | h
        · exact .inr (by simp [h])
        · exact (ih h).imp_right (List.mem_cons_of_mem _)
      · rcases List.mem_cons.mp h with h | h
        · exact .inl h
        · exact .inr (List.mem_cons_of_mem _ h)

theorem sorted_insertEntry (k : κ) (v : α) {es : List (κ × α)}
    (h : es.Pairwise fun a b => Before (Keyed.text a.1) (Keyed.text b.1)) :
    (insertEntry k v es).Pairwise fun a b => Before (Keyed.text a.1) (Keyed.text b.1) := by
  induction es with
  | nil => simp [insertEntry]
  | cons d es ih =>
    rw [List.pairwise_cons] at h
    obtain ⟨hd, hes⟩ := h
    rw [insertEntry]
    split
    · rename_i hk
      refine List.pairwise_cons.mpr ⟨fun e he => ?_, List.pairwise_cons.mpr ⟨hd, hes⟩⟩
      rcases List.mem_cons.mp he with rfl | he
      · exact hk
      · exact hk.trans (hd e he)
    · split
      · rename_i hk
        refine List.pairwise_cons.mpr ⟨fun e he => ?_, ih hes⟩
        rcases mem_insertEntry he with rfl | he
        · exact hk
        · exact hd e he
      · rename_i hk hk'
        have hkd : Keyed.text k = Keyed.text d.1 := by
          rcases Before.trichotomy (Keyed.text k) (Keyed.text d.1) with h | h | h
          · exact absurd h hk
          · exact h
          · exact absurd h hk'
        exact List.pairwise_cons.mpr ⟨fun e he => by simpa [hkd] using hd e he, hes⟩

/-- Gives a key a value, whether it had one or not. -/
def insert (l : Ledger κ α) (k : κ) (v : α) : Ledger κ α :=
  ⟨insertEntry k v l.entries, sorted_insertEntry k v l.sorted⟩

def filter (p : κ → α → Bool) (l : Ledger κ α) : Ledger κ α :=
  ⟨l.entries.filter fun e => p e.1 e.2, l.sorted.filter _⟩

def erase [DecidableEq κ] (l : Ledger κ α) (k : κ) : Ledger κ α :=
  l.filter fun k' _ => k' ≠ k

/-- The ledger of a list of entries; of two with the same key the later one counts. -/
def ofList (es : List (κ × α)) : Ledger κ α :=
  es.foldl (fun l e => l.insert e.1 e.2) empty

/-! ## Look-up -/

/-- Two ledgers with the same entries are the same ledger. -/
theorem ext {l m : Ledger κ α} (h : l.entries = m.entries) : l = m := by
  cases l; cases m; cases h; rfl

theorem filter_filter (p q : κ → α → Bool) (l : Ledger κ α) :
    (l.filter q).filter p = l.filter fun k v => p k v && q k v :=
  ext List.filter_filter

variable [DecidableEq κ]

@[simp] theorem get?_empty (k : κ) : (empty : Ledger κ α).get? k = none := rfl

theorem find?_insertEntry (k : κ) (v : α) (es : List (κ × α)) (q : κ) :
    (insertEntry k v es).find? (fun e => e.1 = q) =
      if k = q then some (k, v) else es.find? (fun e => e.1 = q) := by
  induction es with
  | nil => by_cases h : k = q <;> simp [insertEntry, h]
  | cons d es ih =>
    rw [insertEntry]
    split
    · by_cases h : k = q <;> simp [List.find?_cons, h]
    · split
      · rename_i hk
        by_cases h : k = q
        · subst h
          have hd : d.1 ≠ k := fun hdk => hk.ne (by rw [hdk])
          simp [hd, ih]
        · simp [List.find?_cons, h, ih]
      · rename_i hk hk'
        have hkd : k = d.1 := by
          rcases Before.trichotomy (Keyed.text k) (Keyed.text d.1) with h | h | h
          · exact absurd h hk
          · exact Keyed.text_inj h
          · exact absurd h hk'
        subst hkd
        by_cases h : d.1 = q <;> simp [h]

/-- After an insertion the key has the new value and every other key the value it had. -/
theorem get?_insert (l : Ledger κ α) (k : κ) (v : α) (q : κ) :
    (l.insert k v).get? q = if k = q then some v else l.get? q := by
  simp only [get?, insert, find?_insertEntry]
  split <;> rfl

/-- The entries of a ledger are its keys with their values. -/
theorem mem_entries_iff (l : Ledger κ α) (k : κ) (v : α) :
    (k, v) ∈ l.entries ↔ l.get? k = some v := by
  have hkeys : l.keys.Nodup := l.keys_ascending.imp fun hbefore heq => hbefore.ne (by rw [heq])
  exact (find?_value_eq_some_iff hkeys).symm

theorem mem_keys_iff (l : Ledger κ α) (k : κ) : k ∈ l.keys ↔ ∃ v, l.get? k = some v := by
  simp only [keys, List.mem_map, ← mem_entries_iff]
  exact ⟨fun ⟨e, he, hk⟩ => ⟨e.2, hk ▸ he⟩, fun ⟨v, hv⟩ => ⟨(k, v), hv, rfl⟩⟩

/-- A filter keeps the value of a key exactly if the entry passes the test. -/
theorem get?_filter (p : κ → α → Bool) (l : Ledger κ α) (q : κ) :
    (l.filter p).get? q = (l.get? q).filter (p q) := by
  refine Option.ext fun v => ?_
  rw [← mem_entries_iff, Option.filter_eq_some_iff, ← mem_entries_iff]
  simp [filter]

/-- Filters that agree on the entries of a ledger leave the same. -/
theorem filter_congr {p q : κ → α → Bool} {l : Ledger κ α}
    (h : ∀ k v, l.get? k = some v → p k v = q k v) : l.filter p = l.filter q :=
  ext (List.filter_congr fun e he => h e.1 e.2 ((l.mem_entries_iff e.1 e.2).mp he))

theorem filter_eq_self {p : κ → α → Bool} {l : Ledger κ α}
    (h : ∀ k v, l.get? k = some v → p k v = true) : l.filter p = l :=
  ext (List.filter_eq_self.mpr fun e he => h e.1 e.2 ((l.mem_entries_iff e.1 e.2).mp he))

/-- The keys that a filter by value keeps are those that have the value. -/
theorem mem_keys_filter_eq [DecidableEq α] {l : Ledger κ α} {k : κ} {v : α} :
    k ∈ (l.filter fun _ other => other = v).keys ↔ l.get? k = some v := by
  rw [mem_keys_iff]
  simp only [get?_filter, Option.filter_eq_some_iff, decide_eq_true_eq]
  constructor
  · rintro ⟨other, hk, rfl⟩
    exact hk
  · intro hk
    exact ⟨v, hk, rfl⟩

/-- A filter that takes one value out leaves every key with another value as it was. -/
theorem get?_filter_ne [DecidableEq α] (l : Ledger κ α) (v : α) (k : κ) :
    (l.filter fun _ other => other ≠ v).get? k =
      if l.get? k = some v then none else l.get? k := by
  rw [get?_filter]
  cases l.get? k with
  | none => rfl
  | some other => by_cases h : other = v <;> simp [Option.filter, h]

/-- After an erasure the key has no value and every other key the value it had. -/
theorem get?_erase (l : Ledger κ α) (k q : κ) :
    (l.erase k).get? q = if q = k then none else l.get? q := by
  rw [erase, get?_filter]
  by_cases h : q = k <;> cases l.get? q <;> simp [h, Option.filter]

end Ledger

end LocationBroker
