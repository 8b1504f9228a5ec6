import LocationBroker.Proofs.Document.Fields
import LocationBroker.Proofs.Provider.Validity

/-! # Descriptors held in memory

Texts are put into memory one after the other, each under an identifier.  A look-up finds the last
one that was put under its identifier (`Ledger.get?_ofList_iff`), and look-ups are all there is to a
ledger (`Ledger.ext_get?`), so what was there before a text was put in its place is forgotten.  A
registry that loads from memory has the records of the last texts, in the order of the identifiers
(`last_put_decides`).
-/

namespace LocationBroker

/-! ## The last value of a key -/

section

variable {κ α : Type} {puts first second : List (κ × α)} {k k' : κ} {v v' : α}

/-- The value is the last one that is put under the key. -/
def LastPut (puts : List (κ × α)) (k : κ) (v : α) : Prop :=
  ∃ earlier later, puts = earlier ++ (k, v) :: later ∧ ∀ put ∈ later, put.1 ≠ k

theorem lastPut_append_iff :
    LastPut (first ++ second) k v ↔
      LastPut second k v ∨ LastPut first k v ∧ ∀ put ∈ second, put.1 ≠ k := by
  constructor
  · rintro ⟨earlier, later, hputs, hlater⟩
    obtain ⟨middle, rfl, rfl⟩ | ⟨middle, rfl, hmiddle⟩ := List.append_eq_append_iff.mp hputs
    · exact .inl ⟨middle, later, rfl, hlater⟩
    · cases middle with
      | nil => exact .inl ⟨[], later, hmiddle.symm, hlater⟩
      | cons put middle =>
        rw [List.cons_append, List.cons.injEq] at hmiddle
        obtain ⟨rfl, rfl⟩ := hmiddle
        rw [List.forall_mem_append] at hlater
        exact .inr ⟨⟨earlier, middle, rfl, hlater.1⟩, hlater.2⟩
  · rintro (⟨earlier, later, rfl, hlater⟩ | ⟨⟨earlier, later, rfl, hlater⟩, hsecond⟩)
    · exact ⟨first ++ earlier, later, by simp, hlater⟩
    · exact ⟨earlier, later ++ second, by simp, List.forall_mem_append.mpr ⟨hlater, hsecond⟩⟩

theorem not_lastPut_nil : ¬ LastPut [] k v := by
  rintro ⟨earlier, later, hputs, -⟩
  simp at hputs

theorem lastPut_cons_iff :
    LastPut ((k', v') :: puts) k v ↔
      LastPut puts k v ∨ (k' = k ∧ v' = v) ∧ ∀ put ∈ puts, put.1 ≠ k := by
  have hone : LastPut [(k', v')] k v ↔ k' = k ∧ v' = v := by
    constructor
    · rintro ⟨earlier, later, hputs, -⟩
      cases earlier with
      | nil => simpa using (List.cons.inj hputs).1
      | cons put earlier => simp at hputs
    · rintro ⟨rfl, rfl⟩
      exact ⟨[], [], rfl, by simp⟩
  rw [← hone]
  change LastPut ([(k', v')] ++ puts) k v ↔ _
  exact lastPut_append_iff

end

/-! ## Ledgers by their look-ups -/

namespace Ledger

variable {κ α : Type} [Keyed κ] [DecidableEq κ]

theorem ext_get? {l m : Ledger κ α} (h : ∀ k, l.get? k = m.get? k) : l = m := by
  have hnodup (l : Ledger κ α) : l.entries.Nodup :=
    l.sorted.imp fun hbefore heq => hbefore.ne (by rw [heq])
  have hperm : l.entries.Perm m.entries := by
    rw [List.perm_ext_iff_of_nodup (hnodup l) (hnodup m)]
    rintro ⟨k, v⟩
    rw [mem_entries_iff, mem_entries_iff, h]
  -- Both are in ascending order, so they are not only permutations of one another.
  refine ext (hperm.eq_of_pairwise (fun a b _ _ hab hba => ?_) l.sorted m.sorted)
  exact absurd (hab.trans hba) (Text.Before.irrefl _)

theorem get?_ofList_iff {puts : List (κ × α)} {k : κ} {v : α} :
    (ofList puts).get? k = some v ↔ LastPut puts k v := by
  induction puts using List.reverseRecOn with
  | nil => simp [ofList, not_lastPut_nil]
  | append_singleton puts put ih =>
    have hput : ofList (puts ++ [put]) = (ofList puts).insert put.1 put.2 := by simp [ofList]
    rw [hput, get?_insert, lastPut_append_iff, lastPut_cons_iff, ← ih]
    by_cases hk : put.1 = k <;> simp [hk, not_lastPut_nil]

/-- Nothing but the last value of each key makes a difference. -/
theorem ofList_congr {puts others : List (κ × α)}
    (h : ∀ k v, LastPut puts k v ↔ LastPut others k v) : ofList puts = ofList others := by
  refine ext_get? fun k => Option.ext fun v => ?_
  rw [get?_ofList_iff, get?_ofList_iff, h]

theorem ofList_overwrite (before between after : List (κ × α)) (k : κ) (v w : α) :
    ofList (before ++ (k, v) :: (between ++ (k, w) :: after)) =
      ofList (before ++ (between ++ (k, w) :: after)) := by
  refine ofList_congr fun k' v' => ?_
  simp only [lastPut_append_iff, lastPut_cons_iff, List.forall_mem_append, List.forall_mem_cons]
  grind

theorem ofList_swap (before after : List (κ × α)) {k k' : κ} (h : k ≠ k') (v v' : α) :
    ofList (before ++ (k, v) :: (k', v') :: after) =
      ofList (before ++ (k', v') :: (k, v) :: after) := by
  refine ofList_congr fun _ _ => ?_
  simp only [lastPut_append_iff, lastPut_cons_iff, List.forall_mem_cons]
  grind

end Ledger

/-! ## Loading from memory -/

namespace Provider

/-- The record that a text describes, under the given identifier. -/
def Record.ofText (id text : String) (parse : Document.Parser) : Except Error Record :=
  Descriptor.ofToml id text parse >>= ofDescriptor id

namespace Memory

variable {m : Memory} {parse : Document.Parser} {id : String} {record : Record}

theorem load_eq_ok_iff :
    Record.load (m.source parse) id = .ok record ↔
      ∃ text, m.get? id = some text ∧ Record.ofText id text parse = .ok record := by
  change (m.read id >>= fun text => Record.ofText id text parse) = .ok record ↔ _
  rw [Document.bind_eq_ok_iff, read]
  cases m.get? id <;> simp

theorem id_of_load (h : Record.load (m.source parse) id = .ok record) : record.id = id :=
  (Record.load_eq_ok_iff.mp h).1

theorem mem_loadable_iff :
    record ∈ (m.source parse).loadable ↔
      ∃ text, m.get? record.id = some text ∧ Record.ofText record.id text parse = .ok record := by
  rw [Source.mem_loadable, ← load_eq_ok_iff]
  constructor
  · rintro ⟨listing, -, -, hload⟩
    exact hload
  · intro hload
    obtain ⟨text, hget, -⟩ := load_eq_ok_iff.mp hload
    exact ⟨_, rfl, (m.mem_keys_iff _).mpr ⟨text, hget⟩, hload⟩

theorem loadable_ascending (m : Memory) (parse : Document.Parser) :
    ((m.source parse).loadable.map (·.id)).Pairwise Text.Before := by
  have hid {id : String} {record : Record}
      (h : (Record.load (m.source parse) id).toOption = some record) : record.id = id := by
    cases hload : Record.load (m.source parse) id with
    | error e => simp [hload, Except.toOption] at h
    | ok other =>
      obtain rfl : other = record := by simpa [hload, Except.toOption] using h
      exact id_of_load hload
  rw [List.pairwise_map]
  refine m.keys_ascending.filterMap _ fun id id' hbefore record h record' h' => ?_
  rw [hid h, hid h']
  exact hbefore

end Memory

namespace Registry

theorem mem_ids_iff {r : Registry} {id : String} :
    id ∈ r.records.map (·.id) ↔ ∃ record, r.get? id = some record := by
  rw [← Option.isSome_iff_exists, get?, List.find?_isSome]
  simp

theorem get?_of_loadable {r : Registry} {m : Memory} {parse : Document.Parser}
    (h : r.records = (m.source parse).loadable) {id : String} {record : Record} :
    r.get? id = some record ↔
      ∃ text, m.get? id = some text ∧ Record.ofText id text parse = .ok record := by
  have hnodup : (r.records.map (·.id)).Nodup := by
    rw [h]
    exact (m.loadable_ascending parse).imp Text.Before.ne
  rw [get?, find?_key_eq_some_iff hnodup, h, Memory.mem_loadable_iff]
  constructor
  · rintro ⟨htext, rfl⟩
    exact htext
  · intro htext
    obtain rfl := Memory.id_of_load (Memory.load_eq_ok_iff.mpr htext)
    exact ⟨htext, rfl⟩

/-- Whatever texts are put into memory, one after the other, and whatever texts are read as: if the
last text of an identifier can be loaded, a load leaves the records of just these identifiers, in
strictly ascending order, and a look-up finds for each identifier the record that its last text
describes.  The texts before the last one of an identifier have no influence, whether or not they
could be loaded, nor has the order in which texts are put under different identifiers. -/
theorem last_put_decides (parse : Document.Parser) (puts : List (String × String)) :
    let memory : Memory := .ofList puts
    (∀ r : Registry,
      (∃ id text record, LastPut puts id text ∧ Record.ofText id text parse = .ok record) →
        let after := (r.load (memory.source parse)).1
        (after.records.map (·.id)).Pairwise Text.Before ∧
        (∀ id, id ∈ after.records.map (·.id) ↔
          ∃ text, LastPut puts id text ∧ ∃ record, Record.ofText id text parse = .ok record) ∧
        ∀ id record, after.get? id = some record ↔
          ∃ text, LastPut puts id text ∧ Record.ofText id text parse = .ok record) ∧
    (∀ others, (∀ id text, LastPut puts id text ↔ LastPut others id text) →
      memory = .ofList others) ∧
    (∀ before id text between last later,
      puts = before ++ (id, text) :: (between ++ (id, last) :: later) →
        memory = .ofList (before ++ (between ++ (id, last) :: later))) ∧
    ∀ before id text id' text' later, id ≠ id' →
      puts = before ++ (id, text) :: (id', text') :: later →
        memory = .ofList (before ++ (id', text') :: (id, text) :: later) := by
  intro memory
  refine ⟨fun r hsome => ?_, fun others => Ledger.ofList_congr, ?_, ?_⟩
  · intro after
    obtain ⟨id, text, record, hlast, hrecord⟩ := hsome
    have hload : Record.load (memory.source parse) id = .ok record :=
      Memory.load_eq_ok_iff.mpr ⟨text, Ledger.get?_ofList_iff.mpr hlast, hrecord⟩
    have hsome : (memory.source parse).loadable ≠ [] := by
      obtain rfl := Memory.id_of_load hload
      exact List.ne_nil_of_mem (Memory.mem_loadable_iff.mpr (Memory.load_eq_ok_iff.mp hload))
    have hrecords : after.records = (memory.source parse).loadable := load_records hsome r
    have hget (id : String) (record : Record) : after.get? id = some record ↔
        ∃ text, LastPut puts id text ∧ Record.ofText id text parse = .ok record := by
      simp only [get?_of_loadable hrecords, memory, Ledger.get?_ofList_iff]
    refine ⟨hrecords ▸ memory.loadable_ascending parse, fun id => ?_, hget⟩
    simp only [mem_ids_iff, hget]
    constructor
    · rintro ⟨record, text, hlast, hrecord⟩
      exact ⟨text, hlast, record, hrecord⟩
    · rintro ⟨text, hlast, record, hrecord⟩
      exact ⟨record, text, hlast, hrecord⟩
  · rintro before id text between last later rfl
    exact Ledger.ofList_overwrite before between later id text last
  · rintro before id text id' text' later hne rfl
    exact Ledger.ofList_swap before later hne text text'

def plain : String :=
  "[provider]\nname = \"x\"\nservice = \"a.b\"\npath = \"/x\"\ninterfaces = [\"position\"]\n"

def moved : String :=
  "[provider]\nname = \"y\"\nservice = \"a.b\"\npath = \"/y\"\ninterfaces = [\"address\"]\n"

/-- Of `a` only the last text can be loaded, of `b` both of them, and of `c` only the first one. -/
def rewritten : List (String × String) :=
  [("c", plain), ("b", plain), ("a", "["), ("b", moved), ("a", plain), ("c", "[")]

set_option maxRecDepth 8000 in
/-- What could be loaded of `c` is forgotten, and what could not be loaded of `a`. -/
theorem last_put_decides_rewritten :
    let memory : Memory := .ofList rewritten
    let after := (({} : Registry).load memory.source).1
    (∃ id text record, LastPut rewritten id text ∧
        Record.ofText id text Toml.parse? = .ok record) ∧
      (after.records.map (·.id)).Pairwise Text.Before ∧ "a" ∈ after.records.map (·.id) ∧
      "c" ∉ after.records.map (·.id) ∧
      (∃ record, after.get? "b" = some record ∧ record.name = "y") ∧
      memory = .ofList (rewritten.drop 1) := by
  obtain ⟨hload, -, hoverwritten, -⟩ := last_put_decides Toml.parse? rewritten
  have hb : (Record.ofText "b" moved Toml.parse?).toOption.map (·.name) = some "y" := by
    decide +kernel
  have ha : (Record.ofText "a" plain Toml.parse?).toOption.isSome = true := by decide +kernel
  have hc : (Record.ofText "c" "[" Toml.parse?).toOption.isSome = false := by decide +kernel
  have hlast : LastPut rewritten "b" moved := ⟨rewritten.take 3, rewritten.drop 4, rfl, by decide⟩
  have hlast' : LastPut rewritten "a" plain := ⟨rewritten.take 4, rewritten.drop 5, rfl, by decide⟩
  have hforgotten : (Ledger.ofList rewritten).get? "c" = some "[" := by decide +kernel
  have hdropped := hoverwritten [] "c" plain (rewritten.tail.take 4) "[" [] rfl
  cases hrecord : Record.ofText "b" moved Toml.parse? with
  | error e => simp [hrecord, Except.toOption] at hb
  | ok record =>
    have hname : record.name = "y" := by simpa [hrecord, Except.toOption] using hb
    have hsome : ∃ id text record, LastPut rewritten id text ∧
        Record.ofText id text Toml.parse? = .ok record := ⟨"b", moved, record, hlast, hrecord⟩
    specialize hload {} hsome
    -- What is in the registry follows from the theorem, and is not to be computed.
    dsimp only at hload ⊢
    generalize (Registry.load {} (Memory.source (.ofList rewritten))).1 = after at hload ⊢
    obtain ⟨hascending, hids, hget⟩ := hload
    refine ⟨hsome, hascending, (hids "a").mpr ⟨plain, hlast', ?_⟩, fun hmem => ?_,
      ⟨record, (hget "b" record).mpr ⟨moved, hlast, hrecord⟩, hname⟩, hdropped⟩
    · cases hplain : Record.ofText "a" plain Toml.parse? with
      | error e => simp [hplain, Except.toOption] at ha
      | ok other => exact ⟨other, rfl⟩
    · obtain ⟨text, htext, other, hother⟩ := (hids "c").mp hmem
      rw [Ledger.get?_ofList_iff.mpr htext, Option.some.injEq] at hforgotten
      simp [hforgotten ▸ hother, Except.toOption] at hc

end Registry

end Provider

end LocationBroker
