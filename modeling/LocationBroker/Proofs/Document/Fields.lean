import LocationBroker.Document.Reader
import LocationBroker.Ledger

/-! # Fields of tables

The keys of a table are distinct, so a table says at most one thing of each field of a record
(`Reader.field`), wherever the field stands and whatever else is stated.  Reading a record comes
down to reading its fields: the check of all stated ones succeeds exactly if each of them is read
(`check_eq_ok_iff`).
-/

namespace LocationBroker.Document

variable {α β : Type} {entries others : List (String × Value)} {key other name : String}
  {v w : Value}

theorem bind_eq_ok_iff {ε : Type} {x : Except ε α} {f : α → Except ε β} {b : β} :
    (x >>= f) = .ok b ↔ ∃ a, x = .ok a ∧ f a = .ok b := by
  cases x with
  | error e => exact iff_of_false (fun h => nomatch h) fun ⟨_, h, _⟩ => nomatch h
  | ok a =>
    change f a = .ok b ↔ _
    simp

/-! ## Looking a key up -/

/-- No key is stated twice. -/
def Distinct (entries : List (String × Value)) : Prop :=
  (entries.map (·.1)).Nodup

instance : Decidable (Distinct entries) :=
  inferInstanceAs (Decidable (entries.map (·.1)).Nodup)

theorem distinct_cons :
    Distinct ((key, v) :: entries) ↔ key ∉ entries.map (·.1) ∧ Distinct entries :=
  List.nodup_cons

theorem distinct_cons_of_fresh (h : key ∉ entries.map (·.1)) :
    Distinct ((key, v) :: entries) ↔ Distinct entries := by
  rw [distinct_cons, and_iff_right h]

theorem Distinct.perm (h : Distinct entries) (hperm : entries.Perm others) : Distinct others :=
  (hperm.map _).nodup h

@[simp] theorem lookup_cons_self : lookup key ((key, v) :: entries) = some v := by
  simp [lookup]

theorem lookup_cons_of_ne (h : other ≠ key) :
    lookup key ((other, v) :: entries) = lookup key entries := by
  simp [lookup, h]

theorem mem_of_lookup (h : lookup key entries = some v) : (key, v) ∈ entries := by
  obtain ⟨e, he, rfl⟩ := Option.map_eq_some_iff.mp h
  obtain rfl : e.1 = key := by simpa using List.find?_some he
  exact List.mem_of_find?_eq_some he

theorem lookup_eq_none_iff : lookup key entries = none ↔ key ∉ entries.map (·.1) := by
  rw [lookup, Option.map_eq_none_iff, List.find?_eq_none]
  simp only [decide_eq_true_eq, List.mem_map, not_exists, not_and]

theorem lookup_eq_some_iff (h : Distinct entries) :
    lookup key entries = some v ↔ (key, v) ∈ entries :=
  find?_value_eq_some_iff h

theorem lookup_perm (h : Distinct entries) (hperm : entries.Perm others) :
    lookup key entries = lookup key others := by
  refine Option.ext fun v => ?_
  rw [lookup_eq_some_iff h, lookup_eq_some_iff (h.perm hperm), hperm.mem_iff]

/-! ## What a table says of a field -/

/-- The value of a key is one of the given spellings, or the key is not stated and may be
omitted. -/
structure Writes (entries : List (String × Value)) (key : String) (spelling : Value → Prop)
    (omittable : Prop) : Prop where
  stated : ∀ v, lookup key entries = some v → spelling v
  omitted : lookup key entries = none → omittable

namespace Writes

variable {spelling : Value → Prop} {omittable : Prop}

theorem of_some (h : lookup key entries = some v) (hv : spelling v) :
    Writes entries key spelling omittable := by
  constructor <;> simp [h, hv]

theorem of_none (h : lookup key entries = none) (ho : omittable) :
    Writes entries key spelling omittable := by
  constructor <;> simp [h, ho]

end Writes

theorem toOption_eq_some_iff {ε : Type} {x : Except ε α} {a : α} :
    x.toOption = some a ↔ x = .ok a := by
  cases x <;> simp [Except.toOption]

namespace Reader

variable {reader : Reader α} {format : Format} {default : Option α}

/-- What a table says of a field: what its value is read as, or the default if it is not stated. -/
def field (reader : Reader α) (format : Format) (name : String) (default : Option α)
    (entries : List (String × Value)) : Option α :=
  match lookup name entries with
  | some v => (reader format v).toOption
  | none => default

theorem field_of_some (h : lookup name entries = some v) :
    reader.field format name default entries = (reader format v).toOption := by
  rw [field, h]

theorem field_of_none (h : lookup name entries = none) :
    reader.field format name default entries = default := by
  rw [field, h]

theorem field_congr (h : lookup name entries = lookup name others) :
    reader.field format name default entries = reader.field format name default others := by
  rw [field, field, h]

theorem field_eq_some_iff {a : α} :
    reader.field format name default entries = some a ↔
      Writes entries name (fun v => reader format v = .ok a) (some a = default) := by
  cases hlookup : lookup name entries with
  | none =>
    rw [field_of_none hlookup, eq_comm]
    exact ⟨.of_none hlookup, fun h => h.omitted hlookup⟩
  | some v =>
    rw [field_of_some hlookup, toOption_eq_some_iff]
    exact ⟨fun h => .of_some hlookup h, fun h => h.stated v hlookup⟩

/-- It makes no difference how a value is written, as long as it is read as the same. -/
theorem field_cons_congr
    (h : key = name → (reader format v).toOption = (reader format w).toOption) :
    reader.field format name default ((key, v) :: entries) =
      reader.field format name default ((key, w) :: entries) := by
  by_cases hkey : key = name
  · subst hkey
    rw [field_of_some lookup_cons_self, field_of_some lookup_cons_self, h rfl]
  · exact field_congr (by rw [lookup_cons_of_ne hkey, lookup_cons_of_ne hkey])

/-- It makes no difference whether the default is stated. -/
theorem field_cons_default (hfresh : key ∉ entries.map (·.1))
    (h : key = name → (reader format v).toOption = default) :
    reader.field format name default ((key, v) :: entries) =
      reader.field format name default entries := by
  by_cases hkey : key = name
  · subst hkey
    rw [field_of_some lookup_cons_self, field_of_none (lookup_eq_none_iff.mpr hfresh), h rfl]
  · exact field_congr (lookup_cons_of_ne hkey)

end Reader

/-! ## Names of variants -/

/-- The ways to write a name where one of several names is wanted. -/
inductive Spells (name : String) : Value → Prop
  | text : Spells name (.string name)
  | table : Spells name (.table [(name, .table [])])
  | array : Spells name (.table [(name, .array [])])

namespace Reader

theorem variant_of_spells {known : List (String × α)} (h : Spells name v) :
    variant known .toml v = variantNamed known name := by
  cases h with
  | text => rfl
  | table | array =>
    rw [variant]
    cases variantNamed known name <;> rfl

theorem variant_table (known : List (String × α)) (name : String) (content : Value) :
    (variant known .toml (.table [(name, content)])).toOption =
      (variantNamed known name).toOption.filter fun _ =>
        (noContent .toml content).toOption.isSome := by
  rw [variant]
  cases variantNamed known name with
  | error e => rfl
  | ok a => cases noContent .toml content <;> rfl

theorem exists_spells {known : List (String × α)} {a : α} (h : variant known .toml v = .ok a) :
    ∃ name, Spells name v ∧ variantNamed known name = .ok a := by
  unfold variant at h
  split at h
  · exact ⟨_, .text, h⟩
  · rename_i name content
    cases hnamed : variantNamed known name with
    | error e => simp [hnamed] at h
    | ok b =>
      unfold noContent at h
      simp only [hnamed] at h
      split at h <;> cases h
      · exact ⟨name, .table, hnamed⟩
      · exact ⟨name, .array, hnamed⟩
      · rename_i hformat
        cases hformat
  · cases h
  · cases h
  · cases h

theorem variantNamed_eq_ok_iff {known : List (String × α)} {a : α}
    (h : (known.map (·.1)).Nodup) : variantNamed known name = .ok a ↔ (name, a) ∈ known := by
  rw [← find?_value_eq_some_iff h, variantNamed]
  cases known.find? fun k => k.1 = name <;> simp

theorem variant_eq_ok_iff {known : List (String × α)} {a : α} (h : (known.map (·.1)).Nodup) :
    variant known .toml v = .ok a ↔ ∃ name, Spells name v ∧ (name, a) ∈ known := by
  constructor
  · intro hread
    obtain ⟨name, hspells, hname⟩ := exists_spells hread
    exact ⟨name, hspells, (variantNamed_eq_ok_iff h).mp hname⟩
  · rintro ⟨name, hspells, hmem⟩
    rw [variant_of_spells hspells]
    exact (variantNamed_eq_ok_iff h).mpr hmem

end Reader

/-! ## Reading the fields of a record -/

namespace Stated

variable {s : Stated} {format : Format} {reader : Reader α} {a default : α} {fields : List Field}

theorem required_eq_ok_iff :
    s.required format name reader = .ok a ↔ reader.field format name none s.entries = some a := by
  rw [required, get?, Reader.field]
  cases lookup name s.entries <;> simp [toOption_eq_some_iff]

theorem optional_eq_ok_iff :
    s.optional format name reader default = .ok a ↔
      reader.field format name (some default) s.entries = some a := by
  rw [optional, get?, Reader.field]
  cases lookup name s.entries <;> simp [toOption_eq_some_iff]

theorem check_eq_ok_iff_mem :
    check fields entries = .ok () ↔
      ∀ e ∈ entries, ∀ f, fields.find? (fun f => f.name = e.1) = some f → f.fits e.2 = .ok () := by
  induction entries with
  | nil => simp [check]
  | cons e entries ih =>
    rw [check, List.forall_mem_cons, ← ih]
    cases fields.find? fun f => f.name = e.1 with
    | none => simp
    | some f => cases hfits : f.fits e.2 <;> simp [hfits]

theorem check_eq_ok_iff (hfields : (fields.map (·.name)).Nodup) (h : Distinct entries) :
    check fields entries = .ok () ↔
      ∀ f ∈ fields, ∀ v, lookup f.name entries = some v → f.fits v = .ok () := by
  rw [check_eq_ok_iff_mem]
  simp only [find?_key_eq_some_iff hfields, lookup_eq_some_iff h]
  constructor
  · exact fun hall f hf v hv => hall _ hv f ⟨hf, rfl⟩
  · rintro hall ⟨key, v⟩ he f ⟨hf, rfl⟩
    exact hall f hf v he

theorem fits_of_field {absent : Option α} (h : reader.field format name absent entries = some a)
    (hv : lookup name entries = some v) : (Field.of format name reader).fits v = .ok () := by
  rw [Reader.field_of_some hv, toOption_eq_some_iff] at h
  simp [Field.of, h, Except.map]

end Stated

/-! ## Equality of values

Floating-point numbers have no equality that can be computed; of all other values equality can. -/

mutual

/-- Whether two values are equal and hold no floating-point number. -/
def Value.agrees : Value → Value → Bool
  | .null, .null => true
  | .boolean a, .boolean b => a == b
  | .integer m, .integer n => m == n
  | .string s, .string t => s == t
  | .datetime, .datetime => true
  | .array vs, .array ws => itemsAgree vs ws
  | .table es, .table fs => entriesAgree es fs
  | _, _ => false

def itemsAgree : List Value → List Value → Bool
  | [], [] => true
  | v :: vs, w :: ws => v.agrees w && itemsAgree vs ws
  | _, _ => false

def entriesAgree : List (String × Value) → List (String × Value) → Bool
  | [], [] => true
  | (key, v) :: es, (other, w) :: fs => key == other && v.agrees w && entriesAgree es fs
  | _, _ => false

end

mutual

theorem Value.eq_of_agrees (v w : Value) (h : v.agrees w = true) : v = w := by
  cases v <;> cases w <;> simp only [Value.agrees, beq_iff_eq, Bool.false_eq_true] at h
  case null.null | datetime.datetime => rfl
  case boolean.boolean | integer.integer | string.string => rw [h]
  case array.array => rw [eq_of_itemsAgree _ _ h]
  case table.table => rw [eq_of_entriesAgree _ _ h]

theorem eq_of_itemsAgree (vs ws : List Value) (h : itemsAgree vs ws = true) : vs = ws := by
  cases vs <;> cases ws <;> simp only [itemsAgree, Bool.and_eq_true, Bool.false_eq_true] at h
  case nil.nil => rfl
  case cons.cons => rw [Value.eq_of_agrees _ _ h.1, eq_of_itemsAgree _ _ h.2]

theorem eq_of_entriesAgree (es fs : List (String × Value)) (h : entriesAgree es fs = true) :
    es = fs := by
  match es, fs with
  | [], [] => rfl
  | (key, v) :: es, (other, w) :: fs =>
    simp only [entriesAgree, Bool.and_eq_true, beq_iff_eq] at h
    obtain ⟨⟨rfl, hv⟩, hes⟩ := h
    rw [Value.eq_of_agrees v w hv, eq_of_entriesAgree es fs hes]

end

theorem eq_some_of_agree {read : Option (List (String × Value))}
    (h : read.any (entriesAgree entries) = true) : read = some entries := by
  cases read with
  | none => cases h
  | some others => rw [eq_of_entriesAgree entries others h]

end LocationBroker.Document
