import LocationBroker.Proofs.Toml.Unambiguous
import LocationBroker.Provider.Descriptor
import Mathlib.Logic.Relation

/-! # How a descriptor is written down

The keys of a document come in any order and among keys of its own, terms are listed in any order
and number, some accuracies have two names, and defaults need not be stated.  Each such change of a
document (`Rewritten`) leaves the reading of every field as it is (`SameFields`), so a whole series
of changes leaves the descriptor as it is (`presentation_is_immaterial`).  What is written for a
descriptor is read as that descriptor (`documentReader_written`), and so is every rewriting of it.
-/

namespace LocationBroker.Provider

open Document

variable {key : String} {v w : Value} {items others : List Value}

/-! ## Terms in arrays -/

section Collecting

variable {ε α β : Type} {f : α → Except ε β} {as : List α} {bs : List β}

theorem mapM_eq_ok_iff : as.mapM f = .ok bs ↔ as.map f = bs.map .ok := by
  induction as generalizing bs with
  | nil => cases bs <;> simp [pure, Except.pure]
  | cons a as ih =>
    rw [List.mapM_cons]
    simp only [bind_eq_ok_iff, ih]
    constructor
    · rintro ⟨b, ha, rest, hrest, ⟨⟩⟩
      rw [List.map_cons, List.map_cons, ha, hrest]
    · intro h
      obtain ⟨b, rest, rfl, ha, hrest⟩ := List.map_eq_cons_iff.mp h.symm
      exact ⟨b, ha.symm, rest, hrest.symm, rfl⟩

theorem exists_mapM_eq_ok (h : ∀ a ∈ as, ∃ b, f a = .ok b) : ∃ bs, as.mapM f = .ok bs := by
  induction as with
  | nil => exact ⟨[], rfl⟩
  | cons a as ih =>
    rw [List.forall_mem_cons] at h
    obtain ⟨b, hb⟩ := h.1
    obtain ⟨bs, hbs⟩ := ih h.2
    refine ⟨b :: bs, mapM_eq_ok_iff.mpr ?_⟩
    rw [List.map_cons, List.map_cons, hb, mapM_eq_ok_iff.mp hbs]

theorem mem_of_mapM_eq_ok (h : as.mapM f = .ok bs) {b : β} : b ∈ bs ↔ ∃ a ∈ as, f a = .ok b := by
  rw [← List.mem_map, mapM_eq_ok_iff.mp h]
  simp

theorem eq_ok_of_mapM_eq_ok (h : as.mapM f = .ok bs) : ∀ a ∈ as, ∃ b, f a = .ok b := by
  intro a ha
  have hmem := List.mem_map_of_mem (f := f) ha
  rw [mapM_eq_ok_iff.mp h, List.mem_map] at hmem
  obtain ⟨b, -, hb⟩ := hmem
  exact ⟨b, hb.symm⟩

end Collecting

namespace Choice

variable {ι : Type} [Vocabulary ι] {format : Format}

theorem reader_array_eq_ok_iff {c : Choice ι} :
    reader ι format (.array items) = .ok c ↔
      (∀ v ∈ items, ∃ i, Vocabulary.reader ι format v = .ok i) ∧
        ∀ i, c.has i = true ↔ ∃ v ∈ items, Vocabulary.reader ι format v = .ok i := by
  have hcollect : reader ι format (.array items) = .ok c ↔
      ∃ terms, items.mapM (Vocabulary.reader ι format) = .ok terms ∧ ofList terms = c := by
    rw [reader, Reader.list]
    cases items.mapM (Vocabulary.reader ι format) <;> simp [Except.map]
  rw [hcollect]
  constructor
  · rintro ⟨terms, hterms, rfl⟩
    exact ⟨eq_ok_of_mapM_eq_ok hterms, fun i => has_ofList.trans (mem_of_mapM_eq_ok hterms)⟩
  · rintro ⟨hread, hhas⟩
    obtain ⟨terms, hterms⟩ := exists_mapM_eq_ok hread
    refine ⟨terms, hterms, Choice.ext fun i => Bool.eq_iff_iff.mpr ?_⟩
    rw [has_ofList, mem_of_mapM_eq_ok hterms, hhas]

/-- It makes no difference in which order and how often terms are listed. -/
theorem reader_array_congr (h : ∀ v, v ∈ items ↔ v ∈ others) :
    (reader ι format (.array items)).toOption = (reader ι format (.array others)).toOption := by
  refine Option.ext fun c => ?_
  simp only [toOption_eq_some_iff, reader_array_eq_ok_iff, h]

/-- The terms by their names, in the vocabulary's order. -/
def written (c : Choice ι) : Value :=
  .array (c.toList.map fun i => .string (Vocabulary.name i))

theorem reader_written
    (hname : ∀ i : ι, Vocabulary.reader ι format (.string (Vocabulary.name i)) = .ok i)
    (c : Choice ι) : reader ι format c.written = .ok c := by
  rw [written, reader_array_eq_ok_iff]
  constructor
  · exact List.forall_mem_map.mpr fun i _ => ⟨i, hname i⟩
  · intro i
    simp only [List.mem_map, mem_toList]
    constructor
    · intro hi
      exact ⟨_, ⟨i, hi, rfl⟩, hname i⟩
    · rintro ⟨_, ⟨j, hj, rfl⟩, hread⟩
      rw [hname, Except.ok.injEq] at hread
      exact hread ▸ hj

end Choice

/-! ## Two names of one accuracy -/

/-- The second names of accuracies, each with the first one. -/
def Accuracy.aliases : List (String × String) :=
  [("city", "locality"), ("postalcode", "postal_code")]

namespace Descriptor

/-- The first value names an accuracy by its second name, the other value by its first one. -/
inductive Renamed : Value → Value → Prop
  | text {a b} : (a, b) ∈ Accuracy.aliases → Renamed (.string a) (.string b)
  | table {a b content} : (a, b) ∈ Accuracy.aliases →
      Renamed (.table [(a, content)]) (.table [(b, content)])

theorem Renamed.reader_eq (h : Renamed v w) :
    (Accuracy.reader .toml v).toOption = (Accuracy.reader .toml w).toOption := by
  have hnamed {a b : String} (h : (a, b) ∈ Accuracy.aliases) :
      (Reader.variantNamed Accuracy.known a).toOption =
        (Reader.variantNamed Accuracy.known b).toOption := by
    simp only [Accuracy.aliases, List.mem_cons, Prod.mk.injEq, List.not_mem_nil, or_false] at h
    obtain ⟨rfl, rfl⟩ | ⟨rfl, rfl⟩ := h <;> rfl
  cases h with
  | text h => exact hnamed h
  | table h => rw [Accuracy.reader, Reader.variant_table, Reader.variant_table, hnamed h]

/-! ## Rewritings -/

def textKeys : List String := ["name", "service", "path"]

def choiceKeys : List String := ["interfaces", "provides", "requires"]

/-- One change of the table that describes a provider. -/
inductive Restated : List (String × Value) → List (String × Value) → Prop
  | reordered {fields fields'} : fields.Perm fields' → Restated fields fields'
  | extended {fields key v} : key ∉ textKeys ++ "accuracy" :: choiceKeys →
      key ∉ fields.map (·.1) → Restated fields ((key, v) :: fields)
  /-- The same items in another order and number. -/
  | listed {fields key items others} : key ∈ choiceKeys → (∀ v, v ∈ items ↔ v ∈ others) →
      Restated ((key, .array items) :: fields) ((key, .array others) :: fields)
  | renamed {fields v w} : Renamed v w →
      Restated (("accuracy", v) :: fields) (("accuracy", w) :: fields)
  | defaultAccuracy {fields v} : Spells "none" v → "accuracy" ∉ fields.map (·.1) →
      Restated fields (("accuracy", v) :: fields)
  | defaultChoice {fields key} : key ∈ choiceKeys → key ∉ fields.map (·.1) →
      Restated fields ((key, .array []) :: fields)

/-- One change of a document. -/
inductive Rewritten : List (String × Value) → List (String × Value) → Prop
  | reordered {document document'} : document.Perm document' → Rewritten document document'
  | extended {document key v} : key ≠ "provider" → key ∉ document.map (·.1) →
      Rewritten document ((key, v) :: document)
  | restated {document fields fields'} : Restated fields fields' →
      Rewritten (("provider", .table fields) :: document) (("provider", .table fields') :: document)

variable {fields fields' document document' : List (String × Value)}

theorem Restated.distinct_iff (h : Restated fields fields') :
    Distinct fields ↔ Distinct fields' := by
  cases h with
  | reordered hperm => exact ⟨fun h => h.perm hperm, fun h => h.perm hperm.symm⟩
  | listed | renamed => rw [distinct_cons, distinct_cons]
  | extended _ hfresh | defaultAccuracy _ hfresh | defaultChoice _ hfresh =>
    exact (distinct_cons_of_fresh hfresh).symm

/-! ## Fields -/

/-- The tables say the same of every field of a descriptor. -/
structure SameFields (fields fields' : List (String × Value)) : Prop where
  text : ∀ name ∈ textKeys, Reader.string.field .toml name none fields =
    Reader.string.field .toml name none fields'
  accuracy : Accuracy.reader.field .toml "accuracy" (some .none) fields =
    Accuracy.reader.field .toml "accuracy" (some .none) fields'
  choice : ∀ name ∈ choiceKeys, ∀ (ι : Type) [Vocabulary ι],
    (Choice.reader ι).field .toml name (some .none) fields =
      (Choice.reader ι).field .toml name (some .none) fields'

namespace SameFields

theorem of_lookup
    (h : ∀ name ∈ textKeys ++ "accuracy" :: choiceKeys, lookup name fields = lookup name fields') :
    SameFields fields fields' where
  text name hname := Reader.field_congr (h name (by simp [hname]))
  accuracy := Reader.field_congr (h _ (by simp))
  choice name hname _ _ := Reader.field_congr (h name (by simp [hname]))

theorem cons_congr (htext : key ∉ textKeys)
    (haccuracy : key = "accuracy" →
      (Accuracy.reader .toml v).toOption = (Accuracy.reader .toml w).toOption)
    (hchoice : key ∈ choiceKeys → ∀ (ι : Type) [Vocabulary ι],
      (Choice.reader ι .toml v).toOption = (Choice.reader ι .toml w).toOption) :
    SameFields ((key, v) :: fields) ((key, w) :: fields) where
  text _ hname := Reader.field_cons_congr fun h => absurd (h ▸ hname) htext
  accuracy := Reader.field_cons_congr haccuracy
  choice _ hname ι _ := Reader.field_cons_congr fun h => hchoice (h ▸ hname) ι

theorem cons_default (hfresh : key ∉ fields.map (·.1)) (htext : key ∉ textKeys)
    (haccuracy : key = "accuracy" → (Accuracy.reader .toml v).toOption = some .none)
    (hchoice : key ∈ choiceKeys → ∀ (ι : Type) [Vocabulary ι],
      (Choice.reader ι .toml v).toOption = some .none) :
    SameFields fields ((key, v) :: fields) where
  text _ hname := (Reader.field_cons_default hfresh fun h => absurd (h ▸ hname) htext).symm
  accuracy := (Reader.field_cons_default hfresh haccuracy).symm
  choice _ hname ι _ :=
    (Reader.field_cons_default hfresh fun h => hchoice (h ▸ hname) ι).symm

end SameFields

theorem of_mem_choiceKeys (h : key ∈ choiceKeys) : key ∉ textKeys ∧ key ≠ "accuracy" := by
  revert h key
  decide

theorem Restated.sameFields (h : Restated fields fields') (hdistinct : Distinct fields) :
    SameFields fields fields' := by
  cases h with
  | reordered hperm => exact .of_lookup fun _ _ => lookup_perm hdistinct hperm
  | extended hkey _ =>
    refine .of_lookup fun name hname => (lookup_cons_of_ne ?_).symm
    rintro rfl
    exact hkey hname
  | listed hkey hitems =>
    obtain ⟨htext, haccuracy⟩ := of_mem_choiceKeys hkey
    exact .cons_congr htext (absurd · haccuracy) fun _ ι _ => Choice.reader_array_congr hitems
  | renamed hrenamed =>
    exact .cons_congr (by decide) (fun _ => hrenamed.reader_eq) fun h => absurd h (by decide)
  | defaultAccuracy hspells hfresh =>
    refine .cons_default hfresh (by decide) (fun _ => ?_) fun h => absurd h (by decide)
    rw [Accuracy.reader, Reader.variant_of_spells hspells]
    rfl
  | defaultChoice hkey hfresh =>
    obtain ⟨htext, haccuracy⟩ := of_mem_choiceKeys hkey
    exact .cons_default hfresh htext (absurd · haccuracy) fun _ ι _ => rfl

/-! ## Descriptors -/

theorem reader_eq_ok_iff {d : Descriptor} (h : Distinct fields) :
    reader .toml (.table fields) = .ok d ↔
      Reader.string.field .toml "name" none fields = some d.name ∧
      Reader.string.field .toml "service" none fields = some d.service ∧
      Reader.string.field .toml "path" none fields = some d.path ∧
      Accuracy.reader.field .toml "accuracy" (some .none) fields = some d.accuracy ∧
      (Choice.reader Interface).field .toml "interfaces" (some .none) fields = some d.interfaces ∧
      (Choice.reader Capability).field .toml "provides" (some .none) fields = some d.provides ∧
      (Choice.reader Resource).field .toml "requires" (some .none) fields = some d.requires := by
  rw [reader]
  simp only [bind_eq_ok_iff, Stated.ofValue, Except.ok.injEq, exists_eq_left', Stated.complete,
    Stated.required_eq_ok_iff, Stated.optional_eq_ok_iff]
  constructor
  · rintro ⟨-, -, -, -, name, hname, service, hservice, path, hpath, accuracy, haccuracy,
      interfaces, hinterfaces, provides, hprovides, requires, hrequires, ⟨⟩⟩
    exact ⟨hname, hservice, hpath, haccuracy, hinterfaces, hprovides, hrequires⟩
  · rintro ⟨hname, hservice, hpath, haccuracy, hinterfaces, hprovides, hrequires⟩
    refine ⟨(), (Stated.check_eq_ok_iff (by decide) h).mpr ?_, (), trivial, _, hname, _, hservice,
      _, hpath, _, haccuracy, _, hinterfaces, _, hprovides, _, hrequires, rfl⟩
    simp only [Descriptor.fields, List.forall_mem_cons]
    exact ⟨fun _ => Stated.fits_of_field hname, fun _ => Stated.fits_of_field hservice,
      fun _ => Stated.fits_of_field hpath, fun _ => Stated.fits_of_field haccuracy,
      fun _ => Stated.fits_of_field hinterfaces, fun _ => Stated.fits_of_field hprovides,
      fun _ => Stated.fits_of_field hrequires, List.forall_mem_nil _⟩

theorem Restated.reader_eq (h : Restated fields fields') (hdistinct : Distinct fields) :
    (reader .toml (.table fields)).toOption = (reader .toml (.table fields')).toOption := by
  obtain ⟨htext, haccuracy, hchoice⟩ := h.sameFields hdistinct
  refine Option.ext fun d => ?_
  rw [toOption_eq_some_iff, toOption_eq_some_iff, reader_eq_ok_iff hdistinct,
    reader_eq_ok_iff (h.distinct_iff.mp hdistinct), htext "name" (by decide),
    htext "service" (by decide), htext "path" (by decide), haccuracy,
    hchoice "interfaces" (by decide), hchoice "provides" (by decide),
    hchoice "requires" (by decide)]

theorem documentReader_eq_ok_iff {d : Descriptor} (h : Distinct document) :
    documentReader .toml (.table document) = .ok d ↔
      reader.field .toml "provider" none document = some d := by
  rw [documentReader]
  simp only [bind_eq_ok_iff, Stated.ofValue, Except.ok.injEq, exists_eq_left', Stated.complete,
    Stated.required_eq_ok_iff]
  constructor
  · rintro ⟨-, -, -, -, hd⟩
    exact hd
  · intro hd
    refine ⟨(), (Stated.check_eq_ok_iff (by simp) h).mpr ?_, (), trivial, hd⟩
    rw [List.forall_mem_singleton]
    exact fun _ => Stated.fits_of_field hd

/-- The document says everything once, and its provider is a table that does so too. -/
structure WellFormed (document : List (String × Value)) : Prop where
  distinct : Distinct document
  provider : ∃ fields, lookup "provider" document = some (.table fields) ∧ Distinct fields

theorem wellFormed_cons_provider :
    WellFormed (("provider", .table fields) :: document) ↔
      Distinct fields ∧ "provider" ∉ document.map (·.1) ∧ Distinct document := by
  rw [← distinct_cons (v := .table fields)]
  constructor
  · rintro ⟨hdocument, provider, hprovider, hfields⟩
    obtain rfl : fields = provider := by simpa using hprovider
    exact ⟨hfields, hdocument⟩
  · rintro ⟨hfields, hdocument⟩
    exact ⟨hdocument, fields, lookup_cons_self, hfields⟩

theorem Rewritten.wellFormed_iff (h : Rewritten document document') :
    WellFormed document ↔ WellFormed document' := by
  cases h with
  | reordered hperm =>
    constructor
    · rintro ⟨hdistinct, hprovider⟩
      exact ⟨hdistinct.perm hperm, lookup_perm hdistinct hperm ▸ hprovider⟩
    · rintro ⟨hdistinct, hprovider⟩
      exact ⟨hdistinct.perm hperm.symm, lookup_perm hdistinct hperm.symm ▸ hprovider⟩
  | extended hkey hfresh =>
    constructor
    · rintro ⟨hdistinct, hprovider⟩
      exact ⟨(distinct_cons_of_fresh hfresh).mpr hdistinct,
        (lookup_cons_of_ne hkey).symm ▸ hprovider⟩
    · rintro ⟨hdistinct, hprovider⟩
      exact ⟨(distinct_cons_of_fresh hfresh).mp hdistinct, lookup_cons_of_ne hkey ▸ hprovider⟩
  | restated hfields =>
    rw [wellFormed_cons_provider, wellFormed_cons_provider, hfields.distinct_iff]

theorem Rewritten.documentReader_eq (h : Rewritten document document')
    (hwell : WellFormed document) :
    (documentReader .toml (.table document)).toOption =
      (documentReader .toml (.table document')).toOption := by
  have hwell' := h.wellFormed_iff.mp hwell
  refine Option.ext fun d => ?_
  rw [toOption_eq_some_iff, toOption_eq_some_iff, documentReader_eq_ok_iff hwell.distinct,
    documentReader_eq_ok_iff hwell'.distinct]
  cases h with
  | reordered hperm => rw [Reader.field_congr (lookup_perm hwell.distinct hperm)]
  | extended hkey _ => rw [Reader.field_congr (lookup_cons_of_ne hkey)]
  | restated hfields =>
    obtain ⟨hdistinct, -⟩ := wellFormed_cons_provider.mp hwell
    rw [Reader.field_cons_congr fun _ => hfields.reader_eq hdistinct]

theorem wellFormed_iff_of_rewritten (h : Relation.EqvGen Rewritten document document') :
    WellFormed document ↔ WellFormed document' := by
  induction h with
  | rel _ _ h => exact h.wellFormed_iff
  | refl _ => rfl
  | symm _ _ _ ih => exact ih.symm
  | trans _ _ _ _ _ ih ih' => exact ih.trans ih'

theorem documentReader_eq_of_rewritten (h : Relation.EqvGen Rewritten document document')
    (hwell : WellFormed document) :
    (documentReader .toml (.table document)).toOption =
      (documentReader .toml (.table document')).toOption := by
  induction h with
  | rel _ _ h => exact h.documentReader_eq hwell
  | refl _ => rfl
  -- The change is undone here: it is the other document that is known to be well-formed.
  | symm _ _ h ih => exact (ih ((wellFormed_iff_of_rewritten h).mpr hwell)).symm
  | trans _ _ _ h _ ih ih' =>
    exact (ih hwell).trans (ih' ((wellFormed_iff_of_rewritten h).mp hwell))

/-- Both give the same descriptor, or both find the same defect, or neither is understood. -/
structure SameOutcome (x y : Except Error Descriptor) : Prop where
  ok : ∀ d, x = .ok d ↔ y = .ok d
  invalid : ∀ id defect, x = .error (.invalid id defect) ↔ y = .error (.invalid id defect)

theorem sameOutcome_of_documentReader_eq {id : String}
    (h : (documentReader .toml v).toOption = (documentReader .toml w).toOption) :
    SameOutcome (ofDocument id v) (ofDocument id w) := by
  rw [ofDocument, ofDocument]
  cases hv : documentReader .toml v <;> cases hw : documentReader .toml w <;>
    simp only [hv, hw, Except.toOption, reduceCtorEq, Option.some.injEq] at h
  · constructor <;> simp
  · subst h
    exact ⟨fun _ => .rfl, fun _ _ => .rfl⟩

theorem WellFormed.of_parse {parse : Parser} (hparse : parse.Unambiguous) {text : String}
    (h : parse text = some document)
    (hprovider : lookup "provider" document = some (.table fields)) : WellFormed document := by
  refine ⟨hparse.distinct h, fields, hprovider, ?_⟩
  cases hparse text document h with
  | leaf hleaf => cases hleaf
  | table _ hvalues =>
    cases hvalues _ (mem_of_lookup hprovider) with
    | leaf hleaf => cases hleaf
    | table hdistinct _ => exact hdistinct

/-! ## Writing -/

/-- Every field in the order of declaration, under the first name of its value. -/
def writtenFields (d : Descriptor) : List (String × Value) := [
  ("name", .string d.name),
  ("service", .string d.service),
  ("path", .string d.path),
  ("accuracy", .string d.accuracy.name),
  ("interfaces", d.interfaces.written),
  ("provides", d.provides.written),
  ("requires", d.requires.written)]

def written (d : Descriptor) : List (String × Value) :=
  [("provider", .table d.writtenFields)]

theorem distinct_writtenFields (d : Descriptor) : Distinct d.writtenFields := by
  change (textKeys ++ "accuracy" :: choiceKeys).Nodup
  decide

theorem wellFormed_written (d : Descriptor) : WellFormed d.written :=
  wellFormed_cons_provider.mpr ⟨d.distinct_writtenFields, List.not_mem_nil, List.nodup_nil⟩

theorem reader_writtenFields (d : Descriptor) :
    reader .toml (.table d.writtenFields) = .ok d := by
  have hwritten {α : Type} {key : String} {v : Value} {reader : Reader α} {default : Option α}
      {a : α} (hlookup : lookup key d.writtenFields = some v) (hread : reader .toml v = .ok a) :
      reader.field .toml key default d.writtenFields = some a :=
    Reader.field_eq_some_iff.mpr (.of_some hlookup hread)
  have htext (s : String) : Reader.string .toml (.string s) = .ok s := rfl
  have haccuracy : Accuracy.reader .toml (.string d.accuracy.name) = .ok d.accuracy := by
    cases d.accuracy <;> rfl
  have hinterfaces : Choice.reader Interface .toml d.interfaces.written = .ok d.interfaces :=
    Choice.reader_written (fun i => by cases i <;> rfl) _
  have hprovides : Choice.reader Capability .toml d.provides.written = .ok d.provides :=
    Choice.reader_written (fun i => by cases i <;> rfl) _
  have hrequires : Choice.reader Resource .toml d.requires.written = .ok d.requires :=
    Choice.reader_written (fun i => by cases i <;> rfl) _
  rw [reader_eq_ok_iff d.distinct_writtenFields]
  refine ⟨hwritten ?_ (htext _), hwritten ?_ (htext _), hwritten ?_ (htext _),
    hwritten ?_ haccuracy, hwritten ?_ hinterfaces, hwritten ?_ hprovides, hwritten ?_ hrequires⟩
  all_goals simp [lookup, writtenFields]

theorem documentReader_written (d : Descriptor) :
    documentReader .toml (.table d.written) = .ok d := by
  rw [documentReader_eq_ok_iff d.wellFormed_written.distinct, written,
    Reader.field_of_some lookup_cons_self, reader_writtenFields]
  rfl

theorem ofDocument_written (id : String) (d : Descriptor) :
    (d.defect? = none → ofDocument id (.table d.written) = .ok d) ∧
      ∀ defect, d.defect? = some defect →
        ofDocument id (.table d.written) = .error (.invalid id defect) := by
  constructor
  · intro hdefect
    simp only [ofDocument, documentReader_written, hdefect]
  · intro defect hdefect
    simp only [ofDocument, documentReader_written, hdefect]

/-- However a document is rewritten, it describes the same provider, and so do two texts that are
read as a document and a rewriting of it.  Every descriptor can be written down, so each rewriting
of what is written for it describes it, or is refused for its defect. -/
theorem presentation_is_immaterial (id : String) :
    (∀ document document' : List (String × Value), WellFormed document →
      Relation.EqvGen Rewritten document document' →
      SameOutcome (ofDocument id (.table document)) (ofDocument id (.table document'))) ∧
    (∀ parse : Parser, parse.Unambiguous →
      ∀ (text text' : String) (document document' fields : List (String × Value)),
        parse text = some document → parse text' = some document' →
        lookup "provider" document = some (.table fields) →
        Relation.EqvGen Rewritten document document' →
        SameOutcome (ofToml id text parse) (ofToml id text' parse)) ∧
    (∀ (d : Descriptor) (document : List (String × Value)),
      Relation.EqvGen Rewritten d.written document →
      (d.defect? = none → ofDocument id (.table document) = .ok d) ∧
      ∀ defect, d.defect? = some defect →
        ofDocument id (.table document) = .error (.invalid id defect)) := by
  have htrees {document document'} (hwell : WellFormed document)
      (h : Relation.EqvGen Rewritten document document') :
      SameOutcome (ofDocument id (.table document)) (ofDocument id (.table document')) :=
    sameOutcome_of_documentReader_eq (documentReader_eq_of_rewritten h hwell)
  refine ⟨fun document document' => htrees, ?_, ?_⟩
  · intro parse hunambiguous text text' document document' fields hparse hparse' hprovider h
    rw [ofToml, ofToml, hparse, hparse']
    exact htrees (.of_parse hunambiguous hparse hprovider) h
  · intro d document h
    obtain ⟨hok, hinvalid⟩ := htrees d.wellFormed_written h
    obtain ⟨hread, hrefused⟩ := ofDocument_written id d
    exact ⟨fun hdefect => (hok d).mp (hread hdefect),
      fun defect hdefect => (hinvalid id defect).mp (hrefused defect hdefect)⟩

/-! ### A document and a rewriting of it -/

def plainText : String :=
  "[provider]\naccuracy = \"locality\"\ninterfaces = [\"position\"]\n" ++
  "name = \"x\"\nservice = \"a.b\"\npath = \"/x\"\n"

def rewrittenText : String :=
  "title = 1\nprovider.colour = []\nprovider.provides = []\n" ++
  "provider.interfaces = [\"position\", \"position\"]\nprovider.accuracy = \"city\"\n" ++
  "provider.name = \"x\"\nprovider.service = \"a.b\"\nprovider.path = \"/x\"\n"

def requiredFields : List (String × Value) :=
  [("name", .string "x"), ("service", .string "a.b"), ("path", .string "/x")]

def plainDocument : List (String × Value) :=
  [("provider", .table (("accuracy", .string "locality") ::
    ("interfaces", .array [.string "position"]) :: requiredFields))]

def rewrittenDocument : List (String × Value) :=
  [("title", .integer 1), ("provider", .table (("colour", .array []) :: ("provides", .array []) ::
    ("interfaces", .array [.string "position", .string "position"]) ::
    ("accuracy", .string "city") :: requiredFields))]

theorem plainDocument_rewritten : Relation.EqvGen Rewritten plainDocument rewrittenDocument := by
  have step {fields fields'} (h : Restated fields fields') :
      Relation.EqvGen Rewritten [("provider", .table fields)] [("provider", .table fields')] :=
    .rel _ _ (.restated h)
  have hrenamed {fields} : Restated (("accuracy", .string "city") :: fields)
      (("accuracy", .string "locality") :: fields) := .renamed (.text (by decide))
  have hlisted {fields} : Restated (("interfaces", .array [.string "position"]) :: fields)
      (("interfaces", .array [.string "position", .string "position"]) :: fields) :=
    .listed (by decide) (by simp)
  have hprovides {fields : List (String × Value)} (h : "provides" ∉ fields.map (·.1)) :
      Restated fields (("provides", .array []) :: fields) := .defaultChoice (by decide) h
  have hcolour {fields : List (String × Value)} (h : "colour" ∉ fields.map (·.1)) :
      Restated fields (("colour", .array []) :: fields) := .extended (by decide) h
  refine .trans _ _ _ (.symm _ _ (step hrenamed)) ?_
  refine .trans _ _ _ (step (.reordered (.swap _ _ _))) ?_
  refine .trans _ _ _ (step hlisted) ?_
  refine .trans _ _ _ (step (hprovides (by decide))) ?_
  refine .trans _ _ _ (step (hcolour (by decide))) ?_
  exact .rel _ _ (.extended (by decide) (by decide))

def plainDescriptor : Descriptor where
  name := "x"
  service := "a.b"
  path := "/x"
  accuracy := .locality
  interfaces := .ofList [.position]

set_option maxRecDepth 8000 in
theorem presentation_is_immaterial_rewritten :
    (∃ d, ofToml "x" plainText = .ok d ∧ d.accuracy = .locality ∧
      ofToml "x" rewrittenText = .ok d ∧ ofDocument "x" (.table plainDocument) = .ok d ∧
      ofDocument "x" (.table rewrittenDocument) = .ok d) ∧
    ofDocument "x" (.table (("title", .integer 1) :: plainDescriptor.written)) =
      .ok plainDescriptor := by
  obtain ⟨htrees, htexts, hwritten⟩ := presentation_is_immaterial "x"
  have hplain : Toml.parse? plainText = some plainDocument :=
    eq_some_of_agree (by decide +kernel)
  have hrewritten : Toml.parse? rewrittenText = some rewrittenDocument :=
    eq_some_of_agree (by decide +kernel)
  have hwell : WellFormed plainDocument := ⟨by decide, _, rfl, by decide⟩
  have hread : (ofToml "x" plainText).toOption.map (·.accuracy) = some .locality := by
    decide +kernel
  obtain ⟨d, hd, haccuracy⟩ := Option.map_eq_some_iff.mp hread
  rw [toOption_eq_some_iff] at hd
  have hd' : ofDocument "x" (.table plainDocument) = .ok d := by rwa [ofToml, hplain] at hd
  have htitled : Relation.EqvGen Rewritten plainDescriptor.written
      (("title", .integer 1) :: plainDescriptor.written) :=
    .rel _ _ (.extended (by decide) (by decide))
  refine ⟨⟨d, hd, haccuracy, ?_, hd', ?_⟩, (hwritten _ _ htitled).1 (by decide +kernel)⟩
  · exact ((htexts _ Toml.parse?_unambiguous _ _ _ _ _ hplain hrewritten rfl
      plainDocument_rewritten).ok d).mp hd
  · exact ((htrees _ _ hwell plainDocument_rewritten).ok d).mp hd'

end Descriptor

end LocationBroker.Provider
