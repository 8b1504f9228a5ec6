import LocationBroker.Proofs.Provider.Loading
import Mathlib.Data.List.Induction

/-! # Only usable providers can be selected

A descriptor's text is parsed (`Descriptor.ofText`), the descriptor is checked
(`Descriptor.defect?`), and a record is made of it (`Record.ofDescriptor`).  Whatever the parser
makes of a text, the check lets through the usable descriptors and no others, and of a usable
descriptor a record can always be made.  The
records of a registry are those of the last load that got any, so every record that is there goes
back to a text that was read under its identifier (`selectable_usable`).
-/

namespace LocationBroker.Provider

/-! ## The check -/

/-- What a client needs of a provider that it is to use. -/
structure Descriptor.Usable (d : Descriptor) : Prop where
  named : ∃ c ∈ d.name.toList, Text.isBlank c = false
  stated : ∃ c ∈ d.service.toList, Text.isBlank c = false
  dotted : '.' ∈ d.service.toList
  located : Bus.ObjectPath.isValid d.path = true
  useful : ∃ i, d.interfaces.has i = true

/-- The defects that a check can find. -/
def Defect.checked : List Defect := [.emptyName, .notABusName, .notAPath, .noInterfaces]

namespace Descriptor

theorem defect?_eq_none_iff {d : Descriptor} : d.defect? = none ↔ d.Usable := by
  constructor
  · intro h
    rw [defect?] at h
    split at h
    · cases h
    split at h
    · cases h
    split at h
    · cases h
    split at h
    · cases h
    rename_i hname hservice hpath hinterfaces
    simp only [Bool.or_eq_true, not_or, Bool.not_eq_true, Bool.not_eq_false',
      List.contains_iff_mem] at hname hservice hpath hinterfaces
    exact {
      named := Text.isAllBlank_eq_false_iff.mp hname
      stated := Text.isAllBlank_eq_false_iff.mp hservice.1
      dotted := hservice.2
      located := hpath
      useful := Choice.isEmpty_eq_false_iff.mp hinterfaces }
  · intro h
    have hname := Text.isAllBlank_eq_false_iff.mpr h.named
    have hservice := Text.isAllBlank_eq_false_iff.mpr h.stated
    have hinterfaces := Choice.isEmpty_eq_false_iff.mpr h.useful
    simp [defect?, hname, hservice, h.dotted, h.located, hinterfaces]

theorem mem_checked_of_defect {d : Descriptor} {defect : Defect} (h : d.defect? = some defect) :
    defect ∈ Defect.checked := by
  rw [defect?] at h
  split at h
  · cases h; simp [Defect.checked]
  split at h
  · cases h; simp [Defect.checked]
  split at h
  · cases h; simp [Defect.checked]
  split at h
  · cases h; simp [Defect.checked]
  · cases h

/-! ## Parsing, then checking -/

/-- What the text of a descriptor says, whether or not it is usable. -/
def ofText (text : String) (parse : Document.Parser) : Except Document.Fault Descriptor :=
  match parse text with
  | none => .error .illFormed
  | some entries => (documentReader .toml (.table entries)).mapError .mismatch

variable {id text : String} {parse : Document.Parser}

theorem ofToml_eq (id text : String) (parse : Document.Parser) :
    ofToml id text parse =
      match ofText text parse with
      | .error cause => .error (.unparsable id cause)
      | .ok d =>
        match d.defect? with
        | some defect => .error (.invalid id defect)
        | none => .ok d := by
  rw [ofToml, ofText]
  cases parse text with
  | none => rfl
  | some entries =>
    simp only [ofDocument]
    cases documentReader .toml (.table entries) <;> rfl

theorem ofToml_eq_ok_iff {d : Descriptor} :
    ofToml id text parse = .ok d ↔ ofText text parse = .ok d ∧ d.Usable := by
  rw [ofToml_eq, ← defect?_eq_none_iff]
  cases ofText text parse with
  | error cause => simp
  | ok stated =>
    dsimp only
    cases hdefect : stated.defect? with
    | none =>
      simp only [Except.ok.injEq]
      refine ⟨?_, And.left⟩
      rintro rfl
      exact ⟨rfl, hdefect⟩
    | some defect =>
      simp only [reduceCtorEq, Except.ok.injEq, false_iff]
      rintro ⟨rfl, hnone⟩
      cases hdefect.symm.trans hnone

theorem ofToml_error_cases {e : Error} (h : ofToml id text parse = .error e) :
    (∃ cause, e = .unparsable id cause) ∨ ∃ defect ∈ Defect.checked, e = .invalid id defect := by
  rw [ofToml_eq] at h
  cases hparsed : ofText text parse with
  | error cause =>
    rw [hparsed] at h
    cases h
    exact .inl ⟨cause, rfl⟩
  | ok d =>
    rw [hparsed] at h
    cases hdefect : d.defect? with
    | none => simp [hdefect] at h
    | some defect =>
      simp only [hdefect, Except.error.injEq] at h
      exact .inr ⟨defect, mem_checked_of_defect hdefect, h.symm⟩

end Descriptor

/-! ## Making a record -/

namespace Record

/-- What the record says, as a descriptor would. -/
def descriptor (r : Record) : Descriptor where
  name := r.name
  service := r.service
  path := r.path.text
  accuracy := r.accuracy
  interfaces := r.interfaces
  provides := r.provides
  requires := r.requires

theorem ofDescriptor_eq_ok_iff {id : String} {d : Descriptor} {r : Record} :
    ofDescriptor id d = .ok r ↔ r.id = id ∧ r.descriptor = d := by
  obtain ⟨name, service, text, accuracy, interfaces, provides, requires⟩ := d
  rw [ofDescriptor]
  cases hpath : Bus.ObjectPath.parse text with
  | error cause =>
    refine iff_of_false (fun h => nomatch h) ?_
    rintro ⟨-, hsame⟩
    have htext : r.path.text = text := congrArg Descriptor.path hsame
    cases hpath.symm.trans (Bus.ObjectPath.parse_eq_ok_iff.mpr htext)
  | ok path =>
    obtain rfl := Bus.ObjectPath.parse_eq_ok_iff.mp hpath
    simp only [Except.ok.injEq]
    constructor
    · rintro rfl
      exact ⟨rfl, rfl⟩
    · rintro ⟨rfl, hsame⟩
      obtain ⟨rid, rname, rservice, rpath, raccuracy, rinterfaces, rprovides, rrequires⟩ := r
      simp only [descriptor, Descriptor.mk.injEq] at hsame
      obtain ⟨rfl, rfl, htext, rfl, rfl, rfl, rfl⟩ := hsame
      obtain rfl : rpath = path := Keyed.text_inj htext
      rfl

/-- Of a usable descriptor a record can be made under any identifier. -/
theorem exists_ofDescriptor {d : Descriptor} (h : d.Usable) (id : String) :
    ∃ r, ofDescriptor id d = .ok r ∧ r.id = id ∧ r.descriptor = d := by
  refine ⟨{ d with id, path := ⟨d.path, h.located⟩ }, ?_, rfl, rfl⟩
  exact ofDescriptor_eq_ok_iff.mpr ⟨rfl, rfl⟩

variable {source : Source} {id : String}

theorem load_eq (source : Source) (id : String) :
    load source id =
      match source.read id with
      | .error e => .error e
      | .ok text =>
        match Descriptor.ofToml id text source.parse with
        | .error e => .error e
        | .ok d => ofDescriptor id d := by
  rw [load]
  cases source.read id with
  | error e => rfl
  | ok text =>
    change (Descriptor.ofToml id text source.parse >>= ofDescriptor id) = _
    dsimp only
    cases Descriptor.ofToml id text source.parse <;> rfl

theorem load_eq_ok_iff {r : Record} :
    load source id = .ok r ↔
      r.id = id ∧ ∃ text, source.read id = .ok text ∧
        Descriptor.ofText text source.parse = .ok r.descriptor ∧ r.descriptor.Usable := by
  simp only [← @Descriptor.ofToml_eq_ok_iff id]
  rw [load_eq]
  cases source.read id with
  | error e => simp
  | ok text =>
    simp only [Except.ok.injEq, exists_eq_left']
    cases Descriptor.ofToml id text source.parse with
    | error e => simp
    | ok d => simp only [ofDescriptor_eq_ok_iff, Except.ok.injEq, eq_comm (a := d)]

/-- A descriptor that is read and passes the check can be loaded. -/
theorem load_error_cases {e : Error} (h : load source id = .error e) :
    source.read id = .error e ∨
      ∃ text, source.read id = .ok text ∧
        Descriptor.ofToml id text source.parse = .error e := by
  rw [load_eq] at h
  cases hread : source.read id with
  | error cause =>
    simp only [hread, Except.error.injEq] at h
    exact .inl (congrArg _ h)
  | ok text =>
    simp only [hread] at h
    cases htoml : Descriptor.ofToml id text source.parse with
    | error cause =>
      simp only [htoml, Except.error.injEq] at h
      exact .inr ⟨text, rfl, htoml.trans (congrArg _ h)⟩
    | ok d =>
      obtain ⟨r, hr, -⟩ := exists_ofDescriptor (Descriptor.ofToml_eq_ok_iff.mp htoml).2 id
      simp only [htoml, hr] at h
      cases h

end Record

/-! ## Where the records come from -/

theorem Source.mem_loadable {source : Source} {record : Record} :
    record ∈ source.loadable ↔
      ∃ listing, source.listing = .ok listing ∧ record.id ∈ listing.accepted ∧
        Record.load source record.id = .ok record := by
  have hloaded (id : String) :
      (Record.load source id).toOption = some record ↔ Record.load source id = .ok record := by
    cases Record.load source id <;> simp [Except.toOption]
  rw [loadable]
  cases source.listing with
  | error e => simp
  | ok listing =>
    simp only [List.mem_filterMap, hloaded, Except.ok.injEq, exists_eq_left']
    constructor
    · rintro ⟨id, hid, hload⟩
      obtain rfl := (Record.load_eq_ok_iff.mp hload).1
      exact ⟨hid, hload⟩
    · rintro ⟨hid, hload⟩
      exact ⟨record.id, hid, hload⟩

namespace Registry

/-- A load that gets nothing, and so leaves the records that are there. -/
def Visit.Fruitless : Visit → Prop
  | .load source => source.loadable = []
  | .release => False

/-- The records are all that the last fruitful load got, if it was not followed by a release. -/
theorem replay_origin (visits : List Visit) :
    (replay {} visits).records = [] ∨
      ∃ earlier source later, visits = earlier ++ .load source :: later ∧
        (replay {} visits).records = source.loadable ∧ ∀ visit ∈ later, visit.Fruitless := by
  -- The last visit decides, so the induction takes visits off the end.
  induction visits using List.reverseRecOn with
  | nil => exact .inl rfl
  | append_singleton visits visit ih =>
    rw [replay_append]
    cases visit with
    | release => exact .inl (release_records _)
    | load source =>
      change ((replay {} visits).load source).1.records = [] ∨ _
      by_cases hnone : source.loadable = []
      · have hsame : ((replay {} visits).load source).1 = replay {} visits := by
          rw [(load_outcome _ source).1, if_pos hnone]
        obtain hempty | ⟨earlier, origin, later, rfl, hrecords, hlater⟩ := ih
        · exact .inl (by rw [hsame, hempty])
        · refine .inr ⟨earlier, origin, later ++ [.load source], by simp, ?_, ?_⟩
          · exact (congrArg records hsame).trans hrecords
          · rw [List.forall_mem_append]
            exact ⟨hlater, List.forall_mem_singleton.mpr hnone⟩
      · refine .inr ⟨visits, source, [], rfl, load_records hnone _, ?_⟩
        exact List.forall_mem_nil _

/-- Whatever texts are read as, a text passes exactly if it states a usable descriptor, and of every
descriptor that passes a record can be made, so a descriptor that was read is refused only for what
its check finds.  Hence
every record that any loads and releases leave in a registry is of a usable provider, and says what
the text said that the last fruitful load read under its identifier. -/
theorem selectable_usable :
    (∀ (parse : Document.Parser) (id text : String) (d : Descriptor),
      Descriptor.ofToml id text parse = .ok d ↔
        Descriptor.ofText text parse = .ok d ∧ d.Usable) ∧
    (∀ (parse : Document.Parser) (id other text : String) (d : Descriptor),
      Descriptor.ofToml id text parse = .ok d →
        ∃ record, Record.ofDescriptor other d = .ok record ∧
          record.id = other ∧ record.descriptor = d) ∧
    (∀ (source : Source) (id : String) (e : Error), Record.load source id = .error e →
      source.read id = .error e ∨
        ∃ text, source.read id = .ok text ∧
          Descriptor.ofToml id text source.parse = .error e ∧
          ((∃ cause, e = .unparsable id cause) ∨
            ∃ defect ∈ Defect.checked, e = .invalid id defect)) ∧
    ∀ (visits : List Visit), ∀ record ∈ (replay {} visits).records,
      record.descriptor.Usable ∧
        ∃ earlier source later listing text,
          visits = earlier ++ .load source :: later ∧ (∀ visit ∈ later, visit.Fruitless) ∧
          source.listing = .ok listing ∧ record.id ∈ listing.accepted ∧
          source.read record.id = .ok text ∧
          Descriptor.ofText text source.parse = .ok record.descriptor := by
  refine ⟨fun _ _ _ _ => Descriptor.ofToml_eq_ok_iff, fun _ id other text d h => ?_,
    fun source id e h => ?_, fun visits record hrecord => ?_⟩
  · exact Record.exists_ofDescriptor (Descriptor.ofToml_eq_ok_iff.mp h).2 other
  · obtain hread | ⟨text, hread, htoml⟩ := Record.load_error_cases h
    · exact .inl hread
    · exact .inr ⟨text, hread, htoml, Descriptor.ofToml_error_cases htoml⟩
  · obtain hempty | ⟨earlier, source, later, hvisits, hrecords, hlater⟩ := replay_origin visits
    · rw [hempty] at hrecord
      cases hrecord
    · rw [hrecords] at hrecord
      obtain ⟨listing, hlisting, haccepted, hload⟩ := Source.mem_loadable.mp hrecord
      obtain ⟨-, text, hread, hstated, husable⟩ := Record.load_eq_ok_iff.mp hload
      exact ⟨husable, earlier, source, later, listing, text, hvisits, hlater, hlisting, haccepted,
        hread, hstated⟩

/-- A source with a descriptor whose path is none, a usable one, and one that cannot be read. -/
def mixed : Source where
  location := "memory"
  listing := .ok { accepted := ["lame", "sound", "lost"], ignored := ["readme"] }
  read
    | "lame" => .ok
      "[provider]\nname = \"a\"\nservice = \"a.b\"\npath = \"a\"\ninterfaces = [\"position\"]\n"
    | "sound" => .ok
      "[provider]\nname = \"a\"\nservice = \"a.b\"\npath = \"/a\"\ninterfaces = [\"position\"]\n"
    | id => .error (.unknown id)

/-- Loads from the source, and one from it while it lists nothing. -/
def reloads : List Visit :=
  [.load mixed, .release, .load mixed, .load { mixed with listing := .ok {} }]

set_option maxRecDepth 8000 in
/-- The usable descriptor is loaded, and its record stays when the source is found empty; the one
whose path is none is refused by the check. -/
theorem selectable_usable_mixed :
    (∃ text d, mixed.read "sound" = .ok text ∧ d.Usable ∧
      ∃ record, Record.ofDescriptor "sound" d = .ok record ∧ record.descriptor = d) ∧
    (∃ text e, mixed.read "lame" = .ok text ∧ Record.load mixed "lame" = .error e ∧
      Descriptor.ofToml "lame" text = .error e) ∧
    ∃ record ∈ (replay {} reloads).records,
      record.id = "sound" ∧ record.descriptor.Usable := by
  obtain ⟨hpasses, hmade, hrefused, hthere⟩ := selectable_usable
  refine ⟨?_, ?_, ?_⟩
  · cases htext : mixed.read "sound" with
    | error e => exact absurd htext (by simp [mixed])
    | ok text =>
      have hsound : (mixed.read "sound").toOption.any
          (fun text => (Descriptor.ofToml "sound" text).toOption.isSome) = true := by
        decide +kernel
      cases hd : Descriptor.ofToml "sound" text with
      | error e => simp [htext, hd, Except.toOption] at hsound
      | ok d =>
        obtain ⟨record, hrecord, -, hsame⟩ := hmade Toml.parse? "sound" "sound" text d hd
        exact ⟨text, d, rfl, ((hpasses _ _ _ _).mp hd).2, record, hrecord, hsame⟩
  · have hlame : (Record.load mixed "lame").toOption.isNone = true := by decide +kernel
    cases he : Record.load mixed "lame" with
    | ok record => simp [he, Except.toOption] at hlame
    | error e =>
      obtain hread | ⟨text, hread, htoml, -⟩ := hrefused mixed "lame" e he
      · exact absurd hread (by simp [mixed])
      · exact ⟨text, e, hread, rfl, htoml⟩
  · have hids : (replay {} reloads).records.map (·.id) = ["sound"] := by decide +kernel
    have hmem : "sound" ∈ (replay {} reloads).records.map (·.id) := by simp [hids]
    obtain ⟨record, hrecord, hid⟩ := List.mem_map.mp hmem
    exact ⟨record, hrecord, hid, (hthere _ record hrecord).1⟩

end Registry

end LocationBroker.Provider
