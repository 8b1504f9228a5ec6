import LocationBroker.Broker.Config
import LocationBroker.Proofs.Toml.Unambiguous

/-! # Configurations and the documents that state them

A document may leave out what is standard, state it all the same, order its keys as it likes and
state keys of its own.  `WrittenIn` says which tables describe a configuration in this sense;
reading a table is the inverse of writing one (`reader_eq_ok_iff`), except that the spelling of a
directory is lost where the document leaves the directory out.
-/

namespace LocationBroker.Broker.Config

open Document

variable {c : Config} {entries : List (String × Value)} {v : Value}

/-! ## Values of fields -/

def SpellsBus : Bus.Kind → Value → Prop
  | .session => Spells "session"
  | .system => Spells "system"

def SpellsPolicy : ReloadPolicy → Value → Prop
  | .onDemand => Spells "on_demand"
  | .startupOnly => Spells "startup_only"

theorem text_eq_ok_iff {wanted s : String} :
    Reader.text wanted .toml v = .ok s ↔ v = .string s := by
  cases v <;> simp [Reader.text]

theorem busKindReader_eq_ok_iff {k : Bus.Kind} :
    busKindReader .toml v = .ok k ↔ SpellsBus k v := by
  rw [busKindReader, Reader.variant_eq_ok_iff (by decide)]
  cases k <;> simp [Bus.Kind.all, Bus.Kind.text, SpellsBus]

theorem policyReader_eq_ok_iff {p : ReloadPolicy} :
    ReloadPolicy.reader .toml v = .ok p ↔ SpellsPolicy p v := by
  rw [ReloadPolicy.reader, Reader.variant_eq_ok_iff (by decide)]
  cases p <;> simp [ReloadPolicy.known, ReloadPolicy.name, SpellsPolicy]

/-! ## Tables that describe a configuration -/

/-- The table states every field in which the configuration is not standard, and of the other ones
as many as it likes. -/
structure WrittenIn (c : Config) (entries : List (String × Value)) : Prop where
  bus : Writes entries "bus" (SpellsBus c.bus) (c.bus = standard.bus)
  serviceName : Writes entries "service_name" (· = .string c.serviceName)
    (c.serviceName = standard.serviceName)
  masterPath : Writes entries "master_path" (· = .string c.masterPath)
    (c.masterPath = standard.masterPath)
  sessionPathPrefix : Writes entries "session_path_prefix" (· = .string c.sessionPathPrefix)
    (c.sessionPathPrefix = standard.sessionPathPrefix)
  providersDir : Writes entries "providers_dir" (· = .string c.providersDir)
    (Files.components c.providersDir = Files.components standard.providersDir)
  providerExtension : Writes entries "provider_extension" (· = .string c.providerExtension)
    (c.providerExtension = standard.providerExtension)
  reloadPolicy : Writes entries "reload_policy" (SpellsPolicy c.reloadPolicy)
    (c.reloadPolicy = standard.reloadPolicy)

/-- What the table does not state is as in the standard configuration, to the letter. -/
structure StandardOutside (c : Config) (entries : List (String × Value)) : Prop where
  bus : lookup "bus" entries = none → c.bus = standard.bus
  serviceName : lookup "service_name" entries = none → c.serviceName = standard.serviceName
  masterPath : lookup "master_path" entries = none → c.masterPath = standard.masterPath
  sessionPathPrefix : lookup "session_path_prefix" entries = none →
    c.sessionPathPrefix = standard.sessionPathPrefix
  providersDir : lookup "providers_dir" entries = none → c.providersDir = standard.providersDir
  providerExtension : lookup "provider_extension" entries = none →
    c.providerExtension = standard.providerExtension
  reloadPolicy : lookup "reload_policy" entries = none → c.reloadPolicy = standard.reloadPolicy

theorem WrittenIn.standardOutside (h : c.WrittenIn entries)
    (hdirectory : lookup "providers_dir" entries = none →
      c.providersDir = standard.providersDir) : c.StandardOutside entries :=
  ⟨h.bus.omitted, h.serviceName.omitted, h.masterPath.omitted, h.sessionPathPrefix.omitted,
    hdirectory, h.providerExtension.omitted, h.reloadPolicy.omitted⟩

/-! ## Reading -/

theorem reader_eq_ok_iff_fields :
    reader .toml (.table entries) = .ok c ↔
      Stated.check (fields .toml) entries = .ok () ∧
      busKindReader.field .toml "bus" (some standard.bus) entries = some c.bus ∧
      Reader.string.field .toml "service_name" (some standard.serviceName) entries =
        some c.serviceName ∧
      Reader.string.field .toml "master_path" (some standard.masterPath) entries =
        some c.masterPath ∧
      Reader.string.field .toml "session_path_prefix" (some standard.sessionPathPrefix) entries =
        some c.sessionPathPrefix ∧
      (Reader.text "path string").field .toml "providers_dir" (some standard.providersDir) entries =
        some c.providersDir ∧
      Reader.string.field .toml "provider_extension" (some standard.providerExtension) entries =
        some c.providerExtension ∧
      ReloadPolicy.reader.field .toml "reload_policy" (some standard.reloadPolicy) entries =
        some c.reloadPolicy := by
  rw [reader]
  simp only [bind_eq_ok_iff, Stated.ofValue, Except.ok.injEq, exists_eq_left', Stated.complete,
    Stated.optional_eq_ok_iff]
  constructor
  · rintro ⟨⟨⟩, hcheck, ⟨⟩, -, bus, hbus, name, hname, path, hpath, sessions, hsessions, directory,
      hdirectory, extension, hextension, policy, hpolicy, ⟨⟩⟩
    exact ⟨hcheck, hbus, hname, hpath, hsessions, hdirectory, hextension, hpolicy⟩
  · rintro ⟨hcheck, hbus, hname, hpath, hsessions, hdirectory, hextension, hpolicy⟩
    exact ⟨_, hcheck, (), trivial, _, hbus, _, hname, _, hpath, _, hsessions, _, hdirectory, _,
      hextension, _, hpolicy, rfl⟩

/-- Reading is the inverse of writing. -/
theorem reader_eq_ok_iff (h : Distinct entries) :
    reader .toml (.table entries) = .ok c ↔ c.WrittenIn entries ∧ c.StandardOutside entries := by
  rw [reader_eq_ok_iff_fields, and_iff_right_of_imp]
  · simp only [Reader.field_eq_some_iff, Reader.string, text_eq_ok_iff, busKindReader_eq_ok_iff,
      policyReader_eq_ok_iff, Option.some.injEq]
    constructor
    · rintro ⟨hbus, hname, hpath, hsessions, hdirectory, hextension, hpolicy⟩
      have hwritten : c.WrittenIn entries :=
        ⟨hbus, hname, hpath, hsessions,
          ⟨hdirectory.stated, fun hnone => congrArg _ (hdirectory.omitted hnone)⟩,
          hextension, hpolicy⟩
      exact ⟨hwritten, hwritten.standardOutside hdirectory.omitted⟩
    · rintro ⟨⟨hbus, hname, hpath, hsessions, hdirectory, hextension, hpolicy⟩, houtside⟩
      exact ⟨hbus, hname, hpath, hsessions, ⟨hdirectory.stated, houtside.providersDir⟩, hextension,
        hpolicy⟩
  · rintro ⟨hbus, hname, hpath, hsessions, hdirectory, hextension, hpolicy⟩
    rw [Stated.check_eq_ok_iff (by decide) h]
    simp only [fields, List.forall_mem_cons]
    exact ⟨fun _ => Stated.fits_of_field hbus, fun _ => Stated.fits_of_field hname,
      fun _ => Stated.fits_of_field hpath, fun _ => Stated.fits_of_field hsessions,
      fun _ => Stated.fits_of_field hdirectory, fun _ => Stated.fits_of_field hextension,
      fun _ => Stated.fits_of_field hpolicy, List.forall_mem_nil _⟩

/-! ## Round trip -/

/-- Equal, except that the path of the directory may be spelled differently. -/
structure Same (c d : Config) : Prop where
  settings : { c with providersDir := d.providersDir } = d
  providersDir : Files.components c.providersDir = Files.components d.providersDir

theorem Same.fault?_eq {d : Config} (h : c.Same d) : c.fault? = d.fault? := by
  rw [← h.settings]
  rfl

/-- What reading a table has to give if the table describes the configuration. -/
structure Decodes (c : Config) (entries : List (String × Value))
    (result : Except ConfigFault Config) : Prop where
  rejected : ∀ fault, c.fault? = some fault → result = .error fault
  accepted : c.fault? = none → ∃ read, result = .ok read ∧ read.Same c ∧
    (c.StandardOutside entries → read = c)

theorem ofDocument_of_fault {fault : ConfigFault} (h : reader .toml v = .ok c)
    (hfault : c.fault? = some fault) : ofDocument v = .error fault := by
  simp only [ofDocument, h, hfault]

theorem ofDocument_of_usable (h : reader .toml v = .ok c) (hfault : c.fault? = none) :
    ofDocument v = .ok c := by
  simp only [ofDocument, h, hfault]

theorem read_of_ofDocument (h : ofDocument v = .ok c) :
    reader .toml v = .ok c ∧ c.fault? = none := by
  cases hread : reader .toml v with
  | error m => simp [ofDocument, hread] at h
  | ok d =>
    cases hfault : d.fault? with
    | some fault =>
      rw [ofDocument_of_fault hread hfault] at h
      cases h
    | none =>
      rw [ofDocument_of_usable hread hfault, Except.ok.injEq] at h
      exact ⟨congrArg _ h, h ▸ hfault⟩

theorem WrittenIn.exists_read (h : Distinct entries) (hc : c.WrittenIn entries) :
    ∃ read, reader .toml (.table entries) = .ok read ∧ read.Same c ∧
      (c.StandardOutside entries → read = c) := by
  by_cases houtside : c.StandardOutside entries
  · exact ⟨c, (reader_eq_ok_iff h).mpr ⟨hc, houtside⟩, ⟨rfl, rfl⟩, fun _ => rfl⟩
  · -- only the directory can fail to be standard to the letter: the default spelling is read
    have hnone : lookup "providers_dir" entries = none := Classical.byContradiction fun hstated =>
      houtside (hc.standardOutside fun hnone => absurd hnone hstated)
    have hread : { c with providersDir := standard.providersDir }.WrittenIn entries :=
      { hc with providersDir := .of_none hnone rfl }
    exact ⟨_, (reader_eq_ok_iff h).mpr ⟨hread, hread.standardOutside fun _ => rfl⟩,
      ⟨rfl, (hc.providersDir.omitted hnone).symm⟩, fun h => absurd h houtside⟩

theorem WrittenIn.decodes (h : Distinct entries) (hc : c.WrittenIn entries) :
    c.Decodes entries (ofDocument (.table entries)) := by
  obtain ⟨read, hread, hsame, hexact⟩ := hc.exists_read h
  constructor
  · intro fault hfault
    exact ofDocument_of_fault hread (hsame.fault?_eq.trans hfault)
  · intro hfault
    exact ⟨read, ofDocument_of_usable hread (hsame.fault?_eq.trans hfault), hsame, hexact⟩

theorem decoding_round_trip :
    (∀ (c : Config) (entries : List (String × Value)), Distinct entries → c.WrittenIn entries →
      c.Decodes entries (ofDocument (.table entries))) ∧
    (∀ parse : Parser, parse.Unambiguous →
      ∀ (c : Config) (text : String) (entries : List (String × Value)),
        parse text = some entries → c.WrittenIn entries → c.Decodes entries (ofToml text parse)) ∧
    (∀ parse : Parser, parse.Unambiguous →
      ∀ (c : Config) (text : String), ofToml text parse = .ok c → c.fault? = none ∧
        ∃ entries, parse text = some entries ∧ c.WrittenIn entries ∧
          c.StandardOutside entries) := by
  refine ⟨fun c entries => WrittenIn.decodes, fun parse hunambiguous c text entries hparse hc => ?_,
    fun parse hunambiguous c text hread => ?_⟩
  · rw [ofToml, hparse]
    exact hc.decodes (hunambiguous.distinct hparse)
  · cases hparse : parse text with
    | none => simp [ofToml, hparse] at hread
    | some entries =>
      rw [ofToml, hparse] at hread
      obtain ⟨hread, hfault⟩ := read_of_ofDocument hread
      exact ⟨hfault, entries, rfl, (reader_eq_ok_iff (hunambiguous.distinct hparse)).mp hread⟩

/-- A table with a key of its own, a bus that need not be stated and an impossible name. -/
def partialTable : List (String × Value) := [
  ("colour", .array [.integer 1]),
  ("reload_policy", .table [("startup_only", .array [])]),
  ("bus", .string "session"),
  ("service_name", .string "broker")]

/-- What the table describes; its directory is the standard one. -/
def partialConfig : Config where
  serviceName := "broker"
  providersDir := "/usr//share/./geoclue-providers/"
  reloadPolicy := .startupOnly

def partialText : String :=
  "colour = [1]\nservice_name = \"a.b\"\nreload_policy = \"startup_only\"\n"

set_option maxRecDepth 8000 in
theorem decoding_round_trip_partial :
    let named : Config := { standard with serviceName := "a.b", reloadPolicy := .startupOnly }
    ofDocument (.table partialTable) = .error (.serviceName "broker") ∧
      ofToml partialText = .ok named ∧ named.fault? = none ∧
      ∃ entries, Toml.parse? partialText = some entries ∧ named.WrittenIn entries ∧
        ∃ read, ofToml partialText = .ok read ∧ read.Same named := by
  obtain ⟨htable, htext, hread⟩ := decoding_round_trip
  have hwritten : partialConfig.WrittenIn partialTable := by
    refine ⟨.of_some (v := .string "session") ?_ .text, .of_some ?_ rfl, .of_none ?_ rfl,
      .of_none ?_ rfl, .of_none ?_ (by decide +kernel), .of_none ?_ rfl, .of_some ?_ .array⟩
    all_goals simp [lookup, partialTable, partialConfig]
  have hrejected := (htable _ _ (by decide) hwritten).rejected (.serviceName "broker") rfl
  intro named
  have hnamed : ofToml partialText = .ok named := toOption_eq_some_iff.mp (by decide +kernel)
  obtain ⟨hfault, entries, hparse, hentries, -⟩ :=
    hread _ Toml.parse?_unambiguous named partialText hnamed
  have hdecodes := htext _ Toml.parse?_unambiguous named partialText entries hparse hentries
  obtain ⟨read, htwice, hsame, -⟩ := hdecodes.accepted hfault
  exact ⟨hrejected, hnamed, hfault, entries, hparse, hentries, read, htwice, hsame⟩

end LocationBroker.Broker.Config
