import LocationBroker.Broker.Config
import LocationBroker.Proofs.Provider.Listing

/-! # The extension of descriptors

A configuration is accepted only if its extension is a dot and other characters, none of them a dot.
So the test for descriptors, which asks what follows the last dot of a name, says whether the name
ends in the extension, and listing the directory of the configuration splits it accordingly
(`listing_by_ending`).
-/

namespace LocationBroker.Broker.Config

open Provider (Directory)
open Provider.Directory (EndsIn)

variable {c : Config} {text : String}

theorem isExtension_iff :
    isExtension text = true ↔
      ∃ suffix, text.toList = '.' :: suffix ∧ suffix ≠ [] ∧ '.' ∉ suffix := by
  rw [isExtension]
  split
  · rename_i first rest htext
    rw [htext, Bool.not_eq_true', ← Bool.not_eq_true, List.contains_iff_mem]
    constructor
    · exact fun hrest => ⟨_, rfl, List.cons_ne_nil _ _, hrest⟩
    · rintro ⟨suffix, hsuffix, -, hdot⟩
      rw [List.cons.injEq] at hsuffix
      exact hsuffix.2 ▸ hdot
  · rename_i hother
    refine iff_of_false Bool.false_ne_true ?_
    rintro ⟨suffix, htext, hne, -⟩
    obtain ⟨first, rest, rfl⟩ := List.exists_cons_of_ne_nil hne
    exact hother first rest htext

theorem isExtension_of_fault? (h : c.fault? = none) : isExtension c.providerExtension = true := by
  rw [fault?] at h
  grind

/-- The test for descriptors says whether a name ends in the extension. -/
theorem accepts_iff_endsIn (h : c.fault? = none) {name : String} :
    c.directory.accepts name = true ↔ EndsIn name c.providerExtension := by
  obtain ⟨suffix, hextension, -, hdot⟩ := isExtension_iff.mp (isExtension_of_fault? h)
  rw [Provider.Directory.accepts_iff]
  exact and_iff_right ⟨suffix, hextension, hdot⟩

/-! ## The check on octets -/

/-- The check of an extension as it is made: the text is cut behind its first octet, once this is
known to be a dot with something after it.  There is no answer if the text cannot be cut there. -/
def isExtensionOctets? (text : String) : Option Bool :=
  if text.utf8ByteSize < 2 || text.toList.head? ≠ some '.' then some false
  else (Text.sliceFrom? text 1).map fun suffix => !suffix.toList.contains '.'

/-- A text can be cut behind a dot in front, and the check on octets is the one on characters. -/
theorem isExtensionOctets?_eq (text : String) :
    isExtensionOctets? text = some (isExtension text) := by
  by_cases hdot : text.toList.head? = some '.'
  · obtain ⟨suffix, rfl⟩ : ∃ suffix, text = "." ++ suffix := by
      obtain ⟨rest, htext⟩ := List.head?_eq_some_iff.mp hdot
      exact ⟨.ofList rest, String.toList_inj.mp (by simpa using htext)⟩
    have hslice : Text.sliceFrom? ("." ++ suffix) 1 = some suffix :=
      Text.sliceFrom?_eq_some_iff.mpr ⟨".", rfl, rfl⟩
    have hlist : ("." ++ suffix).toList = '.' :: suffix.toList := by simp
    have hsize : ("." ++ suffix).utf8ByteSize = 1 + suffix.utf8ByteSize :=
      String.utf8ByteSize_append
    by_cases hempty : suffix = ""
    · subst hempty
      decide
    · have hpositive : suffix.utf8ByteSize ≠ 0 := mt String.utf8ByteSize_eq_zero_iff.mp hempty
      have hlong : ¬ ("." ++ suffix).utf8ByteSize < 2 := by omega
      rw [isExtensionOctets?, hslice, decide_eq_false hlong, hdot]
      refine congrArg some (Bool.eq_iff_iff.mpr ?_)
      rw [isExtension_iff, hlist, Bool.not_eq_true', ← Bool.not_eq_true, List.contains_iff_mem]
      have hnil : suffix.toList ≠ [] := mt String.toList_eq_nil_iff.mp hempty
      constructor
      · exact fun hnodot => ⟨_, rfl, hnil, hnodot⟩
      · rintro ⟨others, hothers, -, hnodot⟩
        rw [List.cons.injEq] at hothers
        exact hothers.2 ▸ hnodot
  · have hrejected : isExtension text = false := by
      refine Bool.eq_false_iff.mpr fun h => hdot ?_
      obtain ⟨suffix, htext, -⟩ := isExtension_iff.mp h
      rw [htext, List.head?_cons]
    rw [isExtensionOctets?, hrejected, decide_eq_true hdot, Bool.or_true, if_pos rfl]

/-! ## Listing the directory -/

/-- Whatever the extension and whatever the name, the texts can be cut where the check and the test
cut them.  If the configuration is accepted, the test accepts the names that end in the extension.
If the names in its directory are texts, each of them is listed once, among those that are accepted
or as it is among those that are ignored; those are accepted that end in the extension, and both are
in the order of their octets.  What is accepted is listed behind the directory and a slash, which is
not written twice. -/
theorem listing_by_ending :
    (∀ text, isExtensionOctets? text = some (isExtension text)) ∧
    (∀ (d : Directory) name, d.acceptsOctets? name = some (d.accepts name)) ∧
    ∀ c : Config, c.fault? = none →
      (∀ name, c.directory.accepts name = true ↔ EndsIn name c.providerExtension) ∧
      ∀ (files : Files) (names : List String),
        files.namesIn c.providersDir = .ok (names.map Text.Utf8.encode) →
        ∃ between accepted ignored,
          (EndsIn c.providersDir "/" → between = "") ∧
          (¬ EndsIn c.providersDir "/" → between = "/") ∧
          (c.directory.source files).listing =
            .ok { accepted := accepted.map fun name => c.providersDir ++ between ++ name,
                  ignored } ∧
          (accepted ++ ignored).Perm names ∧
          (∀ name, name ∈ accepted ↔ name ∈ names ∧ EndsIn name c.providerExtension) ∧
          (∀ name, name ∈ ignored ↔ name ∈ names ∧ ¬ EndsIn name c.providerExtension) ∧
          (accepted.Pairwise fun a b => Text.Utf8.encode a ≤ Text.Utf8.encode b) ∧
          ignored.Pairwise fun a b => Text.Utf8.encode a ≤ Text.Utf8.encode b := by
  refine ⟨isExtensionOctets?_eq, Provider.Directory.acceptsOctets?_eq, fun c hvalid =>
    ⟨fun _ => accepts_iff_endsIn hvalid, fun files names hnames => ?_⟩⟩
  have hlisting := Provider.Directory.listing_of_namesIn (d := c.directory) hnames
  simp only [accepts_iff_endsIn hvalid] at hlisting
  exact hlisting

/-- The directory of the standard configuration, with two descriptors, a copy of one of them and a
note. -/
def crowded : Files :=
  let place := ["usr", "share", "geoclue-providers"].map Text.Utf8.encode
  { places := [(place.take 1, .directory), (place.take 2, .directory), (place, .directory),
      (place ++ [Text.Utf8.encode "été.provider"], .file []),
      (place ++ [Text.Utf8.encode "gpsd.provider.bak"], .file []),
      (place ++ [Text.Utf8.encode "gpsd.provider"], .file []),
      (place ++ [Text.Utf8.encode "README"], .file [])] }

/-- The copy ends in another extension, though the one of the descriptors occurs in its name. -/
theorem listing_by_ending_copy :
    standard.fault? = none ∧ ∃ accepted ignored : List String,
      (standard.directory.source crowded).listing =
        .ok { accepted := accepted.map fun name => "/usr/share/geoclue-providers" ++ "/" ++ name,
              ignored } ∧
      accepted.length + ignored.length = 4 ∧ "été.provider" ∈ accepted ∧
      "gpsd.provider" ∈ accepted ∧ "gpsd.provider.bak" ∈ ignored ∧ "README" ∈ ignored := by
  obtain ⟨-, -, hall⟩ := listing_by_ending
  have hvalid : standard.fault? = none := by decide
  obtain ⟨haccepts, hlisting⟩ := hall standard hvalid
  have hnames : crowded.namesIn standard.providersDir =
      .ok (["été.provider", "gpsd.provider.bak", "gpsd.provider", "README"].map
        Text.Utf8.encode) := by
    have hencode : Text.Utf8.encode = fun text => text.toList.flatMap String.utf8EncodeChar :=
      funext Text.Utf8.encode_eq_flatMap
    simp only [Files.namesIn, Files.resolve, crowded, hencode]
    decide
  have hopen : ¬ EndsIn standard.providersDir "/" := by
    rw [← Provider.Directory.getLast?_eq_slash_iff]
    decide
  obtain ⟨between, accepted, ignored, -, hbetween, hsplit, hperm, hmem, hmem', -, -⟩ :=
    hlisting crowded _ hnames
  rw [hbetween hopen] at hsplit
  refine ⟨hvalid, accepted, ignored, hsplit, ?_, (hmem _).mpr ⟨by decide, "été", by decide⟩,
    (hmem _).mpr ⟨by decide, "gpsd", by decide⟩, (hmem' _).mpr ⟨by decide, fun h => ?_⟩,
    (hmem' _).mpr ⟨by decide, fun h => ?_⟩⟩
  · rw [← List.length_append, hperm.length_eq]
    rfl
  · exact absurd ((haccepts _).mpr h) (by decide)
  · exact absurd ((haccepts _).mpr h) (by decide)

end LocationBroker.Broker.Config
