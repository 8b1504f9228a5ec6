import LocationBroker.Proofs.Text.Octets
import LocationBroker.Provider.Source
import Mathlib.Data.List.Basic

/-! # What a directory lists

A name is accepted if what follows its last dot is the extension, with the dot.  For an extension
that has its only dot in front, this says that the name ends in the extension (`accepts_iff`).  The
test is made on octets (`acceptsOctets?`), and it never takes a slice that is not there.  Listing a
directory splits its entries by the test, and loses none of them (`listing_of_namesIn`).
-/

namespace LocationBroker.Provider.Directory

variable {d : Directory}

/-! ## The last dot -/

theorem fromLastDot_eq_none {s : List Char} (h : '.' ∉ s) : fromLastDot s = none := by
  induction s with
  | nil => rfl
  | cons c rest ih =>
    rw [List.mem_cons, not_or] at h
    rw [fromLastDot, ih h.2]
    exact if_neg (Ne.symm h.1)

theorem fromLastDot_append {back : List Char} (h : '.' ∉ back) (front : List Char) :
    fromLastDot (front ++ '.' :: back) = some ('.' :: back) := by
  induction front with
  | nil =>
    rw [List.nil_append, fromLastDot, fromLastDot_eq_none h]
    exact if_pos rfl
  | cons c front ih => rw [List.cons_append, fromLastDot, ih]

/-- A text has no dot, or it has a last one. -/
theorem lastDot_cases (s : List Char) :
    '.' ∉ s ∨ ∃ front back, s = front ++ '.' :: back ∧ '.' ∉ back := by
  by_cases hdot : '.' ∈ s
  · have hdot' : '.' ∈ s.reverse := List.mem_reverse.mpr hdot
    obtain ⟨back, front, hs, hback⟩ := List.eq_append_cons_of_mem hdot'
    refine .inr ⟨front.reverse, back.reverse, ?_, fun h => hback (List.mem_reverse.mp h)⟩
    have hs' := congrArg List.reverse hs
    simpa using hs'
  · exact .inl hdot

/-- A text ends in another one. -/
def EndsIn (name extension : String) : Prop :=
  ∃ stem, name = stem ++ extension

/-- The names that are accepted end in the extension; and no name is accepted unless the only dot of
the extension is in front. -/
theorem accepts_iff {name : String} :
    d.accepts name = true ↔
      (∃ suffix, d.extension.toList = '.' :: suffix ∧ '.' ∉ suffix) ∧ EndsIn name d.extension := by
  rw [accepts, decide_eq_true_iff]
  constructor
  · intro h
    obtain hnone | ⟨front, back, hname, hback⟩ := lastDot_cases name.toList
    · rw [fromLastDot_eq_none hnone] at h
      cases h
    · rw [hname, fromLastDot_append hback, Option.some.injEq] at h
      refine ⟨⟨back, h.symm, hback⟩, .ofList front, String.toList_inj.mp ?_⟩
      rw [hname, h, String.toList_append, String.toList_ofList]
  · rintro ⟨⟨suffix, hextension, hsuffix⟩, stem, rfl⟩
    rw [String.toList_append, hextension, fromLastDot_append hsuffix]

/-! ## The test on octets -/

/-- The test as it is made: the text is cut at the octet of its last dot.  There is no answer if the
text cannot be cut there. -/
def acceptsOctets? (d : Directory) (name : String) : Option Bool :=
  match Text.lastOctetOf? '.' name.toList with
  | none => some false
  | some octet => (Text.sliceFrom? name octet).map fun tail => tail = d.extension

/-- The text can be cut at its last dot, and the test on octets is the one on characters. -/
theorem acceptsOctets?_eq (d : Directory) (name : String) :
    d.acceptsOctets? name = some (d.accepts name) := by
  rw [acceptsOctets?, accepts]
  obtain hnone | ⟨front, back, hname, hback⟩ := lastDot_cases name.toList
  · rw [Text.lastOctetOf?_eq_none hnone, fromLastDot_eq_none hnone]
    rfl
  · have hslice : Text.sliceFrom? name (String.ofList front).utf8ByteSize =
        some (.ofList ('.' :: back)) := by
      refine Text.sliceFrom?_eq_some_iff.mpr ⟨_, String.toList_inj.mp ?_, rfl⟩
      rw [hname, String.toList_append, String.toList_ofList, String.toList_ofList]
    rw [hname, Text.lastOctetOf?_append hback, fromLastDot_append hback]
    simp only [hslice, Option.map_some, Option.some.injEq]
    rw [decide_eq_decide, ← String.toList_inj, String.toList_ofList]

/-! ## The entries in order -/

theorem insertSorted_perm (name : String) (names : List String) :
    (insertSorted name names).Perm (name :: names) := by
  induction names with
  | nil => exact .refl _
  | cons first rest ih =>
    rw [insertSorted]
    split
    · exact (ih.cons first).trans (.swap name first rest)
    · exact .refl _

theorem sorted_perm (names : List String) : (sorted names).Perm names := by
  induction names with
  | nil => exact .nil
  | cons name rest ih => exact (insertSorted_perm name _).trans (ih.cons name)

theorem sorted_encode_le (names : List String) :
    (sorted names).Pairwise fun a b => Text.Utf8.encode a ≤ Text.Utf8.encode b :=
  (sorted_ascending names).imp Text.Utf8.encode_le_of_not_before

/-! ## Listing -/

theorem namesIn_empty (files : Files) : files.namesIn "" = .error .notFound := by
  have hnone : Text.Utf8.encode "" = [] := by simp [Text.Utf8.encode_eq_flatMap]
  simp [Files.namesIn, Files.resolve, hnone, bind, Except.bind]

theorem getLast?_eq_slash_iff {text : String} :
    text.toList.getLast? = some '/' ↔ EndsIn text "/" := by
  rw [List.getLast?_eq_some_iff]
  constructor
  · rintro ⟨front, h⟩
    exact ⟨.ofList front, String.toList_inj.mp (by simpa using h)⟩
  · rintro ⟨stem, rfl⟩
    exact ⟨stem.toList, String.toList_append⟩

/-- What stands between a directory and a name in it: a slash, unless there is one already. -/
theorem join_eq (hdir : d.dir ≠ "") :
    ∃ between : String, (EndsIn d.dir "/" → between = "") ∧ (¬ EndsIn d.dir "/" → between = "/") ∧
      ∀ name, d.join name = d.dir ++ between ++ name := by
  have hempty : d.dir.isEmpty = false := by simpa using hdir
  by_cases hslash : EndsIn d.dir "/"
  · refine ⟨"", fun _ => rfl, fun h => absurd hslash h, fun name => ?_⟩
    rw [join, hempty, Bool.false_or, if_pos (decide_eq_true (getLast?_eq_slash_iff.mpr hslash)),
      String.append_empty]
  · refine ⟨"/", fun h => absurd h hslash, fun _ => rfl, fun name => ?_⟩
    rw [join, hempty, Bool.false_or, decide_eq_false (mt getLast?_eq_slash_iff.mp hslash)]
    rfl

/-- A directory whose entries have texts as names lists each of them once, among those that are
accepted or among those that are not, and both in the order of their octets. -/
theorem listing_of_namesIn {files : Files} {names : List String}
    (h : files.namesIn d.dir = .ok (names.map Text.Utf8.encode)) :
    ∃ between accepted ignored,
      (EndsIn d.dir "/" → between = "") ∧ (¬ EndsIn d.dir "/" → between = "/") ∧
      (d.source files).listing =
        .ok { accepted := accepted.map fun name => d.dir ++ between ++ name, ignored } ∧
      (accepted ++ ignored).Perm names ∧
      (∀ name, name ∈ accepted ↔ name ∈ names ∧ d.accepts name = true) ∧
      (∀ name, name ∈ ignored ↔ name ∈ names ∧ ¬ d.accepts name = true) ∧
      (accepted.Pairwise fun a b => Text.Utf8.encode a ≤ Text.Utf8.encode b) ∧
      ignored.Pairwise fun a b => Text.Utf8.encode a ≤ Text.Utf8.encode b := by
  -- No directory is found at the empty path.
  have hdir : d.dir ≠ "" := by
    intro hdir
    rw [hdir, namesIn_empty] at h
    cases h
  obtain ⟨between, hthere, hmissing, hjoin⟩ := join_eq hdir
  -- Of names that are no texts, reading can make one and the same.
  have hread : (names.map Text.Utf8.encode).map Text.Utf8.decodeLossy = names := by
    rw [List.map_map]
    exact List.map_id'' Text.Utf8.decodeLossy_encode names
  refine ⟨between, (sorted names).filter d.accepts, (sorted names).filter (!d.accepts ·), hthere,
    hmissing, ?_, ?_, fun name => ?_, fun name => ?_, (sorted_encode_le names).filter _,
    (sorted_encode_le names).filter _⟩
  · simp only [source, h, hread, split, funext hjoin]
  · exact (List.filter_append_perm _ _).trans (sorted_perm names)
  · rw [List.mem_filter, mem_sorted]
  · rw [List.mem_filter, mem_sorted, Bool.not_eq_true', Bool.not_eq_true]

end LocationBroker.Provider.Directory
