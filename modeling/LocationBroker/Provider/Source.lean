import LocationBroker.Files.Tree
import LocationBroker.Ledger
import LocationBroker.Provider.Error
import LocationBroker.Toml.Document

/-! # Sources of descriptors

A source lists the identifiers of its descriptors and gives the text of each.  There are two kinds:
the files of a directory whose names end in an extension, and descriptors held in memory.
-/

namespace LocationBroker.Provider

/-- What a source offers. -/
structure Listing where
  /-- The identifiers of the descriptors. -/
  accepted : List String := []
  /-- What is there and is no descriptor. -/
  ignored : List String := []

/-- What is noted while a source is listed. -/
inductive ScanNote where
  /-- The number of entries of a directory. -/
  | counted (dir : String) (entries : Nat)
  /-- An entry is a descriptor. -/
  | accepted (name : String)
  /-- An entry is no descriptor. -/
  | ignored (name : String)

/-- What a source answers at a moment: to listing it, and to reading each of its descriptors. -/
structure Source where
  /-- Where the descriptors come from, for messages. -/
  location : String
  listing : Except Error Listing
  notes : List ScanNote := []
  read : String → Except Error String
  /-- What the texts of the descriptors are read as. -/
  parse : Document.Parser := Toml.parse?

/-! ## Directories -/

/-- The files of a directory whose names end in an extension, with its dot. -/
structure Directory where
  dir : String
  extension : String

namespace Directory

/-- The extension that descriptors have if nothing else is said. -/
def defaultExtension : String := ".provider"

/-- The characters from the last dot on, if there is a dot. -/
def fromLastDot : List Char → Option (List Char)
  | [] => none
  | c :: rest =>
    match fromLastDot rest with
    | some tail => some tail
    | none => if c = '.' then some (c :: rest) else none

/-- Whether the text from the last dot of the name on is the extension. -/
def accepts (d : Directory) (name : String) : Bool :=
  decide (fromLastDot name.toList = some d.extension.toList)

def join (d : Directory) (name : String) : String :=
  if d.dir.isEmpty || d.dir.toList.getLast? = some '/' then d.dir ++ name
  else d.dir ++ "/" ++ name

def insertSorted (name : String) : List String → List String
  | [] => [name]
  | first :: rest =>
    if Text.Before first name then first :: insertSorted name rest else name :: first :: rest

def sorted (names : List String) : List String :=
  names.foldr insertSorted []

theorem mem_insertSorted {name other : String} {names : List String} :
    other ∈ insertSorted name names ↔ other = name ∨ other ∈ names := by
  induction names with
  | nil => simp [insertSorted]
  | cons first rest ih =>
    rw [insertSorted]
    split
    · simp only [List.mem_cons, ih]
      exact or_left_comm
    · simp

/-- A name put at its place leaves the others in ascending order. -/
theorem insertSorted_ascending {name : String} {names : List String}
    (h : names.Pairwise fun a b => ¬ Text.Before b a) :
    (insertSorted name names).Pairwise fun a b => ¬ Text.Before b a := by
  induction names with
  | nil => simp [insertSorted]
  | cons first rest ih =>
    rw [List.pairwise_cons] at h
    obtain ⟨hfirst, hrest⟩ := h
    rw [insertSorted]
    split
    · rename_i hbefore
      refine List.pairwise_cons.mpr ⟨fun other hother => ?_, ih hrest⟩
      rcases mem_insertSorted.mp hother with rfl | hother
      · exact fun hafter => Text.Before.irrefl _ (hbefore.trans hafter)
      · exact hfirst other hother
    · rename_i hbefore
      refine List.pairwise_cons.mpr ⟨fun other hother => ?_, List.pairwise_cons.mpr ⟨hfirst, hrest⟩⟩
      rcases List.mem_cons.mp hother with rfl | hother
      · exact hbefore
      · intro hafter
        rcases Text.Before.trichotomy first name with h | rfl | h
        · exact hbefore h
        · exact hfirst other hother hafter
        · exact hfirst other hother (hafter.trans h)

theorem sorted_ascending (names : List String) :
    (sorted names).Pairwise fun a b => ¬ Text.Before b a := by
  induction names with
  | nil => exact .nil
  | cons name rest ih => exact insertSorted_ascending ih

theorem mem_sorted {name : String} {names : List String} : name ∈ sorted names ↔ name ∈ names := by
  induction names with
  | nil => rfl
  | cons first rest ih =>
    rw [sorted, List.foldr_cons, mem_insertSorted, List.mem_cons]
    exact or_congr_right ih

/-- Splits the entries of the directory by their names. -/
def split (d : Directory) (names : List String) : Listing where
  accepted := (names.filter d.accepts).map d.join
  ignored := names.filter fun name => !d.accepts name

/-- What is noted about the entries of the directory. -/
def notesOn (d : Directory) (names : List String) : List ScanNote :=
  .counted d.dir names.length ::
    names.map fun name => if d.accepts name then .accepted name else .ignored name

/-- The directory in a tree of files, as a source.  Names that are no texts are shown with
replacement characters, so such files are listed and cannot be read. -/
def source (d : Directory) (files : Files) : Source :=
  let read (id : String) : Except Error String := (files.readText id).mapError (.unreadable id)
  match files.namesIn d.dir with
  | .error cause => { location := d.dir, listing := .error (.unlistable d.dir cause), read }
  | .ok octets =>
    let names := sorted (octets.map Text.Utf8.decodeLossy)
    { location := d.dir, listing := .ok (d.split names), notes := d.notesOn names, read }

end Directory

/-! ## Memory -/

/-- Descriptors held in memory: the text of each identifier. -/
abbrev Memory := Ledger String String

namespace Memory

def listing (m : Memory) : Listing where
  accepted := m.keys

def read (m : Memory) (id : String) : Except Error String :=
  match m.get? id with
  | some text => .ok text
  | none => .error (.unknown id)

def source (m : Memory) (parse : Document.Parser := Toml.parse?) : Source where
  location := "memory"
  listing := .ok m.listing
  read := m.read
  parse

end Memory

end LocationBroker.Provider
