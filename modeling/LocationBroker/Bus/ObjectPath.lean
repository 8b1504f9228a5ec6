import LocationBroker.Ledger
import LocationBroker.Bus.Error

/-! # Object paths

An object path is the root `/`, or one or more pieces that each consist of a slash and at least one
letter, digit or underscore of ASCII.  A path carries the proof that its text is one.  A serial is
appended in decimal digits, which are characters of a piece, so the result is a path again
(`ObjectPath.isValid_append_serial`).
-/

namespace LocationBroker.Bus

namespace ObjectPath

/-- The characters that a piece of a path is made of. -/
def isPieceChar (c : Char) : Bool :=
  c.isAlphanum || c == '_'

/-- Reads pieces that are separated by single slashes; `started` says whether the current piece has
a character already. -/
def piecesValid : Bool → List Char → Bool
  | started, [] => started
  | started, c :: rest =>
    if c = '/' then started && piecesValid false rest
    else isPieceChar c && piecesValid true rest

def isValidChars : List Char → Bool
  | ['/'] => true
  | '/' :: rest => piecesValid false rest
  | _ => false

def isValid (text : String) : Bool :=
  isValidChars text.toList

end ObjectPath

/-- The text of an object path, with the proof that it is one. -/
structure ObjectPath where
  text : String
  valid : ObjectPath.isValid text = true
  deriving DecidableEq

namespace ObjectPath

instance : Keyed ObjectPath where
  text := ObjectPath.text
  text_inj := by
    rintro ⟨a, _⟩ ⟨b, _⟩ rfl
    rfl

/-- The path with the given text, if the text is a path. -/
def ofString? (text : String) : Option ObjectPath :=
  if h : isValid text = true then some ⟨text, h⟩ else none

/-- The path with the given text, or the refusal of the text. -/
def parse (text : String) : Except Error ObjectPath :=
  match ofString? text with
  | some path => .ok path
  | none => .error (.invalidObjectPath text)

/-- The conversion of a text. -/
def ofText (text : String) : Except Error ObjectPath :=
  parse text

/-- The conversion of a part of a text, which is copied. -/
def ofSlice (slice : String.Slice) : Except Error ObjectPath :=
  parse slice.copy

theorem ofString?_eq_some_iff {text : String} {path : ObjectPath} :
    ofString? text = some path ↔ path.text = text := by
  rw [ofString?]
  by_cases hvalid : isValid text = true
  · rw [dif_pos hvalid]
    constructor
    · rintro ⟨⟩
      rfl
    · rintro rfl
      rfl
  · rw [dif_neg hvalid]
    refine iff_of_false (fun h => nomatch h) ?_
    rintro rfl
    exact hvalid path.valid

/-- A text is read as the path that has this text, if there is one. -/
theorem parse_eq_ok_iff {text : String} {path : ObjectPath} :
    parse text = .ok path ↔ path.text = text := by
  rw [parse, ← ofString?_eq_some_iff]
  cases ofString? text <;> simp

def root : ObjectPath := ⟨"/", rfl⟩

def isRoot (path : ObjectPath) : Bool :=
  path.text == "/"

/-! ## Serials -/

theorem piecesValid_append {started : Bool} {s t : List Char} (hs : piecesValid started s = true)
    (ht : ∀ c ∈ t, isPieceChar c = true ∧ c ≠ '/') : piecesValid started (s ++ t) = true := by
  induction s generalizing started with
  | nil =>
    have hstarted : started = true := by simpa [piecesValid] using hs
    subst hstarted
    clear hs
    induction t with
    | nil => rfl
    | cons c t ih =>
      have hc := ht c (by simp)
      simp only [List.nil_append, piecesValid, hc.2, if_false, hc.1, Bool.true_and]
      exact ih fun d hd => ht d (List.mem_cons_of_mem _ hd)
  | cons c s ih =>
    rw [List.cons_append, piecesValid]
    rw [piecesValid] at hs
    split at hs
    · simp only [Bool.and_eq_true] at hs
      simp [*]
    · simp only [Bool.and_eq_true] at hs
      simp [*]

theorem piecesValid_of_all {t : List Char} (hne : t ≠ [])
    (ht : ∀ c ∈ t, isPieceChar c = true ∧ c ≠ '/') : piecesValid false t = true := by
  match t, hne with
  | c :: t, _ =>
    have hc := ht c (by simp)
    simp only [piecesValid, hc.2, if_false, hc.1, Bool.true_and]
    exact piecesValid_append (s := []) rfl fun d hd => ht d (List.mem_cons_of_mem _ hd)

theorem isValidChars_append {s t : List Char} (hs : isValidChars s = true)
    (ht : ∀ c ∈ t, isPieceChar c = true ∧ c ≠ '/') : isValidChars (s ++ t) = true := by
  unfold isValidChars at hs
  split at hs
  · cases t with
    | nil => rfl
    | cons c t => exact piecesValid_of_all (by simp) ht
  · rename_i rest _
    cases rest with
    | nil => simp [piecesValid] at hs
    | cons d rest => exact piecesValid_append hs ht
  · cases hs

theorem isPieceChar_of_digit {c : Char} (h : c.isDigit = true) :
    isPieceChar c = true ∧ c ≠ '/' := by
  refine ⟨by simp [isPieceChar, Char.isAlphanum, h], ?_⟩
  rintro rfl
  exact absurd h (by decide)

/-- A path stays a path when a number is written behind it. -/
theorem isValid_append_serial {text : String} (h : isValid text = true) (serial : Nat) :
    isValid (text ++ toString serial) = true := by
  have hdigits : (toString serial).toList = Nat.toDigits 10 serial := by
    simp [toString, Nat.repr]
  rw [isValid, String.toList_append, hdigits]
  exact isValidChars_append h fun c hc =>
    isPieceChar_of_digit (Nat.isDigit_of_mem_toDigits (by omega) (by omega) hc)

/-- The path with a number behind its last piece. -/
def withSerial (path : ObjectPath) (serial : Nat) : ObjectPath :=
  ⟨path.text ++ toString serial, isValid_append_serial path.valid serial⟩

end ObjectPath

end LocationBroker.Bus
