import LocationBroker.Bus.ObjectPath
import LocationBroker.Proofs.Text.Octets

/-! # The grammar of object paths

A path is the root, or one or more pieces, each a slash and a name (`Grammatical`).  The check of a
path reads its characters one by one and accepts just these texts (`isValid_iff_grammatical`).  Made
the other way, by cutting the text at its slashes and looking at the octets of what is between them,
the check accepts the same ones (`isValidOctets_eq`), as an octet of a character beyond ASCII is
never a letter, a digit or an underscore.
-/

namespace LocationBroker.Bus.ObjectPath

open Text (Utf8.encode)

/-! ## The grammar -/

/-- The characters of a name. -/
inductive NameChar : Char → Prop
  | upper {c} : 'A' ≤ c → c ≤ 'Z' → NameChar c
  | lower {c} : 'a' ≤ c → c ≤ 'z' → NameChar c
  | digit {c} : '0' ≤ c → c ≤ '9' → NameChar c
  | underscore : NameChar '_'

structure Name (s : List Char) : Prop where
  nonempty : s ≠ []
  chars : ∀ c ∈ s, NameChar c

/-- One or more pieces, each a slash and a name. -/
inductive Pieces : List Char → Prop
  | last {name} : Name name → Pieces ('/' :: name)
  | next {name rest} : Name name → Pieces rest → Pieces ('/' :: (name ++ rest))

def Grammatical (text : String) : Prop :=
  text = "/" ∨ Pieces text.toList

theorem Pieces.slash_or_nameChar {s : List Char} (h : Pieces s) :
    ∀ c ∈ s, c = '/' ∨ NameChar c := by
  induction h with
  | last hname => simpa using fun c hc => .inr (hname.chars c hc)
  | next hname _ ih =>
    simp only [List.mem_cons, List.mem_append]
    rintro c (hc | hc | hc)
    · exact .inl hc
    · exact .inr (hname.chars c hc)
    · exact ih c hc

theorem isPieceChar_eq (c : Char) : isPieceChar c =
    ((decide ('A' ≤ c ∧ c ≤ 'Z') || ('a' ≤ c && c ≤ 'z')) || ('0' ≤ c && c ≤ '9') || c == '_') :=
  rfl

theorem isPieceChar_iff {c : Char} : isPieceChar c = true ↔ NameChar c := by
  rw [isPieceChar_eq]
  simp only [Bool.or_eq_true, Bool.and_eq_true, decide_eq_true_eq, beq_iff_eq]
  constructor
  · rintro (((⟨h, h'⟩ | ⟨h, h'⟩) | ⟨h, h'⟩) | rfl)
    · exact .upper h h'
    · exact .lower h h'
    · exact .digit h h'
    · exact .underscore
  · rintro (⟨h, h'⟩ | ⟨h, h'⟩ | ⟨h, h'⟩ | _) <;> simp [*]

theorem NameChar.ne_slash {c : Char} (h : NameChar c) : c ≠ '/' := by
  rintro rfl
  exact absurd (isPieceChar_iff.mpr h) (by decide)

/-! ## Reading pieces -/

theorem piecesValid_append_name {name : List Char} (h : ∀ c ∈ name, NameChar c)
    (rest : List Char) : piecesValid true (name ++ rest) = piecesValid true rest := by
  induction name with
  | nil => rfl
  | cons c name ih =>
    rw [List.forall_mem_cons] at h
    simp [piecesValid, h.1.ne_slash, isPieceChar_iff.mpr h.1, ih h.2]

theorem Name.piecesValid {name : List Char} (h : Name name) (rest : List Char) :
    piecesValid false (name ++ rest) = ObjectPath.piecesValid true rest := by
  obtain ⟨c, name, rfl⟩ := List.exists_cons_of_ne_nil h.nonempty
  obtain ⟨hc, hname⟩ := List.forall_mem_cons.mp h.chars
  simp [ObjectPath.piecesValid, hc.ne_slash, isPieceChar_iff.mpr hc,
    piecesValid_append_name hname]

theorem Pieces.piecesValid {s : List Char} (h : Pieces s) : piecesValid true s = true := by
  induction h with
  | @last name hname =>
    have hend := hname.piecesValid []
    rw [List.append_nil] at hend
    simp [ObjectPath.piecesValid, hend]
  | next hname _ ih => simp [ObjectPath.piecesValid, hname.piecesValid, ih]

theorem exists_name_of_piecesValid {started : Bool} {s : List Char}
    (h : piecesValid started s = true) :
    ∃ name rest, s = name ++ rest ∧ (started = false → name ≠ []) ∧
      (∀ c ∈ name, NameChar c) ∧ (rest = [] ∨ Pieces rest) := by
  induction s generalizing started with
  | nil =>
    have hstarted : started = true := by simpa [piecesValid] using h
    exact ⟨[], [], rfl, by simp [hstarted], by simp, .inl rfl⟩
  | cons c s ih =>
    by_cases hc : c = '/'
    · subst hc
      obtain ⟨rfl, hs⟩ : started = true ∧ piecesValid false s = true := by
        simpa [piecesValid] using h
      -- The slash ends the name under way, and another one begins behind it.
      obtain ⟨name, rest, rfl, hne, hname, hrest⟩ := ih hs
      refine ⟨[], '/' :: (name ++ rest), rfl, by simp, by simp, .inr ?_⟩
      obtain rfl | hrest := hrest
      · rw [List.append_nil]
        exact .last ⟨hne rfl, hname⟩
      · exact .next ⟨hne rfl, hname⟩ hrest
    · obtain ⟨hchar, hs⟩ : isPieceChar c = true ∧ piecesValid true s = true := by
        simpa [piecesValid, hc] using h
      obtain ⟨name, rest, rfl, -, hname, hrest⟩ := ih hs
      exact ⟨c :: name, rest, rfl, by simp,
        List.forall_mem_cons.mpr ⟨isPieceChar_iff.mp hchar, hname⟩, hrest⟩

theorem pieces_iff {s : List Char} : Pieces ('/' :: s) ↔ piecesValid false s = true := by
  constructor
  · intro h
    simpa [piecesValid] using h.piecesValid
  · intro h
    obtain ⟨name, rest, rfl, hne, hname, rfl | hrest⟩ := exists_name_of_piecesValid h
    · rw [List.append_nil]
      exact .last ⟨hne rfl, hname⟩
    · exact .next ⟨hne rfl, hname⟩ hrest

theorem isValidChars_slash {s : List Char} (h : s ≠ []) :
    isValidChars ('/' :: s) = piecesValid false s := by
  obtain ⟨c, s, rfl⟩ := List.exists_cons_of_ne_nil h
  rfl

theorem isValidChars_of_no_slash {s : List Char} (h : ∀ rest, s ≠ '/' :: rest) :
    isValidChars s = false := by
  unfold isValidChars
  split
  · exact absurd rfl (h [])
  · exact absurd rfl (h _)
  · rfl

theorem isValidChars_iff {s : List Char} :
    isValidChars s = true ↔ s = ['/'] ∨ Pieces s := by
  by_cases hslash : ∃ rest, s = '/' :: rest
  · obtain ⟨rest, rfl⟩ := hslash
    by_cases hne : rest = []
    · simp [hne, isValidChars]
    · simp [hne, isValidChars_slash hne, pieces_iff]
  · rw [not_exists] at hslash
    rw [isValidChars_of_no_slash hslash]
    refine iff_of_false Bool.false_ne_true ?_
    rintro (rfl | h)
    · exact hslash _ rfl
    · cases h with
      | last => exact hslash _ rfl
      | next => exact hslash _ rfl

theorem isValid_iff_grammatical {text : String} : isValid text = true ↔ Grammatical text := by
  have hroot : text = "/" ↔ text.toList = ['/'] := String.toList_inj.symm
  rw [isValid, Grammatical, hroot, isValidChars_iff]

/-! ## The check on octets -/

def isPieceOctet (b : UInt8) : Bool :=
  (0x30 ≤ b && b ≤ 0x39) || (0x41 ≤ b && b ≤ 0x5a) || (0x61 ≤ b && b ≤ 0x7a) || b == 0x5f

/-- The check that cuts the text at its slashes and looks at the octets between them. -/
def isValidOctets (text : String) : Bool :=
  text == "/" ||
    match text.toList with
    | '/' :: rest => (rest.splitOn '/').all fun piece =>
        !piece.isEmpty && (Utf8.encode (.ofList piece)).all isPieceOctet
    | _ => false

/-- The codes of the characters of a name. -/
def NameCode (n : Nat) : Prop :=
  (0x30 ≤ n ∧ n ≤ 0x39) ∨ (0x41 ≤ n ∧ n ≤ 0x5a) ∨ (0x61 ≤ n ∧ n ≤ 0x7a) ∨ n = 0x5f

theorem isPieceOctet_iff {b : UInt8} : isPieceOctet b = true ↔ NameCode b.toNat := by
  simp [isPieceOctet, NameCode, UInt8.le_iff_toNat_le, ← UInt8.toNat_inj, or_assoc]

theorem isPieceChar_iff_code {c : Char} : isPieceChar c = true ↔ NameCode c.toNat := by
  rw [isPieceChar_eq]
  simp [NameCode, Char.le_def, UInt32.le_iff_toNat_le, ← Char.toNat_inj, ← Char.toNat_val]
  omega

theorem all_isPieceOctet_iff {n : Nat} {octets : List UInt8} (h : Text.Utf8.Written n octets) :
    octets.all isPieceOctet = true ↔ NameCode n := by
  -- Of several octets the first one is too great, and so is the code point that they stand for.
  cases h <;>
    simp only [List.all_cons, List.all_nil, Bool.and_eq_true, and_true, isPieceOctet_iff, NameCode,
      UInt8.toNat_ofNat'] <;> omega

theorem encode_all_isPieceOctet (piece : List Char) :
    (Utf8.encode (.ofList piece)).all isPieceOctet = piece.all isPieceChar := by
  rw [Text.Utf8.encode_eq_flatMap, String.toList_ofList]
  induction piece with
  | nil => rfl
  | cons c piece ih =>
    rw [List.flatMap_cons, List.all_append, ih, List.all_cons]
    refine congrArg (· && _) (Bool.eq_iff_iff.mpr ?_)
    rw [all_isPieceOctet_iff (Text.Utf8.written_encodeChar c), isPieceChar_iff_code]

theorem piecesValid_eq_splitOn (started : Bool) (s : List Char) :
    ∃ first others, s.splitOn '/' = first :: others ∧
      piecesValid started s = ((started || !first.isEmpty) && first.all isPieceChar &&
        others.all fun piece => !piece.isEmpty && piece.all isPieceChar) := by
  induction s generalizing started with
  | nil => exact ⟨[], [], rfl, by simp [piecesValid]⟩
  | cons c s ih =>
    by_cases hc : c = '/'
    · subst hc
      obtain ⟨first, others, hsplit, hvalid⟩ := ih false
      refine ⟨[], first :: others, by simp [List.splitOn_cons_eq_if_modifyHead, hsplit], ?_⟩
      simp [piecesValid, hvalid]
    · obtain ⟨first, others, hsplit, hvalid⟩ := ih true
      refine ⟨c :: first, others, by simp [List.splitOn_cons_eq_if_modifyHead, hsplit, hc], ?_⟩
      simp [piecesValid, hvalid, hc, Bool.and_assoc]

/-- Both checks accept the same texts. -/
theorem isValidOctets_eq (text : String) : isValidOctets text = isValid text := by
  rw [isValidOctets, isValid]
  by_cases hroot : text = "/"
  · subst hroot
    rfl
  · have hlist : text.toList ≠ ['/'] := fun h => hroot (String.toList_inj.mp h)
    rw [beq_eq_false_iff_ne.mpr hroot, Bool.false_or]
    generalize text.toList = s at hlist
    split
    · rename_i rest
      have hne : rest ≠ [] := fun h => hlist (congrArg _ h)
      obtain ⟨first, others, hsplit, hvalid⟩ := piecesValid_eq_splitOn false rest
      simp [isValidChars_slash hne, hsplit, hvalid, encode_all_isPieceOctet]
    · rename_i hslash
      exact (isValidChars_of_no_slash hslash).symm

/-! ## Reading a path -/

theorem parse_of_valid {text : String} (h : isValid text = true) :
    parse text = .ok ⟨text, h⟩ :=
  parse_eq_ok_iff.mpr rfl

theorem parse_of_not_valid {text : String} (h : ¬ isValid text = true) :
    parse text = .error (.invalidObjectPath text) := by
  rw [parse, ofString?, dif_neg h]

/-- Every text is read or refused unchanged, according to the grammar: a text that follows it is
read as the path with this text, and any other one is refused with itself as the cause.  The check
decides the grammar, and it makes no difference whether it goes by characters or by octets.  To
convert the text, or a part of another text that is equal to it, is to read it. -/
theorem reading_follows_grammar (text : String) :
    (isValid text = true ↔ Grammatical text) ∧ isValidOctets text = isValid text ∧
      (Grammatical text → ∃ path, parse text = .ok path ∧ path.text = text) ∧
      (¬ Grammatical text → parse text = .error (.invalidObjectPath text)) ∧
      ofText text = parse text ∧
      ∀ slice : String.Slice, slice.copy = text → ofSlice slice = parse text := by
  refine ⟨isValid_iff_grammatical, isValidOctets_eq text, fun h => ?_, fun h => ?_, rfl,
    fun slice h => ?_⟩
  · exact ⟨_, parse_of_valid (isValid_iff_grammatical.mpr h), rfl⟩
  · exact parse_of_not_valid (mt isValid_iff_grammatical.mp h)
  · exact congrArg parse h

/-- A letter beyond ASCII makes the difference. -/
theorem reading_follows_grammar_accented :
    Grammatical "/a_b/C9e" ∧ (∃ path, parse "/a_b/C9e" = .ok path ∧ path.text = "/a_b/C9e") ∧
      ¬ Grammatical "/a_b/C9é" ∧
      parse "/a_b/C9é" = .error (.invalidObjectPath "/a_b/C9é") ∧
      ofSlice "/a_b/C9é".toSlice = .error (.invalidObjectPath "/a_b/C9é") := by
  obtain ⟨hplain, -, hread, -, -⟩ := reading_follows_grammar "/a_b/C9e"
  obtain ⟨haccented, -, -, hrefused, -, hslice⟩ := reading_follows_grammar "/a_b/C9é"
  have hyes : Grammatical "/a_b/C9e" := hplain.mp (by decide)
  have hno : ¬ Grammatical "/a_b/C9é" := mt haccented.mpr (by decide)
  exact ⟨hyes, hread hyes, hno, hrefused hno,
    (hslice _ String.copy_toSlice).trans (hrefused hno)⟩

end LocationBroker.Bus.ObjectPath
