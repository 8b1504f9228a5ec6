import Mathlib.Algebra.Group.Nat.Defs
import LocationBroker.Proofs.Bus.Custody
import LocationBroker.Proofs.Bus.PathGrammar

/-! # Serials behind paths

A path with a serial behind it follows the grammar of paths, and behind one path different serials
give different paths.  Behind different paths they can give the same one, since the digits of a
serial may be those of one number and then those of another (`spliced`).  There is no other way:
`withSerial_eq_iff` says which serials behind which paths give the same path.
-/

namespace LocationBroker.Bus

open ObjectPath

/-! ## Digits behind digits -/

/-- The number whose digits are those of one number and then those of another. -/
def spliced (front back : Nat) : Nat :=
  front * 10 ^ (Nat.toDigits 10 back).length + back

theorem toDigits_spliced {front : Nat} (hfront : 0 < front) (back : Nat) :
    Nat.toDigits 10 (spliced front back) = Nat.toDigits 10 front ++ Nat.toDigits 10 back := by
  induction back using Nat.base_induction 10 (by decide) with
  | single digit hdigit =>
    have hone : spliced front digit = 10 * front + digit := by
      simp [spliced, Nat.toDigits_of_lt_base hdigit, Nat.mul_comm]
    rw [hone, Nat.toDigits_append_toDigits (by decide) hfront hdigit]
  | digit rest last hlast hrest ih =>
    have hmore : spliced front (10 * rest + last) = 10 * spliced front rest + last := by
      rw [spliced, spliced, ← Nat.toDigits_append_toDigits (by decide) hrest hlast,
        Nat.toDigits_of_lt_base hlast, List.length_append, List.length_singleton, Nat.pow_succ,
        ← Nat.mul_assoc]
      omega
    have hpos : 0 < spliced front rest := Nat.add_pos_right _ hrest
    rw [hmore, ← Nat.toDigits_append_toDigits (by decide) hpos hlast, ih, List.append_assoc,
      Nat.toDigits_append_toDigits (by decide) hrest hlast]

/-- Without the last one, the digits of a number that has several are those of a tenth of it. -/
theorem toDigits_div_ten {whole last : Nat} {front : List Char} (hlast : last < 10)
    (hfront : front ≠ []) (h : Nat.toDigits 10 whole = front ++ Nat.toDigits 10 last) :
    0 < whole / 10 ∧ Nat.toDigits 10 (whole / 10) = front := by
  rw [Nat.toDigits_of_lt_base hlast] at h
  have hwhole : 10 ≤ whole := by
    by_contra hsmall
    rw [Nat.toDigits_of_lt_base (by omega)] at h
    cases front with
    | nil => exact hfront rfl
    | cons c front => simp at h
  rw [Nat.toDigits_of_base_le (by decide) hwhole] at h
  exact ⟨by omega, (List.append_inj' h rfl).1⟩

/-- What stands in front of the digits of one number among those of another are the digits of a
number, too: they do not begin with a zero. -/
theorem exists_toDigits_eq {front : List Char} {whole back : Nat} (hfront : front ≠ [])
    (h : Nat.toDigits 10 whole = front ++ Nat.toDigits 10 back) :
    ∃ n > 0, front = Nat.toDigits 10 n := by
  induction back using Nat.base_induction 10 (by decide) generalizing whole with
  | single digit hdigit =>
    obtain ⟨hpos, hdigits⟩ := toDigits_div_ten hdigit hfront h
    exact ⟨whole / 10, hpos, hdigits.symm⟩
  | digit rest last hlast hrest ih =>
    rw [← Nat.toDigits_append_toDigits (by decide) hrest hlast, ← List.append_assoc] at h
    obtain ⟨-, hdigits⟩ := toDigits_div_ten hlast (by simp) h
    exact ih hdigits

theorem toDigits_injective {a b : Nat} (h : Nat.toDigits 10 a = Nat.toDigits 10 b) : a = b := by
  refine serial_injective ?_
  rw [Nat.toString_eq_ofList_toDigits, h, Nat.toString_eq_ofList_toDigits]

/-! ## Which paths a serial tells apart -/

variable {path other : ObjectPath} {a b : Nat}

theorem ObjectPath.toList_withSerial (path : ObjectPath) (serial : Nat) :
    (path.withSerial serial).text.toList = path.text.toList ++ Nat.toDigits 10 serial := by
  simp [withSerial]

theorem ObjectPath.eq_iff_toList : path = other ↔ path.text.toList = other.text.toList := by
  rw [String.toList_inj]
  exact ⟨congrArg _, @Keyed.text_inj ObjectPath _ _ _⟩

/-- A path with a serial behind it is another path. -/
theorem ObjectPath.withSerial_ne (path : ObjectPath) (serial : Nat) :
    path.withSerial serial ≠ path := by
  rw [Ne, eq_iff_toList, toList_withSerial]
  simp

theorem exists_front_iff {s t : List Char} (hne : s ≠ t) :
    (∃ front, t = s ++ front ∧ Nat.toDigits 10 a = front ++ Nat.toDigits 10 b) ↔
      ∃ n > 0, t = s ++ Nat.toDigits 10 n ∧ a = spliced n b := by
  constructor
  · rintro ⟨front, rfl, h⟩
    have hfront : front ≠ [] := by
      rintro rfl
      exact hne (List.append_nil s).symm
    obtain ⟨n, hn, rfl⟩ := exists_toDigits_eq hfront h
    rw [← toDigits_spliced hn] at h
    exact ⟨n, hn, rfl, toDigits_injective h⟩
  · rintro ⟨n, hn, rfl, rfl⟩
    exact ⟨_, rfl, toDigits_spliced hn b⟩

/-- Serials behind different paths give the same path exactly if one of the paths is the other one
with a number behind it, and the other one's serial is this number and then its own. -/
theorem ObjectPath.withSerial_eq_iff (hne : path ≠ other) :
    path.withSerial a = other.withSerial b ↔
      (∃ n > 0, other = path.withSerial n ∧ a = spliced n b) ∨
        ∃ n > 0, path = other.withSerial n ∧ b = spliced n a := by
  rw [Ne, eq_iff_toList] at hne
  rw [eq_iff_toList, toList_withSerial, toList_withSerial, List.append_eq_append_iff]
  simp only [eq_iff_toList, toList_withSerial]
  exact or_congr (exists_front_iff hne) (exists_front_iff (Ne.symm hne))

theorem grammatical_append_serial (path : ObjectPath) (serial : Nat) :
    Grammatical (path.text ++ toString serial) :=
  isValid_iff_grammatical.mp (isValid_append_serial path.valid serial)

theorem parse_append_serial (path : ObjectPath) (serial : Nat) :
    parse (path.text ++ toString serial) = .ok (path.withSerial serial) :=
  parse_eq_ok_iff.mpr rfl

/-- Behind any path, the root too, every serial gives a path: the text follows the grammar and is
read as this path, which is not the one without the serial.  Different serials give different paths.
Behind another path a serial can give the same one, but only if one of the two is the other with the
first digits of its serial behind it; and to every path there is such another one.  By their digits
the unique names are different, too: all that any history makes a bus hand out. -/
theorem serials_keep_apart :
    (∀ (path : ObjectPath) (a : Nat),
      Grammatical (path.text ++ toString a) ∧
        parse (path.text ++ toString a) = .ok (path.withSerial a) ∧ path.withSerial a ≠ path ∧
        ∀ b, path.withSerial a = path.withSerial b → a = b) ∧
    (∀ (path other : ObjectPath) (a b : Nat), path ≠ other →
      (path.withSerial a = other.withSerial b ↔
        (∃ n > 0, other = path.withSerial n ∧ a = spliced n b) ∨
          ∃ n > 0, path = other.withSerial n ∧ b = spliced n a)) ∧
    (∀ path : ObjectPath, ∃ other a b, path ≠ other ∧ a < 2 ^ 64 ∧ b < 2 ^ 64 ∧
      path.withSerial a = other.withSerial b) ∧
    (∀ a b, uniqueName a = uniqueName b → a = b) ∧
    ∀ (bus : Bus) (history : List Action), (bus.during given history).Nodup ∧
      ∀ name ∈ bus.during given history, ∃ serial, name = uniqueName serial := by
  refine ⟨fun path a => ?_, fun path other a b => withSerial_eq_iff, fun path => ?_,
    fun a b => uniqueName_injective, fun bus history => ⟨nodup_given bus history, ?_⟩⟩
  · exact ⟨grammatical_append_serial path a, parse_append_serial path a, withSerial_ne path a,
      fun b => withSerial_injective⟩
  · have hne : path ≠ path.withSerial 1 := (withSerial_ne path 1).symm
    refine ⟨path.withSerial 1, spliced 1 2, 2, hne, by decide, by decide, ?_⟩
    exact (withSerial_eq_iff hne).mpr (.inl ⟨1, Nat.one_pos, rfl, rfl⟩)
  · intro name hname
    rw [(given_run bus history).1] at hname
    obtain ⟨serial, -, rfl⟩ := List.mem_map.mp hname
    exact ⟨serial, rfl⟩

/-- The root and `/1` share the path `/12`, each with a serial of its own. -/
theorem serials_keep_apart_root :
    root ≠ root.withSerial 1 ∧ root.withSerial 12 = (root.withSerial 1).withSerial 2 ∧
      parse "/12" = .ok (root.withSerial 12) ∧ root.withSerial 12 ≠ root.withSerial 2 ∧
      (({} : Bus).during given [.connect .session, .removePeer ":1.0", .addPeer]).Nodup := by
  obtain ⟨hpath, hshared, -, -, hnames⟩ := serials_keep_apart
  obtain ⟨-, hread, -, hserial⟩ := hpath root 12
  have hne : root ≠ root.withSerial 1 := (hpath root 1).2.2.1.symm
  refine ⟨hne, (hshared root _ 12 2 hne).mpr (.inl ⟨1, Nat.one_pos, rfl, by decide⟩), hread,
    fun heq => ?_, (hnames {} _).1⟩
  exact absurd (hserial 2 heq) (by decide)

end LocationBroker.Bus
