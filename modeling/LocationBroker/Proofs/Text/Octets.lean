import LocationBroker.Text.Order
import LocationBroker.Text.Utf8

/-! # Texts as octets

A text is read back from its octets (`decodeLossy_encode`), texts are in the order of their octets
(`encode_lt_of_before`), and a text can be cut at an octet where a character begins
(`sliceFrom?_eq_some_iff`).
-/

namespace LocationBroker.Text

namespace Utf8

/-! ## The octets of a character -/

/-- The octets of a code point; all but the first have six of its bits. -/
inductive Written (n : Nat) : List UInt8 → Prop
  | one : n < 0x80 → Written n [.ofNat n]
  | two {k x : Nat} : n = k * 64 + x → 2 ≤ k → k < 32 → x < 64 →
      Written n [.ofNat (0xc0 + k), .ofNat (0x80 + x)]
  | three {k x y : Nat} : n = (k * 64 + x) * 64 + y → k < 16 → x < 64 → y < 64 →
      (k = 0 → 32 ≤ x) → (k = 13 → x < 32) →
      Written n [.ofNat (0xe0 + k), .ofNat (0x80 + x), .ofNat (0x80 + y)]
  | four {k x y z : Nat} : n = ((k * 64 + x) * 64 + y) * 64 + z → k < 5 → x < 64 → y < 64 →
      z < 64 → (k = 0 → 16 ≤ x) → (k = 4 → x < 16) →
      Written n [.ofNat (0xf0 + k), .ofNat (0x80 + x), .ofNat (0x80 + y), .ofNat (0x80 + z)]

theorem written_encodeChar (c : Char) : Written c.toNat (String.utf8EncodeChar c) := by
  have hvalid : c.toNat < 0xd800 ∨ 0xdfff < c.toNat ∧ c.toNat < 0x110000 := c.valid
  have hval : c.val.toNat = c.toNat := rfl
  rw [String.utf8EncodeChar, hval]
  generalize c.toNat = n at hvalid
  split
  · exact .one (by omega)
  · split
    · have hn : n = n / 64 * 64 + n % 64 := by omega
      have hfirst : n / 64 % 32 + 192 = 0xc0 + n / 64 := by omega
      rw [hfirst, Nat.add_comm (n % 64)]
      exact .two hn (by omega) (by omega) (by omega)
    · split
      · have hn : n = (n / 4096 * 64 + n / 64 % 64) * 64 + n % 64 := by omega
        have hfirst : n / 4096 % 16 + 224 = 0xe0 + n / 4096 := by omega
        rw [hfirst, Nat.add_comm (n / 64 % 64), Nat.add_comm (n % 64)]
        exact .three hn (by omega) (by omega) (by omega) (by omega) (by omega)
      · have hn : n = ((n / 262144 * 64 + n / 4096 % 64) * 64 + n / 64 % 64) * 64 + n % 64 := by
          omega
        have hfirst : n / 262144 % 8 + 240 = 0xf0 + n / 262144 := by omega
        rw [hfirst, Nat.add_comm (n / 4096 % 64), Nat.add_comm (n / 64 % 64),
          Nat.add_comm (n % 64)]
        exact .four hn (by omega) (by omega) (by omega) (by omega) (by omega) (by omega)

/-- The first octet at which two code points differ is smaller for the smaller of them. -/
theorem Written.append_lt_append {m n : Nat} {a b : List UInt8} (ha : Written m a)
    (hb : Written n b) (h : m < n) (s t : List UInt8) : a ++ s < b ++ t := by
  cases ha <;> cases hb <;>
    simp only [List.cons_append, List.cons_lt_cons_iff, UInt8.lt_iff_toNat_lt, ← UInt8.toNat_inj,
      UInt8.toNat_ofNat'] <;> omega

/-! ## Reading -/

theorem lead_one {k : Nat} (h : k < 0x80) : lead (.ofNat k) = .ascii (Char.ofNat k) := by
  have hk : (UInt8.ofNat k).toNat = k := UInt8.toNat_ofNat_of_lt' (show _ < 256 by omega)
  rw [lead, hk, if_pos h]

theorem lead_two {k : Nat} (h : 2 ≤ k) (h' : k < 32) :
    lead (.ofNat (0xc0 + k)) = .pending ⟨[.ofNat (0xc0 + k)], k, 0, 0x80, 0xbf⟩ := by
  have hk : (UInt8.ofNat (0xc0 + k)).toNat = 0xc0 + k :=
    UInt8.toNat_ofNat_of_lt' (show _ < 256 by omega)
  rw [lead, hk, if_neg (by omega), if_neg (by omega), if_pos (by omega), Nat.add_sub_cancel_left]

theorem lead_three {k x : Nat} (h : k < 16) (hx : x < 64) (hleast : k = 0 → 32 ≤ x)
    (hgreatest : k = 13 → x < 32) :
    ∃ least greatest, least ≤ 0x80 + x ∧ 0x80 + x ≤ greatest ∧
      lead (.ofNat (0xe0 + k)) = .pending ⟨[.ofNat (0xe0 + k)], k, 1, least, greatest⟩ := by
  have hk : (UInt8.ofNat (0xe0 + k)).toNat = 0xe0 + k :=
    UInt8.toNat_ofNat_of_lt' (show _ < 256 by omega)
  rw [lead, hk, if_neg (by omega), if_neg (by omega), if_neg (by omega)]
  split
  · obtain rfl : k = 0 := by omega
    exact ⟨0xa0, 0xbf, by omega, by omega, rfl⟩
  · split
    · obtain rfl : k = 13 := by omega
      exact ⟨0x80, 0x9f, by omega, by omega, rfl⟩
    · rw [if_pos (by omega), Nat.add_sub_cancel_left]
      exact ⟨0x80, 0xbf, by omega, by omega, rfl⟩

theorem lead_four {k x : Nat} (h : k < 5) (hx : x < 64) (hleast : k = 0 → 16 ≤ x)
    (hgreatest : k = 4 → x < 16) :
    ∃ least greatest, least ≤ 0x80 + x ∧ 0x80 + x ≤ greatest ∧
      lead (.ofNat (0xf0 + k)) = .pending ⟨[.ofNat (0xf0 + k)], k, 2, least, greatest⟩ := by
  have hk : (UInt8.ofNat (0xf0 + k)).toNat = 0xf0 + k :=
    UInt8.toNat_ofNat_of_lt' (show _ < 256 by omega)
  rw [lead, hk, if_neg (by omega), if_neg (by omega), if_neg (by omega), if_neg (by omega),
    if_neg (by omega), if_neg (by omega)]
  split
  · obtain rfl : k = 0 := by omega
    exact ⟨0x90, 0xbf, by omega, by omega, rfl⟩
  · split
    · rw [Nat.add_sub_cancel_left]
      exact ⟨0x80, 0xbf, by omega, by omega, rfl⟩
    · obtain rfl : k = 4 := by omega
      exact ⟨0x80, 0x8f, by omega, by omega, rfl⟩

theorem segmentsFrom_pending {b : UInt8} {p : Pending} (h : lead b = .pending p)
    (rest : List UInt8) : segmentsFrom none (b :: rest) = segmentsFrom (some p) rest := by
  simp only [segmentsFrom, h, List.nil_append]

section

variable {octets : List UInt8} {value least greatest x : Nat}

/-- The last octet of a character ends it. -/
theorem segmentsFrom_last (hx : x < 64) (hleast : least ≤ 0x80 + x)
    (hgreatest : 0x80 + x ≤ greatest) (rest : List UInt8) :
    segmentsFrom (some ⟨octets, value, 0, least, greatest⟩) (.ofNat (0x80 + x) :: rest) =
      .char (Char.ofNat (value * 64 + x)) :: segmentsFrom none rest := by
  have hnat : (UInt8.ofNat (0x80 + x)).toNat = 0x80 + x :=
    UInt8.toNat_ofNat_of_lt' (show _ < 256 by omega)
  have hbits : (0x80 + x) % 64 = x := by omega
  simp only [segmentsFrom, hnat, hbits, decide_eq_true hleast, decide_eq_true hgreatest,
    Bool.and_self, if_true]

/-- An octet that is not the last one of its character adds six bits to it. -/
theorem segmentsFrom_next (hx : x < 64) (hleast : least ≤ 0x80 + x)
    (hgreatest : 0x80 + x ≤ greatest) (after : Nat) (rest : List UInt8) :
    segmentsFrom (some ⟨octets, value, after + 1, least, greatest⟩) (.ofNat (0x80 + x) :: rest) =
      segmentsFrom
        (some ⟨octets ++ [.ofNat (0x80 + x)], value * 64 + x, after, 0x80, 0xbf⟩) rest := by
  have hnat : (UInt8.ofNat (0x80 + x)).toNat = 0x80 + x :=
    UInt8.toNat_ofNat_of_lt' (show _ < 256 by omega)
  have hbits : (0x80 + x) % 64 = x := by omega
  simp only [segmentsFrom, hnat, hbits, decide_eq_true hleast, decide_eq_true hgreatest,
    Bool.and_self, if_true]

end

theorem Written.segmentsFrom {n : Nat} {octets : List UInt8} (h : Written n octets)
    (rest : List UInt8) :
    segmentsFrom none (octets ++ rest) = .char (Char.ofNat n) :: segmentsFrom none rest := by
  -- Only the second octet of a character can have narrower bounds, and those are of `lead`.
  have hfits : ∀ {x : Nat}, x < 64 → 0x80 ≤ 0x80 + x ∧ 0x80 + x ≤ 0xbf := by omega
  cases h with
  | one h => simp only [List.cons_append, List.nil_append, Utf8.segmentsFrom, lead_one h]
  | two hn hk hk' hx =>
    simp only [List.cons_append, List.nil_append]
    rw [hn, segmentsFrom_pending (lead_two hk hk'),
      segmentsFrom_last hx (hfits hx).1 (hfits hx).2]
  | three hn hk hx hy hleast hgreatest =>
    obtain ⟨least, greatest, hleast, hgreatest, hlead⟩ := lead_three hk hx hleast hgreatest
    simp only [List.cons_append, List.nil_append]
    rw [hn, segmentsFrom_pending hlead, segmentsFrom_next hx hleast hgreatest,
      segmentsFrom_last hy (hfits hy).1 (hfits hy).2]
  | four hn hk hx hy hz hleast hgreatest =>
    obtain ⟨least, greatest, hleast, hgreatest, hlead⟩ := lead_four hk hx hleast hgreatest
    simp only [List.cons_append, List.nil_append]
    rw [hn, segmentsFrom_pending hlead, segmentsFrom_next hx hleast hgreatest,
      segmentsFrom_next hy (hfits hy).1 (hfits hy).2,
      segmentsFrom_last hz (hfits hz).1 (hfits hz).2]

/-! ## The octets of a text -/

theorem toList_loop (bytes : ByteArray) (i : Nat) (done : List UInt8) :
    ByteArray.toList.loop bytes i done = done.reverse ++ bytes.data.toList.drop i := by
  fun_induction ByteArray.toList.loop bytes i done with
  | case1 i done h ih =>
    have hi : i < bytes.data.toList.length := h
    rw [ih, List.drop_eq_getElem_cons hi, List.reverse_cons, List.append_assoc]
    simp [ByteArray.get!, h]
  | case2 i done h =>
    have hi : bytes.data.toList.length ≤ i := Nat.le_of_not_lt h
    rw [List.drop_eq_nil_of_le hi, List.append_nil]

theorem encode_eq_flatMap (s : String) : encode s = s.toList.flatMap String.utf8EncodeChar := by
  have hbytes : s.toUTF8 = s.toList.utf8Encode := by
    rw [String.toUTF8_eq_toByteArray, ← String.toByteArray_ofList, String.ofList_toList]
  rw [encode, hbytes, ByteArray.toList, toList_loop]
  exact List.toList_data_toByteArray

theorem segments_encode (s : String) : segments (encode s) = s.toList.map .char := by
  rw [segments, encode_eq_flatMap]
  induction s.toList with
  | nil => rfl
  | cons c rest ih =>
    rw [List.flatMap_cons, (written_encodeChar c).segmentsFrom, ih, Char.ofNat_toNat]
    rfl

theorem decodeLossy_encode (s : String) : decodeLossy (encode s) = s := by
  rw [decodeLossy, segments_encode, List.map_map]
  exact (congrArg String.ofList (List.map_id _)).trans String.ofList_toList

theorem encode_lt_of_before {a b : String} (h : Before a b) : encode a < encode b := by
  rw [encode_eq_flatMap, encode_eq_flatMap]
  rw [Before, order] at h
  generalize a.toList = s at h
  generalize b.toList = t at h
  -- Up to the first character in which they differ, the texts have the same octets.
  induction s generalizing t with
  | nil =>
    cases t with
    | nil => cases h
    | cons d t =>
      rw [List.flatMap_cons]
      have hd : String.utf8EncodeChar d ≠ [] := String.utf8EncodeChar_ne_nil
      obtain ⟨first, others, hd⟩ := List.exists_cons_of_ne_nil hd
      rw [hd]
      exact List.nil_lt_cons _ _
  | cons c s ih =>
    cases t with
    | nil => cases h
    | cons d t =>
      rw [compareChars] at h
      rw [List.flatMap_cons, List.flatMap_cons]
      split at h
      · rename_i hless
        exact (written_encodeChar c).append_lt_append (written_encodeChar d) hless _ _
      · split at h
        · cases h
        · obtain rfl : c = d := toNat_injective (by omega)
          exact List.append_left_lt (ih t h)

theorem encode_le_of_not_before {a b : String} (h : ¬ Before b a) : encode a ≤ encode b := by
  obtain hab | rfl | hba := Before.trichotomy a b
  · exact List.le_of_lt (encode_lt_of_before hab)
  · exact List.le_refl _
  · exact absurd hba h

end Utf8

/-! ## Slices -/

/-- The text from an octet on.  There is none if the text ends before the octet, or if a character
began before it and goes on. -/
def sliceFrom? (s : String) (octet : Nat) : Option String :=
  if h : String.Pos.Raw.IsValid s ⟨octet⟩ then some (s.sliceFrom ⟨⟨octet⟩, h⟩).copy else none

theorem sliceFrom?_eq_some_iff {s t : String} {octet : Nat} :
    sliceFrom? s octet = some t ↔ ∃ front, s = front ++ t ∧ front.utf8ByteSize = octet := by
  rw [sliceFrom?]
  constructor
  · intro h
    split at h
    · rename_i hvalid
      have hsplits := String.Pos.splits (⟨⟨octet⟩, hvalid⟩ : s.Pos)
      rw [Option.some.injEq] at h
      exact ⟨_, h ▸ hsplits.eq_append, congrArg (·.byteIdx) hsplits.offset_eq_rawEndPos.symm⟩
    · cases h
  · rintro ⟨front, rfl, rfl⟩
    have hvalid : String.Pos.Raw.IsValid (front ++ t) ⟨front.utf8ByteSize⟩ :=
      String.Pos.Raw.isValid_iff_exists_append.mpr ⟨front, t, rfl, rfl⟩
    have hsplits : String.Pos.Splits (⟨_, hvalid⟩ : (front ++ t).Pos) front t := ⟨rfl, rfl⟩
    rw [dif_pos hvalid, (String.Pos.splits _).eq_right hsplits]

/-- The octet at which a character begins for the last time. -/
def lastOctetOf? (c : Char) : List Char → Option Nat
  | [] => none
  | d :: rest =>
    match lastOctetOf? c rest with
    | some octet => some (d.utf8Size + octet)
    | none => if d = c then some 0 else none

theorem lastOctetOf?_eq_none {c : Char} {s : List Char} (h : c ∉ s) : lastOctetOf? c s = none := by
  induction s with
  | nil => rfl
  | cons d rest ih =>
    rw [List.mem_cons, not_or] at h
    rw [lastOctetOf?, ih h.2]
    exact if_neg (Ne.symm h.1)

theorem lastOctetOf?_append {c : Char} {back : List Char} (h : c ∉ back) (front : List Char) :
    lastOctetOf? c (front ++ c :: back) = some (String.ofList front).utf8ByteSize := by
  induction front with
  | nil =>
    rw [List.nil_append, lastOctetOf?, lastOctetOf?_eq_none h]
    exact if_pos rfl
  | cons d front ih =>
    rw [List.cons_append, lastOctetOf?, ih]
    simp

end LocationBroker.Text
