/-! # Blank characters

The blank characters are those with the Unicode property White_Space.  A text is trimmed by taking
them off both ends.
-/

namespace LocationBroker.Text

/-- The character has the property White_Space. -/
def isBlank (c : Char) : Bool :=
  let n := c.toNat
  (9 ≤ n && n ≤ 13) || n == 0x20 || n == 0x85 || n == 0xa0 || n == 0x1680
    || (0x2000 ≤ n && n ≤ 0x200a) || n == 0x2028 || n == 0x2029 || n == 0x202f || n == 0x205f
    || n == 0x3000

theorem isBlank_toLower (c : Char) : isBlank c.toLower = isBlank c := by
  unfold Char.toLower
  split
  · rename_i h
    obtain ⟨hlow, hhigh⟩ := h
    -- Neither a capital nor its small letter is blank.
    have hcapital : 65 ≤ c.toNat ∧ c.toNat ≤ 90 := by
      simp only [ge_iff_le, UInt32.le_iff_toNat_le] at hlow hhigh
      exact ⟨hlow, hhigh⟩
    have hsmall : (c.val + ('a'.val - 'A'.val)).toNat = c.toNat + 32 := by
      have hshift : ('a'.val - 'A'.val).toNat = 32 := by decide
      rw [UInt32.toNat_add, hshift, Char.toNat_val]
      omega
    simp only [isBlank, ← Char.toNat_val, hsmall]
    simp only [Char.toNat_val]
    grind
  · rfl

/-- The characters without the blanks at both ends. -/
def trimChars (s : List Char) : List Char :=
  ((s.dropWhile isBlank).reverse.dropWhile isBlank).reverse

theorem dropWhile_of_blank {s : List Char} (h : ∀ c ∈ s, isBlank c = true) :
    s.dropWhile isBlank = [] := by
  have happend : (s ++ []).dropWhile isBlank = [].dropWhile isBlank :=
    List.dropWhile_append_of_pos h
  simpa using happend

/-- Blanks at the ends make no difference. -/
theorem trimChars_append {front back : List Char} (hfront : ∀ c ∈ front, isBlank c = true)
    (hback : ∀ c ∈ back, isBlank c = true) (s : List Char) :
    trimChars (front ++ s ++ back) = trimChars s := by
  have hback' : ∀ c ∈ back.reverse, isBlank c = true := by simpa using hback
  rw [trimChars, trimChars, List.append_assoc, List.dropWhile_append_of_pos hfront,
    List.dropWhile_append]
  split
  · rename_i hempty
    rw [List.isEmpty_iff.mp hempty, dropWhile_of_blank hback]
  · rw [List.reverse_append, List.dropWhile_append_of_pos hback']

/-- To replace characters by others that are as blank makes no difference to what is trimmed. -/
theorem trimChars_map {f : Char → Char} (h : ∀ c, isBlank (f c) = isBlank c) (s : List Char) :
    trimChars (s.map f) = (trimChars s).map f := by
  have hblank : isBlank ∘ f = isBlank := funext h
  simp only [trimChars, List.dropWhile_map, hblank, ← List.map_reverse]

def trim (s : String) : String :=
  String.ofList (trimChars s.toList)

def isAllBlank (s : String) : Bool :=
  s.toList.all isBlank

theorem isAllBlank_eq_false_iff {s : String} :
    isAllBlank s = false ↔ ∃ c ∈ s.toList, isBlank c = false := by
  simp [isAllBlank]

end LocationBroker.Text
