/-! # The order of texts

Texts are ordered by their characters' code points, at the first place where they differ; a text
comes before its own continuations.  This is also the order of their UTF-8 octets.  The main
statements say that `compareChars` is a strict total order: `compareChars_eq_iff`,
`compareChars_swap` and `compareChars_trans`.
-/

namespace LocationBroker.Text

/-- Compares two sequences of characters at the first place where they differ. -/
def compareChars : List Char → List Char → Ordering
  | [], [] => .eq
  | [], _ :: _ => .lt
  | _ :: _, [] => .gt
  | a :: s, b :: t =>
    if a.toNat < b.toNat then .lt else if b.toNat < a.toNat then .gt else compareChars s t

def order (a b : String) : Ordering :=
  compareChars a.toList b.toList

/-- The first text comes strictly before the second. -/
def Before (a b : String) : Prop :=
  order a b = .lt

instance (a b : String) : Decidable (Before a b) :=
  inferInstanceAs (Decidable (_ = _))

/-! ## Laws of the order -/

theorem toNat_injective {a b : Char} (h : a.toNat = b.toNat) : a = b :=
  Char.ext (UInt32.toNat_inj.mp h)

theorem compareChars_self (s : List Char) : compareChars s s = .eq := by
  induction s with
  | nil => rfl
  | cons a s ih => simp [compareChars, ih]

theorem eq_of_compareChars {s t : List Char} (h : compareChars s t = .eq) : s = t := by
  induction s generalizing t with
  | nil => cases t <;> simp_all [compareChars]
  | cons a s ih =>
    cases t with
    | nil => simp [compareChars] at h
    | cons b t =>
      rw [compareChars] at h
      split at h
      · cases h
      · split at h
        · cases h
        · have hab : a = b := toNat_injective (by omega)
          rw [hab, ih h]

/-- Two texts compare equal exactly if they are the same text. -/
theorem compareChars_eq_iff {s t : List Char} : compareChars s t = .eq ↔ s = t :=
  ⟨eq_of_compareChars, fun h => h ▸ compareChars_self s⟩

theorem compareChars_swap (s t : List Char) : (compareChars s t).swap = compareChars t s := by
  induction s generalizing t with
  | nil => cases t <;> rfl
  | cons a s ih =>
    cases t with
    | nil => rfl
    | cons b t =>
      rw [compareChars, compareChars]
      by_cases hab : a.toNat < b.toNat
      · have hba : ¬ b.toNat < a.toNat := by omega
        rw [if_pos hab, if_neg hba, if_pos hab]
        rfl
      · by_cases hba : b.toNat < a.toNat
        · rw [if_neg hab, if_pos hba, if_pos hba]
          rfl
        · simp [hab, hba, ih]

theorem compareChars_trans {s t u : List Char} (h₁ : compareChars s t = .lt)
    (h₂ : compareChars t u = .lt) : compareChars s u = .lt := by
  induction s generalizing t u with
  | nil =>
    cases u with
    | nil => cases t <;> simp [compareChars] at h₁ h₂
    | cons => rfl
  | cons a s ih =>
    cases t with
    | nil => simp [compareChars] at h₁
    | cons b t =>
      cases u with
      | nil => simp [compareChars] at h₂
      | cons c u =>
        rw [compareChars] at h₁ h₂ ⊢
        split at h₁
        · split at h₂
          · rw [if_pos (by omega)]
          · split at h₂
            · cases h₂
            · rw [if_pos (by omega)]
        · split at h₁
          · cases h₁
          · split at h₂
            · rw [if_pos (by omega)]
            · split at h₂
              · cases h₂
              · rw [if_neg (by omega), if_neg (by omega)]
                exact ih h₁ h₂

/-! ## The same for `Before` -/

theorem Before.irrefl (a : String) : ¬ Before a a := by
  simp [Before, order, compareChars_self]

theorem Before.trans {a b c : String} (h₁ : Before a b) (h₂ : Before b c) : Before a c :=
  compareChars_trans h₁ h₂

theorem Before.ne {a b : String} (h : Before a b) : a ≠ b :=
  fun hab => Before.irrefl b (hab ▸ h)

/-- Of two different texts one comes before the other. -/
theorem Before.trichotomy (a b : String) : Before a b ∨ a = b ∨ Before b a := by
  rcases h : order a b with _ | _ | _
  · exact .inl h
  · exact .inr (.inl (String.toList_inj.mp (eq_of_compareChars h)))
  · refine .inr (.inr ?_)
    have hs := compareChars_swap a.toList b.toList
    rw [show compareChars a.toList b.toList = .gt from h] at hs
    exact hs.symm

end LocationBroker.Text
