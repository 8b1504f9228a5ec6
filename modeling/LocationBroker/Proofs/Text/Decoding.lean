import LocationBroker.Proofs.Text.Octets

/-! # Texts and no texts

Octets are read strictly as a text exactly if they are the octets of this text
(`decode?_eq_some_iff`).  A text is read back from its octets because each character is.  The other
direction goes through what reading keeps: the segments of a sequence of octets make up the
sequence, character by character (`flatMap_segments`), so nothing is read that is not there.
-/

namespace LocationBroker.Text.Utf8

/-! ## A character has one form -/

theorem Written.unique {n : Nat} {a b : List UInt8} (ha : Written n a) (hb : Written n b) :
    a = b := by
  -- Two forms of one length have the same bits, and of different lengths are different code points.
  cases ha <;> cases hb <;>
    simp only [List.cons.injEq, ← UInt8.toNat_inj, UInt8.toNat_ofNat', and_true, reduceCtorEq,
      and_false] <;> omega

/-- Only the code points of characters have a form. -/
theorem Written.isValidChar {n : Nat} {octets : List UInt8} (h : Written n octets) :
    n.isValidChar := by
  cases h <;> simp only [Nat.isValidChar] <;> omega

theorem Written.eq_utf8EncodeChar {n : Nat} {octets : List UInt8} (h : Written n octets) :
    octets = String.utf8EncodeChar (Char.ofNat n) := by
  have hn : (Char.ofNat n).toNat = n := by
    rw [Char.ofNat, dif_pos h.isValidChar]
    rfl
  have hwritten := written_encodeChar (Char.ofNat n)
  rw [hn] at hwritten
  exact h.unique hwritten

/-! ## What the octets of a character under way leave open -/

/-- Whichever octets follow as they are expected, a character is complete after them. -/
def Completable (octets : List UInt8) (value least greatest : Nat) : Nat → Prop
  | 0 => ∀ b : UInt8, least ≤ b.toNat → b.toNat ≤ greatest →
      Written (value * 64 + b.toNat % 64) (octets ++ [b])
  | after + 1 => ∀ b : UInt8, least ≤ b.toNat → b.toNat ≤ greatest →
      Completable (octets ++ [b]) (value * 64 + b.toNat % 64) 0x80 0xbf after

def Pending.Sound (p : Pending) : Prop :=
  Completable p.octets p.value p.least p.greatest p.after

section

variable {a : UInt8} {value least greatest : Nat}

theorem eq_ofNat_add {b : UInt8} {base : Nat} (h : base ≤ b.toNat) :
    b = .ofNat (base + (b.toNat - base)) := by
  rw [Nat.add_sub_cancel' h, UInt8.ofNat_toNat]

theorem completable_two (ha : a.toNat = 0xc0 + value) (h : 2 ≤ value) (h' : value < 32) :
    Completable [a] value 0x80 0xbf 0 := by
  intro b hb hb'
  have hwritten : Written (value * 64 + b.toNat % 64)
      [.ofNat (0xc0 + value), .ofNat (0x80 + (b.toNat - 0x80))] :=
    .two (by omega) h h' (by omega)
  rwa [← ha, UInt8.ofNat_toNat, ← eq_ofNat_add hb] at hwritten

theorem completable_three (ha : a.toNat = 0xe0 + value) (h : value < 16) (hleast : 0x80 ≤ least)
    (hgreatest : greatest ≤ 0xbf) (hfirst : value = 0 → 0xa0 ≤ least)
    (hsurrogate : value = 13 → greatest ≤ 0x9f) : Completable [a] value least greatest 1 := by
  intro b hb hb' c hc hc'
  have hwritten : Written ((value * 64 + b.toNat % 64) * 64 + c.toNat % 64)
      [.ofNat (0xe0 + value), .ofNat (0x80 + (b.toNat - 0x80)),
        .ofNat (0x80 + (c.toNat - 0x80))] :=
    .three (by omega) h (by omega) (by omega) (by omega) (by omega)
  rwa [← ha, UInt8.ofNat_toNat, ← eq_ofNat_add (by omega), ← eq_ofNat_add hc] at hwritten

theorem completable_four (ha : a.toNat = 0xf0 + value) (h : value < 5) (hleast : 0x80 ≤ least)
    (hgreatest : greatest ≤ 0xbf) (hfirst : value = 0 → 0x90 ≤ least)
    (hlast : value = 4 → greatest ≤ 0x8f) : Completable [a] value least greatest 2 := by
  intro b hb hb' c hc hc' d hd hd'
  have hwritten : Written (((value * 64 + b.toNat % 64) * 64 + c.toNat % 64) * 64 + d.toNat % 64)
      [.ofNat (0xf0 + value), .ofNat (0x80 + (b.toNat - 0x80)),
        .ofNat (0x80 + (c.toNat - 0x80)), .ofNat (0x80 + (d.toNat - 0x80))] :=
    .four (by omega) h (by omega) (by omega) (by omega) (by omega) (by omega)
  rwa [← ha, UInt8.ofNat_toNat, ← eq_ofNat_add (by omega), ← eq_ofNat_add hc,
    ← eq_ofNat_add hd] at hwritten

end

theorem lead_ascii {b : UInt8} {c : Char} (h : lead b = .ascii c) :
    String.utf8EncodeChar c = [b] := by
  simp only [lead] at h
  split at h
  · rename_i hb
    cases h
    have hwritten : Written b.toNat [.ofNat b.toNat] := .one hb
    rw [← hwritten.eq_utf8EncodeChar, UInt8.ofNat_toNat]
  · repeat' split at h
    all_goals cases h

theorem lead_pending {b : UInt8} {p : Pending} (h : lead b = .pending p) :
    p.octets = [b] ∧ p.Sound := by
  simp only [lead] at h
  rw [Pending.Sound]
  split at h
  · cases h
  split at h
  · cases h
  split at h
  · cases h
    dsimp only
    refine ⟨rfl, completable_two ?_ ?_ ?_⟩ <;> omega
  iterate 3
    split at h
    · cases h
      dsimp only
      refine ⟨rfl, completable_three ?_ ?_ ?_ ?_ ?_ ?_⟩ <;> omega
  iterate 3
    split at h
    · cases h
      dsimp only
      refine ⟨rfl, completable_four ?_ ?_ ?_ ?_ ?_ ?_⟩ <;> omega
  cases h

/-! ## Reading keeps every octet -/

def Segment.octets : Segment → List UInt8
  | .char c => String.utf8EncodeChar c
  | .invalid octets => octets

theorem segmentsFrom_none_cons (b : UInt8) (rest : List UInt8) :
    segmentsFrom none (b :: rest) =
      match lead b with
      | .ascii c => .char c :: segmentsFrom none rest
      | .pending p => segmentsFrom (some p) rest
      | .none => .invalid [b] :: segmentsFrom none rest :=
  rfl

theorem segmentsFrom_some_cons (p : Pending) (b : UInt8) (rest : List UInt8) :
    segmentsFrom (some p) (b :: rest) =
      if p.least ≤ b.toNat && b.toNat ≤ p.greatest then
        match p.after with
        | 0 => .char (Char.ofNat (p.value * 64 + b.toNat % 64)) :: segmentsFrom none rest
        | after + 1 => segmentsFrom
            (some ⟨p.octets ++ [b], p.value * 64 + b.toNat % 64, after, 0x80, 0xbf⟩) rest
      else .invalid p.octets :: segmentsFrom none (b :: rest) :=
  rfl

theorem flatMap_segmentsFrom (before : Option Pending) (hbefore : ∀ p ∈ before, p.Sound)
    (octets : List UInt8) :
    (segmentsFrom before octets).flatMap Segment.octets =
      before.toList.flatMap Pending.octets ++ octets := by
  induction octets generalizing before with
  | nil => cases before <;> simp [segmentsFrom, Segment.octets]
  | cons b rest ih =>
    have hfresh : (segmentsFrom none (b :: rest)).flatMap Segment.octets = b :: rest := by
      rw [segmentsFrom_none_cons]
      cases hlead : lead b with
      | ascii c => simp [Segment.octets, lead_ascii hlead, ih]
      | pending p =>
        obtain ⟨hoctets, hsound⟩ := lead_pending hlead
        simp [ih (some p) (by simpa using hsound), hoctets]
      | none => simp [Segment.octets, ih]
    cases before with
    | none => exact hfresh
    | some p =>
      rw [segmentsFrom_some_cons]
      have hp : p.Sound := hbefore p rfl
      rw [Pending.Sound] at hp
      split
      · rename_i hcheck
        obtain ⟨hleast, hgreatest⟩ : p.least ≤ b.toNat ∧ b.toNat ≤ p.greatest := by
          simpa using hcheck
        cases hafter : p.after with
        | zero =>
          rw [hafter] at hp
          simp [Segment.octets, ih, ← (hp b hleast hgreatest).eq_utf8EncodeChar]
        | succ after =>
          rw [hafter] at hp
          have hnext : Pending.Sound
              ⟨p.octets ++ [b], p.value * 64 + b.toNat % 64, after, 0x80, 0xbf⟩ :=
            hp b hleast hgreatest
          simp [ih (some _) (by simpa using hnext)]
      · simp [Segment.octets, hfresh]

/-- What octets are read as makes up the octets. -/
theorem flatMap_segments (octets : List UInt8) :
    (segments octets).flatMap Segment.octets = octets :=
  flatMap_segmentsFrom none (by simp) octets

/-! ## Strict reading -/

theorem mapM_char?_eq_some_iff {segments : List Segment} {text : List Char} :
    segments.mapM Segment.char? = some text ↔ segments = text.map .char := by
  induction segments generalizing text with
  | nil => simp [eq_comm]
  | cons segment rest ih =>
    cases segment with
    | char c =>
      cases text with
      | nil => simp [Segment.char?, Option.bind_eq_some_iff]
      | cons d text => simp [Segment.char?, Option.bind_eq_some_iff, ih, and_left_comm]
    | invalid octets => cases text <;> simp [Segment.char?]

/-- Octets are read as a text exactly if they are the octets of this text. -/
theorem decode?_eq_some_iff {octets : List UInt8} {text : String} :
    decode? octets = some text ↔ octets = encode text := by
  rw [decode?, Option.map_eq_some_iff]
  constructor
  · rintro ⟨chars, hread, rfl⟩
    rw [mapM_char?_eq_some_iff] at hread
    rw [← flatMap_segments octets, hread, encode_eq_flatMap, String.toList_ofList, List.flatMap_map]
    rfl
  · rintro rfl
    exact ⟨text.toList, mapM_char?_eq_some_iff.mpr (segments_encode text), String.ofList_toList⟩

end LocationBroker.Text.Utf8
