import LocationBroker.Text.Scan

/-! # What scanners yield

A property of all that a scanner recognises follows from properties of what its parts recognise, by
one rule for each way in which scanners are put together.
-/

namespace LocationBroker.Text.Scan

variable {α β : Type} {scan : Scan α} {p q : α → Prop} {r : β → Prop}

/-- Whatever the scanner recognises has the property. -/
def Yields (scan : Scan α) (p : α → Prop) : Prop :=
  ∀ s a rest, scan s = some (a, rest) → p a

theorem Yields.any (scan : Scan α) : scan.Yields fun _ => True :=
  fun _ _ _ _ => trivial

theorem Yields.pure {a : α} (h : p a) : (Pure.pure a : Scan α).Yields p := by
  rintro s _ _ ⟨⟩
  exact h

theorem Yields.failure : (Alternative.failure : Scan α).Yields p :=
  fun _ _ _ h => nomatch h

theorem Yields.bind {next : α → Scan β} (h : scan.Yields p) (hnext : ∀ a, p a → (next a).Yields r) :
    (scan >>= next).Yields r := by
  intro s b rest hscan
  obtain ⟨⟨a, between⟩, hfirst, hsecond⟩ := Option.bind_eq_some_iff.mp hscan
  exact hnext a (h s a between hfirst) between b rest hsecond

theorem Yields.after {first : Scan β} {next : β → Scan α} (h : ∀ b, (next b).Yields p) :
    (first >>= next).Yields p :=
  (Yields.any first).bind fun b _ => h b

theorem Yields.map {f : α → β} (h : scan.Yields p) (hf : ∀ a, p a → r (f a)) :
    (f <$> scan).Yields r := by
  rw [map_eq_pure_bind]
  exact h.bind fun a ha => .pure (hf a ha)

theorem Yields.seqLeft {ending : Scan β} (h : scan.Yields p) : (scan <* ending).Yields p := by
  rw [seqLeft_eq_bind]
  exact h.bind fun a ha => .after fun _ => .pure ha

theorem Yields.seqRight {first : Scan β} (h : scan.Yields p) : (first *> scan).Yields p := by
  rw [seqRight_eq_bind]
  exact .after fun _ => h

theorem Yields.orElse {other : Scan α} (h : scan.Yields p) (hother : other.Yields p) :
    (scan <|> other).Yields p := by
  intro s a rest hscan
  change (scan s).orElse (fun _ => other s) = some (a, rest) at hscan
  cases hfirst : scan s with
  | none =>
    rw [hfirst] at hscan
    exact hother s a rest hscan
  | some result =>
    rw [hfirst] at hscan
    exact h s a rest (hfirst.trans hscan)

theorem Yields.ite {c : Prop} [Decidable c] {other : Scan α} (h : scan.Yields p)
    (hother : other.Yields p) : (if c then scan else other).Yields p := by
  split
  · exact h
  · exact hother

theorem Yields.upTo (h : scan.Yields p) (n : Nat) :
    (Scan.upTo scan n).Yields fun as => ∀ a ∈ as, p a := by
  induction n with
  | zero => exact .pure (List.forall_mem_nil p)
  | succ n ih =>
    refine .orElse (h.bind fun a ha => ih.bind fun as has => ?_) (.pure (List.forall_mem_nil p))
    exact .pure (List.forall_mem_cons.mpr ⟨ha, has⟩)

theorem Yields.many (h : scan.Yields p) : (Scan.many scan).Yields fun as => ∀ a ∈ as, p a :=
  fun s => h.upTo s.length s

theorem Yields.separated? {separator : Scan β} (h : scan.Yields p) :
    (Scan.separated? scan separator).Yields fun as => ∀ a ∈ as, p a := by
  refine .orElse (h.bind fun a ha => h.seqRight.many.bind fun as has => ?_) ?_
  · exact .pure (List.forall_mem_cons.mpr ⟨ha, has⟩)
  · exact .pure (List.forall_mem_nil p)

end LocationBroker.Text.Scan
