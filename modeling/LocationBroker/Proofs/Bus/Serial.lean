import LocationBroker.Bus.Basic

/-! # Serials in names and paths

Unique names and the paths of sessions end in a serial in decimal digits.  The digits determine the
serial, so behind one beginning different serials give different texts: `uniqueName_injective` and
`ObjectPath.withSerial_injective`.

Serials are natural numbers here and never run over.  A counter of a fixed width behaves in the same
way until it does.
-/

namespace LocationBroker.Bus

/-- The decimal digits of a serial determine it. -/
theorem serial_injective {a b : Nat} (h : toString a = toString b) : a = b := by
  have hdigits : Nat.toDigits 10 a = Nat.toDigits 10 b := by
    simpa [toString, Nat.repr] using congrArg String.toList h
  rw [← Nat.ofDigitChars_ten_toDigits (n := a), hdigits, Nat.ofDigitChars_ten_toDigits]

theorem ObjectPath.withSerial_injective {path : ObjectPath} {a b : Nat}
    (h : path.withSerial a = path.withSerial b) : a = b := by
  have htext : path.text ++ toString a = path.text ++ toString b := congrArg ObjectPath.text h
  exact serial_injective ((String.append_right_inj _).mp htext)

theorem uniqueName_injective {a b : Nat} (h : uniqueName a = uniqueName b) : a = b :=
  serial_injective ((String.append_right_inj _).mp h)

/-- No unique name is the empty text, which stands for nobody. -/
theorem uniqueName_ne_empty (serial : Nat) : uniqueName serial ≠ "" := by
  intro h
  have hlist := congrArg String.toList h
  simp [uniqueName] at hlist

end LocationBroker.Bus
