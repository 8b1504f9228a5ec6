import LocationBroker.Proofs.Bus.Announcement

/-! # Writing and reading changes of ownership

A change is written as three texts.  It is read from three texts, and from two if it has no new
owner, so a change has more than one written form.  The forms are told apart by nothing but the
text that was left out: when it is put back (`padded`), the arguments of a message are those that
the bus writes for the change that the message is read as (`ofMessage?_eq_some_iff_padded`).  To go
through the arguments one by one comes to the same as to look at all of them (`readArgs?_eq`).
-/

namespace LocationBroker.Bus.OwnershipChange

variable {c d : OwnershipChange} {args : List Argument} {m : Message}

/-- The arguments with an empty text for a third one, if there are only two. -/
def padded : List Argument → List Argument
  | [name, old] => [name, old, .str ""]
  | args => args

theorem toSignal_args_inj : c.toSignal.args = d.toSignal.args ↔ c = d := by
  constructor
  · intro h
    obtain ⟨name, old, new⟩ := c
    obtain ⟨name', old', new'⟩ := d
    simp only [toSignal, List.cons.injEq, Argument.str.injEq, and_true] at h
    obtain ⟨rfl, rfl, rfl⟩ := h
    rfl
  · rintro rfl
    rfl

theorem padded_eq_args_iff :
    padded args = c.toSignal.args ↔
      args = [.str c.name, .str c.oldOwner, .str c.newOwner] ∨
        c.newOwner = "" ∧ args = [.str c.name, .str c.oldOwner] := by
  match args with
  | [] | [_] | [_, _, _] | _ :: _ :: _ :: _ :: _ => simp [padded, toSignal]
  | [name, old] =>
    -- Only here is a text put back, and it says that there is no new owner.
    simp only [padded, toSignal, List.cons.injEq, Argument.str.injEq, and_true]
    constructor
    · rintro ⟨hname, hold, hnew⟩
      exact .inr ⟨hnew.symm, hname, hold⟩
    · rintro (⟨-, -, ⟨⟩⟩ | ⟨hnew, hname, hold⟩)
      exact ⟨hname, hold, hnew.symm⟩

/-- A message is read as a change exactly if it is an announcement whose padded arguments are those
that the bus writes for the change. -/
theorem ofMessage?_eq_some_iff_padded :
    ofMessage? m = some c ↔
      ∃ s, m = .signal s ∧ s.announcesOwnership = true ∧ padded s.args = c.toSignal.args := by
  simp only [ofMessage?_eq_some_iff, padded_eq_args_iff]

theorem padded_args_of_ofMessage? (h : ofMessage? m = some c) :
    padded m.args = c.toSignal.args := by
  obtain ⟨s, rfl, -, hargs⟩ := ofMessage?_eq_some_iff_padded.mp h
  exact hargs

/-- Only two or three texts can be read. -/
theorem args_of_ofMessage? (h : ofMessage? m = some c) :
    (m.args.length = 2 ∨ m.args.length = 3) ∧ ∀ a ∈ m.args, ∃ text, a = .str text := by
  obtain ⟨s, rfl, -, hargs⟩ := ofMessage?_eq_some_iff.mp h
  change (s.args.length = 2 ∨ s.args.length = 3) ∧ ∀ a ∈ s.args, ∃ text, a = .str text
  obtain hthree | ⟨-, htwo⟩ := hargs
  · rw [hthree]
    exact ⟨.inr rfl, by simp⟩
  · rw [htwo]
    exact ⟨.inl rfl, by simp⟩

/-! ## The arguments one by one -/

/-- The first argument, if it is a text, and those behind it. -/
def nextText? : List Argument → Option (String × List Argument)
  | [] => none
  | a :: rest => a.str?.map fun text => (text, rest)

/-- The first argument, if it is a text, or an empty text if there is none. -/
def nextTextOrEmpty? : List Argument → Option (String × List Argument)
  | [] => some ("", [])
  | a :: rest => nextText? (a :: rest)

/-- Reads the arguments of an announcement as they come.  The third one may be missing, and there is
no fourth one. -/
def readArgs? (args : List Argument) : Option OwnershipChange := do
  let (name, args) ← nextText? args
  let (oldOwner, args) ← nextText? args
  let (newOwner, args) ← nextTextOrEmpty? args
  if args.isEmpty then some ⟨name, oldOwner, newOwner⟩ else none

theorem nextText?_eq_some_iff {text : String} {rest : List Argument} :
    nextText? args = some (text, rest) ↔ args = .str text :: rest := by
  cases args with
  | nil => simp [nextText?]
  | cons a others => cases a <;> simp [nextText?, Argument.str?]

theorem nextTextOrEmpty?_eq_some_iff {text : String} {rest : List Argument} :
    nextTextOrEmpty? args = some (text, rest) ↔
      args = .str text :: rest ∨ text = "" ∧ args = [] ∧ rest = [] := by
  cases args with
  | nil =>
    constructor
    · rintro ⟨⟩
      exact .inr ⟨rfl, rfl, rfl⟩
    · rintro (⟨⟨⟩⟩ | ⟨rfl, -, rfl⟩)
      rfl
  | cons a others => simp [nextTextOrEmpty?, nextText?_eq_some_iff]

theorem readArgs?_eq_some_iff :
    readArgs? args = some c ↔
      args = [.str c.name, .str c.oldOwner, .str c.newOwner] ∨
        c.newOwner = "" ∧ args = [.str c.name, .str c.oldOwner] := by
  simp only [readArgs?, Option.bind_eq_bind, Option.bind_eq_some_iff, Prod.exists,
    nextText?_eq_some_iff, nextTextOrEmpty?_eq_some_iff, Option.ite_none_right_eq_some,
    List.isEmpty_iff]
  constructor
  · rintro ⟨_, _, rfl, _, _, rfl, _, _, rfl | ⟨rfl, rfl, -⟩, rfl, hc⟩
    · cases hc
      exact .inl rfl
    · cases hc
      exact .inr ⟨rfl, rfl⟩
  · rintro (rfl | ⟨hnew, rfl⟩)
    · exact ⟨_, _, rfl, _, _, rfl, _, _, .inl rfl, rfl, rfl⟩
    · exact ⟨_, _, rfl, _, _, rfl, _, _, .inr ⟨rfl, rfl, rfl⟩, rfl, by rw [← hnew]⟩

theorem readArgs?_eq (args : List Argument) : readArgs? args = ofArgs? args :=
  Option.ext fun _ => readArgs?_eq_some_iff.trans ofArgs?_eq_some_iff.symm

/-! ## Reading -/

/-- What the bus writes for a change is read as this change.  A message is read as a change exactly
if it is a signal of the bus about the owner of a name whose arguments are the three texts of the
change, or the first two of them if the change has no new owner; so no other number of arguments is
accepted, and no argument that is not a text.  Two messages that are accepted are read as the same
change exactly if their arguments agree once a left-out new owner is put back, and this is how the
bus writes what was read.  To go through the arguments one by one comes to the same. -/
theorem reading_exact :
    (∀ c, ofMessage? c.toMessage = some c) ∧
    (∀ m c, ofMessage? m = some c ↔
      ∃ s, m = .signal s ∧ s.interface = busInterface ∧ s.member = nameOwnerChanged ∧
        (s.args = [.str c.name, .str c.oldOwner, .str c.newOwner] ∨
          c.newOwner = "" ∧ s.args = [.str c.name, .str c.oldOwner])) ∧
    (∀ m other c d, ofMessage? m = some c → ofMessage? other = some d →
      (c = d ↔ padded m.args = padded other.args)) ∧
    (∀ m c, ofMessage? m = some c →
      c.toMessage.args = padded m.args ∧ ofMessage? c.toMessage = some c) ∧
    (∀ m, (m.args.length ≠ 2 ∧ m.args.length ≠ 3 ∨ ∃ a ∈ m.args, a.str? = none) →
      ofMessage? m = none) ∧
    ∀ args, readArgs? args = ofArgs? args := by
  refine ⟨ofMessage?_toMessage, fun m c => ?_, fun m other c d hm hother => ?_, fun m c hm => ?_,
    fun m hm => ?_, readArgs?_eq⟩
  · simp only [ofMessage?_eq_some_iff, Signal.announcesOwnership_iff, and_assoc]
  · rw [padded_args_of_ofMessage? hm, padded_args_of_ofMessage? hother, toSignal_args_inj]
  · exact ⟨(padded_args_of_ofMessage? hm).symm, ofMessage?_toMessage c⟩
  · refine Option.eq_none_iff_forall_ne_some.mpr fun c hc => ?_
    obtain ⟨hlength, htexts⟩ := args_of_ofMessage? hc
    obtain ⟨htwo, hthree⟩ | ⟨a, ha, hnone⟩ := hm
    · exact hlength.elim htwo hthree
    · obtain ⟨text, rfl⟩ := htexts a ha
      cases hnone

/-- An announcement with the given arguments, from nobody in particular. -/
def announcement (args : List Argument) : Message :=
  .signal { path := .root, interface := busInterface, member := nameOwnerChanged, args }

/-- A name that lost its owner can be announced with two texts or with three, and both are read as
the same change.  A number in the place of the new owner is not read at all. -/
theorem reading_exact_curt :
    ofMessage? (announcement [.str "a.b", .str ":1.7"]) = some ⟨"a.b", ":1.7", ""⟩ ∧
      padded (announcement [.str "a.b", .str ":1.7"]).args =
        padded (announcement [.str "a.b", .str ":1.7", .str ""]).args ∧
      ofMessage? (announcement [.str "a.b", .str ":1.7", .u32 0]) = none := by
  obtain ⟨-, hread, hsame, -, hrefused, -⟩ := reading_exact
  have htwo : ofMessage? (announcement [.str "a.b", .str ":1.7"]) = some ⟨"a.b", ":1.7", ""⟩ :=
    (hread _ _).mpr ⟨_, rfl, rfl, rfl, .inr ⟨rfl, rfl⟩⟩
  have hthree : ofMessage? (announcement [.str "a.b", .str ":1.7", .str ""]) =
      some ⟨"a.b", ":1.7", ""⟩ :=
    (hread _ _).mpr ⟨_, rfl, rfl, rfl, .inl rfl⟩
  refine ⟨htwo, (hsame _ _ _ _ htwo hthree).mp rfl, hrefused _ (.inr ⟨.u32 0, ?_, rfl⟩)⟩
  simp [announcement, Message.args]

end LocationBroker.Bus.OwnershipChange
