import LocationBroker.Text.Blank
import LocationBroker.Text.Scan

/-! # Modes

A pattern describes texts.  How its characters are meant depends on modes, which a pattern may
switch for the rest of the group that it is in.  In verbose mode blanks and comments may stand
between the parts of a pattern; a comment begins with a number sign and ends with its line.
-/

namespace LocationBroker.Pattern

open Text (Scan)

/-- The modes that decide whether a part of a pattern can be used. -/
structure Modes where
  /-- Capital and small letters are alike. -/
  isCaseless : Bool := false
  /-- A pattern is about characters of any script; otherwise it is about octets. -/
  isUnicode : Bool := true
  /-- Blanks and comments may stand between the parts. -/
  isVerbose : Bool := false

/-- Modes to be switched on and off, given by their letters. -/
structure Switches where
  on : List Char
  off : List Char

namespace Switches

/-- The letters of all modes. -/
def known : List Char := ['i', 'm', 's', 'U', 'u', 'R', 'x']

/-- Every letter is that of a mode, and none is there twice. -/
def isProper (s : Switches) : Bool :=
  (s.on ++ s.off).all known.contains && decide (s.on ++ s.off).Nodup

/-- Reads letters; those behind a minus sign are switched off, and there must be some behind it. -/
def ofLetters? (letters : List Char) : Option Switches :=
  let on := letters.takeWhile (· != '-')
  let switches? : Option Switches := match letters.dropWhile (· != '-') with
    | [] => some ⟨on, []⟩
    | [_] => none
    | _ :: off => some ⟨on, off⟩
  switches?.filter isProper

end Switches

namespace Modes

/-- The modes after some of them have been switched. -/
def switch (m : Modes) (s : Switches) : Modes :=
  let now (letter : Char) (before : Bool) : Bool :=
    s.on.contains letter || (before && !s.off.contains letter)
  ⟨now 'i' m.isCaseless, now 'u' m.isUnicode, now 'x' m.isVerbose⟩

def afterGap (inComment : Bool) : List Char → List Char
  | [] => []
  | c :: rest =>
    if inComment then afterGap (c != '\n') rest
    else if c == '\x23' then afterGap true rest
    else if Text.isBlank c then afterGap false rest
    else c :: rest

/-- Passes over blanks and comments in verbose mode. -/
def gap (m : Modes) : Scan Unit :=
  fun s => some ((), if m.isVerbose then afterGap false s else s)

end Modes

end LocationBroker.Pattern
