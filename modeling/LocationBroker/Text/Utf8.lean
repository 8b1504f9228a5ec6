/-! # Texts from octets

A sequence of octets is read as UTF-8 into segments: characters, and runs of octets that begin no
character.  Such a run is as long as the octets could still have become one.  Reading is strict if
it refuses a run, and lossy if it puts the replacement character in its place.
-/

namespace LocationBroker.Text.Utf8

/-- A character, or octets that begin none. -/
inductive Segment where
  | char (c : Char)
  | invalid (octets : List UInt8)

/-- A character of several octets of which some are still to come. -/
structure Pending where
  /-- The octets read so far. -/
  octets : List UInt8
  /-- The bits that they contribute. -/
  value : Nat
  /-- How many octets follow after the next one. -/
  after : Nat
  /-- The least next octet. -/
  least : Nat
  /-- The greatest next octet. -/
  greatest : Nat

/-- What a first octet begins. -/
inductive Lead where
  | ascii (c : Char)
  | pending (p : Pending)
  | none

/-- Reads a first octet. -/
def lead (b : UInt8) : Lead :=
  let n := b.toNat
  let pending (bits after least greatest : Nat) : Lead :=
    .pending ⟨[b], bits, after, least, greatest⟩
  if n < 0x80 then .ascii (Char.ofNat n)
  else if n < 0xc2 then .none
  else if n < 0xe0 then pending (n - 0xc0) 0 0x80 0xbf
  else if n = 0xe0 then pending 0 1 0xa0 0xbf
  else if n = 0xed then pending 0xd 1 0x80 0x9f
  else if n < 0xf0 then pending (n - 0xe0) 1 0x80 0xbf
  else if n = 0xf0 then pending 0 2 0x90 0xbf
  else if n < 0xf4 then pending (n - 0xf0) 2 0x80 0xbf
  else if n = 0xf4 then pending 4 2 0x80 0x8f
  else .none

/-- Reads octets; `before` is the character under way. -/
def segmentsFrom (before : Option Pending) : List UInt8 → List Segment
  | [] => before.toList.map fun p => .invalid p.octets
  | b :: rest =>
    let fresh (done : List Segment) : List Segment :=
      done ++ match lead b with
        | .ascii c => .char c :: segmentsFrom none rest
        | .pending p => segmentsFrom (some p) rest
        | .none => .invalid [b] :: segmentsFrom none rest
    match before with
    | none => fresh []
    | some p =>
      if p.least ≤ b.toNat && b.toNat ≤ p.greatest then
        let value := p.value * 64 + b.toNat % 64
        match p.after with
        | 0 => .char (Char.ofNat value) :: segmentsFrom none rest
        | after + 1 => segmentsFrom (some ⟨p.octets ++ [b], value, after, 0x80, 0xbf⟩) rest
      else fresh [.invalid p.octets]

def segments (octets : List UInt8) : List Segment :=
  segmentsFrom none octets

def Segment.char? : Segment → Option Char
  | .char c => some c
  | .invalid _ => none

/-- The text of the octets, if every segment is a character. -/
def decode? (octets : List UInt8) : Option String :=
  ((segments octets).mapM Segment.char?).map String.ofList

/-- The text of the octets, with the replacement character for every other segment. -/
def decodeLossy (octets : List UInt8) : String :=
  String.ofList ((segments octets).map fun s => s.char?.getD '\ufffd')

def encode (s : String) : List UInt8 :=
  s.toUTF8.toList

end LocationBroker.Text.Utf8
