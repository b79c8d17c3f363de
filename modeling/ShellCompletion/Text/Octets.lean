/-!
# Octets

The output of a program is a sequence of octets. An octet is held as the character of its code, so that
it can be compared with ASCII text. `encode` gives the UTF-8 octets of a text; `decode` reads octets as
UTF-8 and puts U+FFFD in the place of each maximal part that is no character.
-/

namespace ShellCompletion.Text

abbrev Octets := List Char

def encodeChar (c : Char) : Octets :=
  let code := c.toNat
  let tail (shift : Nat) : Char := Char.ofNat (0x80 + (code >>> shift) % 0x40)
  if code < 0x80 then [c]
  else if code < 0x800 then [Char.ofNat (0xC0 + code / 0x40), tail 0]
  else if code < 0x10000 then [Char.ofNat (0xE0 + code / 0x1000), tail 6, tail 0]
  else [Char.ofNat (0xF0 + code / 0x40000), tail 12, tail 6, tail 0]

def encode (text : String) : Octets := text.toList.flatMap encodeChar

def ofByte (byte : UInt8) : Char := Char.ofNat byte.toNat

def ofBytes (bytes : ByteArray) : Octets := bytes.data.toList.map ofByte

def toBytes (octets : Octets) : ByteArray := ⟨(octets.map fun octet => octet.toNat.toUInt8).toArray⟩

/-- The number of octets that follow a lead octet, and the range of the first of them. -/
def leadOctet (code : Nat) : Option (Nat × Nat × Nat) :=
  if 0xC2 ≤ code ∧ code ≤ 0xDF then some (1, 0x80, 0xBF)
  else if code = 0xE0 then some (2, 0xA0, 0xBF)
  else if code = 0xED then some (2, 0x80, 0x9F)
  else if 0xE1 ≤ code ∧ code ≤ 0xEF then some (2, 0x80, 0xBF)
  else if code = 0xF0 then some (3, 0x90, 0xBF)
  else if 0xF1 ≤ code ∧ code ≤ 0xF3 then some (3, 0x80, 0xBF)
  else if code = 0xF4 then some (3, 0x80, 0x8F)
  else none

/-- A character that is being put together: its value so far, the octets it still needs and the range of
the next one. -/
structure Partial where
  value : Nat
  needed : Nat
  low : Nat := 0x80
  high : Nat := 0xBF

def replacement : Char := Char.ofNat 0xFFFD

/-- Reads octets between characters. -/
def startChar (octet : Char) : Option Partial × List Char :=
  let code := octet.toNat
  if code < 0x80 then (none, [octet])
  else
    match leadOctet code with
    | none => (none, [replacement])
    | some (needed, low, high) =>
      (some { value := code % (1 <<< (6 - needed)), needed, low, high }, [])

/-- Reads one octet; an octet that cannot go on with a character ends it and is read anew. -/
def nextOctet (state : Option Partial) (octet : Char) : Option Partial × List Char :=
  match state with
  | none => startChar octet
  | some part =>
    let code := octet.toNat
    if part.low ≤ code ∧ code ≤ part.high then
      let value := part.value * 0x40 + code % 0x40
      if part.needed ≤ 1 then (none, [Char.ofNat value])
      else (some { value, needed := part.needed - 1 }, [])
    else
      let (state, chars) := startChar octet
      (state, replacement :: chars)

def decodeFrom (state : Option Partial) : Octets → List Char
  | [] => if state.isSome then [replacement] else []
  | octet :: rest =>
    let (state, chars) := nextOctet state octet
    chars ++ decodeFrom state rest

def decode (octets : Octets) : String := String.ofList (decodeFrom none octets)

end ShellCompletion.Text
