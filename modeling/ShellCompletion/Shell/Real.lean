import ShellCompletion.Text.Octets

/-!
# Binary floating-point numbers

A number with 53 binary digits is read from a text by rounding to the nearest one, and written with a
number of digits by rounding its exact value; a tie goes to the even neighbour.
-/

namespace ShellCompletion.Shell

open Text (Octets)

inductive Real where
  /-- The value `size` times two to the power of `scale`. -/
  | finite (negative : Bool) (size : Nat) (scale : Int)
  | infinite (negative : Bool)
  | undefined (negative : Bool)
deriving DecidableEq, Repr

namespace Real

/-- The quotient rounded to the nearest integer. -/
def divideRounded (numerator denominator : Nat) : Nat :=
  let quotient := numerator / denominator
  let rest := numerator % denominator
  if 2 * rest < denominator || (2 * rest = denominator && quotient % 2 = 0) then quotient
  else quotient + 1

def power (base : Nat) (exponent : Int) : Nat := Nat.pow base exponent.toNat

/-- A fraction times a power of `base`, as a fraction. -/
def scaled (numerator denominator base : Nat) (exponent : Int) : Nat × Nat :=
  (numerator * power base exponent, denominator * power base (-exponent))

def bits (n : Nat) : Nat := if n = 0 then 0 else n.log2 + 1

/-- The number nearest to a fraction. -/
def ofFraction (negative : Bool) (numerator denominator : Nat) : Real :=
  if numerator = 0 then finite negative 0 0
  else
    let guess : Int := (bits numerator : Int) - bits denominator - 53
    let fits (scale : Int) : Bool :=
      let (n, d) := scaled numerator denominator 2 (-scale)
      n / d < 9007199254740992
    let scale := max (-1074) (if fits guess then guess else guess + 1)
    let (n, d) := scaled numerator denominator 2 (-scale)
    let size := divideRounded n d
    if 971 < scale || (scale = 971 && 9007199254740992 ≤ size) then infinite negative
    else finite negative size scale

def digitValue (c : Char) : Nat :=
  if c.isDigit then c.toNat - '0'.toNat
  else if 'a' ≤ c && c ≤ 'f' then c.toNat - 'a'.toNat + 10
  else if 'A' ≤ c && c ≤ 'F' then c.toNat - 'A'.toNat + 10
  else 16

/-- The digits of a base before and after a point, as one number, how many stand after the point, and the
text after them. -/
def mantissa? (base : Nat) (text : Octets) : Option (Nat × Nat × Octets) :=
  let isDigit (c : Char) : Bool := digitValue c < base
  let (whole, rest) := text.span isDigit
  let (fraction, rest) := match rest with
    | '.' :: after => after.span isDigit
    | rest => ([], rest)
  if whole.isEmpty && fraction.isEmpty then none
  else
    let value := (whole ++ fraction).foldl (fun value c => value * base + digitValue c) 0
    some (value, fraction.length, rest)

/-- The exponent after one of the marks, if there is one. -/
def exponent (marks : List Char) (text : Octets) : Int × Octets :=
  match text with
  | [] => (0, [])
  | mark :: rest =>
    if mark ∉ marks then (0, text)
    else
      let (negative, digits) := match rest with
        | '-' :: rest => (true, rest)
        | '+' :: rest => (false, rest)
        | rest => (false, rest)
      let (digits, rest) := digits.span Char.isDigit
      if digits.isEmpty then (0, text)
      else
        let value := digits.foldl (fun value c => min 100000 (value * 10 + digitValue c)) 0
        (if negative then -(value : Int) else value, rest)

/-- No number needs a power that is larger. -/
def clamp (value : Int) : Int := max (-20000) (min 20000 value)

/-- The number that a text begins with, and the text after it. -/
def read (text : Octets) : Option (Real × Octets) :=
  let start := text.dropWhile fun c => c == ' ' || ('\t' ≤ c && c ≤ '\r')
  let (negative, start) := match start with
    | '-' :: rest => (true, rest)
    | '+' :: rest => (false, rest)
    | rest => (false, rest)
  let lower := start.map Char.toLower
  if "infinity".toList.isPrefixOf lower then some (infinite negative, start.drop 8)
  else if "inf".toList.isPrefixOf lower then some (infinite negative, start.drop 3)
  else if "nan".toList.isPrefixOf lower then some (undefined negative, start.drop 3)
  else
    let hexadecimal : Option (Real × Octets) :=
      if "0x".toList.isPrefixOf lower then do
        let (value, places, rest) ← mantissa? 16 (start.drop 2)
        let (power, rest) := exponent ['p', 'P'] rest
        let (n, d) := scaled value 1 2 (clamp (power - 4 * places))
        return (ofFraction negative n d, rest)
      else none
    match hexadecimal with
    | some found => some found
    | none => do
      let (value, places, rest) ← mantissa? 10 start
      let (power, rest) := exponent ['e', 'E'] rest
      let (n, d) := scaled value 1 10 (clamp (power - places))
      return (ofFraction negative n d, rest)

/-! ### Writing -/

def isNegative : Real → Bool
  | finite negative _ _ | infinite negative | undefined negative => negative

/-- The decimal digits of a number, at least `count` of them. -/
def digits (count n : Nat) : Octets :=
  let text := (toString n).toList
  List.replicate (count - text.length) '0' ++ text

def fraction (size : Nat) (scale : Int) : Nat × Nat := scaled size 1 2 scale

/-- With so many decimal places; with `pointed` there is a point even if there are none. -/
def fixed (size : Nat) (scale : Int) (places : Nat) (pointed : Bool) : Octets :=
  let (n, d) := fraction size scale
  let text := digits (places + 1) (divideRounded (n * Nat.pow 10 places) d)
  let cut := text.length - places
  text.take cut ++ (if places = 0 && !pointed then [] else '.' :: text.drop cut)

/-- The power of ten of the first digit. -/
def leadingPower (n d : Nat) : Int :=
  let guess : Int := ((toString (n / d)).length : Int) - 1
  if d ≤ n then guess
  else
    let below := (toString (d / n)).length
    let (a, b) := scaled n d 10 below
    if b ≤ a then
      let (a', b') := scaled n d 10 (below - 1)
      if b' ≤ a' then -((below : Int) - 1) else -(below : Int)
    else -((below : Int) + 1)

/-- The digits with so many places after the first, and the power of ten of the first. -/
def scientificDigits (size : Nat) (scale : Int) (places : Nat) : Octets × Int :=
  if size = 0 then (List.replicate (places + 1) '0', 0)
  else
    let (n, d) := fraction size scale
    let power := leadingPower n d
    let (a, b) := scaled n d 10 (places - power)
    let value := divideRounded a b
    if Nat.pow 10 (places + 1) ≤ value then (digits (places + 1) (value / 10), power + 1)
    else (digits (places + 1) value, power)

def powerText (mark : Char) (power : Int) : Octets :=
  [mark, if power < 0 then '-' else '+'] ++ digits 2 power.natAbs

def scientific (size : Nat) (scale : Int) (places : Nat) (pointed : Bool) : Octets :=
  let (text, power) := scientificDigits size scale places
  text.take 1 ++ (if places = 0 && !pointed then [] else '.' :: text.drop 1) ++ powerText 'e' power

/-- Without zeros at the end of the places, and without a point that is left alone. -/
def stripZeros (text : Octets) : Octets :=
  if text.contains '.' then
    ((text.reverse.dropWhile (· == '0')).dropWhile (· == '.')).reverse
  else text

/-- With so many digits, in the shorter of the two ways. -/
def general (size : Nat) (scale : Int) (count : Nat) (full : Bool) : Octets :=
  let count := max 1 count
  let (_, power) := scientificDigits size scale (count - 1)
  if -4 ≤ power && power < count then
    let text := fixed size scale (count - 1 - power).toNat full
    if full then text else stripZeros text
  else
    let text := scientific size scale (count - 1) full
    if full then text
    else
      let (number, power) := text.span (· != 'e')
      stripZeros number ++ power

def hexDigit (n : Nat) : Char := (Nat.toDigits 16 n).headD '0'

/-- In base sixteen, with so many places or as many as are needed. -/
def hexadecimal (size : Nat) (scale : Int) (places : Option Nat) (pointed : Bool) : Octets :=
  let shift := 53 - bits size
  let power : Int := if size = 0 then 0 else scale + 52 - shift
  let size := size * Nat.pow 2 shift
  let wanted := places.getD 13
  let size := if wanted < 13 then
      divideRounded size (Nat.pow 16 (13 - wanted)) * Nat.pow 16 (13 - wanted) else size
  let first := size / Nat.pow 2 52
  let rest := size % Nat.pow 2 52
  let text := (List.range 13).map fun index => hexDigit (rest / Nat.pow 16 (12 - index) % 16)
  let text := match places with
    | some places => text.take places ++ List.replicate (places - 13) '0'
    | none => (text.reverse.dropWhile (· == '0')).reverse
  "0x".toList ++ [hexDigit first] ++ (if text.isEmpty && !pointed then [] else '.' :: text) ++
    ['p', if power < 0 then '-' else '+'] ++ (toString power.natAbs).toList

end Real

end ShellCompletion.Shell
