import ShellCompletion.Document.Quoted

/-!
# Numbers in documents

Numbers are written with digits that may be grouped by underscores. `integer?` reads a whole number in
one of four bases; `isFloat` recognises the numbers with a fraction or an exponent that a double can
hold.
-/

namespace ShellCompletion.Document

/-- Digits that may be grouped by underscores between them, as the digits alone. -/
def digits? (isDigit : Char → Bool) : List Char → Option (List Char)
  | [] => none
  | [c] => if isDigit c then some [c] else none
  | c :: '_' :: rest => if isDigit c then (digits? isDigit rest).map (c :: ·) else none
  | c :: rest => if isDigit c then (digits? isDigit rest).map (c :: ·) else none

def digitValue (c : Char) : Nat := (hexValue? c).getD 0

/-- The number that digits of a base write. -/
def number (base : Nat) (digits : List Char) : Nat :=
  digits.foldl (fun number digit => number * base + digitValue digit) 0

def natural? (base : Nat) (text : List Char) : Option Nat :=
  (digits? (fun c => (hexValue? c).any (· < base)) text).map (number base)

/-- A decimal number begins with a zero only if it is nothing but a zero. -/
def decimal? : List Char → Option Nat
  | '0' :: _ :: _ => none
  | text => natural? 10 text

def dropSign : List Char → List Char
  | '+' :: rest => rest
  | '-' :: rest => rest
  | text => text

def wholeNumber? : List Char → Option Int
  | '0' :: 'x' :: rest => (natural? 16 rest).map Int.ofNat
  | '0' :: 'o' :: rest => (natural? 8 rest).map Int.ofNat
  | '0' :: 'b' :: rest => (natural? 2 rest).map Int.ofNat
  | '-' :: rest => (decimal? rest).map fun value => -Int.ofNat value
  | text => (decimal? (dropSign text)).map Int.ofNat

/-- A whole number of at most 128 bits. -/
def integer? (text : List Char) : Option Int :=
  (wholeNumber? text).filter fun value => -(Nat.pow 2 127) ≤ value && value < Nat.pow 2 128

/-- The decimal digits at the beginning of a text, with the underscores among them, and the rest. -/
def spanDigits (text : List Char) : List Char × List Char :=
  text.span fun c => c.isDigit || c = '_'

/-- What follows the whole part of a float: the digits of the fraction and the exponent. -/
def floatEnd? (text : List Char) : Option (List Char × Int) :=
  match text with
  | '.' :: rest => do
    let (fraction, rest) := spanDigits rest
    let fraction ← digits? Char.isDigit fraction
    if rest.isEmpty then return (fraction, 0)
    return (fraction, ← exponent? rest)
  | text => (exponent? text).map ([], ·)
where
  exponent? : List Char → Option Int
    | c :: rest =>
      if c = 'e' ∨ c = 'E' then do
        let value ← natural? 10 (dropSign rest)
        return if rest.head? = some '-' then -Int.ofNat value else Int.ofNat value
      else none
    | [] => none

/-- The least number that is rounded beyond the doubles. -/
def doubleBound : Nat := Nat.pow 2 1024 - Nat.pow 2 970

/-- The number `digits · 10 ^ exponent` is not beyond the doubles. -/
def fitsDouble (digits : List Char) (exponent : Int) : Bool :=
  let digits := digits.dropWhile (· = '0')
  let size := digits.length + exponent
  if digits.isEmpty || size < 309 then true
  else if 309 < size then false
  else if 0 ≤ exponent then number 10 digits * Nat.pow 10 exponent.toNat < doubleBound
  else number 10 digits < doubleBound * Nat.pow 10 (-exponent).toNat

def isFloat (text : List Char) : Bool :=
  let text := dropSign text
  if text = ['i', 'n', 'f'] ∨ text = ['n', 'a', 'n'] then true
  else
    let (whole, rest) := spanDigits text
    match decimal? whole, digits? Char.isDigit whole, floatEnd? rest with
    | some _, some whole, some (fraction, exponent) =>
      fitsDouble (whole ++ fraction) (exponent - fraction.length)
    | _, _, _ => false

end ShellCompletion.Document
