import ShellCompletion.Shell.Arithmetic
import ShellCompletion.Shell.Real

/-!
# Formats

A format is a text with directives, which take arguments one after the other. A directive says how its
argument is written: with which sign, how wide, and with how many digits.
-/

namespace ShellCompletion.Shell.Format

open Text (Octets)

/-! ### Escapes -/

def isOctal (c : Char) : Bool := '0' ≤ c && c ≤ '7'

/-- The octet of at most so many octal digits, and the text after them. -/
def octal : Nat → Nat → Octets → Char × Octets
  | count + 1, value, c :: rest =>
    if isOctal c then octal count (value * 8 + (c.toNat - '0'.toNat)) rest
    else (Char.ofNat (value % 256), c :: rest)
  | _, value, rest => (Char.ofNat (value % 256), rest)

/-- The octet that is written after a backslash, and the text after it. -/
def escape (text : Octets) : Char × Octets :=
  match text with
  | 'a' :: rest => ('\x07', rest)
  | 'b' :: rest => ('\x08', rest)
  | 'e' :: rest => ('\x1b', rest)
  | 'f' :: rest => ('\x0c', rest)
  | 'n' :: rest => ('\n', rest)
  | 'r' :: rest => ('\r', rest)
  | 't' :: rest => ('\t', rest)
  | 'v' :: rest => ('\x0b', rest)
  | '\\' :: rest => ('\\', rest)
  | c :: _ => if isOctal c then octal 3 0 text else ('\\', text)
  | [] => ('\\', [])

/-- The text with its escapes replaced, and whether it asks for the end of all output. -/
def unescape : Nat → Octets → Octets × Bool
  | 0, text => (text, false)
  | _, [] => ([], false)
  | fuel + 1, '\\' :: rest =>
    match rest with
    | 'c' :: _ => ([], true)
    | _ =>
      let rest := match rest with
        | '0' :: c :: after => if isOctal c then c :: after else rest
        | _ => rest
      let (c, rest) := escape rest
      let (text, stops) := unescape fuel rest
      (c :: text, stops)
  | fuel + 1, c :: rest =>
    let (text, stops) := unescape fuel rest
    (c :: text, stops)

def unescaped (text : Octets) : Octets × Bool := unescape (text.length + 1) text

/-! ### Directives -/

structure Directive where
  isLeft : Bool := false
  plus : Bool := false
  space : Bool := false
  zero : Bool := false
  alternate : Bool := false
  width : Nat := 0
  precision : Option Nat := none
  letter : Char

namespace Directive

def pad (directive : Directive) (text : Octets) : Octets :=
  let blanks := List.replicate (directive.width - text.length) ' '
  if directive.isLeft then text ++ blanks else blanks ++ text

/-- Pads a number, with zeros after its sign and mark if it is so directed. -/
def padNumber (directive : Directive) (mayBeZero : Bool) (start digits : Octets) : Octets :=
  if directive.zero && !directive.isLeft && mayBeZero then
    start ++ List.replicate (directive.width - start.length - digits.length) '0' ++ digits
  else directive.pad (start ++ digits)

def sign (directive : Directive) (negative : Bool) : Octets :=
  if negative then ['-'] else if directive.plus then ['+'] else if directive.space then [' '] else []

def formatText (directive : Directive) (text : Octets) : Octets :=
  directive.pad (match directive.precision with
    | some count => text.take count
    | none => text)

/-- At least as many digits as the precision says. -/
def fill (directive : Directive) (digits : Octets) (value : Nat) : Octets :=
  match directive.precision with
  | some 0 => if value = 0 then [] else digits
  | some count => List.replicate (count - digits.length) '0' ++ digits
  | none => digits

def formatInteger (directive : Directive) (value : Int) : Octets :=
  let digits := directive.fill (toString value.natAbs).toList value.natAbs
  directive.padNumber directive.precision.isNone (directive.sign (value < 0)) digits

/-- A number without a sign, in the base of the letter. -/
def formatNatural (directive : Directive) (value : Nat) : Octets :=
  let base := match directive.letter with
    | 'o' => 8
    | 'u' => 10
    | _ => 16
  let digits := directive.fill (Nat.toDigits base value) value
  let digits := if directive.letter = 'o' && directive.alternate && digits.head? != some '0' then
      '0' :: digits else digits
  let start := if directive.alternate && base = 16 && value ≠ 0 then "0x".toList else []
  let upper (text : Octets) : Octets :=
    if directive.letter = 'X' then text.map Char.toUpper else text
  directive.padNumber directive.precision.isNone (upper start) (upper digits)

def formatReal (directive : Directive) (value : Real) : Octets :=
  let lower := directive.letter.toLower
  let isUpper := directive.letter != lower
  let upper (text : Octets) : Octets := if isUpper then text.map Char.toUpper else text
  let sign := directive.sign value.isNegative
  match value with
  | .infinite _ => directive.pad (sign ++ upper "inf".toList)
  | .undefined _ => directive.pad (sign ++ upper "nan".toList)
  | .finite _ size scale =>
    let places := directive.precision.getD 6
    let text := match lower with
      | 'f' => Real.fixed size scale places directive.alternate
      | 'e' => Real.scientific size scale places directive.alternate
      | 'a' => Real.hexadecimal size scale directive.precision directive.alternate
      | _ => Real.general size scale places directive.alternate
    let (start, digits) := if lower = 'a' then (text.take 2, text.drop 2) else ([], text)
    directive.padNumber true (sign ++ upper start) (upper digits)

end Directive

/-- What stands between the percent sign and the letter of a directive. A width or precision may be left
to an argument. -/
structure Layout where
  flags : Octets
  width : Option Octets
  precision : Option (Option Octets)

def isFlag (c : Char) : Bool := c ∈ ['#', '-', '+', ' ', '0']

/-- A number, or a star for the next argument. -/
def amount (text : Octets) : Option Octets × Octets :=
  match text with
  | '*' :: rest => (none, rest)
  | text =>
    let (digits, rest) := text.span fun c => c.isDigit || c == '*'
    (some digits, rest)

def layout (text : Octets) : Layout × Octets :=
  let (flags, rest) := text.span isFlag
  let (width, rest) := amount rest
  match rest with
  | '.' :: rest =>
    let (precision, rest) := amount rest
    ({ flags, width, precision := some precision }, rest)
  | rest => ({ flags, width, precision := none }, rest)

def natural (text : Octets) : Nat :=
  (text.takeWhile Char.isDigit).foldl (fun n c => min 1000000 (n * 10 + (c.toNat - '0'.toNat))) 0

/-- The directive of a layout whose open amounts are known. A negative width stands for a width to the
left; a negative precision for none. -/
def directive (layout : Layout) (width precision : Int) (letter : Char) : Directive :=
  let width : Int := match layout.width with
    | some digits => natural digits
    | none => width
  { isLeft := layout.flags.contains '-' || width < 0
    plus := layout.flags.contains '+'
    space := layout.flags.contains ' '
    zero := layout.flags.contains '0'
    alternate := layout.flags.contains '#'
    width := min 1000000 width.natAbs
    precision := match layout.precision with
      | none => none
      | some (some digits) => some (natural digits)
      | some none => if precision < 0 then none else some precision.toNat
    letter }

/-! ### Arguments -/

inductive Flaw where
  | notNumeric
  | notWhole
  | outOfRange
deriving DecidableEq

def Flaw.message : Flaw → String
  | notNumeric => "expected numeric value"
  | notWhole => "not completely converted"
  | outOfRange => "Numerical result out of range"

/-- The code of the character after a quotation mark. -/
def quotedCode? : Octets → Option Nat
  | '\'' :: rest | '"' :: rest => some ((rest.head?.map Char.toNat).getD 0)
  | _ => none

/-- An integer argument. Without a sign, a negative number stands for one that is so much less than the
number of machine words. -/
def integer (signed : Bool) (text : Octets) : Int × Option Flaw :=
  match quotedCode? text with
  | some code => (code, none)
  | none =>
    let start := text.dropWhile Arithmetic.isSpace
    let (negative, start) := match start with
      | '-' :: rest => (true, rest)
      | '+' :: rest => (false, rest)
      | rest => (false, rest)
    if !(start.head?.any Char.isDigit) then (0, if text.isEmpty then none else some .notNumeric)
    else
      let (size, rest) := Arithmetic.constant start
      let least : Int := if signed then -Arithmetic.largest - 1 else -(wordBound : Int) + 1
      let greatest : Int := if signed then Arithmetic.largest else wordBound - 1
      let value : Int := if negative then -(size : Int) else size
      let flaw : Option Flaw :=
        if !rest.isEmpty then some .notWhole
        else if value < least || greatest < value then some .outOfRange
        else none
      let value := if greatest < value then greatest
        else if value < least then (if signed then least else greatest)
        else value
      (if !signed && value < 0 then value + wordBound else value, flaw)

def real (text : Octets) : Real × Option Flaw :=
  match quotedCode? text with
  | some code => (.finite false code 0, none)
  | none =>
    match Real.read text with
    | none => (.finite false 0 0, if text.isEmpty then none else some .notNumeric)
    | some (value, rest) =>
      let flaw : Option Flaw :=
        if !rest.isEmpty then some .notWhole
        else
          match value with
          | .infinite _ => if text.any fun c => c == 'n' || c == 'N' then none else some .outOfRange
          | _ => none
      (value, flaw)

end ShellCompletion.Shell.Format
