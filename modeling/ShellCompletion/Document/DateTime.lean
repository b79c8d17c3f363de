import ShellCompletion.Document.Number

/-!
# Date-times in documents

A date, a time of day, or both with a `T` or a blank between them; both together may have an offset.
-/

namespace ShellCompletion.Document.DateTime

/-- The number that two digits write, if it is not above `limit`. -/
def twoDigits? (limit : Nat) (a b : Char) : Option Nat :=
  if a.isDigit && b.isDigit then some (number 10 [a, b]) |>.filter (· ≤ limit) else none

def isLeap (year : Nat) : Bool := year % 4 = 0 && (year % 100 ≠ 0 || year % 400 = 0)

def daysIn (year month : Nat) : Nat :=
  if month = 2 then if isLeap year then 29 else 28
  else if month ∈ [4, 6, 9, 11] then 30
  else 31

/-- The text after a date. -/
def date? : List Char → Option (List Char)
  | a :: b :: c :: d :: '-' :: m :: n :: '-' :: x :: y :: rest => do
    let year := number 10 [a, b, c, d]
    let month ← twoDigits? 12 m n
    let day ← twoDigits? (daysIn year month) x y
    if [a, b, c, d].all Char.isDigit && 0 < month && 0 < day then some rest else none
  | _ => none

/-- The text after a fraction of a second, if there is one. -/
def fraction? : List Char → Option (List Char)
  | '.' :: c :: rest => if c.isDigit then some (rest.dropWhile Char.isDigit) else none
  | '.' :: [] => none
  | text => some text

/-- The text after a time of day, whose seconds may be left out. -/
def time? : List Char → Option (List Char)
  | a :: b :: ':' :: c :: d :: rest => do
    let _ ← twoDigits? 23 a b
    let _ ← twoDigits? 59 c d
    match rest with
    | ':' :: e :: f :: rest => do
      let _ ← twoDigits? 60 e f
      fraction? rest
    | rest => some rest
  | _ => none

def isOffset : List Char → Bool
  | [] => true
  | [c] => c = 'Z' || c = 'z'
  | [sign, a, b, ':', c, d] =>
    (sign = '+' || sign = '-') && (twoDigits? 23 a b).isSome && (twoDigits? 59 c d).isSome
  | _ => false

def isDate (text : List Char) : Bool := date? text == some []

def isDateTime (text : List Char) : Bool :=
  match date? text with
  | some [] => true
  | some (c :: rest) => (c = 'T' || c = 't' || c = ' ') && (time? rest).any isOffset
  | none => time? text == some []

end ShellCompletion.Document.DateTime
