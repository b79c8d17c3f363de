import ShellCompletion.Shell.Script
import ShellCompletion.Word

/-!
# Arithmetic

Expressions over signed 64-bit integers. An operand that does not count, such as the second of `&&` after
a false first one, is read but not evaluated. `Arithmetic.evaluate` gives the value and the assignments.
-/

namespace ShellCompletion.Shell

open Text (Octets)

namespace Arithmetic

/-- The 64-bit integer with the same low bits. -/
def wrap (value : Int) : Int := Int.bmod value wordBound

def largest : Int := 9223372036854775807

def digitValue (c : Char) : Nat :=
  if c.isDigit then c.toNat - '0'.toNat
  else if c.isLower then c.toNat - 'a'.toNat + 10
  else if c.isUpper then c.toNat - 'A'.toNat + 10
  else 36

def isSpace (c : Char) : Bool := c == ' ' || ('\t' ≤ c && c ≤ '\r')

/-- The digits of a base that a text begins with, as a number, and the text after them. -/
def digits (base : Nat) (text : Octets) : Nat × Octets :=
  let (digits, rest) := text.span fun c => digitValue c < base
  (digits.foldl (fun value c => value * base + digitValue c) 0, rest)

/-- An unsigned constant: hexadecimal after `0x`, octal after a zero, else decimal. -/
def constant (text : Octets) : Nat × Octets :=
  match text with
  | '0' :: x :: c :: rest =>
    if (x == 'x' || x == 'X') && digitValue c < 16 then digits 16 (c :: rest) else digits 8 text
  | '0' :: _ => digits 8 text
  | _ => digits 10 text

inductive Number where
  | value (value : Int)
  | illegal
  /-- No 64-bit integer is that large or small. -/
  | tooLarge

/-- The number that is the whole of a text between blanks. With a fixed `base` it must have a digit. -/
def number (base : Option Nat) (text : Octets) : Number :=
  let start := text.dropWhile isSpace
  let (negative, start) := match start with
    | '-' :: rest => (true, rest)
    | '+' :: rest => (false, rest)
    | rest => (false, rest)
  let hasDigits := match start with
    | c :: _ => c.isDigit
    | [] => false
  if !hasDigits then
    if base.isNone && (text.all isSpace) then .value 0 else .illegal
  else
    let (size, rest) := match base with
      | some base => digits base start
      | none => constant start
    let value : Int := if negative then -(size : Int) else size
    if largest < value || value < -largest - 1 then .tooLarge
    else if rest.all isSpace then .value value
    else .illegal

inductive Token where
  | number (value : Int)
  | name (name : Octets)
  | operator (text : String)
  /-- An operator and an equals sign after it. -/
  | assignment (operator : String)
  | unknown
deriving DecidableEq

def operators : List String := [
  "<<", ">>", "<=", ">=", "==", "!=", "&&", "||", "<", ">", "|", "&", "!", "(", ")", "*", "/", "%", "+",
  "-", "~", "^", "?", ":", "="]

/-- The operators that an equals sign may follow in an assignment. -/
def assigning : List String := ["<<", ">>", "|", "&", "*", "/", "%", "+", "-", "^"]

/-- The first token of a text and the text after it; no token at the end. -/
def token? (text : Octets) : Option Token × Octets :=
  match text.dropWhile (fun c => c == ' ' || c == '\t' || c == '\n') with
  | [] => (none, [])
  | c :: rest =>
    if c.isDigit then
      let (value, rest) := constant (c :: rest)
      (some (.number (min value largest)), rest)
    else if isNameStart c then
      let (name, rest) := (c :: rest).span isNameChar
      (some (.name name), rest)
    else
      match operators.find? fun operator => operator.toList.isPrefixOf (c :: rest) with
      | none => (some .unknown, rest)
      | some operator =>
        let rest := (c :: rest).drop operator.length
        match rest with
        | '=' :: after =>
          if operator ∈ assigning then (some (.assignment operator), after)
          else (some (.operator operator), rest)
        | _ => (some (.operator operator), rest)

inductive Fault where
  | malformed (message : String)
  | illegalNumber (text : Octets)
  /-- The quotient is no 64-bit integer. -/
  | overflow

structure Memory where
  /-- The token that is looked at. -/
  token : Option Token
  rest : Octets
  /-- The assignments so far, the latest first. -/
  assigned : List (Octets × Octets) := []

abbrev Evaluator := StateT Memory (Except Fault)

def advance : Evaluator Unit := modify fun memory =>
  let (token, rest) := token? memory.rest
  { memory with token, rest }

def malformed {α : Type} (message : String) : Evaluator α := throw (.malformed message)

/-- How tightly a binary operator binds; the lowest number binds most tightly. -/
def precedence? : String → Option Nat
  | "*" | "/" | "%" => some 0
  | "+" | "-" => some 1
  | "<<" | ">>" => some 2
  | "<" | "<=" | ">" | ">=" => some 3
  | "==" | "!=" => some 4
  | "&" => some 5
  | "^" => some 6
  | "|" => some 7
  | _ => none

def ofBool (b : Bool) : Int := if b then 1 else 0

def bitwise (operation : Nat → Nat → Nat) (a b : Int) : Int :=
  wrap (operation (a % wordBound).toNat (b % wordBound).toNat)

def quotient (a b : Int) (value : Int) : Evaluator Int :=
  if b = 0 then malformed "division by zero"
  else if b = -1 && a = -largest - 1 then throw .overflow
  else pure value

def binary (operator : String) (a b : Int) : Evaluator Int :=
  match operator with
  | "+" => pure (wrap (a + b))
  | "-" => pure (wrap (a - b))
  | "*" => pure (wrap (a * b))
  | "/" => quotient a b (a.tdiv b)
  | "%" => quotient a b (a.tmod b)
  | "<<" => pure (wrap (a * Nat.pow 2 (b % 64).toNat))
  | ">>" => pure (a.fdiv (Nat.pow 2 (b % 64).toNat))
  | "<" => pure (ofBool (a < b))
  | "<=" => pure (ofBool (a ≤ b))
  | ">" => pure (ofBool (b < a))
  | ">=" => pure (ofBool (b ≤ a))
  | "==" => pure (ofBool (a == b))
  | "!=" => pure (ofBool (a != b))
  | "&" => pure (bitwise Nat.land a b)
  | "^" => pure (bitwise Nat.xor a b)
  | "|" => pure (bitwise Nat.lor a b)
  | _ => malformed "unknown operator"

/-- The value of a variable: no value counts as zero. -/
def lookup (value? : Octets → Option Octets) (name : Octets) : Evaluator Int := do
  let text := match (← get).assigned.lookup name with
    | some text => text
    | none => (value? name).getD []
  match number none text with
  | .value value => return value
  | .illegal | .tooLarge => throw (.illegalNumber text)

def assign (name : Octets) (value : Int) : Evaluator Int := do
  modify fun memory =>
    { memory with assigned := (name, (toString value).toList) :: memory.assigned }
  return value

mutual

/-- Reads an assignment or a choice. With `idle` it is not evaluated. -/
def assignment (value? : Octets → Option Octets) (idle : Bool) : Nat → Evaluator Int
  | 0 => malformed "too deep"
  | fuel + 1 => do
    match (← get).token with
    | some (.name name) =>
      let before ← get
      advance
      match (← get).token with
      | some (.operator "=") =>
        advance
        let value ← assignment value? idle fuel
        if idle then return value else assign name value
      | some (.assignment operator) =>
        advance
        let value ← assignment value? idle fuel
        if idle then return value
        else assign name (← binary operator (← lookup value? name) value)
      | _ =>
        set before
        choice value? idle fuel
    | _ => choice value? idle fuel

def choice (value? : Octets → Option Octets) (idle : Bool) : Nat → Evaluator Int
  | 0 => malformed "too deep"
  | fuel + 1 => do
    let test ← disjunction value? idle fuel
    if (← get).token ≠ some (.operator "?") then return test
    advance
    let yes ← assignment value? (idle || test == 0) fuel
    if (← get).token ≠ some (.operator ":") then malformed "expecting ':'"
    advance
    let no ← choice value? (idle || test != 0) fuel
    return if test ≠ 0 then yes else no

def disjunction (value? : Octets → Option Octets) (idle : Bool) : Nat → Evaluator Int
  | 0 => malformed "too deep"
  | fuel + 1 => do
    let first ← conjunction value? idle fuel
    if (← get).token ≠ some (.operator "||") then return first
    advance
    let second ← disjunction value? (idle || first != 0) fuel
    return ofBool (first != 0 || second != 0)

def conjunction (value? : Octets → Option Octets) (idle : Bool) : Nat → Evaluator Int
  | 0 => malformed "too deep"
  | fuel + 1 => do
    let first ← operations value? idle fuel
    if (← get).token ≠ some (.operator "&&") then return first
    advance
    let second ← conjunction value? (idle || first == 0) fuel
    return ofBool (first != 0 && second != 0)

def operations (value? : Octets → Option Octets) (idle : Bool) : Nat → Evaluator Int
  | 0 => malformed "too deep"
  | fuel + 1 => do operationsAfter value? idle fuel 8 (← operand value? idle fuel)

/-- Reads the operations on `first` whose operators bind more tightly than `bound`. -/
def operationsAfter (value? : Octets → Option Octets) (idle : Bool) :
    Nat → (bound : Nat) → Int → Evaluator Int
  | 0, _, _ => malformed "too deep"
  | fuel + 1, bound, first => do
    match (← get).token with
    | some (.operator operator) =>
      match precedence? operator with
      | some level =>
        if bound ≤ level then return first
        advance
        let second ← operationsAfter value? idle fuel level (← operand value? idle fuel)
        let value ← if idle then pure second else binary operator first second
        operationsAfter value? idle fuel bound value
      | none => return first
    | _ => return first

def operand (value? : Octets → Option Octets) (idle : Bool) : Nat → Evaluator Int
  | 0 => malformed "too deep"
  | fuel + 1 => do
    match (← get).token with
    | some (.number value) =>
      advance
      return value
    | some (.name name) =>
      advance
      if idle then return 0 else lookup value? name
    | some (.operator "(") =>
      advance
      let value ← assignment value? idle fuel
      if (← get).token ≠ some (.operator ")") then malformed "expecting ')'"
      advance
      return value
    | some (.operator "+") =>
      advance
      operand value? idle fuel
    | some (.operator "-") =>
      advance
      return wrap (-(← operand value? idle fuel))
    | some (.operator "!") =>
      advance
      return ofBool ((← operand value? idle fuel) == 0)
    | some (.operator "~") =>
      advance
      return -(← operand value? idle fuel) - 1
    | _ => malformed "expecting primary"

end

def whole (value? : Octets → Option Octets) (fuel : Nat) : Evaluator Int := do
  advance
  let value ← assignment value? false fuel
  if (← get).token.isSome then malformed "expecting EOF"
  return value

def evaluate (value? : Octets → Option Octets) (text : Octets) :
    Except Fault (Int × List (Octets × Octets)) :=
  match (whole value? (16 * text.length + 64)).run { token := none, rest := text } with
  | .ok (value, memory) => .ok (value, memory.assigned.reverse)
  | .error fault => .error fault

end Arithmetic

end ShellCompletion.Shell
