import ShellCompletion.Shell.Action
import ShellCompletion.Shell.Arithmetic
import ShellCompletion.Shell.Expansion

/-!
# Conditions

A condition is made of tests of one text or file, comparisons of two, and their connections. It is read
from a list of arguments, in which a word may be an operator or an operand.
-/

namespace ShellCompletion.Shell.Condition

open Text (Octets)
open Kernel

inductive Operator where
  /-- Tests the operand after it. -/
  | unary (name : String)
  /-- Compares the operands around it. -/
  | binary (name : String)
  | negation
  | both
  | either
  | leftParen
  | rightParen
deriving DecidableEq

def unaryNames : List String := [
  "-r", "-w", "-x", "-e", "-f", "-d", "-c", "-b", "-p", "-u", "-g", "-k", "-s", "-t", "-z", "-n", "-h",
  "-L", "-O", "-G", "-S"]

def binaryNames : List String := [
  "=", "!=", "<", ">", "-eq", "-ne", "-ge", "-gt", "-le", "-lt", "-nt", "-ot", "-ef"]

def operator? (word : Octets) : Option Operator :=
  let text := String.ofList word
  if text ∈ unaryNames then some (.unary text)
  else if text ∈ binaryNames then some (.binary text)
  else
    match text with
    | "!" => some .negation
    | "-a" => some .both
    | "-o" => some .either
    | "(" => some .leftParen
    | ")" => some .rightParen
    | _ => none

def isBinary (word : Octets) : Bool :=
  match operator? word with
  | some (.binary _) => true
  | _ => false

/-- What the first of the words is: nothing at the end, an operator, or an operand. -/
inductive Word where
  | none
  | operand
  | operator (operator : Operator)
deriving DecidableEq

/-- A test without an operand, or one before a comparison, is an operand itself. -/
def first (words : List Octets) : Word :=
  match words with
  | [] => .none
  | word :: rest =>
    match operator? word with
    | none => .operand
    | some (.unary name) =>
      match rest with
      | [] => .operand
      | [_] => .operator (.unary name)
      | next :: _ => if isBinary next then .operand else .operator (.unary name)
    | some .leftParen => if rest.isEmpty then .operand else .operator .leftParen
    | some operator => .operator operator

def complain {α : Type} (message : String) : Action α := Action.failText message

/-- The integer that a word stands for. -/
def integer (word : Octets) : Action Int :=
  match Arithmetic.number (some 10) word with
  | .value value => pure value
  | .illegal | .tooLarge => Action.illegalNumber word

def status? (path : Octets) (follows : Bool := true) : Action (Option FileStatus) := do
  match ← Action.call (.status path follows) with
  | .ok status => return some status
  | .error _ => return none

def test (name : String) (word : Octets) : Action Bool := do
  match name with
  | "-z" => return word.isEmpty
  | "-n" => return !word.isEmpty
  | "-t" =>
    let _ ← integer word
    return false
  | "-h" | "-L" => return (← status? word false).any (·.kind == .link)
  | _ =>
    match ← status? word with
    | none => return false
    | some status =>
      match name with
      | "-x" => return status.executable
      | "-f" => return status.kind == .regular
      | "-d" => return status.kind == .directory
      | "-c" => return status.kind == .character
      | "-p" => return status.kind == .pipe
      | "-s" => return status.size != 0
      | "-b" | "-u" | "-g" | "-k" | "-S" => return false
      | _ => return true

def isNewer (a b : Octets) : Action Bool := do
  match ← status? a, ← status? b with
  | some a, some b => return b.modified < a.modified
  | _, _ => return false

def compare (name : String) (a b : Octets) : Action Bool := do
  let numbers (relation : Int → Int → Bool) : Action Bool :=
    return relation (← integer a) (← integer b)
  match name with
  | "=" => return a == b
  | "!=" => return a != b
  | "<" => return a != b && Action.comesBefore a b
  | ">" => return a != b && Action.comesBefore b a
  | "-eq" => numbers (· == ·)
  | "-ne" => numbers (· != ·)
  | "-ge" => numbers fun a b => b ≤ a
  | "-gt" => numbers fun a b => b < a
  | "-le" => numbers fun a b => a ≤ b
  | "-lt" => numbers fun a b => a < b
  | "-nt" => isNewer a b
  | "-ot" => isNewer b a
  | _ =>
    match ← status? a, ← status? b with
    | some a, some b => return a.identity == b.identity
    | _, _ => return false

mutual

/-- Reads conditions of which one must hold. Gives the words from the last one that was used on. -/
def disjunction : Nat → List Octets → Word → Action (Bool × List Octets)
  | 0, _, _ => complain "too deep"
  | fuel + 1, words, word => do
    let (value, words) ← conjunction fuel words word
    if first (words.drop 1) = .operator .either then
      let words := words.drop 2
      let (other, words) ← disjunction fuel words (first words)
      return (value || other, words)
    else return (value, words)

/-- Reads conditions which must all hold. -/
def conjunction : Nat → List Octets → Word → Action (Bool × List Octets)
  | 0, _, _ => complain "too deep"
  | fuel + 1, words, word => do
    let (value, words) ← negation fuel words word
    if first (words.drop 1) = .operator .both then
      let words := words.drop 2
      let (other, words) ← conjunction fuel words (first words)
      return (value && other, words)
    else return (value, words)

def negation : Nat → List Octets → Word → Action (Bool × List Octets)
  | 0, _, _ => complain "too deep"
  | fuel + 1, words, word => do
    if word = .operator .negation then
      let next := first (words.drop 1)
      let (value, words) ← negation fuel (if next = .none then words else words.drop 1) next
      return (!value, words)
    else primary fuel words word

def primary : Nat → List Octets → Word → Action (Bool × List Octets)
  | 0, _, _ => complain "too deep"
  | fuel + 1, words, word => do
    match word with
    | .none => return (false, words)
    | .operator .leftParen =>
      let words := words.drop 1
      if first words = .operator .rightParen then return (false, words)
      let (value, words) ← disjunction fuel words (first words)
      let words := words.drop 1
      if first words ≠ .operator .rightParen then complain "closing paren expected"
      return (value, words)
    | .operator (.unary name) =>
      match words.drop 1 with
      | [] => complain (name ++ ": argument expected")
      | operand :: rest => return (← test name operand, operand :: rest)
    | _ =>
      match words with
      | a :: operator :: rest =>
        match first (operator :: rest) with
        | .operator (.binary name) =>
          match rest with
          | [] => complain (name ++ ": argument expected")
          | b :: rest => return (← compare name a b, b :: rest)
        | _ => return (!a.isEmpty, words)
      | a :: _ => return (!a.isEmpty, words)
      | [] => return (false, [])

end

/-- Reads a condition that begins with a word of the given kind. -/
def whole (words : List Octets) (word : Word) : Action Bool := do
  let (value, rest) ← disjunction (4 * words.length + 8) words word
  match rest with
  | word :: _ :: _ => Action.fail (word ++ Text.encode ": unexpected operator")
  | _ => return value

/-- Whether a condition holds. Of three words, the middle one decides first what they mean. -/
def evaluate (words : List Octets) : Action Bool :=
  match words with
  | [] => pure false
  | word :: rest => do
    let isMiddle := match words with
      | [_, operator, _] => isBinary operator
      | _ => false
    if isMiddle then whole words .operand
    else if words.length = 3 || words.length = 4 then
      if word = ['('] && words.getLast? = some [')'] then
        let inner := rest.dropLast
        whole inner (first inner)
      else if word = ['!'] then return !(← evaluate rest)
      else whole words (first words)
    else whole words (first words)

end ShellCompletion.Shell.Condition
