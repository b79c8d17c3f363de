import ShellCompletion.Document.Value
import ShellCompletion.Document.Layout

/-!
# Writing documents

A text is written in the first of the forms that shows it as it is: between double quotes, between single
quotes, and the same two over several lines. If there is none, characters are escaped.
-/

namespace ShellCompletion.Document

/-- An upper-case hexadecimal digit. -/
def hexDigit (value : Nat) : Char :=
  if value < 10 then Char.ofNat ('0'.toNat + value) else Char.ofNat ('A'.toNat + (value - 10))

/-- A character between double quotes on one line. -/
def escape (c : Char) : List Char :=
  match c with
  | '"' => ['\\', '"']
  | '\\' => ['\\', '\\']
  | '\x08' => ['\\', 'b']
  | '\t' => ['\\', 't']
  | '\n' => ['\\', 'n']
  | '\x0c' => ['\\', 'f']
  | '\r' => ['\\', 'r']
  | c =>
    if isPlain c then [c]
    else ['\\', 'u', '0', '0', hexDigit (c.toNat / 16), hexDigit (c.toNat % 16)]

/-- The characters between double quotes over several lines, after `run` double quotes in a row. -/
def escapeLong (run : Nat) : List Char → List Char
  | [] => []
  | c :: rest =>
    if c = '"' then
      if run < 2 then c :: escapeLong (run + 1) rest else escape c ++ escapeLong 0 rest
    else if c = '\n' then c :: escapeLong 0 rest
    else escape c ++ escapeLong 0 rest

/-- The length of the longest row of `mark` in a text that follows on `run` of them. -/
def longestRun (mark : Char) (run : Nat) : List Char → Nat
  | [] => run
  | c :: rest =>
    if c = mark then longestRun mark (run + 1) rest else max run (longestRun mark 0 rest)

inductive TextForm where
  | quoted
  | literal
  | longQuoted
  | longLiteral
deriving DecidableEq, Repr

def TextForm.of (text : List Char) : TextForm :=
  let shown := text.all fun c => isPlain c || c = '\n'
  let oneLine := '\n' ∉ text
  let whole := shown && '\\' ∉ text
  if whole && oneLine && '"' ∉ text then .quoted
  else if shown && oneLine && '\'' ∉ text then .literal
  else if whole && longestRun '"' 0 text ≤ 2 then .longQuoted
  else if shown && longestRun '\'' 0 text ≤ 2 then .longLiteral
  else if oneLine then .quoted
  else .longQuoted

/-- Three quotes, and a newline in front of a text of several lines, which a reader drops. -/
def opening (mark : Char) (text : List Char) : List Char :=
  [mark, mark, mark] ++ if '\n' ∈ text then ['\n'] else []

def TextForm.write (form : TextForm) (text : List Char) : List Char :=
  match form with
  | .quoted => ['"'] ++ text.flatMap escape ++ ['"']
  | .literal => ['\''] ++ text ++ ['\'']
  | .longQuoted => opening '"' text ++ escapeLong 0 text ++ ['"', '"', '"']
  | .longLiteral => opening '\'' text ++ text ++ ['\'', '\'', '\'']

def writeText (text : String) : String :=
  String.ofList ((TextForm.of text.toList).write text.toList)

def writeBoolean (value : Bool) : String := if value then "true" else "false"

def writeEntry (name value : String) : String := name ++ " = " ++ value ++ "\n"

def writeTable (name : String) (entries : List (String × String)) : String :=
  "[" ++ name ++ "]\n" ++ String.join (entries.map fun (name, value) => writeEntry name value)

end ShellCompletion.Document
