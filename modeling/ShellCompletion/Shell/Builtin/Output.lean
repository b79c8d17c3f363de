import ShellCompletion.Shell.Builtin.Basic
import ShellCompletion.Shell.Format

/-!
# Builtins that write
-/

namespace ShellCompletion.Shell.Builtin

open Text (Octets)
open ShellCompletion.Shell.Action

/-- Writes words with blanks between them, until one of them asks for the end of all output. -/
def echoWords (ending : Octets) : List Octets → Action Unit
  | [] => put ending
  | word :: rest => do
    let (text, stops) := Format.unescaped word
    put text
    if stops then return
    if rest.isEmpty then put ending
    else
      put [' ']
      echoWords ending rest

def echo (arguments : List Octets) : Action Nat := do
  match arguments with
  | ['-', 'n'] :: rest => echoWords [] rest
  | words => echoWords ['\n'] words
  return 0

/-! ### Formatted output -/

/-- The arguments of a format that are left, and the status so far. -/
structure Printing where
  arguments : List Octets
  status : Nat := 0
  /-- All output is to end. -/
  stops : Bool := false

def takeArgument (printing : Printing) : Octets × Printing :=
  (printing.arguments.headD [], { printing with arguments := printing.arguments.drop 1 })

/-- Says what is wrong with an argument, if anything is. -/
def report (printing : Printing) (argument : Octets) : Option Format.Flaw → Action Printing
  | none => pure printing
  | some flaw => do
    warn (argument ++ Text.encode (": " ++ flaw.message))
    return { printing with status := 1 }

def takeInteger (signed : Bool) (printing : Printing) : Action (Int × Printing) := do
  let (argument, printing) := takeArgument printing
  let (value, flaw) := Format.integer signed argument
  return (value, ← report printing argument flaw)

/-- An amount that is left to an argument. -/
def takeAmount (isOpen : Bool) (printing : Printing) : Action (Int × Printing) := do
  if isOpen then
    let (value, printing) ← takeInteger true printing
    return (Int.bmod value 4294967296, printing)
  else return (0, printing)

/-- Writes an argument as a directive says. -/
def writeDirective (directive : Format.Directive) (start : Octets) (printing : Printing) :
    Action Printing := do
  match directive.letter with
  | 'b' =>
    let (argument, printing) := takeArgument printing
    let (text, stops) := Format.unescaped argument
    put (directive.formatText text)
    return { printing with stops }
  | 'c' =>
    let (argument, printing) := takeArgument printing
    put (directive.pad [argument.headD '\x00'])
    return printing
  | 's' =>
    let (argument, printing) := takeArgument printing
    put (directive.formatText argument)
    return printing
  | 'd' | 'i' =>
    let (value, printing) ← takeInteger true printing
    put (directive.formatInteger value)
    return printing
  | 'o' | 'u' | 'x' | 'X' =>
    let (value, printing) ← takeInteger false printing
    put (directive.formatNatural value.toNat)
    return printing
  | 'a' | 'A' | 'e' | 'E' | 'f' | 'F' | 'g' | 'G' =>
    let (argument, printing) := takeArgument printing
    let (value, flaw) := Format.real argument
    let printing ← report printing argument flaw
    put (directive.formatReal value)
    return printing
  | letter => fail ('%' :: start ++ letter :: Text.encode ": invalid directive")

def writeFormat : Nat → Octets → Printing → Action Printing
  | 0, _, printing => return printing
  | _, [], printing => return printing
  | fuel + 1, '\\' :: rest, printing => do
    let (c, rest) := Format.escape rest
    put [c]
    writeFormat fuel rest printing
  | fuel + 1, '%' :: '%' :: rest, printing => do
    put ['%']
    writeFormat fuel rest printing
  | fuel + 1, '%' :: rest, printing => do
    let (layout, after) := Format.layout rest
    let (width, printing) ← takeAmount layout.width.isNone printing
    let (precision, printing) ← takeAmount (layout.precision == some none) printing
    match after with
    | [] => failUsage "missing format character"
    | letter :: after =>
      let start := rest.take (rest.length - after.length - 1)
      let printing ←
        writeDirective (Format.directive layout width precision letter) start printing
      if printing.stops then return printing else writeFormat fuel after printing
  | fuel + 1, c :: rest, printing => do
    let (literal, rest) := rest.span fun c => c != '\\' && c != '%'
    put (c :: literal)
    writeFormat fuel rest printing

/-- Writes a format as often as it takes to use up the arguments. -/
def writeFormats (format : Octets) : Nat → Printing → Action Nat
  | 0, printing => return printing.status
  | fuel + 1, printing => do
    let before := printing.arguments.length
    let printing ← writeFormat (format.length + 1) format printing
    if printing.stops || printing.arguments.isEmpty || printing.arguments.length = before then
      return printing.status
    else writeFormats format fuel printing

def printFormat (arguments : List Octets) : Action Nat := do
  match ← operands arguments with
  | [] => failUsage "usage: printf format [arg ...]"
  | format :: arguments => writeFormats format (arguments.length + 1) { arguments }

end ShellCompletion.Shell.Builtin
