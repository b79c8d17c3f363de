import ShellCompletion.Shell.Jobs

/-!
# Builtins

A builtin is a command that the shell carries out itself. An error in a special one ends the script.
-/

namespace ShellCompletion.Shell

open Text (Octets)
open Kernel

structure Builtin where
  name : String
  isSpecial : Bool := false
  /-- Arguments that are assignments are not split. -/
  takesAssignments : Bool := false
  run : List Octets → Action Nat

namespace Builtin

def failUsage {α : Type} (message : String) : Action α := Action.failText message

/-- The options among the arguments, each with its own argument if it has one, and what follows them. An
option whose letter is in `valued` has one. -/
def options (letters valued : List Char) : Nat → List Octets →
    Action (List (Char × Octets) × List Octets)
  | 0, arguments => return ([], arguments)
  | fuel + 1, arguments =>
    match arguments with
    | ['-', '-'] :: rest => return ([], rest)
    | ('-' :: c :: more) :: rest => do
      if valued.contains c then
        match more, rest with
        | [], [] => failUsage ("No arg for -" ++ toString c ++ " option")
        | [], value :: rest =>
          let (found, rest) ← options letters valued fuel rest
          return ((c, value) :: found, rest)
        | value, rest =>
          let (found, rest) ← options letters valued fuel rest
          return ((c, value) :: found, rest)
      else if letters.contains c then
        let rest := if more.isEmpty then rest else ('-' :: more) :: rest
        let (found, rest) ← options letters valued fuel rest
        return ((c, []) :: found, rest)
      else failUsage ("Illegal option -" ++ toString c)
    | arguments => return ([], arguments)

def optionsOf (letters valued : String) (arguments : List Octets) :
    Action (List (Char × Octets) × List Octets) :=
  let size := arguments.foldl (fun size argument => size + argument.length) 0
  options letters.toList valued.toList (size + 1) arguments

/-- The arguments after a mark that ends the options, of which there are none. -/
def operands (arguments : List Octets) : Action (List Octets) := do
  return (← optionsOf "" "" arguments).2

/-- A text between quotation marks, as the shell reads it. -/
def quote (text : Octets) : Octets := quoteParts (text.length + 1) text
where
  quoteParts : Nat → Octets → Octets
    | 0, _ => []
    | fuel + 1, text =>
      let (plain, rest) := text.span (· != '\'')
      let (marks, rest) := rest.span (· == '\'')
      let start := ['\''] ++ plain ++ ['\'']
      if marks.isEmpty then start
      else start ++ ['"'] ++ marks ++ ['"'] ++ (if rest.isEmpty then [] else quoteParts fuel rest)

/-- Repeats an action for each item and keeps the greatest status. -/
def worst {ι : Type} (items : List ι) (action : ι → Action Nat) : Action Nat :=
  match items with
  | [] => pure 0
  | item :: rest => do
    let status ← action item
    return max status (← worst rest action)

end Builtin

end ShellCompletion.Shell
