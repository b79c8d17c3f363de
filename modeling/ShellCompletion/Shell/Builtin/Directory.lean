import ShellCompletion.Shell.Builtin.Basic
import ShellCompletion.Shell.Condition
import ShellCompletion.Shell.Format

/-!
# Builtins for directories and files
-/

namespace ShellCompletion.Shell.Builtin

open Text (Octets)
open Kernel ShellCompletion.Shell.Action

/-- The names along a path; a name of two dots takes back the one before it. -/
def steps (start : List Octets) (path : Octets) : List Octets :=
  (path.splitOn '/').foldl (fun names name =>
    if name.isEmpty || name == ['.'] then names
    else if name == ['.', '.'] then names.dropLast
    else names ++ [name]) start

/-- A path begins with exactly two slashes, which mean something of their own. -/
def isDouble (path : Octets) : Bool := path.take 2 == ['/', '/'] && (path.drop 2).head? != some '/'

/-- The path of the directory that a path leads to from the current one, as it is spelled. -/
def spelled (current path : Octets) : Octets :=
  let isAbsolute := path.head? == some '/'
  let root := if isDouble (if isAbsolute then path else current) then ['/', '/'] else ['/']
  let names := steps (if isAbsolute then [] else steps [] current) path
  root ++ ['/'].intercalate names

/-- Notes the directory that the shell is in. -/
def setDirectory (path : Option Octets) (keepsOld : Bool) : Action Unit := do
  let old := (← get).directory
  if keepsOld then assign "OLDPWD".toList (some old) true
  let physical ← call .directory
  let path := path.getD physical
  modify ({ · with directory := path, physical })
  assign "PWD".toList (some path) true

/-- The last of the two options says whether links are followed. -/
def isPhysical (found : List (Char × Octets)) : Bool := found.getLast?.any (·.1 == 'P')

/-- Goes to a directory; false if that is not possible. -/
def goTo (physical : Bool) (path : Octets) : Action Bool := do
  let current := (← get).directory
  let target := if physical then none else some (spelled current path)
  match ← call (.enter (target.getD path)) with
  | .ok () =>
    setDirectory target true
    return true
  | .error _ => return false

/-- The path is taken as it is, and not looked for elsewhere. -/
def isAnchored (path : Octets) : Bool :=
  path.head? == some '/' || ((path.splitOn '/').headD [] ∈ [['.'], ['.', '.']])

/-- The first directory of the search path for directories that has the one that is asked for, and
whether it is to be shown. -/
def searched (path : Octets) : List Octets → Action (Option (Octets × Bool))
  | [] => return none
  | directory :: rest => do
    let candidate := if directory.isEmpty then path else directory ++ '/' :: path
    match ← call (.status candidate true) with
    | .ok status =>
      if status.kind = .directory then return some (candidate, !directory.isEmpty)
      else searched path rest
    | .error _ => searched path rest

def changeDirectory (arguments : List Octets) : Action Nat := do
  let (found, arguments) ← optionsOf "LP" "" arguments
  let state ← get
  let (path, shows) :=
    match arguments with
    | [] => ((state.value? "HOME".toList).getD [], false)
    | ['-'] :: _ => ((state.value? "OLDPWD".toList).getD [], true)
    | path :: _ => (path, false)
  let search := state.value? "CDPATH".toList
  let (path, target, shows) ←
    if isAnchored path then pure (path, path, shows)
    else do
      let path := if path.isEmpty then ['.'] else path
      match search with
      | none => pure (path, path, shows)
      | some search =>
        match ← searched path (search.splitOn ':') with
        | some (target, isShown) => pure (path, target, shows || isShown)
        | none => pure (path, path, shows)
  if ← goTo (isPhysical found) target then
    if shows then putLine (← get).directory
    return 0
  else fail (Text.encode "can't cd to " ++ path)

def showDirectory (arguments : List Octets) : Action Nat := do
  let (found, _) ← optionsOf "LP" "" arguments
  let state ← get
  putLine (if isPhysical found then state.physical else state.directory)
  return 0

/-! ### Permissions of new files -/

def octalText (value : Nat) : Octets :=
  let digits := Nat.toDigits 8 value
  List.replicate (4 - digits.length) '0' ++ digits

/-- What a mask leaves to the owner, the group and the others. -/
def symbolicText (mask : Nat) : Octets :=
  let letters (shift : Nat) : String :=
    let allowed := 7 - mask / Nat.pow 8 shift % 8
    (if allowed / 4 % 2 = 1 then "r" else "") ++ (if allowed / 2 % 2 = 1 then "w" else "") ++
      (if allowed % 2 = 1 then "x" else "")
  Text.encode ("u=" ++ letters 2 ++ ",g=" ++ letters 1 ++ ",o=" ++ letters 0)

/-- The permissions that letters stand for; one that stands for a class of users gives what that class has
had. -/
def permissions? (allowed : Nat) : Octets → Option Nat
  | [] => some 0
  | letter :: rest => do
    let others ← permissions? allowed rest
    let own ← match letter with
      | 'r' => some 4
      | 'w' => some 2
      | 'x' | 'X' => some 1
      | 's' => some 0
      | 'u' => some (allowed / 64 % 8)
      | 'g' => some (allowed / 8 % 8)
      | 'o' => some (allowed % 8)
      | _ => none
    return own ||| others

/-- The permissions after changes, each of them a sign and letters, to those of the classes in `mask`. At
the start they were `before`. -/
def changed? (before mask : Nat) : Nat → Octets → Nat → Option Nat
  | 0, _, _ => none
  | _, [], allowed => some allowed
  | fuel + 1, sign :: rest, allowed => do
    let (letters, rest) := rest.span fun c => c != '+' && c != '-' && c != '='
    let named ← permissions? before letters
    let named := (named * 64 + named * 8 + named) &&& mask
    let kept := allowed - (allowed &&& (if sign == '=' then mask else named))
    changed? before mask fuel rest (if sign == '-' then kept else kept ||| named)

/-- The permissions after one of the changes that a symbolic mode lists. -/
def afterClause? (before allowed : Nat) (clause : Octets) : Option Nat :=
  let (users, changes) := clause.span fun c => c ∈ ['u', 'g', 'o', 'a']
  let masks := (if users.isEmpty then ['a'] else users).map fun user =>
    match user with
    | 'u' => 448
    | 'g' => 56
    | 'o' => 7
    | _ => 511
  match changes with
  | [] => none
  | sign :: _ =>
    if sign ∈ ['+', '-', '='] then
      changed? before (masks.foldl (· ||| ·) 0) (changes.length + 1) changes allowed
    else none

def afterMode? (allowed : Nat) (mode : Octets) : Option Nat :=
  let clauses := mode.splitOn ','
  let clauses := if clauses.getLast? == some [] then clauses.dropLast else clauses
  clauses.foldlM (afterClause? allowed) allowed

def changeMask (arguments : List Octets) : Action Nat := do
  let (found, arguments) ← optionsOf "S" "" arguments
  let mask ← call (.mask none)
  match arguments with
  | [] =>
    putLine (if found.isEmpty then octalText mask else symbolicText mask)
    return 0
  | argument :: _ =>
    let new ←
      if argument.head?.any Char.isDigit then
        if argument.all Format.isOctal then
          pure (argument.foldl (fun n c => n * 8 + (c.toNat - '0'.toNat)) 0 % 512)
        else illegalNumber argument
      else
        match afterMode? (511 - mask) argument with
        | some allowed => pure (511 - allowed)
        | none => fail (Text.encode "Illegal mode: " ++ argument)
    let _ ← call (.mask (some new))
    return 0

/-! ### Conditions -/

def testCondition (arguments : List Octets) : Action Nat := do
  return if ← Condition.evaluate arguments then 0 else 1

def testBracketed (arguments : List Octets) : Action Nat := do
  if arguments.getLast? = some [']'] then testCondition arguments.dropLast
  else failUsage "missing ]"

end ShellCompletion.Shell.Builtin
