import ShellCompletion.Shell.Builtin.Basic

/-!
# Builtins for the names of commands
-/

namespace ShellCompletion.Shell.Builtin

open Text (Octets)
open Kernel ShellCompletion.Shell.Action

def known : List (String × Bool) := [
  (".", true), (":", true), ("[", false), ("alias", false), ("bg", false), ("break", true),
  ("cd", false), ("chdir", false), ("command", false), ("continue", true), ("echo", false),
  ("eval", true), ("exec", true), ("exit", true), ("export", true), ("false", false), ("fg", false),
  ("getopts", false), ("hash", false), ("jobs", false), ("kill", false), ("local", true),
  ("printf", false), ("pwd", false), ("read", false), ("readonly", true), ("return", true),
  ("set", true), ("shift", true), ("test", false), ("times", true), ("trap", true), ("true", false),
  ("type", false), ("ulimit", false), ("umask", false), ("unalias", false), ("unset", true),
  ("wait", false)]

/-- Where programs are looked for when the script has not said where. -/
def standardPath : Octets :=
  "/usr/local/sbin:/usr/local/bin:/usr/sbin:/usr/bin:/sbin:/bin".toList

def searchPath : Action Octets := do
  return ((← get).value? "PATH".toList).getD []

/-- Where a command may be, in the order of the search path. -/
def candidates (path name : Octets) : List Octets :=
  (path.splitOn ':').map fun directory =>
    if directory.isEmpty then name else directory ++ '/' :: name

/-- The first of the candidates that is a program, with those after it, or why there is none. -/
def findProgram : List Octets → Errno → Action (Except Errno (List Octets))
  | [], errno => return .error errno
  | candidate :: rest, errno => do
    match ← call (.status candidate true) with
    | .error found =>
      findProgram rest (if found = .noEntry || found = .notDirectory then errno else found)
    | .ok status =>
      if status.kind = .regular && status.executable then return .ok (candidate :: rest)
      else findProgram rest .denied

def execReason (errno : Errno) : String :=
  match errno with
  | .noEntry | .notDirectory => "not found"
  | errno => errno.message

def showAlias (name value : Octets) : Action Unit := putLine (name ++ '=' :: quote value)

/-- The path of a program, if there is one. -/
def programOf? (path name : Octets) : Action (Option Octets) := do
  if name.contains '/' then
    match ← call (.status name true) with
    | .ok _ => return some name
    | .error _ => return none
  else
    match ← findProgram (candidates path name) .noEntry with
    | .ok found => return found.head?
    | .error _ => return none

/-- Notes that a command has been found in the search path. -/
def noteFound (name : Octets) : Action Unit := modify fun state =>
  if state.found.contains name then state else { state with found := name :: state.found }

/-- Says what a command is, in full or by what would be carried out. -/
def describe (path? : Option Octets) (isFull : Bool) (name : Octets) : Action Nat := do
  let state ← get
  let text := String.ofList name
  let say (full : String) : Action Nat := do
    putLine (if isFull then name ++ Text.encode full else name)
    return 0
  if text ∈ reservedWords then say " is a shell keyword"
  else
    match state.aliases.lookup name with
    | some value =>
      if isFull then putLine (name ++ Text.encode " is an alias for " ++ value)
      else
        putText "alias "
        showAlias name value
      return 0
    | none =>
      if (state.function? name).isSome then say " is a shell function"
      else
        match known.lookup text with
        | some isSpecial => say (if isSpecial then " is a special shell builtin" else " is a shell builtin")
        | none =>
          let searched := (state.value? "PATH".toList).getD []
          match ← programOf? (path?.getD searched) name with
          | some program =>
            let isTracked := path?.isNone && state.found.contains name
            if path?.isNone && !name.contains '/' then noteFound name
            if isFull then
              putLine (name ++
                Text.encode (if isTracked then " is a tracked alias for " else " is ") ++ program)
            else putLine program
            return 0
          | none =>
            if isFull then putLine (name ++ Text.encode ": not found")
            return 127

def typeNames (arguments : List Octets) : Action Nat := worst arguments (describe none true)

/-- Describes a command as the options of `command` say. -/
def describeCommand (arguments : List Octets) : Action Nat := do
  let (found, names) ← optionsOf "pvV" "" arguments
  match names with
  | [] => return 0
  | name :: _ =>
    let path? := if found.any (·.1 == 'p') then some standardPath else none
    match (found.filter fun entry => entry.1 != 'p').getLast? with
    | some ('V', _) => describe path? true name
    | some _ => describe path? false name
    | none => return 0

/-! ### Aliases -/

def aliasRank (name : Octets) : Nat :=
  let first := (name.headD '\x00').toNat
  name.foldl (fun sum c => sum + c.toNat) (first * 16) % 39

def setAlias (name value : Octets) : Action Unit := modify fun state =>
  { state with aliases :=
      if state.aliases.any (·.1 == name) then
        state.aliases.map fun entry => if entry.1 == name then (name, value) else entry
      else state.aliases ++ [(name, value)] }

def defineAliases (arguments : List Octets) : Action Nat := do
  match arguments with
  | [] =>
    let aliases := (← get).aliases.mergeSort fun a b => aliasRank a.1 ≤ aliasRank b.1
    forEach aliases fun (name, value) => showAlias name value
    return 0
  | _ =>
    worst arguments fun word => do
      match splitAssignment word with
      | (name, some value) =>
        setAlias name value
        return 0
      | (name, none) =>
        match (← get).aliases.lookup name with
        | some value =>
          showAlias name value
          return 0
        | none =>
          writeError (Text.encode "alias: " ++ name ++ Text.encode " not found\n")
          return 1

def removeAliases (arguments : List Octets) : Action Nat := do
  let (found, names) ← optionsOf "a" "" arguments
  if !found.isEmpty then
    modify ({ · with aliases := [] })
    return 0
  else
    worst names fun name => do
      let state ← get
      if state.aliases.any (·.1 == name) then
        set { state with aliases := state.aliases.filter (·.1 != name) }
        return 0
      else
        writeError (Text.encode "unalias: " ++ name ++ Text.encode " not found\n")
        return 1

def hashNames (arguments : List Octets) : Action Nat := do
  let (found, names) ← optionsOf "r" "" arguments
  if !found.isEmpty then
    modify ({ · with found := [] })
    return 0
  else
    let path ← searchPath
    match names with
    | [] =>
      forEach (← get).found fun name => do
        match ← programOf? path name with
        | some program => putLine program
        | none => pure ()
      return 0
    | _ =>
      worst names fun name => do
        let isKnown := ((← get).function? name).isSome || (known.lookup (String.ofList name)).isSome
        if isKnown || name.contains '/' then return 0
        else
          match ← findProgram (candidates path name) .noEntry with
          | .ok _ =>
            noteFound name
            return 0
          | .error errno =>
            warn (name ++ Text.encode (": " ++ execReason errno))
            return 1

end ShellCompletion.Shell.Builtin
