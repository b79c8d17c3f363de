import ShellCompletion.Shell.Expansion

/-!
# Redirections

A redirection opens a file, a document or another descriptor under a number. What was open under that
number is kept elsewhere until the command is over.
-/

namespace ShellCompletion.Shell

open Text (Octets)
open Kernel

/-- A redirection whose words are expanded. -/
inductive Opened where
  | file (use : FileUse) (path : Octets)
  | descriptor (number : Option Nat)
  | document (index : Nat) (expands : Bool)

namespace Action

/-- Why a file cannot be opened. -/
def openReason (errno : Errno) (creates : Bool) : String :=
  match errno with
  | .noEntry | .notDirectory => if creates then "Directory nonexistent" else "No such file"
  | errno => errno.message

def expandRedirection (substitute : Command → Action Octets) : Redirection → Action (Nat × Opened)
  | .redirect number target =>
    match target with
    | .file use path => return (number, .file use (← text substitute path))
    | .descriptor other => return (number, .descriptor other)
    | .document index expands => return (number, .document index expands)
    | .expanded _ word => do
      match ← fields substitute word with
      | [c] :: _ =>
        if c.isDigit then return (number, .descriptor (some (c.toNat - '0'.toNat)))
        else if c = '-' then return (number, .descriptor none)
        else failText "Syntax error: Bad fd number"
      | _ => failText "Syntax error: Bad fd number"

def openFailed {α : Type} (path : Octets) (errno : Errno) (creates : Bool) : Action α :=
  failErrno (if creates then "cannot create " else "cannot open ") path (openReason errno creates)

def openOutput (path : Octets) : Action (Except Errno Nat) :=
  call (.openFile path { writes := true, creates := true, truncates := true })

/-- Opens a file for output that must not overwrite a file. -/
def openNew (path : Octets) : Action (Except Errno Nat) := do
  match ← call (.status path true) with
  | .error _ => call (.openFile path { writes := true, creates := true, exclusive := true })
  | .ok status =>
    if status.kind = .regular then return .error .fileExists
    else call (.openFile path { writes := true })

def openFile (use : FileUse) (path : Octets) : Action Nat := do
  let (result, creates) ←
    match use with
    | .input => pure (← call (.openFile path { reads := true }), false)
    | .both => pure (← call (.openFile path { reads := true, writes := true, creates := true }), true)
    | .appended =>
      pure (← call (.openFile path { writes := true, creates := true, appends := true }), true)
    | .forcedOutput => pure (← openOutput path, true)
    | .output => pure (← (if (← get).has 'C' then openNew path else openOutput path), true)
  match result with
  | .ok number => return number
  | .error errno => openFailed path errno creates

def openDocument (substitute : Command → Action Octets) (index : Nat) (expands : Bool) : Action Nat := do
  let word := ((← get).documents.lookup index).getD []
  let text ← if expands then documentText substitute word
    else pure (word.filterMap fun piece =>
      match piece with
      | .char c _ => some c
      | _ => none)
  let (source, sink) ← call .pipe
  if !text.isEmpty then
    let _ ← call (.write sink text)
  let _ ← call (.close sink)
  return source

/-- The least descriptor for what is kept. -/
def keptFrom : Nat := 10

/-- Keeps what is open under a number, to be opened again later. -/
def keep (number : Nat) : Action Unit := do
  let state ← get
  match state.kept with
  | [] => return
  | frame :: frames =>
    if frame.any (·.1 == number) then return
    let copy ← call (.duplicate number keptFrom true)
    match copy with
    | .ok copy =>
      let _ ← call (.close number)
      set { state with kept := ((number, some copy) :: frame) :: frames }
    | .error _ => set { state with kept := ((number, none) :: frame) :: frames }

/-- The number is closed at the end, as nothing was open under it. -/
def keepClosed (number : Nat) : Action Unit := modify fun state =>
  match state.kept with
  | frame :: frames =>
    if frame.any (·.1 == number) then state
    else { state with kept := ((number, none) :: frame) :: frames }
  | [] => state

def badDescriptor {α : Type} (number : Nat) (errno : Errno) : Action α :=
  fail (State.decimal number ++ Text.encode (": " ++ errno.message))

def redirect (substitute : Command → Action Octets) (number : Nat) : Opened → Action Unit
  | .descriptor none => do
    keep number
    let _ ← call (.close number)
  | .descriptor (some other) => do
    if other = number then return
    keep number
    match ← call (.duplicateTo other number) with
    | .ok () => return
    | .error errno => badDescriptor other errno
  | .file use path => do place (← openFile use path)
  | .document index expands => do place (← openDocument substitute index expands)
where
  /-- Moves an open file to the number. -/
  place (opened : Nat) : Action Unit := do
    if opened = number then keepClosed number
    else
      keep number
      let _ ← call (.duplicateTo opened number)
      let _ ← call (.close opened)

/-- Opens again what was kept; with `forGood` it is given up instead. -/
def restore (forGood : Bool) : Action Unit := do
  let state ← get
  match state.kept with
  | [] => return
  | frame :: frames =>
    set { state with kept := frames }
    forEach frame fun (number, copy) => do
      match copy with
      | some copy =>
        if !forGood then
          let _ ← call (.duplicateTo copy number)
        let _ ← call (.close copy)
      | none =>
        if !forGood then
          let _ ← call (.close number)

/-- Carries out redirections that are to be undone; false if one of them fails. -/
def redirectSafely (substitute : Command → Action Octets) (openings : List (Nat × Opened)) :
    Action Bool := do
  match ← attempt (forEach openings fun (number, opening) => redirect substitute number opening) with
  | .ok () => return true
  | .error .failure => return false
  | .error interrupt => throw interrupt

/-- Carries out an action under redirections; gives nothing if one of them fails. With `forGood` they stay
when the action is over. -/
def redirected {α : Type} (substitute : Command → Action Octets) (redirections : List Redirection)
    (forGood : Bool) (action : Action α) : Action (Option α) := do
  if redirections.isEmpty then return some (← action)
  else
    let openings ← mapEach redirections (expandRedirection substitute)
    modify fun state => { state with kept := [] :: state.kept }
    andThen (do if ← redirectSafely substitute openings then return some (← action) else return none)
      (restore forGood)

end Action

end ShellCompletion.Shell
