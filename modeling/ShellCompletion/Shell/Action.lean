import ShellCompletion.Shell.State

/-!
# Actions of a shell

An action works on the state of a shell and may ask the system for something on the way. What comes after
it is given to it, so that a process never has more of itself under way than its next call.
-/

namespace ShellCompletion.Shell

open Text (Octets)
open Kernel

/-- What ends a command before its end. -/
inductive Interrupt where
  | failure
  /-- The shell has come to its end. -/
  | finished
  /-- The script has asked for the end of the shell. -/
  | exit
  /-- Ends the innermost loops, so many of them. -/
  | leave (loops : Nat)
  /-- Ends the innermost loops but one and goes on with that. -/
  | again (loops : Nat)
  /-- Ends the innermost function or script; with a status of its own or with that of the last command. -/
  | returned (hasStatus : Bool)

def Action (α : Type) : Type := State → (Except Interrupt α → State → Program) → Program

namespace Action

variable {α β : Type}

instance : Monad Action where
  pure value := fun state next => next (.ok value) state
  bind action continuation := fun state next =>
    action state fun result state =>
      match result with
      | .ok value => continuation value state next
      | .error interrupt => next (.error interrupt) state

instance : MonadStateOf State Action where
  get := fun state next => next (.ok state) state
  set state := fun _ next => next (.ok ()) state
  modifyGet change := fun state next =>
    let (value, state) := change state
    next (.ok value) state

instance : MonadExceptOf Interrupt Action where
  throw interrupt := fun state next => next (.error interrupt) state
  tryCatch action handler := fun state next =>
    action state fun result state =>
      match result with
      | .ok value => next (.ok value) state
      | .error interrupt => handler interrupt state next

instance : Inhabited (Action α) := ⟨fun state next => next (.error .failure) state⟩

/-- Carries out an action and gives what it came to, even if it was ended. -/
def attempt (action : Action α) : Action (Except Interrupt α) := fun state next =>
  action state fun result state => next (.ok result) state

/-- Goes on with what an attempt came to. -/
def resume : Except Interrupt α → Action α
  | .ok value => pure value
  | .error interrupt => throw interrupt

/-- Carries out `cleaning` at the end of an action, however it ends. -/
def andThen (action : Action α) (cleaning : Action Unit) : Action α := do
  let result ← attempt action
  cleaning
  resume result

def call (call : Call) : Action call.Reply := fun state next =>
  .call call fun reply => next (.ok reply) state

/-- Starts a process that carries out an action and ends; gives its number. -/
def fork (child : Action Unit) : Action Nat := fun state next =>
  .fork (fun _ => child state fun _ state => .exit state.status) fun number =>
    next (.ok number) state

/-- Becomes another program, or gives the reason why not. -/
def exec (path : Octets) (arguments environment : List Octets) : Action Errno := fun state next =>
  .exec path arguments environment fun errno => next (.ok errno) state

def endProcess (status : Nat) : Action α := fun _ _ => .exit status

def crash (signal : Signal) : Action α := do
  let (process, _) ← call .numbers
  let _ ← call (.signal process signal)
  endProcess (128 + signal)

/-- Carries out an action for each item in turn. -/
def forEach {ι : Type} (items : List ι) (action : ι → Action Unit) : Action Unit :=
  match items with
  | [] => pure ()
  | item :: rest => do
    action item
    forEach rest action

def mapEach {ι : Type} (items : List ι) (action : ι → Action α) : Action (List α) :=
  match items with
  | [] => pure []
  | item :: rest => do
    let value ← action item
    return value :: (← mapEach rest action)

/-- Lets time pass, and learns of the signals that have come. -/
def pollSignals : Action Unit := do
  match ← call .tick with
  | [] => return
  | signals => modify fun state => { state with pending := state.pending ++ signals }

/-! ### Output and messages -/

def put (text : Octets) : Action Unit :=
  modify fun state => { state with output := text.reverseAux state.output }

def putLine (text : Octets) : Action Unit := put (text ++ ['\n'])

def putText (text : String) : Action Unit := put (Text.encode text)

/-- Hands on what a builtin has written; false if it cannot be written. -/
def flush : Action Bool := do
  let output := (← get).output
  if output.isEmpty then return true
  modify ({ · with output := [] })
  match ← call (.write 1 output.reverse) with
  | .ok () => return true
  | .error _ => return false

def writeError (text : Octets) : Action Unit := do
  let _ ← call (.write 2 text)

def warn (message : Octets) : Action Unit := do
  let state ← get
  let line := Text.encode (toString state.line)
  let start := state.name ++ ": ".toList ++ line ++ ": ".toList
  let start := match state.builtin with
    | some builtin => start ++ builtin ++ ": ".toList
    | none => start
  writeError (start ++ message ++ ['\n'])

/-- Says what is wrong and ends the script. -/
def fail (message : Octets) (status : Nat := 2) : Action α := do
  modify ({ · with status })
  warn message
  throw .failure

def failText (message : String) (status : Nat := 2) : Action α := fail (Text.encode message) status

def failErrno (what : String) (path : Octets) (reason : String) (status : Nat := 2) : Action α :=
  fail (Text.encode what ++ path ++ Text.encode (": " ++ reason)) status

/-! ### Variables -/

/-- A number in decimal digits, as builtins take it. -/
def number? (text : Octets) : Option Nat :=
  if text.isEmpty || !text.all Char.isDigit then none
  else
    let value := text.foldl (fun n c => n * 10 + (c.toNat - '0'.toNat)) 0
    if value ≤ 2147483647 then some value else none

def illegalNumber (text : Octets) : Action α := fail (Text.encode "Illegal number: " ++ text)

def number (text : Octets) : Action Nat :=
  match number? text with
  | some value => pure value
  | none => illegalNumber text

/-- Gives a variable a value, or takes it from it. With `exported` it is exported from now on. -/
def assign (name : Octets) (value : Option Octets) (exported : Bool := false)
    (readOnly : Bool := false) : Action Unit := do
  if !isName name then fail (name ++ Text.encode ": bad variable name")
  let state ← get
  let old := (state.binding? name).getD {}
  if old.isReadOnly then fail (name ++ Text.encode ": is read only")
  let isExported := old.isExported || exported || (value.isSome && state.has 'a')
  if name = "OPTIND".toList then
    match value with
    | some value =>
      let index ← number value
      modify ({ · with optionIndex := if index = 0 then 1 else index, optionOffset := none })
    | none => pure ()
  modify (·.setBinding name { value, isExported, isReadOnly := readOnly })

def unset (name : Octets) : Action Unit := do
  match (← get).binding? name with
  | none =>
    if !isName name then fail (name ++ Text.encode ": bad variable name")
  | some binding =>
    if binding.isReadOnly then fail (name ++ Text.encode ": is read only")
    modify fun state => { state with bindings := state.bindings.filter (·.1 != name) }

/-- Splits `name=value`. -/
def splitAssignment (text : Octets) : Octets × Option Octets :=
  let (name, rest) := text.span (· != '=')
  (name, if rest.isEmpty then none else some rest.tail)

/-- Has a variable restored when the innermost command that does so ends, and gives it a value if there is
one. -/
def makeLocal (name : Octets) (value : Option Octets) (exported : Bool := false) : Action Unit := do
  let state ← get
  match state.locals with
  | [] => failText "not in a function"
  | saved :: rest =>
    if name = ['-'] then
      modify ({ · with locals := (.options state.options :: saved) :: rest })
    else
      let was := state.binding? name
      modify ({ · with locals := (.binding name was :: saved) :: rest })
      if was.isNone || value.isSome then assign name value exported

/-- Gives back what the innermost commands have made local, down to the last `count` of them. -/
def restoreLocals (count : Nat) : Action Unit := modify fun state =>
  let frames := state.locals.take (state.locals.length - count)
  let state := { state with locals := state.locals.drop (state.locals.length - count) }
  frames.flatten.foldl (fun state entry =>
    match entry with
    | .options options => { state with options }
    | .binding name (some binding) => state.setBinding name binding
    | .binding name none =>
      { state with bindings := state.bindings.filter (·.1 != name) }) state

/-- Carries out an action with variables of its own. They are left when the whole shell comes to its end. -/
def withLocals (action : Action α) : Action α := do
  let count := (← get).locals.length
  modify fun state => { state with locals := [] :: state.locals }
  let result ← attempt action
  match result with
  | .error .failure | .error .finished | .error .exit => resume result
  | _ =>
    restoreLocals count
    resume result

end Action

end ShellCompletion.Shell
