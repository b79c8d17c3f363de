import ShellCompletion.Shell.Action
import ShellCompletion.Shell.Arithmetic
import ShellCompletion.Shell.Fields

/-!
# Expansion

The pieces of a word become cells: parameters, the output of commands and expressions are put in. The
cells of an argument are split into fields, and a field that is a pattern becomes the names of the files
that it fits.
-/

namespace ShellCompletion.Shell

open Text (Octets)
open Kernel

/-- How a word is expanded. -/
structure Expanding where
  /-- The result is split into fields. -/
  splits : Bool := false
  /-- A tilde at the start stands for a home directory. -/
  tilde : Bool := false
  /-- So does one after a colon, or after the first equals sign. -/
  inAssignment : Bool := false
  quoted : Bool := false
  /-- The word stands in for a value, so that it is split like one. -/
  standsIn : Bool := false

namespace Action

/-- A number for an area that its neighbours do not have. -/
def freshArea : Action Nat := modifyGet fun state =>
  (state.nextArea, { state with nextArea := state.nextArea + 1 })

/-- The home directories of the users that every system has. -/
def homes : List (String × String) := [
  ("root", "/root"), ("daemon", "/usr/sbin"), ("bin", "/bin"), ("sys", "/dev"), ("sync", "/bin"),
  ("games", "/usr/games"), ("man", "/var/cache/man"), ("lp", "/var/spool/lpd"), ("mail", "/var/mail"),
  ("news", "/var/spool/news"), ("uucp", "/var/spool/uucp"), ("proxy", "/bin"),
  ("www-data", "/var/www"), ("backup", "/var/backups"), ("list", "/var/list"), ("nobody", "/nonexistent")]

def home? (state : State) (user : Octets) : Option Octets :=
  if user.isEmpty then state.value? "HOME".toList
  else (homes.lookup (String.ofList user)).map Text.encode

/-- The name of the user after a tilde. -/
def tildeName? (inAssignment : Bool) : List Piece → Option Octets
  | [] => some []
  | .char c false :: rest =>
    if c == '/' || (c == ':' && inAssignment) then some []
    else (tildeName? inAssignment rest).map (c :: ·)
  | _ => none

/-- The home directory that pieces begin with, and the pieces after it. -/
def tilde? (state : State) (inAssignment : Bool) (pieces : List Piece) :
    Option (List Cell × List Piece) :=
  match pieces with
  | .char '~' false :: rest => do
    let name ← tildeName? inAssignment rest
    let home ← home? state name
    return (home.map fun c => .char c true .fixed, rest.drop name.length)
  | _ => none

/-- The texts that a parameter stands for: several of them for all arguments, none if it is not set. -/
def parameter? (state : State) (name : Octets) : Option (List Octets) :=
  match name with
  | ['@'] | ['*'] => some state.arguments
  | ['#'] => some [State.decimal state.arguments.length]
  | ['?'] => some [State.decimal state.status]
  | ['$'] => some [State.decimal state.process]
  | ['!'] => state.lastBackground.map fun process => [State.decimal process]
  | ['-'] => some [optionLetters.filter state.has]
  | c :: _ =>
    if c.isDigit then
      match number? name with
      | some 0 => some [state.name]
      | some index => state.arguments[index - 1]?.map ([·])
      | none => none
    else (state.value? name).map ([·])
  | [] => none
where
  /-- The letters of the options in the order in which they are shown. -/
  optionLetters : List Char := "pubaCEVvxsnmiIfe".toList

/-- The character between the arguments where they are one text. -/
def joint (state : State) : Octets :=
  match state.value? "IFS".toList with
  | none => [' ']
  | some separators => separators.take 1

/-- All arguments as one text. -/
def joined (state : State) (texts : List Octets) : Octets := (joint state).intercalate texts

/-- What stands between the arguments in a word. -/
def between (state : State) (expanding : Expanding) (quoted : Bool) (name : Octets) : Octets :=
  if expanding.splits && (!quoted || name == ['@']) then
    if !quoted && (state.value? "IFS".toList).isNone then [' '] else ['\x00']
  else joint state

/-- Puts a value into a word. All arguments, quoted and each on its own, are there even if they are
empty. -/
def valueCells (expanding : Expanding) (quoted : Bool) (name : Octets) (texts : List Octets) :
    Action (List Cell) := do
  let state ← get
  let text := (between state expanding quoted name).intercalate texts
  let isList := quoted && name == ['@'] && !state.arguments.isEmpty
  if text.isEmpty then return if isList then [.mark] else []
  let area ←
    if isList then pure (Area.breaks (← freshArea))
    else if quoted then pure Area.fixed
    else pure (Area.splits (← freshArea))
  return text.map fun c => .char c (quoted && c != '\x00') area

def numberCells (quoted : Bool) (value : Int) : Action (List Cell) := do
  let area ← if quoted then pure Area.fixed else pure (Area.splits (← freshArea))
  return (State.decimal value).map fun c => .char c false area

def unsetMessage (name : Octets) (orEmpty : Bool) : Octets :=
  name ++ Text.encode (": parameter not set" ++ if orEmpty then " or null" else "")

/-- Pieces up to the next one that is no plain character. -/
def literalRun (inAssignment : Bool) (pieces : List Piece) : List Piece × List Piece :=
  pieces.span fun piece =>
    match piece with
    | .char c escaped => !escaped && !(inAssignment && (c == ':' || c == '='))
    | _ => false

/-- The text without newlines at its end and without octets of value zero. -/
def outputText (text : Octets) : Octets :=
  ((text.filter (· != '\x00')).reverse.dropWhile (· == '\n')).reverse

def evaluateArithmetic (text : Octets) : Action Int := do
  let state ← get
  match Arithmetic.evaluate state.value? text with
  | .ok (value, assignments) =>
    forEach assignments fun (name, value) => assign name (some value)
    return value
  | .error (.malformed message) =>
    fail (Text.encode ("arithmetic expression: " ++ message ++ ": \"") ++ text ++ ['"'])
  | .error (.illegalNumber text) => illegalNumber text
  | .error .overflow => crash Signal.arithmeticFault

mutual

/-- Expands pieces. `substitute` gives the output of a command. -/
def pieceCells (substitute : Command → Action Octets) :
    Nat → Expanding → (inQuotes afterEquals : Bool) → List Piece → Action (List Cell)
  | 0, _, _, _, _ => failText "too deep"
  | _ + 1, _, _, _, [] => pure []
  | fuel + 1, expanding, inQuotes, afterEquals, piece :: rest => do
    let go (inQuotes : Bool) (cells : List Cell) : Action (List Cell) := do
      return cells ++ (← pieceCells substitute fuel expanding inQuotes afterEquals rest)
    match piece with
    | .mark =>
      match inQuotes, rest with
      | false, .parameter ['@'] .value [] :: .mark :: rest =>
        return (← parameterCells substitute fuel expanding true ['@'] .value []) ++
          (← pieceCells substitute fuel expanding false afterEquals rest)
      | _, _ => go (!inQuotes) [.mark]
    | .char c true => go inQuotes [.char c true .fixed]
    | .char c false =>
      if expanding.inAssignment && (c == ':' || (c == '=' && !afterEquals)) then
        let afterEquals := afterEquals || c == '='
        match tilde? (← get) true rest with
        | some (cells, rest) =>
          return .char c false .fixed :: cells ++
            (← pieceCells substitute fuel expanding inQuotes afterEquals rest)
        | none =>
          return .char c false .fixed ::
            (← pieceCells substitute fuel expanding inQuotes afterEquals rest)
      else
        let (literal, rest) := literalRun expanding.inAssignment rest
        let area ←
          if expanding.standsIn && !expanding.quoted && !inQuotes then
            pure (Area.splits (← freshArea))
          else pure Area.fixed
        let cells := (piece :: literal).filterMap fun piece =>
          match piece with
          | .char c escaped => some (Cell.char c escaped area)
          | _ => none
        return cells ++ (← pieceCells substitute fuel expanding inQuotes afterEquals rest)
    | .output none => go inQuotes []
    | .output (some command) =>
      let text := outputText (← substitute command)
      let quoted := expanding.quoted || inQuotes
      let area ← if quoted then pure Area.fixed else pure (Area.splits (← freshArea))
      go inQuotes (text.map fun c => .char c quoted area)
    | .arithmetic expression =>
      let cells ← pieceCells substitute fuel {} false false expression
      let value ← evaluateArithmetic (Cell.text cells)
      go inQuotes (← numberCells (expanding.quoted || inQuotes) value)
    | .parameter name form word =>
      go inQuotes (← parameterCells substitute fuel expanding (expanding.quoted || inQuotes) name form word)

def wordCells (substitute : Command → Action Octets) :
    Nat → Expanding → List Piece → Action (List Cell)
  | 0, _, _ => failText "too deep"
  | fuel + 1, expanding, pieces => do
    let state ← get
    match if expanding.tilde then tilde? state expanding.inAssignment pieces else none with
    | some (cells, rest) =>
      return cells ++ (← pieceCells substitute fuel expanding false false rest)
    | none => pieceCells substitute fuel expanding false false pieces

def parameterCells (substitute : Command → Action Octets) :
    Nat → Expanding → (quoted : Bool) → Octets → Form → List Piece → Action (List Cell)
  | 0, _, _, _, _, _ => failText "too deep"
  | fuel + 1, expanding, quoted, name, form, word => do
    let state ← get
    let texts? := parameter? state name
    let isSet (orEmpty : Bool) : Bool :=
      match texts? with
      | none => false
      | some texts => !orEmpty || !(joined state texts).isEmpty
    let standin : Action (List Cell) :=
      wordCells substitute fuel
        { expanding with tilde := true, standsIn := true, quoted } word
    let checked : Action (List Octets) := do
      match texts? with
      | some texts => return texts
      | none => if state.has 'u' then fail (unsetMessage name false) else return []
    match form with
    | .unknown => failText "Bad substitution"
    | .value => valueCells expanding quoted name (← checked)
    | .length => numberCells quoted (joined state (← checked)).length
    | .standin .absent orEmpty =>
      if isSet orEmpty then valueCells expanding quoted name (texts?.getD []) else standin
    | .standin .present orEmpty => if isSet orEmpty then standin else return []
    | .standin .assigned orEmpty =>
      if isSet orEmpty then valueCells expanding quoted name (texts?.getD [])
      else
        let text := Cell.text (← wordCells substitute fuel { tilde := true } word)
        assign name (some text)
        valueCells expanding quoted name [text]
    | .standin .refused orEmpty =>
      if isSet orEmpty then valueCells expanding quoted name (texts?.getD [])
      else if word.isEmpty then fail (unsetMessage name orEmpty)
      else
        let text := Cell.text (← wordCells substitute fuel { tilde := true } word)
        fail (name ++ Text.encode ": " ++ text)
    | .trimmed atEnd longest =>
      let texts ← checked
      if texts?.isNone then return []
      let pattern := Cell.pattern (← wordCells substitute fuel { tilde := true } word)
      let text := (between (← get) expanding quoted name).intercalate texts
      valueCells expanding quoted name [pattern.trim atEnd longest text]

end

/-- Words may nest this deep, and have so many pieces. -/
def maxPieces : Nat := 1000000000

def cells (substitute : Command → Action Octets) (expanding : Expanding) (word : Word) :
    Action (List Cell) := wordCells substitute maxPieces expanding word

/-! ### File names -/

/-- A bracket that begins here ends before the next slash. -/
def closes : Pattern → Bool
  | [] => false
  | ('\\', false) :: _ :: rest => closes rest
  | (c, escaped) :: rest =>
    if !escaped && c == ']' then true else closes rest

/-- A part of a path that may fit more than one name. -/
def isOpen : Pattern → Bool
  | [] => false
  | ('\\', false) :: _ :: rest => isOpen rest
  | (c, escaped) :: rest =>
    if escaped then isOpen rest
    else if c == '*' || c == '?' then true
    else if c == '[' then
      closes ((if rest.head? = some ('!', false) then rest.drop 1 else rest).drop 1) || isOpen rest
    else isOpen rest

/-- The text that a pattern fits if nothing in it is open. -/
def literalText : Pattern → Octets
  | [] => []
  | ('\\', false) :: (c, _) :: rest => c :: literalText rest
  | (c, _) :: rest => c :: literalText rest

def components (pattern : Pattern) : List Pattern :=
  pattern.foldr (fun (c, escaped) parts =>
    if c == '/' then [] :: parts
    else
      match parts with
      | part :: rest => ((c, escaped) :: part) :: rest
      | [] => [[(c, escaped)]]) [[]]

/-- The names in a directory that a part of a path fits, with the directory itself and the one above. -/
def fittingNames (directory : Octets) (part : Pattern) : Action (List Octets) := do
  let names ← call (.list (if directory.isEmpty then ['.'] else directory))
  let names := if names.isEmpty then names else ['.'] :: ['.', '.'] :: names
  let showsHidden := (literalText (part.take 2)).head? == some '.'
  return names.filter fun name => (showsHidden || name.head? != some '.') && part.covers name

/-- The paths below `directory` that the parts fit. -/
def paths : Octets → List Pattern → Action (List Octets)
  | directory, [] => pure [directory]
  | directory, part :: rest => do
    if isOpen part then
      let names ← fittingNames directory part
      if rest.isEmpty then return names.map (directory ++ ·)
      let found ← mapEach names fun name => paths (directory ++ name ++ ['/']) rest
      return found.flatten
    else
      let path := directory ++ literalText part
      if rest.any isOpen then paths (path ++ ['/']) rest
      else
        let path := ['/'].intercalate (path :: rest.map literalText)
        match ← call (.status path false) with
        | .ok _ => return [path]
        | .error _ => return []

def comesBefore : Octets → Octets → Bool
  | [], _ => true
  | _ :: _, [] => false
  | a :: as, b :: bs => if a == b then comesBefore as bs else a.toNat < b.toNat

def fieldPaths (field : List Cell) : Action (List Octets) := do
  let pattern := Cell.pattern field
  if (← get).has 'f' || !pattern.any (fun (c, escaped) => !escaped && (c == '*' || c == '?' || c == '['))
  then return [Cell.text field]
  let parts := components pattern
  if !parts.any isOpen then return [Cell.text field]
  let found ← paths [] parts
  if found.isEmpty then return [Cell.text field]
  return found.mergeSort comesBefore

/-! ### Words -/

def fields (substitute : Command → Action Octets) (word : Word) : Action (List Octets) := do
  let cells ← cells substitute { splits := true, tilde := true } word
  let fields := Fields.split (← get).separators cells
  return (← mapEach fields fieldPaths).flatten

/-- The text that a word becomes where it is not split. -/
def text (substitute : Command → Action Octets) (word : Word) : Action Octets := do
  return Cell.text (← cells substitute { tilde := true } word)

def assignmentText (substitute : Command → Action Octets) (word : Word) : Action Octets := do
  return Cell.text (← cells substitute { inAssignment := true } word)

def documentText (substitute : Command → Action Octets) (word : Word) : Action Octets := do
  return Cell.text (← cells substitute { quoted := true } word)

def pattern (substitute : Command → Action Octets) (word : Word) : Action Pattern := do
  return Cell.pattern (← cells substitute { tilde := true } word)

end Action

end ShellCompletion.Shell
