import ShellCompletion.Shell.Script

/-!
# Reading tokens

A script is read character by character. An alias is read in the place of its name, and its name is not
replaced again as long as it is being read. A backslash before the end of a line joins it with the next.
-/

namespace ShellCompletion.Shell

open Text (Octets)

inductive Token where
  | endOfFile
  | newline
  | semicolon
  | ampersand
  | andAlso
  | orElse
  | bar
  | leftParen
  | rightParen
  | endOfCase
  | redirection
  | word
  | reserved (word : String)
deriving DecidableEq, Repr

def reservedWords : List String := [
  "!", "case", "do", "done", "elif", "else", "esac", "fi", "for", "if", "in", "then", "until", "while",
  "\x7b", "\x7d"]

namespace Token

def quoted (text : String) : String := "\"" ++ text ++ "\""

def name : Token → String
  | endOfFile => "end of file"
  | newline => "newline"
  | semicolon => quoted ";"
  | ampersand => quoted "&"
  | andAlso => quoted "&&"
  | orElse => quoted "||"
  | bar => quoted "|"
  | leftParen => quoted "("
  | rightParen => quoted ")"
  | endOfCase => quoted ";;"
  | redirection => "redirection"
  | word => "word"
  | reserved text => quoted text

/-- A list of commands ends before such a token. -/
def endsList : Token → Bool
  | endOfFile | rightParen | endOfCase => true
  | reserved text => text ∈ ["do", "done", "elif", "else", "esac", "fi", "then", "\x7d"]
  | _ => false

end Token

/-- Why no command was read. -/
inductive ReadStop where
  /-- The text ends in the middle of a command, and more may follow. -/
  | needsMore
  | malformed (line : Nat) (message : String)
  /-- The command nests too deep. -/
  | tooDeep

/-- A document that is still to be read. -/
structure PendingDocument where
  index : Nat
  delimiter : Octets
  stripsTabs : Bool
  expands : Bool

/-- A redirection whose word is still to be read. -/
inductive RedirectionKind where
  | file (use : FileUse)
  | descriptor (forOutput : Bool)
  | document (stripsTabs : Bool)

/-- What is being looked out for at a token. -/
structure Lookout where
  newlines : Bool := false
  reserved : Bool := false
  aliases : Bool := false
  /-- The word is the delimiter of a document, in which nothing is expanded. -/
  delimiter : Bool := false

structure Reading where
  text : Octets
  /-- The aliases that are being read and the texts after them, the innermost first. -/
  outer : List (Octets × Octets) := []
  /-- Nothing follows the text. -/
  isWhole : Bool
  line : Nat := 1
  aliases : List (Octets × Octets) := []
  lookout : Lookout := {}
  /-- The last token is read again. -/
  isPutBack : Bool := false
  token : Token := .newline
  word : Word := []
  wordIsQuoted : Bool := false
  /-- The descriptor and the kind of the last redirection. -/
  redirection : Nat × RedirectionKind := (0, .file .input)
  pending : List PendingDocument := []
  documents : List (Nat × Word) := []
  nextDocument : Nat := 0

abbrev Reader := StateT Reading (Except ReadStop)

namespace Reader

def malformed {α : Type} (message : String) : Reader α := do
  throw (.malformed (← get).line message)

/-- What is left to read where aliases have come to their ends. -/
def nextChar? (text : Octets) : List (Octets × Octets) → Option Char
  | [] => text.head?
  | (_, after) :: outer => if text.isEmpty then nextChar? after outer else text.head?

/-- The next character; none at the end of the input. -/
def peek : Reader (Option Char) := do
  let reading ← get
  match nextChar? reading.text reading.outer with
  | some c => return some c
  | none => if reading.isWhole then return none else throw .needsMore

/-- The alias has a blank at its end, so that the next word may be one too. -/
def endsInBlank (reading : Reading) (name : Octets) : Bool :=
  match (reading.aliases.lookup name).bind (·.getLast?) with
  | some c => c == ' ' || c == '\t'
  | none => false

/-- Leaves the aliases that have come to their ends. -/
def leave (reading : Reading) : List (Octets × Octets) → Reading
  | [] => { reading with outer := [] }
  | (name, after) :: outer =>
    if reading.text.isEmpty then
      let lookout := if endsInBlank reading name then { reading.lookout with aliases := true }
        else reading.lookout
      leave { reading with text := after, lookout } outer
    else { reading with outer := (name, after) :: outer }

def advance : Reader Unit := modify fun reading =>
  let reading := leave reading reading.outer
  match reading.text with
  | [] => reading
  | c :: text => { reading with text, line := if c == '\n' then reading.line + 1 else reading.line }

def next : Reader (Option Char) := do
  let c ← peek
  if c.isSome then advance
  return c

/-- So many lines may be joined to one. -/
def maxJoints : Nat := 1000000

/-- Goes past a backslash and a newline. -/
def skipJoints : Nat → Reader Unit
  | 0 => return
  | fuel + 1 => do
    if (← peek) = some '\\' then
      let before ← get
      advance
      if (← peek) = some '\n' then
        advance
        skipJoints fuel
      else set before

/-- The next character after any joints of lines. -/
def peekJoined : Reader (Option Char) := do
  skipJoints maxJoints
  peek

def nextJoined : Reader (Option Char) := do
  skipJoints maxJoints
  next

/-- Goes past the character if it comes next. -/
def accept (c : Char) : Reader Bool := do
  if (← peekJoined) = some c then
    advance
    return true
  else return false

/-- Takes the text of the aliases that are being read as the script's own. -/
def flatten : Reader Unit := modify fun reading =>
  { reading with
    text := reading.outer.foldl (fun text (_, after) => text ++ after) reading.text
    outer := [] }

end Reader

end ShellCompletion.Shell
