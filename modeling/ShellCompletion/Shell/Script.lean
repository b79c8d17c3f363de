import ShellCompletion.Text.Octets

/-!
# Scripts

The commands of a script and the words that they are made of. A word is a sequence of pieces, which are
expanded when the command is carried out.
-/

namespace ShellCompletion.Shell

open Text (Octets)

/-- Which texts a value stands in for. -/
inductive Standin where
  /-- The word is taken where the parameter has no value. -/
  | absent
  /-- The word is taken where the parameter has a value. -/
  | present
  /-- As for `absent`, and the parameter gets the value. -/
  | assigned
  /-- The word is the message of a failure. -/
  | refused
deriving DecidableEq, Repr

/-- What is made of the value of a parameter. -/
inductive Form where
  | value
  | length
  /-- With `orEmpty`, an empty value is taken for no value. -/
  | standin (kind : Standin) (orEmpty : Bool)
  /-- Without the part at one end that a pattern fits. -/
  | trimmed (atEnd longest : Bool)
  | unknown
deriving DecidableEq, Repr

inductive FileUse where
  | input
  | output
  /-- Writes to a file even if it must not be overwritten. -/
  | forcedOutput
  | appended
  | both
deriving DecidableEq, Repr

mutual

inductive Piece where
  /-- A character; one that is escaped stands for itself in patterns. -/
  | char (c : Char) (escaped : Bool)
  | mark
  | parameter (name : Octets) (form : Form) (word : List Piece)
  | output (command : Option Command)
  | arithmetic (expression : List Piece)

inductive Target where
  | file (use : FileUse) (path : List Piece)
  /-- Another descriptor, or none to close this one. -/
  | descriptor (number : Option Nat)
  /-- A descriptor whose number is expanded from a word. -/
  | expanded (forOutput : Bool) (word : List Piece)
  /-- The text with this number in the table of documents, and whether it is expanded. -/
  | document (index : Nat) (expands : Bool)

inductive Redirection where
  | redirect (descriptor : Nat) (target : Target)

inductive Command where
  | simple (line : Nat) (assignments words : List (List Piece)) (redirections : List Redirection)
  | pipeline (inBackground : Bool) (commands : List Command)
  | redirected (line : Nat) (command : Command) (redirections : List Redirection)
  | background (line : Nat) (command : Command) (redirections : List Redirection)
  | subshell (line : Nat) (command : Option Command) (redirections : List Redirection)
  | both (first second : Command)
  | either (first second : Command)
  | sequence (first second : Command)
  | negation (command : Command)
  | conditional (test yes : Command) (no : Option Command)
  /-- Goes round while the test succeeds, or until it does. -/
  | loop (untilTrue : Bool) (test body : Command)
  | each (line : Nat) (name : Octets) (words : List (List Piece)) (body : Command)
  | choice (line : Nat) (word : List Piece) (cases : List (List (List Piece) × Option Command))
  | function (name : Octets) (body : Command)

end

abbrev Word := List Piece

instance : Inhabited Command := ⟨.simple 1 [] [] []⟩

/-- The characters of a word in which nothing is quoted or expanded. -/
def Word.plain? (word : Word) : Option Octets :=
  word.mapM fun piece =>
    match piece with
    | .char c false => some c
    | _ => none

def isNameStart (c : Char) : Bool := c.isAlpha || c == '_'

def isNameChar (c : Char) : Bool := c.isAlphanum || c == '_'

def isName (text : Octets) : Bool := text.head?.any isNameStart && text.all isNameChar

/-- A parameter with a name of one character that is no letter. -/
def isSpecial (c : Char) : Bool := c ∈ ['@', '*', '#', '?', '$', '!', '-'] || c.isDigit

/-- The word begins with a name and an equals sign. -/
def Word.isAssignment (word : Word) : Bool :=
  let start := word.takeWhile fun piece =>
    match piece with
    | .char c false => isNameChar c
    | _ => false
  match start.head?, (word.drop start.length).head? with
  | some (.char c false), some (.char '=' false) => isNameStart c
  | _, _ => false

end ShellCompletion.Shell
