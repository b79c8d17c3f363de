/-!
# Layout of documents

Blanks are spaces and tabs. A line may end in a comment. `lineEnd?` passes over what may stand between a
statement and the next line, `skipLayout` over everything that may stand between two statements.
-/

namespace ShellCompletion.Document

def isBlank (c : Char) : Bool := c = ' ' || c = '\t'

/-- A character that may stand in comments and quoted texts: no control character but the tab. -/
def isPlain (c : Char) : Bool := c = '\t' || (0x20 ≤ c.toNat && c.toNat != 0x7F)

def skipBlanks (text : List Char) : List Char := text.dropWhile isBlank

def newline? : List Char → Option (List Char)
  | '\n' :: rest => some rest
  | '\r' :: '\n' :: rest => some rest
  | _ => none

def skipComment : List Char → List Char
  | '#' :: rest => rest.dropWhile isPlain
  | text => text

/-- The lines after this one, if nothing but blanks and a comment is left of it. -/
def lineEnd? (text : List Char) : Option (List Char) :=
  match skipComment (skipBlanks text) with
  | [] => some []
  | rest => newline? rest

/-- The text after blanks, newlines and comments. A character that may not stand in a comment ends it, so
that whoever reads on meets it. -/
def skipLayout (inComment : Bool) : List Char → List Char
  | [] => []
  | '\r' :: '\n' :: rest => skipLayout false rest
  | '\n' :: rest => skipLayout false rest
  | c :: rest =>
    if inComment then if isPlain c then skipLayout true rest else c :: rest
    else if c = '#' then skipLayout true rest
    else if isBlank c then skipLayout false rest
    else c :: rest

end ShellCompletion.Document
