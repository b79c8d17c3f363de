import ShellCompletion.Document.Layout

/-!
# Quoted texts

There are four forms of quoted text: between double or single quotes, on one line or, with three quotes
at each end, over several. Only between double quotes has a backslash a meaning. Every reader starts
after the opening quotes and gives the characters that are meant and the text after the closing quotes.
-/

namespace ShellCompletion.Document

def hexValue? (c : Char) : Option Nat :=
  if '0' ≤ c ∧ c ≤ '9' then some (c.toNat - '0'.toNat)
  else if 'a' ≤ c ∧ c ≤ 'f' then some (c.toNat - 'a'.toNat + 10)
  else if 'A' ≤ c ∧ c ≤ 'F' then some (c.toNat - 'A'.toNat + 10)
  else none

def hexNumber? (digits : List Char) : Option Nat :=
  digits.foldlM (fun number digit => (hexValue? digit).map (number * 16 + ·)) 0

def charOfHex? (digits : List Char) : Option Char := do
  let code ← hexNumber? digits
  if code.isValidChar then some (Char.ofNat code) else none

/-- The character that a backslash and a letter stand for. -/
def escaped? : Char → Option Char
  | '"' => some '"'
  | '\\' => some '\\'
  | 'b' => some '\x08'
  | 'e' => some '\x1b'
  | 'f' => some '\x0c'
  | 'n' => some '\n'
  | 'r' => some '\r'
  | 't' => some '\t'
  | _ => none

/-- Puts a character in front of what was read. -/
def followed (c : Char) (read : Option (List Char × List Char)) : Option (List Char × List Char) :=
  read.map fun (text, rest) => (c :: text, rest)

/-- Reads up to a double quote. -/
def quoted? : List Char → Option (List Char × List Char)
  | [] => none
  | '"' :: rest => some ([], rest)
  | '\\' :: 'x' :: a :: b :: rest => (charOfHex? [a, b]).bind (followed · (quoted? rest))
  | '\\' :: 'u' :: a :: b :: c :: d :: rest =>
    (charOfHex? [a, b, c, d]).bind (followed · (quoted? rest))
  | '\\' :: 'U' :: a :: b :: c :: d :: e :: f :: g :: h :: rest =>
    (charOfHex? [a, b, c, d, e, f, g, h]).bind (followed · (quoted? rest))
  | '\\' :: c :: rest => (escaped? c).bind (followed · (quoted? rest))
  | c :: rest => if isPlain c && c != '\\' then followed c (quoted? rest) else none

/-- Reads up to a single quote. -/
def literal? : List Char → Option (List Char × List Char)
  | [] => none
  | '\'' :: rest => some ([], rest)
  | c :: rest => if isPlain c then followed c (literal? rest) else none

/-- Drops the newline that may follow three opening quotes. -/
def dropNewline (text : List Char) : List Char := (newline? text).getD text

/-- A backslash before the end of a line. -/
def endsLine (text : List Char) : Bool := (newline? (skipBlanks text)).isSome

/-- Reads up to three double quotes; up to two more may stand before them. After a backslash at the end
of a line, `trimming` passes over blanks and newlines. -/
def longQuoted? (trimming : Bool) : List Char → Option (List Char × List Char)
  | [] => none
  | '"' :: '"' :: '"' :: '"' :: '"' :: rest => some (['"', '"'], rest)
  | '"' :: '"' :: '"' :: '"' :: rest => some (['"'], rest)
  | '"' :: '"' :: '"' :: rest => some ([], rest)
  | '\r' :: '\n' :: rest =>
    if trimming then longQuoted? true rest
    else followed '\r' (followed '\n' (longQuoted? false rest))
  | '\n' :: rest =>
    if trimming then longQuoted? true rest else followed '\n' (longQuoted? false rest)
  | '\\' :: 'x' :: a :: b :: rest =>
    (charOfHex? [a, b]).bind (followed · (longQuoted? false rest))
  | '\\' :: 'u' :: a :: b :: c :: d :: rest =>
    (charOfHex? [a, b, c, d]).bind (followed · (longQuoted? false rest))
  | '\\' :: 'U' :: a :: b :: c :: d :: e :: f :: g :: h :: rest =>
    (charOfHex? [a, b, c, d, e, f, g, h]).bind (followed · (longQuoted? false rest))
  | '\\' :: c :: rest =>
    if endsLine (c :: rest) then longQuoted? true (c :: rest)
    else (escaped? c).bind (followed · (longQuoted? false rest))
  | c :: rest =>
    if trimming && isBlank c then longQuoted? true rest
    else if isPlain c && c != '\\' then followed c (longQuoted? false rest)
    else none

/-- Reads up to three single quotes; up to two more may stand before them. -/
def longLiteral? : List Char → Option (List Char × List Char)
  | [] => none
  | '\'' :: '\'' :: '\'' :: '\'' :: '\'' :: rest => some (['\'', '\''], rest)
  | '\'' :: '\'' :: '\'' :: '\'' :: rest => some (['\''], rest)
  | '\'' :: '\'' :: '\'' :: rest => some ([], rest)
  | '\r' :: '\n' :: rest => followed '\r' (followed '\n' (longLiteral? rest))
  | '\n' :: rest => followed '\n' (longLiteral? rest)
  | c :: rest => if isPlain c then followed c (longLiteral? rest) else none

/-- Reads a quoted text of any form. -/
def text? : List Char → Option (String × List Char)
  | '"' :: '"' :: '"' :: rest => named (longQuoted? false (dropNewline rest))
  | '\'' :: '\'' :: '\'' :: rest => named (longLiteral? (dropNewline rest))
  | '"' :: rest => named (quoted? rest)
  | '\'' :: rest => named (literal? rest)
  | _ => none
where
  named (read : Option (List Char × List Char)) : Option (String × List Char) :=
    read.map fun (text, rest) => (String.ofList text, rest)

end ShellCompletion.Document
