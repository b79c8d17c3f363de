import ShellCompletion.Text.Octets

/-!
# Patterns

A pattern is matched against a whole text. A star stands for any text, a question mark for one octet, and
brackets for one of the octets in them; an escaped character, or one after a backslash, stands for itself.
-/

namespace ShellCompletion.Shell

open Text (Octets)

/-- A character of a pattern and whether it is escaped. -/
abbrev Pattern := List (Char × Bool)

namespace Pattern

def literal (text : Octets) : Pattern := text.map (·, true)

/-- The value of an octet in the order of ranges; those that are no characters come first. -/
def rank (c : Char) : Int := if c.toNat < 128 then c.toNat else (c.toNat : Int) - 256

def isGraphic (c : Char) : Bool := '!' ≤ c && c ≤ '~'

def isSpace (c : Char) : Bool := c == ' ' || ('\t' ≤ c && c ≤ '\r')

/-- The classes that brackets may name. -/
def classes : List (String × (Char → Bool)) := [
  (":alnum:]", Char.isAlphanum),
  (":cntrl:]", fun c => c < ' ' || c == '\x7f'),
  (":lower:]", Char.isLower),
  (":space:]", isSpace),
  (":alpha:]", Char.isAlpha),
  (":digit:]", Char.isDigit),
  (":print:]", fun c => c == ' ' || isGraphic c),
  (":upper:]", Char.isUpper),
  (":blank:]", fun c => c == ' ' || c == '\t'),
  (":graph:]", isGraphic),
  (":punct:]", fun c => isGraphic c && !c.isAlphanum),
  (":xdigit:]", fun c => c.isDigit || ('a' ≤ c && c ≤ 'f') || ('A' ≤ c && c ≤ 'F'))]

/-- The class that a pattern begins with, and the pattern after it. -/
def class? (pattern : Pattern) : Option ((Char → Bool) × Pattern) :=
  classes.findSome? fun (name, contains) =>
    if (name.toList.map (·, false)).isPrefixOf pattern then
      some (contains, pattern.drop name.length)
    else none

/-- What a pattern begins with: a character that stands for itself, and the pattern after it. -/
def one? : Pattern → Option (Char × Pattern)
  | [] => none
  | ('\\', false) :: (c, _) :: rest => some (c, rest)
  | (c, _) :: rest => some (c, rest)

/-- Whether one of the members of a bracket accepts `c`, and the pattern after the bracket. -/
def members (c : Char) : Nat → (isFirst accepted : Bool) → Pattern → Option (Bool × Pattern)
  | 0, _, _, _ => none
  | fuel + 1, isFirst, accepted, pattern =>
    match pattern with
    | (']', false) :: rest => if isFirst then member fuel accepted pattern else some (accepted, rest)
    | ('[', false) :: rest =>
      match class? rest with
      | some (contains, rest) => members c fuel false (accepted || contains c) rest
      | none => member fuel accepted pattern
    | _ => member fuel accepted pattern
where
  member (fuel : Nat) (accepted : Bool) (pattern : Pattern) : Option (Bool × Pattern) :=
    match one? pattern with
    | none => none
    | some (low, ('-', false) :: rest) =>
      if rest.head? = some (']', false) then
        members c fuel false (accepted || c == low) (('-', false) :: rest)
      else
        match one? rest with
        | none => none
        | some (high, rest) =>
          members c fuel false (accepted || (rank low ≤ rank c && rank c ≤ rank high)) rest
    | some (low, rest) => members c fuel false (accepted || c == low) rest

/-- Whether a bracket accepts `c`, and the pattern after it. -/
def bracket? (c : Char) : Pattern → Option (Bool × Pattern)
  | ('!', false) :: rest =>
    (members c (2 * rest.length + 2) true false rest).map fun (accepted, rest) => (!accepted, rest)
  | rest => members c (2 * rest.length + 2) true false rest

def fits (fuel : Nat) (pattern : Pattern) (text : Octets) : Bool :=
  match fuel, pattern, text with
  | 0, _, _ => false
  | _, [], text => text.isEmpty
  | fuel + 1, ('*', false) :: rest, [] => fits fuel rest []
  | fuel + 1, ('*', false) :: rest, c :: text =>
    fits fuel rest (c :: text) || fits fuel (('*', false) :: rest) text
  | fuel + 1, ('?', false) :: rest, _ :: text => fits fuel rest text
  | fuel + 1, ('[', false) :: rest, c :: text =>
    match bracket? c rest with
    | some (accepted, after) => accepted && fits fuel after text
    | none => c == '[' && fits fuel rest text
  | fuel + 1, ('\\', false) :: (p, _) :: rest, c :: text => p == c && fits fuel rest text
  | fuel + 1, (p, escaped) :: rest, c :: text =>
    (escaped || p != '?') && p == c && fits fuel rest text
  | _, _, _ => false

def covers (pattern : Pattern) (text : Octets) : Bool :=
  fits (pattern.length + text.length + 1) pattern text

/-- The pattern may fit more than one text. -/
def isOpen (pattern : Pattern) : Bool :=
  pattern.any fun (c, escaped) => !escaped && (c == '*' || c == '?' || c == '[')

/-- A text without the part at one end that the pattern fits. -/
def trim (pattern : Pattern) (atEnd longest : Bool) (text : Octets) : Octets :=
  let lengths := List.range (text.length + 1)
  let lengths := if atEnd = longest then lengths else lengths.reverse
  let fitting := lengths.find? fun length =>
    pattern.covers (if atEnd then text.drop length else text.take length)
  match fitting with
  | some length => if atEnd then text.take length else text.drop length
  | none => text

end Pattern

end ShellCompletion.Shell
