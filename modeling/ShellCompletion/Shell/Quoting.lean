import ShellCompletion.Shell.Token

/-!
# Reading words

A word is read character by character; how a character is taken depends on the quotes and expansions that
it stands in. The text of a document is read in the same way up to its delimiter.
-/

namespace ShellCompletion.Shell

open Text (Octets)

inductive Quoting where
  | none
  | double
  | single
  | arithmetic
deriving DecidableEq, Repr

/-- Where in a word a character stands. -/
structure Frame where
  quoting : Quoting
  /-- The frame belongs to a part in double quotes. -/
  inDouble : Bool
  /-- Double quotes are open within an expansion. -/
  innerDouble : Bool := false
  /-- How many expansions of parameters are open. -/
  depth : Nat := 0
  /-- How many of them were opened in double quotes. -/
  doubleDepth : Nat := 0
  /-- How many parentheses of an expression are open. -/
  parens : Nat := 0
  /-- The frame ends with its outermost expansion. -/
  isOwn : Bool := false

inductive Opening where
  | parameter (name : Octets) (form : Form)
  | arithmetic

/-- The part of a word that has been read. -/
structure Draft where
  frame : Frame
  frames : List Frame := []
  /-- The expansions that are open, with the pieces before them. -/
  opened : List (Opening × List Piece) := []
  /-- The latest first. -/
  pieces : List Piece := []
  isQuoted : Bool := false

namespace Draft

def emit (draft : Draft) (piece : Piece) : Draft := { draft with pieces := piece :: draft.pieces }

def char (draft : Draft) (c : Char) (escaped : Bool := false) : Draft := draft.emit (.char c escaped)

def openExpansion (draft : Draft) (opening : Opening) : Draft :=
  { draft with opened := (opening, draft.pieces) :: draft.opened, pieces := [] }

def closeExpansion (draft : Draft) : Draft :=
  match draft.opened with
  | [] => draft
  | (opening, before) :: opened =>
    let inner := draft.pieces.reverse
    let piece := match opening with
      | .parameter name form => Piece.parameter name form inner
      | .arithmetic => Piece.arithmetic inner
    { draft with opened, pieces := piece :: before }

def pushFrame (draft : Draft) (frame : Frame) : Draft :=
  { draft with frame, frames := draft.frame :: draft.frames }

def popFrame (draft : Draft) : Draft :=
  match draft.frames with
  | [] => draft
  | frame :: frames => { draft with frame, frames }

def setFrame (draft : Draft) (frame : Frame) : Draft := { draft with frame }

end Draft

/-- Characters that have a meaning in patterns and words unless they are quoted. -/
def isActive (c : Char) : Bool := c ∈ ['!', '*', '?', '[', '=', '~', ':', '/', '-', ']']

/-- Characters that end a word. -/
def endsWord (c : Char) : Bool := c ∈ ['<', '>', '(', ')', ';', '&', '|', ' ', '\t']

namespace Reader

def nameChars (fits : Char → Bool) : Nat → Reader Octets
  | 0 => return []
  | fuel + 1 => do
    match ← peekJoined with
    | some c =>
      if fits c then
        advance
        return c :: (← nameChars fits fuel)
      else return []
    | none => return []

/-- No name is longer. -/
def maxName : Nat := 1000000

def standin? : Char → Option Standin
  | '-' => some .absent
  | '+' => some .present
  | '?' => some .refused
  | '=' => some .assigned
  | _ => none

/-- Reads what follows the name of a parameter in braces. Of the brace itself nothing is read, but that of
a form which is complete is left to be closed. -/
def form : Reader Form := do
  match ← nextJoined with
  | some '\x7d' => return .value
  | some ':' =>
    match ← nextJoined with
    | some c =>
      match standin? c with
      | some kind => return .standin kind true
      | none => return .unknown
    | none => return .unknown
  | some '%' => return .trimmed true (← accept '%')
  | some '#' => return .trimmed false (← accept '#')
  | some c =>
    match standin? c with
    | some kind => return .standin kind false
    | none => return .unknown
  | none => return .unknown

/-- Reads a parameter in braces from after the opening one on: its name and form. -/
def bracedParameter : Reader (Octets × Form) := do
  match ← peekJoined with
  | some c =>
    if isNameStart c then
      let name ← nameChars isNameChar maxName
      return (name, ← form)
    else if c.isDigit then
      let name ← nameChars Char.isDigit maxName
      return (name, ← form)
    else if c = '\x7d' then return ([], .unknown)
    else
      advance
      if c = '#' then
        match ← peekJoined with
        | some d =>
          if isNameChar d then
            let name ← nameChars (if d.isDigit then Char.isDigit else isNameChar) maxName
            return (name, if (← peekJoined) = some '\x7d' then .length else .unknown)
          else if d = '\x7d' then
            advance
            return (['#'], .value)
          else
            let before ← get
            advance
            if (← peekJoined) = some '\x7d' then
              return ([d], if isSpecial d then .length else .unknown)
            else
              set before
              return (['#'], ← form)
        | none => return ([], .unknown)
      else if isSpecial c then return ([c], ← form)
      else return ([], .unknown)
  | none => return ([], .unknown)

def backquoted (inDouble : Bool) : Nat → Reader Octets
  | 0 => throw .tooDeep
  | fuel + 1 => do
    match ← nextJoined with
    | some '\x60' => return []
    | some '\\' =>
      match ← next with
      | some c =>
        let rest ← backquoted inDouble fuel
        if c = '\\' || c = '\x60' || c = '$' || (inDouble && c = '"') then return c :: rest
        else return '\\' :: c :: rest
      | none => malformed "EOF in backquote substitution"
    | some c => return c :: (← backquoted inDouble fuel)
    | none => malformed "EOF in backquote substitution"

/-- Reads the commands of a text that stands within the script. -/
def within (text : Octets) (commands : Reader (Option Command)) : Reader (Option Command) := do
  let outside ← get
  set { outside with text, outer := [], isWhole := true, line := 1, pending := [] }
  let command ← commands
  modify fun inside =>
    { outside with
      documents := inside.documents
      nextDocument := inside.nextDocument
      isPutBack := false
      token := inside.token }
  return command

/-- Reads commands that documents before them have nothing to do with. -/
def apart (commands : Reader (Option Command)) : Reader (Option Command) := do
  let pending := (← get).pending
  modify ({ · with pending := [] })
  let command ← commands
  modify ({ · with pending })
  return command

/-- Reads an expansion from after its dollar sign on. `commands` reads the commands of a substitution, with
the parenthesis that closes it or without. -/
def expansion (commands : Bool → Reader (Option Command)) (draft : Draft) :
    Reader Draft := do
  let frame := draft.frame
  match ← peekJoined with
  | some '(' =>
    advance
    if ← accept '(' then
      return (draft.openExpansion .arithmetic).pushFrame { quoting := .arithmetic, inDouble := true }
    else return draft.emit (.output (← apart (commands true)))
  | some '\x7b' =>
    advance
    let (name, form) ← bracedParameter
    if form = .value then return draft.emit (.parameter name .value [])
    else
      let draft := draft.openExpansion (.parameter name form)
      let quoting := match form with
        | .trimmed _ _ => .none
        | _ => if frame.quoting = .arithmetic then .double else frame.quoting
      let draft :=
        if quoting ≠ frame.quoting || frame.innerDouble then
          draft.pushFrame { quoting, inDouble := quoting ≠ .none, isOwn := true }
        else draft
      let frame := draft.frame
      return draft.setFrame { frame with
        depth := frame.depth + 1
        doubleDepth := if frame.inDouble then frame.doubleDepth + 1 else frame.doubleDepth }
  | some c =>
    if isNameStart c then
      return draft.emit (.parameter (← nameChars isNameChar maxName) .value [])
    else if isSpecial c then
      advance
      return draft.emit (.parameter [c] .value [])
    else return draft.char '$'
  | none => return draft.char '$'

def mark (ofDocument : Bool) (draft : Draft) (isDouble : Bool) : Draft :=
  let frame := draft.frame
  let draft := if isDouble && 0 < frame.depth then
      draft.setFrame { frame with innerDouble := !frame.innerDouble }
    else draft
  if ofDocument then draft else draft.emit .mark

/-- Takes a backslash, from after it on. -/
def backslash (ofDocument : Bool) (draft : Draft) : Reader Draft := do
  let frame := draft.frame
  match ← peek with
  | none => return draft.char '\\' true
  | some c =>
    advance
    let isKept := frame.inDouble && c != '\\' && c != '\x60' && c != '$' &&
      (c != '"' || (ofDocument && frame.depth = 0)) && (c != '\x7d' || frame.depth = 0)
    let draft := if isKept then draft.char '\\' true else draft
    return { draft.char c true with isQuoted := true }

def closeBrace (draft : Draft) : Draft :=
  let frame := draft.frame
  if !frame.innerDouble && 0 < frame.depth then
    let draft := draft.closeExpansion
    if frame.depth = 1 && frame.isOwn then draft.popFrame
    else draft.setFrame { frame with
      depth := frame.depth - 1
      doubleDepth := frame.doubleDepth - 1 }
  else draft.char '\x7d'

/-- Takes one character of a word; it has been read. -/
def take (commands : Bool → Reader (Option Command)) (ofDocument : Bool) (c : Char)
    (draft : Draft) : Reader Draft := do
  let frame := draft.frame
  let isRaw := ofDocument && frame.depth = 0
  match frame.quoting with
  | .single =>
    if c = '\'' then
      if isRaw then return draft.char c
      else
        let frame := if frame.doubleDepth = 0 then
            { frame with quoting := .none, inDouble := false } else frame
        return mark ofDocument { draft.setFrame frame with isQuoted := true } false
    else return draft.char c (!isRaw && (isActive c || c = '\\'))
  | quoting =>
    match c with
    | '\n' => return draft.char c
    | '\\' => backslash ofDocument draft
    | '$' =>
      if (← get).lookout.delimiter then return draft.char c
      else expansion commands draft
    | '\x60' =>
      if (← get).lookout.delimiter then return draft.char c
      let text ← backquoted frame.inDouble maxName
      return draft.emit (.output (← within text (commands false)))
    | '\x7d' => return closeBrace draft
    | _ =>
      match quoting with
      | .double =>
        if c = '"' then
          if isRaw then return draft.char c
          else
            let draft := if frame.doubleDepth = 0 then
                draft.setFrame { frame with quoting := .none, inDouble := false } else draft
            return mark ofDocument { draft with isQuoted := true } true
        else return draft.char c (isActive c)
      | .arithmetic =>
        if c = '(' then return (draft.setFrame { frame with parens := frame.parens + 1 }).char c
        else if c = ')' then
          if 0 < frame.parens then
            return (draft.setFrame { frame with parens := frame.parens - 1 }).char c
          else if ← accept ')' then return draft.closeExpansion.popFrame
          else return draft.char c
        else return draft.char c
      | _ =>
        if c = '\'' then
          return mark ofDocument (draft.setFrame { frame with quoting := .single }) false
        else if c = '"' then
          return mark ofDocument
            (draft.setFrame { frame with quoting := .double, inDouble := true }) true
        else return draft.char c

/-- The character ends the word before it. -/
def isDelimiter (draft : Draft) (c : Char) : Bool :=
  draft.frame.quoting = .none && draft.frame.depth = 0 && (endsWord c || c = '\n')

def wordChars (commands : Bool → Reader (Option Command)) : Nat → Draft → Reader Draft
  | 0, _ => throw .tooDeep
  | fuel + 1, draft => do
    match ← (if draft.frame.quoting = .single then peek else peekJoined) with
    | none => return draft
    | some c =>
      if isDelimiter draft c then return draft
      else
        advance
        wordChars commands fuel (← take commands false c draft)

/-- The line that begins here is the delimiter of a document; if it is, goes past it. -/
def acceptDelimiter (document : PendingDocument) : Reader Bool := do
  flatten
  let reading ← get
  let text := if document.stripsTabs then reading.text.dropWhile (· == '\t') else reading.text
  let line := text.takeWhile (· != '\n')
  if line.length = text.length && !reading.isWhole then throw .needsMore
  if line = document.delimiter then
    set { reading with text := text.drop (line.length + 1), line := reading.line + 1 }
    return true
  else
    set { reading with text }
    return false

def documentChars (commands : Bool → Reader (Option Command))
    (document : PendingDocument) : (atStart : Bool) → Nat → Draft → Reader Draft
  | _, 0, _ => throw .tooDeep
  | atStart, fuel + 1, draft => do
    let isOver ← if atStart then acceptDelimiter document else pure false
    if isOver then return draft
    else
      match ← (if draft.frame.quoting = .single then peek else peekJoined) with
      | none => return draft
      | some c =>
        advance
        documentChars commands document (c = '\n') fuel
          (← take commands true c draft)

/-- The pieces of a word that has come to its end. -/
def finish (ofDocument : Bool) (draft : Draft) : Reader Word := do
  let frame := draft.frame
  if frame.quoting = .arithmetic then malformed "Missing '))'"
  if frame.quoting ≠ .none && !ofDocument then malformed "Unterminated quoted string"
  if frame.depth ≠ 0 then malformed "Missing '\x7d'"
  return draft.pieces.reverse

/-- Reads the documents that begin on the next line. -/
def readDocuments (commands : Bool → Reader (Option Command)) : Reader Unit := do
  let pending := (← get).pending
  modify ({ · with pending := [] })
  for document in pending do
    let quoting := if document.expands then Quoting.double else .single
    if document.expands then skipJoints maxJoints
    let draft ← documentChars commands document true maxName
      { frame := { quoting, inDouble := document.expands } }
    let word ← finish true draft
    modify fun reading => { reading with documents := (document.index, word) :: reading.documents }

end Reader

end ShellCompletion.Shell
