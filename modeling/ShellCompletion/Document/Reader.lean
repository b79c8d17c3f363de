import ShellCompletion.Document.DateTime
import ShellCompletion.Document.Tree

/-!
# Reading documents

A document is a sequence of statements, each on a line of its own: headers that open a table and entries
that add a value to it. `Document.read?` gives the fields of the whole document.
-/

namespace ShellCompletion.Document

/-- Lists and tables in braces may nest this deep. -/
def maxDepth : Nat := 80

/-- A character of a key without quotes. -/
def isBare (c : Char) : Bool := c.isAlphanum || c = '_' || c = '-'

def name? : List Char → Option (String × List Char)
  | '"' :: rest => (quoted? rest).map fun (name, rest) => (String.ofList name, rest)
  | '\'' :: rest => (literal? rest).map fun (name, rest) => (String.ofList name, rest)
  | text =>
    match text.span isBare with
    | ([], _) => none
    | (name, rest) => some (String.ofList name, rest)

/-- A key may have this many names. -/
def maxNames : Nat := 80

/-- The names of a key between dots, at most `count` of them, and the text after the key and its blanks. -/
def names? : Nat → List Char → Option (List String × List Char)
  | 0, _ => none
  | count + 1, text => do
    let (name, rest) ← name? (skipBlanks text)
    match skipBlanks rest with
    | '.' :: rest => do
      let (names, rest) ← names? count rest
      return (name :: names, rest)
    | rest => return ([name], rest)

def key? (text : List Char) : Option (List String × List Char) := names? maxNames text

/-- A character of a number, a date-time or a truth value. -/
def isScalar (c : Char) : Bool := c.isAlphanum || c ∈ ['+', '-', '.', ':', '_']

def scalar? (text : List Char) : Option Value :=
  if text = "true".toList then some (.boolean true)
  else if text = "false".toList then some (.boolean false)
  else
    match integer? text with
    | some value => some (.integer value)
    | none =>
      if isFloat text then some .float
      else if DateTime.isDateTime text then some .dateTime
      else none

/-- The characters of a scalar and the text after it. A blank between a date and a time belongs to it. -/
def spanScalar (text : List Char) : List Char × List Char :=
  match text.span isScalar with
  | (date, ' ' :: c :: rest) =>
    if DateTime.isDate date && c.isDigit then
      let (time, rest) := (c :: rest).span isScalar
      (date ++ ' ' :: time, rest)
    else (date, ' ' :: c :: rest)
  | parts => parts

mutual

/-- Reads a value in which lists and tables nest at most `depth` deep. -/
def value? (depth : Nat) : Nat → List Char → Option (Value × List Char)
  | 0, _ => none
  | fuel + 1, text =>
    match text with
    | '[' :: rest =>
      match depth with
      | 0 => none
      | depth + 1 => do
        let (items, rest) ← items? depth fuel (skipLayout false rest)
        return (.list items, rest)
    | '\x7b' :: rest =>
      match depth with
      | 0 => none
      | depth + 1 => do
        let (nodes, rest) ← fields? depth fuel [] (skipLayout false rest)
        return (.table (Node.toValues nodes), rest)
    | '"' :: _ => (text? text).map fun (value, rest) => (.text value, rest)
    | '\'' :: _ => (text? text).map fun (value, rest) => (.text value, rest)
    | _ =>
      let (scalar, rest) := spanScalar text
      (scalar? scalar).map (·, rest)

def items? (depth : Nat) : Nat → List Char → Option (List Value × List Char)
  | 0, _ => none
  | _ + 1, ']' :: rest => some ([], rest)
  | fuel + 1, text => do
    let (item, rest) ← value? depth fuel text
    match skipLayout false rest with
    | ']' :: rest => return ([item], rest)
    | ',' :: rest => do
      let (items, rest) ← items? depth fuel (skipLayout false rest)
      return (item :: items, rest)
    | _ => none

/-- Reads the fields of a table in braces, beyond the `nodes` that it has already. -/
def fields? (depth : Nat) : Nat → Nodes → List Char → Option (Nodes × List Char)
  | 0, _, _ => none
  | _ + 1, nodes, '\x7d' :: rest => some (nodes, rest)
  | fuel + 1, nodes, text => do
    let (key, value, rest) ← entry? depth fuel text
    let nodes ← nodes.define value key
    match skipLayout false rest with
    | '\x7d' :: rest => return (nodes, rest)
    | ',' :: rest => fields? depth fuel nodes (skipLayout false rest)
    | _ => none

def entry? (depth : Nat) : Nat → List Char → Option (List String × Value × List Char)
  | 0, _ => none
  | fuel + 1, text => do
    let (key, rest) ← key? text
    match rest with
    | '=' :: rest => do
      let (value, rest) ← value? depth fuel (skipBlanks rest)
      return (key, value, rest)
    | _ => none

end

inductive Statement where
  /-- Opens the table at the end of a path. -/
  | table (path : List String)
  /-- Opens a further table of the list at the end of a path. -/
  | item (path : List String)
  | entry (key : List String) (value : Value)
deriving Repr

/-- Reads a statement and the end of its line. -/
def statement? (fuel : Nat) (text : List Char) : Option (Statement × List Char) := do
  let (statement, rest) ← match text with
    | '[' :: '[' :: rest => do
      let (path, rest) ← key? rest
      match rest with
      | ']' :: ']' :: rest => some (Statement.item path, rest)
      | _ => none
    | '[' :: rest => do
      let (path, rest) ← key? rest
      match rest with
      | ']' :: rest => some (Statement.table path, rest)
      | _ => none
    | text => do
      let (key, value, rest) ← entry? maxDepth fuel text
      some (Statement.entry key value, rest)
  return (statement, ← lineEnd? rest)

def statements? : Nat → List Char → Option (List Statement)
  | 0, _ => none
  | fuel + 1, text =>
    match skipLayout false text with
    | [] => some []
    | text => do
      let (statement, rest) ← statement? fuel text
      return statement :: (← statements? fuel rest)

/-- What is read of a document: its nodes and the path of the table that is open. -/
structure Draft where
  nodes : Nodes := []
  current : List String := []

namespace Draft

/-- Opens the last name of a path below the table that the others lead to. -/
def enter (draft : Draft) (openAt : String → Nodes → Option Nodes) (path : List String) :
    Option Draft := do
  let name ← path.getLast?
  return { nodes := ← draft.nodes.modify (openAt name) path.dropLast, current := path }

def add (draft : Draft) : Statement → Option Draft
  | .table path => draft.enter Nodes.openTable path
  | .item path => draft.enter Nodes.openItem path
  | .entry key value => do
    return { draft with nodes := ← draft.nodes.modify (Nodes.define value key) draft.current }

end Draft

/-- The mark that may stand before a text. -/
def dropMark : List Char → List Char
  | '\ufeff' :: rest => rest
  | text => text

def read? (text : String) : Option (List (String × Value)) := do
  let chars := dropMark text.toList
  let statements ← statements? (2 * chars.length + 2) chars
  let draft ← statements.foldlM Draft.add {}
  return Node.toValues draft.nodes

end ShellCompletion.Document
