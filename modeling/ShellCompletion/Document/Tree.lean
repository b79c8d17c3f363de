import ShellCompletion.Document.Value
import ShellCompletion.Table

/-!
# Trees of tables

The statements of a document build a tree. A table remembers how it came to be, since that decides which
statements may still add to it: a header may name a table only once, and dotted keys may only add to
tables that dotted keys have made.
-/

namespace ShellCompletion.Document

inductive Origin where
  /-- On the path of a header only. -/
  | implied
  | header
  /-- On the path of a dotted key. -/
  | dotted
deriving DecidableEq, Repr

inductive Node where
  /-- A value that nothing can be added to. -/
  | closed (value : Value)
  | table (origin : Origin) (fields : List (String × Node))
  /-- A list of tables made by headers, the latest first. -/
  | tables (items : List (List (String × Node)))

namespace Node

mutual

def toValue : Node → Value
  | .closed value => value
  | .table _ fields => .table (toValues fields)
  | .tables items => .list (toTables items).reverse

def toValues : List (String × Node) → List (String × Value)
  | [] => []
  | (name, node) :: rest => (name, node.toValue) :: toValues rest

def toTables : List (List (String × Node)) → List Value
  | [] => []
  | fields :: rest => .table (toValues fields) :: toTables rest

end

end Node

abbrev Nodes := List (String × Node)

namespace Nodes

/-- A dotted key may pass through a table that only headers have on their path, but may not end there. -/
def admits (last : Bool) : Origin → Bool
  | .dotted => true
  | .implied => !last
  | .header => false

/-- Adds a value under a key, which is a path of names. -/
def define (value : Value) : List String → Nodes → Option Nodes
  | [], _ => none
  | [name], nodes =>
    match nodes.lookup name with
    | none => some (Table.insert name (.closed value) nodes)
    | some _ => none
  | name :: next :: rest, nodes => do
    let node ← match nodes.lookup name with
      | none => (define value (next :: rest) []).map (.table .dotted)
      | some (.table origin inner) =>
        if admits rest.isEmpty origin then
          (define value (next :: rest) inner).map (.table origin)
        else none
      | some (.tables (latest :: earlier)) =>
        if rest.isEmpty then none
        else (define value (next :: rest) latest).map fun latest => .tables (latest :: earlier)
      | _ => none
    return Table.insert name node nodes

/-- Changes the table at the end of a path of headers, making the tables on the way that are missing. -/
def modify (change : Nodes → Option Nodes) : List String → Nodes → Option Nodes
  | [], nodes => change nodes
  | name :: rest, nodes => do
    let node ← match nodes.lookup name with
      | none => (modify change rest []).map (.table .implied)
      | some (.table origin inner) => (modify change rest inner).map (.table origin)
      | some (.tables (latest :: earlier)) =>
        (modify change rest latest).map fun latest => .tables (latest :: earlier)
      | _ => none
    return Table.insert name node nodes

def openTable (name : String) (nodes : Nodes) : Option Nodes :=
  match nodes.lookup name with
  | none => some (Table.insert name (.table .header []) nodes)
  | some (.table .implied inner) => some (Table.insert name (.table .header inner) nodes)
  | _ => none

/-- Opens a further table of the list that a header names. -/
def openItem (name : String) (nodes : Nodes) : Option Nodes :=
  match nodes.lookup name with
  | none => some (Table.insert name (.tables [[]]) nodes)
  | some (.tables items) => some (Table.insert name (.tables ([] :: items)) nodes)
  | _ => none

end Nodes

end ShellCompletion.Document
