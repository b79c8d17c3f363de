import ShellCompletion.Word

/-!
# Document values

A document is a table of values in TOML. Nothing depends on which number a float is or on which moment a
date-time names, so only their presence is kept. The accessors give what a value holds if it is of the
kind that is asked for; `fields?` sees a value as a record.
-/

namespace ShellCompletion.Document

inductive Value where
  | text (value : String)
  | integer (value : Int)
  | boolean (value : Bool)
  | float
  | dateTime
  | list (items : List Value)
  | table (fields : List (String × Value))
deriving Repr

namespace Value

def text? : Value → Option String
  | .text value => some value
  | _ => none

def boolean? : Value → Option Bool
  | .boolean value => some value
  | _ => none

/-- A count is a natural number that fits into 64 bits. -/
def count? : Value → Option Nat
  | .integer value => if 0 ≤ value ∧ value < wordBound then some value.toNat else none
  | _ => none

def texts? : Value → Option (List String)
  | .list items => items.mapM text?
  | _ => none

/-- The name of a variant: a text, or the only name of a table under which nothing stands. -/
def variant? : Value → Option String
  | .text name => some name
  | .table [(name, .table [])] => some name
  | .table [(name, .list [])] => some name
  | _ => none

/-- The fields of a record whose fields have these `names`. A list gives the fields in this order. A
date-time is a record with one field, whose name no record has. -/
def fields? (names : List String) : Value → Option (List (String × Value))
  | .table fields => some fields
  | .list items => some (names.zip items)
  | .dateTime => some [("", .dateTime)]
  | _ => none

end Value

/-- What `read` makes of the field `name`, or `default` if there is none. -/
def field {α : Type} (fields : List (String × Value)) (name : String) (read : Value → Option α)
    (default : α) : Option α :=
  match fields.lookup name with
  | some value => read value
  | none => some default

end ShellCompletion.Document
