import ShellCompletion.Document.Reader
import ShellCompletion.Specification.Basic

/-!
# Reading specifications

A specification is a document with a table `commands`. Fields that are not known are refused.
-/

namespace ShellCompletion

open Document

namespace StateSpec

def policy? : String → Option Policy
  | "prefix" => some .leading
  | "path" => some .path
  | _ => none

def fieldNames : List String :=
  ["command", "words", "function", "state", "cache_ttl_secs", "timeout_ms", "match"]

def set? (spec : StateSpec) (name : String) (value : Value) : Option StateSpec :=
  match name with
  | "command" => value.texts?.map fun command => { spec with command := some command }
  | "words" => value.texts?.map fun words => { spec with words := some words }
  | "function" => value.text?.map fun name => { spec with function := some name }
  | "state" => value.text?.map fun name => { spec with state := some name }
  | "cache_ttl_secs" => value.count?.map fun lifetime => { spec with lifetime := some lifetime }
  | "timeout_ms" => value.count?.map fun timeout => { spec with timeout := some timeout }
  | "match" => (value.variant?.bind policy?).map fun policy => { spec with policy }
  | _ => none

/-- A state; one that is written as a list may only leave out the match policy. -/
def ofValue? (value : Value) : Option StateSpec :=
  match value with
  | .list items => if items.length + 1 < fieldNames.length then none else read value
  | _ => read value
where
  read (value : Value) : Option StateSpec := do
    (← value.fields? fieldNames).foldlM (fun spec (name, value) => spec.set? name value) {}

end StateSpec

/-- The fields of a table in order, each read by `read?`. -/
def tableOf? {α : Type} (read? : Value → Option α) : Value → Option (List (String × α))
  | .table fields => fields.mapM fun (name, value) => (read? value).map (name, ·)
  | _ => none

namespace CommandSpec

mutual

def ofValue? : Value → Option CommandSpec
  | .table fields => ofFields? fields
  | .list [] => some {}
  | .list [tokens] => tokens.texts?.map fun tokens => { tokens }
  | .list [tokens, states] => do
    return { tokens := ← tokens.texts?, states := ← tableOf? StateSpec.ofValue? states }
  | .list (tokens :: states :: subcommands :: _) => do
    return {
      tokens := ← tokens.texts?
      states := ← tableOf? StateSpec.ofValue? states
      subcommands := ← ofTable? subcommands }
  | _ => none

def ofFields? : List (String × Value) → Option CommandSpec
  | [] => some {}
  | (name, value) :: rest => do
    let spec ← ofFields? rest
    match name with
    | "tokens" => return { spec with tokens := ← value.texts? }
    | "states" => return { spec with states := ← tableOf? StateSpec.ofValue? value }
    | "subcommands" => return { spec with subcommands := ← ofTable? value }
    | _ => none

def ofTable? : Value → Option (List (String × CommandSpec))
  | .table fields => ofEntries? fields
  | _ => none

def ofEntries? : List (String × Value) → Option (List (String × CommandSpec))
  | [] => some []
  | (name, value) :: rest => do return (name, ← ofValue? value) :: (← ofEntries? rest)

end

end CommandSpec

/-- The commands of a specification by their names. -/
abbrev Specification := List (String × CommandSpec)

def Specification.read? (text : String) : Option Specification := do
  match ← Document.read? text with
  | [] => some []
  | [("commands", value)] => CommandSpec.ofTable? value
  | _ => none

end ShellCompletion
