import ShellCompletion.Engine

/-!
# Explanations as JSON

`Json.pretty` writes a value over several lines, two spaces for each level, with empty lists and objects
on one line. The keys of an explanation come in a fixed order.
-/

namespace ShellCompletion.Report

inductive Json where
  | null
  | number (value : Nat)
  | text (value : String)
  | list (items : List Json)
  | object (fields : List (String × Json))

namespace Json

def hexDigit (value : Nat) : Char := Nat.digitChar (value % 16)

/-- A character as it is written inside quotes. -/
def escape (c : Char) : List Char :=
  match c with
  | '"' => ['\\', '"']
  | '\\' => ['\\', '\\']
  | '\n' => ['\\', 'n']
  | '\r' => ['\\', 'r']
  | '\t' => ['\\', 't']
  | '\x08' => ['\\', 'b']
  | '\x0C' => ['\\', 'f']
  | c =>
    if c.toNat < 0x20 then ['\\', 'u', '0', '0', hexDigit (c.toNat / 16), hexDigit c.toNat] else [c]

def quote (text : String) : String :=
  "\"" ++ String.ofList (text.toList.flatMap escape) ++ "\""

def indent (depth : Nat) : String := "".pushn ' ' (2 * depth)

/-- The items of a list or object on lines of their own between brackets. -/
def block (depth : Nat) (opening closing : String) : List String → String
  | [] => opening ++ closing
  | items =>
    let separator := ",\n" ++ indent (depth + 1)
    opening ++ "\n" ++ indent (depth + 1) ++ separator.intercalate items ++ "\n" ++ indent depth ++
      closing

mutual

def prettyAt (depth : Nat) : Json → String
  | .null => "null"
  | .number value => toString value
  | .text value => quote value
  | .list items => block depth "[" "]" (prettyItems (depth + 1) items)
  | .object fields => block depth "\x7b" "\x7d" (prettyFields (depth + 1) fields)

def prettyItems (depth : Nat) : List Json → List String
  | [] => []
  | item :: rest => prettyAt depth item :: prettyItems depth rest

def prettyFields (depth : Nat) : List (String × Json) → List String
  | [] => []
  | (name, value) :: rest => (quote name ++ ": " ++ prettyAt depth value) :: prettyFields depth rest

end

def pretty (json : Json) : String := prettyAt 0 json

def ofTexts (texts : List String) : Json := .list (texts.map .text)

def ofAction : Action → Json
  | .literal => .object [("kind", .text "literal")]
  | .state name => .object [("kind", .text "named_state"), ("name", .text name)]
  | .function name => .object [("kind", .text "function"), ("name", .text name)]
  | .nothing => .object [("kind", .text "empty")]

def ofRole : Option Role → Json
  | some .command => .text "command"
  | some .flag => .text "flag"
  | some .argument => .text "option_argument"
  | some .positional => .text "positional"
  | none => .null

def ofParse (parse : Parse) : Json :=
  .object [
    ("line", ofTexts parse.line),
    ("opts", ofTexts parse.opts),
    ("excluded", ofTexts parse.excluded),
    ("cursor", .number parse.cursor),
    ("current", .text parse.current),
    ("opt_args", .object (parse.arguments.map fun (spelling, values) => (spelling, ofTexts values))),
    ("words", .object (parse.classes.zipIdx.map fun (word, index) =>
      (toString index, .object [("action", ofAction word.action), ("role", ofRole word.role)])))]

def ofExplanation (explanation : Explanation) : Json :=
  .object [
    ("offset", .number explanation.offset),
    ("words", ofTexts explanation.words),
    ("cursor", .number explanation.cursor),
    ("action", ofAction explanation.action),
    ("role", ofRole explanation.role),
    ("parse", ofParse explanation.parse),
    ("suggestions", ofTexts explanation.suggestions)]

end Json

end ShellCompletion.Report
