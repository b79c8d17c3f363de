import ShellCompletion.Engine
import ShellCompletion.Report.Style

/-!
# Explanations as text

`Explanation.render` writes one line for each part of an explanation, the suggestions last. Colour adds
style sequences around the parts and nothing else.
-/

namespace ShellCompletion

namespace Report

def describeAction : Action → String
  | .literal => "literal flags"
  | .state name => "state " ++ name
  | .function name => "function " ++ name ++ "()"
  | .nothing => "nothing"

def describeRole : Option Role → String
  | some .command => "command"
  | some .flag => "flag"
  | some .argument => "option argument"
  | some .positional => "positional"
  | none => "none"

def labelWidth : Nat := 12

def line (color : Bool) (label text : String) : String :=
  Style.label.paint color (label.pushn ' ' (labelWidth - label.length)) ++ text ++ "\n"

/-- The words between spaces, the one at the cursor in brackets; brackets alone stand for a new word. -/
def words (color : Bool) (explanation : Explanation) : String :=
  let shown := explanation.words.zipIdx.map fun (word, index) =>
    if index = explanation.cursor then Style.cursorWord.paint color ("[" ++ word ++ "]") else word
  let newWord :=
    if explanation.words.length ≤ explanation.cursor then [Style.newWord.paint color "[]"] else []
  " ".intercalate (shown ++ newWord)

end Report

open Report in
def Explanation.render (explanation : Explanation) (color : Bool) : String :=
  let parse := explanation.parse
  line color "words" (Report.words color explanation) ++
  (if 0 < explanation.offset then line color "subcommand" (toString explanation.offset) else "") ++
  line color "role" (describeRole explanation.role) ++
  line color "action" (Style.action.paint color (describeAction explanation.action)) ++
  line color "flags" (" ".intercalate parse.opts) ++
  line color "excluded" (Style.excluded.paint color (" ".intercalate parse.excluded)) ++
  line color "positional" (" ".intercalate parse.line) ++
  line color "suggestions" (toString explanation.suggestions.length) ++
  String.join (explanation.suggestions.map fun suggestion =>
    "  " ++ Style.suggestion.paint color suggestion ++ "\n")

end ShellCompletion
