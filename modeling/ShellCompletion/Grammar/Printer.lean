import ShellCompletion.Grammar.Basic

/-!
# Writing a grammar as tokens

`Grammar.tokens` writes the flags in the order of their declaration and then the slots. Groups without
an explicit mark come back when the tokens are compiled; named sets are not written.
-/

namespace ShellCompletion

def Flag.token (flag : Flag) : String :=
  let group := match flag.explicitGroup with
    | some id => "(" ++ id ++ ")"
    | none => ""
  let star := if flag.repeatable then "*" else ""
  let spellings := match flag.aliases with
    | [] => flag.canonical
    | aliases => "\x7b" ++ ",".intercalate (flag.canonical :: aliases) ++ "\x7d"
  let actions := if flag.takesArguments then ":" ++ flag.chain.text else ""
  group ++ star ++ spellings ++ actions

def Slot.token (slot : Slot) : String :=
  ":" ++ (if slot.repeatable then "*" else "") ++ slot.chain.text

def Grammar.tokens (grammar : Grammar) : List String :=
  grammar.flags.map Flag.token ++ grammar.slots.map Slot.token

end ShellCompletion
