import ShellCompletion.Grammar.Declaration

/-!
# Compiling a token list

Declarations are taken one by one into a draft. A flag declaration joins the record that one of its
spellings is bound to, updates several records when it only mentions spellings that are bound already,
and otherwise makes a new record.
-/

namespace ShellCompletion

/-- A grammar in the making, with the named set that new flags join. -/
structure Draft where
  grammar : Grammar := {}
  current : Option String := none
deriving DecidableEq, Repr

/-- What a declaration says about a flag overrides or adds to what is known of it. -/
def Flag.amend (flag : Flag) (declared : FlagDeclaration) (fresh : List String) : Flag :=
  { flag with
    aliases := flag.aliases ++ fresh
    explicitGroup := declared.group <|> flag.explicitGroup
    chain := declared.chain.getD flag.chain
    repeatable := flag.repeatable || declared.repeatable }

def Flag.ofDeclaration (declared : FlagDeclaration) : Flag :=
  { canonical := declared.first
    aliases := declared.others
    explicitGroup := declared.group
    chain := declared.chain.getD {}
    repeatable := declared.repeatable }

namespace Draft

/-- The flag has a spelling that the declaration mentions. -/
def touches (declared : FlagDeclaration) (flag : Flag) : Bool :=
  flag.spellings.any (· ∈ declared.spellings)

/-- The spellings of the declaration that are not bound yet. -/
def fresh (draft : Draft) (declared : FlagDeclaration) : List String :=
  declared.spellings.filter fun spelling => (draft.grammar.flag? spelling).isNone

def declareFlag (draft : Draft) (declared : FlagDeclaration) : Except Fault (List Flag) :=
  let flags := draft.grammar.flags
  match flags.filter (touches declared), draft.fresh declared with
  | [], _ => .ok (flags ++ [Flag.ofDeclaration declared])
  | first :: second :: _, _ :: _ => .error (.conflictingAliases first.canonical second.canonical)
  | _, fresh =>
    .ok (flags.map fun flag => if touches declared flag then flag.amend declared fresh else flag)

/-- Adds spellings to the named set that is open. -/
def collect (draft : Draft) (spellings : List String) : List (String × List String) :=
  draft.grammar.sets.map fun (name, members) =>
    if draft.current = some name then (name, Names.addNew members spellings) else (name, members)

def openSet (grammar : Grammar) (name : String) : Grammar :=
  if (grammar.namedSet? name).isSome then grammar
  else { grammar with sets := grammar.sets ++ [(name, [])] }

def declare (draft : Draft) : Declaration → Except Fault Draft
  | .set none => .ok { draft with current := none }
  | .set (some name) => .ok { grammar := openSet draft.grammar name, current := some name }
  | .slot slot =>
    .ok { draft with grammar := { draft.grammar with slots := draft.grammar.slots ++ [slot] } }
  | .flag declared => do
    let flags ← draft.declareFlag declared
    return { draft with
      grammar := { draft.grammar with flags, sets := draft.collect declared.spellings } }

def addToken (draft : Draft) (token : String) : Except Fault Draft := do
  draft.declare (← Declaration.read draft.grammar.namedSet? token)

/-- Takes the tokens in order, the first of them having position `index` in the whole list. -/
def addTokens (draft : Draft) (index : Nat) : List String → Except TokenError Draft
  | [] => .ok draft
  | token :: rest =>
    match draft.addToken token with
    | .ok next => next.addTokens (index + 1) rest
    | .error fault => .error { index, token, fault }

end Draft

def Grammar.compile (tokens : List String) : Except TokenError Grammar :=
  (Draft.addTokens {} 0 tokens).map (·.grammar)

end ShellCompletion
