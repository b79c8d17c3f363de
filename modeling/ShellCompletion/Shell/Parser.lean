import ShellCompletion.Shell.Quoting

/-!
# Reading commands

A script is read one complete command after the other, so that what a command does can change how the next
one is read. `Reader.command?` reads the next command of a text.
-/

namespace ShellCompletion.Shell

open Text (Octets)

/-- The names that stand for commands which no function may take the place of. -/
def specialBuiltins : List String := [
  ".", ":", "break", "continue", "eval", "exec", "exit", "export", "local", "readonly", "return", "set",
  "shift", "times", "trap", "unset"]

namespace Reader

/-! ### Tokens -/

/-- Goes past blanks and a comment. -/
def skipBlanks : Nat → Reader Unit
  | 0 => return
  | fuel + 1 => do
    match ← peekJoined with
    | some ' ' | some '\t' =>
      advance
      skipBlanks fuel
    | some '#' =>
      skipComment maxJoints
      skipBlanks fuel
    | _ => return
where
  skipComment : Nat → Reader Unit
    | 0 => return
    | fuel + 1 => do
      match ← peek with
      | none | some '\n' => return
      | some _ =>
        advance
        skipComment fuel

def redirectionMark (number : Option Nat) : Reader (Nat × RedirectionKind) := do
  if ← accept '>' then
    let kind ←
      if ← accept '>' then pure (RedirectionKind.file .appended)
      else if ← accept '|' then pure (.file .forcedOutput)
      else if ← accept '&' then pure (.descriptor true)
      else pure (.file .output)
    return (number.getD 1, kind)
  else
    advance
    let kind ←
      if ← accept '<' then pure (RedirectionKind.document (← accept '-'))
      else if ← accept '&' then pure (.descriptor false)
      else if ← accept '>' then pure (.file .both)
      else pure (.file .input)
    return (number.getD 0, kind)

/-- The number before the mark of a redirection, if the word can be one. -/
def redirectionNumber? (draft : Draft) : Option (Option Nat) :=
  if draft.isQuoted then none
  else
    match draft.pieces with
    | [] => some none
    | [.char c false] => if c.isDigit then some (some (c.toNat - '0'.toNat)) else none
    | _ => none

/-- Reads a word, or the redirection that begins in its place. -/
def wordToken (commands : Bool → Reader (Option Command)) : Reader Token := do
  let draft ← wordChars commands maxName { frame := { quoting := .none, inDouble := false } }
  let word ← finish false draft
  let c ← peekJoined
  match redirectionNumber? draft with
  | some number =>
    if c = some '<' || c = some '>' then
      let redirection ← redirectionMark number
      modify ({ · with redirection })
      return .redirection
  | none => pure ()
  modify ({ · with word, wordIsQuoted := draft.isQuoted })
  return .word

/-- Reads a token, in which no words are told apart. -/
def plainToken (commands : Bool → Reader (Option Command)) : Reader Token := do
  if (← get).isPutBack then
    modify ({ · with isPutBack := false })
    return (← get).token
  skipBlanks maxJoints
  let double (second : Char) (yes no : Token) : Reader Token := do
    advance
    if ← accept second then return yes else return no
  let single (token : Token) : Reader Token := do
    advance
    return token
  let token ←
    match ← peekJoined with
    | none => pure .endOfFile
    | some '\n' => single .newline
    | some '&' => double '&' .andAlso .ampersand
    | some '|' => double '|' .orElse .bar
    | some ';' => double ';' .endOfCase .semicolon
    | some '(' => single .leftParen
    | some ')' => single .rightParen
    | some _ => wordToken commands
  modify ({ · with token })
  return token

/-- Goes past newlines if they mean nothing here. -/
def skipNewlines (commands : Bool → Reader (Option Command)) : Nat → Token → Reader Token
  | 0, token => return token
  | fuel + 1, token => do
    if token = .newline then
      readDocuments commands
      modify ({ · with lookout := {} })
      skipNewlines commands fuel (← plainToken commands)
    else return token

/-- Reads a token: reserved words and aliases are known as the lookout says. -/
def tokenFrom (commands : Bool → Reader (Option Command)) : Nat → Lookout → Reader Token
  | 0, _ => throw .tooDeep
  | fuel + 1, lookout => do
    let token ← plainToken commands
    let token ← if lookout.newlines then skipNewlines commands maxJoints token else pure token
    let reading ← get
    let found := reading.lookout
    let lookout := { lookout with
      reserved := lookout.reserved || found.reserved
      aliases := lookout.aliases || found.aliases }
    set { reading with lookout := {} }
    if token ≠ .word || reading.wordIsQuoted then return token
    match Word.plain? reading.word with
    | none => return token
    | some word =>
      let text := String.ofList word
      if lookout.reserved && text ∈ reservedWords then
        modify ({ · with token := .reserved text })
        return .reserved text
      else if lookout.aliases && reading.outer.all (·.1 != word) then
        match reading.aliases.lookup word with
        | some value =>
          modify fun reading =>
            { reading with text := value, outer := (word, reading.text) :: reading.outer }
          tokenFrom commands fuel lookout
        | none => return token
      else return token

def readToken (commands : Bool → Reader (Option Command)) : Reader Token := do
  tokenFrom commands maxJoints (← get).lookout

def lookOut (newlines reserved aliases : Bool) : Reader Unit :=
  modify ({ · with lookout := { newlines, reserved, aliases } })

/-- The last token is read again. -/
def putBack : Reader Unit := modify ({ · with isPutBack := true })

def unexpected {α : Type} (expected : Option Token) : Reader α := do
  let name := (← get).token.name ++ " unexpected"
  match expected with
  | some token => malformed (name ++ " (expecting " ++ token.name ++ ")")
  | none => malformed name

def expect (readToken : Reader Token) (token : Token) : Reader Unit := do
  if (← readToken) ≠ token then unexpected (some token)

/-! ### Commands -/

/-- The characters of a word without what quotes them. -/
def unquoted (word : Word) : Octets :=
  word.filterMap fun piece =>
    match piece with
    | .char c _ => some c
    | _ => none

def descriptorTarget? (word : Word) : Option Target :=
  match Word.plain? word with
  | some [c] =>
    if c.isDigit then some (.descriptor (some (c.toNat - '0'.toNat)))
    else if c = '-' then some (.descriptor none)
    else none
  | _ => none

def redirectionWord (readToken : Reader Token) : Reader Redirection := do
  let (number, kind) := (← get).redirection
  let isDocument := match kind with
    | .document _ => true
    | _ => false
  modify fun reading =>
    { reading with lookout := if isDocument then { delimiter := true } else reading.lookout }
  if (← readToken) ≠ .word then unexpected none
  let reading ← get
  let word := reading.word
  match kind with
  | .file use => return .redirect number (.file use word)
  | .descriptor forOutput =>
    return .redirect number ((descriptorTarget? word).getD (.expanded forOutput word))
  | .document stripsTabs =>
    let index := reading.nextDocument
    let expands := !reading.wordIsQuoted
    let document : PendingDocument := { index, delimiter := unquoted word, stripsTabs, expands }
    set { reading with pending := reading.pending ++ [document], nextDocument := index + 1 }
    return .redirect number (.document index expands)

def redirections (readToken : Reader Token) : Nat → Reader (List Redirection)
  | 0 => throw .tooDeep
  | fuel + 1 => do
    if (← readToken) = .redirection then
      let redirection ← redirectionWord readToken
      return redirection :: (← redirections readToken fuel)
    else
      putBack
      return []

structure SimpleDraft where
  assignments : List Word := []
  words : List Word := []
  redirections : List Redirection := []

/-- Reads the rest of a command that begins with a word or a redirection. -/
def simple (readToken : Reader Token) (command : Reader Command) (line : Nat) :
    (isStart : Bool) → Nat → SimpleDraft → Reader Command
  | _, 0, _ => throw .tooDeep
  | isStart, fuel + 1, draft => do
    if isStart then lookOut false false true
    let finish : Reader Command := do
      putBack
      return .simple line draft.assignments draft.words draft.redirections
    match ← readToken with
    | .word =>
      let word := (← get).word
      if isStart && Word.isAssignment word then
        simple readToken command line true fuel
          { draft with assignments := draft.assignments ++ [word] }
      else simple readToken command line false fuel { draft with words := draft.words ++ [word] }
    | .redirection =>
      let redirection ← redirectionWord readToken
      simple readToken command line isStart fuel
        { draft with redirections := draft.redirections ++ [redirection] }
    | .leftParen =>
      match draft.words, draft.assignments, draft.redirections with
      | [word], [], [] =>
        expect readToken .rightParen
        match Word.plain? word with
        | some name =>
          if !isName name || String.ofList name ∈ specialBuiltins then malformed "Bad function name"
          lookOut true true true
          return .function name (← command)
        | none => malformed "Bad function name"
      | _, _, _ => finish
    | _ => finish

/-- Reads the words of a loop up to the end of their line. -/
def loopWords (readToken : Reader Token) : Nat → Reader (List Word)
  | 0 => throw .tooDeep
  | fuel + 1 => do
    match ← readToken with
    | .word =>
      let word := (← get).word
      return word :: (← loopWords readToken fuel)
    | .newline | .semicolon => return []
    | _ => unexpected none

/-- Reads the patterns of a case; the first of them has been read. -/
def patterns (readToken : Reader Token) : Nat → Reader (List Word)
  | 0 => throw .tooDeep
  | fuel + 1 => do
    let word := (← get).word
    if (← readToken) = .bar then
      let _ ← readToken
      return word :: (← patterns readToken fuel)
    else
      if (← get).token ≠ .rightParen then unexpected (some .rightParen)
      return [word]

/-- Reads cases up to the end of the choice. -/
def cases (readToken : Reader Token) (body : Reader (Option Command)) :
    Nat → Reader (List (List Word × Option Command))
  | 0 => throw .tooDeep
  | fuel + 1 => do
    lookOut true true false
    let token ← readToken
    if token = .reserved "esac" then return []
    if token = .leftParen then
      let _ ← readToken
    let words ← patterns readToken maxJoints
    let command ← body
    lookOut true true false
    let token ← readToken
    if token = .reserved "esac" then return [(words, command)]
    if token ≠ .endOfCase then unexpected (some .endOfCase)
    return (words, command) :: (← cases readToken body fuel)

/-- Reads the rest of a conditional, from its test on. -/
def conditional (readToken : Reader Token) (list : Reader Command) : Nat → Reader Command
  | 0 => throw .tooDeep
  | fuel + 1 => do
    let test ← list
    expect readToken (.reserved "then")
    let yes ← list
    match ← readToken with
    | .reserved "elif" => return .conditional test yes (some (← conditional readToken list fuel))
    | .reserved "else" => return .conditional test yes (some (← list))
    | _ =>
      putBack
      return .conditional test yes none

/-- The arguments of the script or function, each a word. -/
def allArguments : Word := [.mark, .parameter ['@'] .value [], .mark]

/-- Reads a loop over words, from the name of its variable on. -/
def eachLoop (readToken : Reader Token) (list : Reader Command) (line : Nat) : Reader Command := do
  let token ← readToken
  let reading ← get
  match token, Word.plain? reading.word with
  | .word, some name =>
    if reading.wordIsQuoted || !isName name then malformed "Bad for loop variable"
    lookOut true true true
    let words ←
      match ← readToken with
      | .reserved "in" => loopWords readToken maxJoints
      | .semicolon => pure [allArguments]
      | _ => do
        putBack
        pure [allArguments]
    lookOut true true true
    expect readToken (.reserved "do")
    return .each line name words (← list)
  | _, _ => malformed "Bad for loop variable"

def choice (readToken : Reader Token) (body : Reader (Option Command)) (line : Nat) :
    Reader Command := do
  expect readToken .word
  let word := (← get).word
  lookOut true true true
  expect readToken (.reserved "in")
  return .choice line word (← cases readToken body maxJoints)

def redirected (line : Nat) (command : Command) : List Redirection → Command
  | [] => command
  | redirections =>
    match command with
    | .subshell line inner _ => .subshell line inner redirections
    | command => .redirected line command redirections

/-- Reads a command. `list` reads the commands within one, and `body` those of a case. -/
def commandWith (readToken : Reader Token) (list body : Reader (Option Command))
    (command : Reader Command) : Reader Command := do
  let line := (← get).line
  let inner : Reader Command := return (← list).getD default
  let closed (made : Command) (token : String) : Reader Command := do
    expect readToken (.reserved token)
    return made
  let compound (made : Command) : Reader Command := do
    lookOut false true true
    return redirected line made (← redirections readToken maxJoints)
  match ← readToken with
  | .reserved "if" => compound (← closed (← conditional readToken inner maxJoints) "fi")
  | .reserved "while" =>
    let test ← inner
    expect readToken (.reserved "do")
    compound (← closed (.loop false test (← inner)) "done")
  | .reserved "until" =>
    let test ← inner
    expect readToken (.reserved "do")
    compound (← closed (.loop true test (← inner)) "done")
  | .reserved "for" => compound (← closed (← eachLoop readToken inner line) "done")
  | .reserved "case" => compound (← choice readToken body line)
  | .reserved "\x7b" => compound (← closed (← inner) "\x7d")
  | .leftParen =>
    let made ← list
    expect readToken .rightParen
    compound (.subshell line made [])
  | .word | .redirection =>
    putBack
    simple readToken command (← get).line true maxJoints {}
  | _ => unexpected none

def pipelineRest (readToken : Reader Token) (command : Reader Command) : Nat → Reader (List Command)
  | 0 => throw .tooDeep
  | fuel + 1 => do
    if (← readToken) = .bar then
      lookOut true true true
      let next ← command
      return next :: (← pipelineRest readToken command fuel)
    else
      putBack
      return []

def pipeline (readToken : Reader Token) (command : Reader Command) : Reader Command := do
  let isNegated := (← readToken) = .reserved "!"
  if isNegated then lookOut false true true else putBack
  let first ← command
  let rest ← pipelineRest readToken command maxJoints
  let made := if rest.isEmpty then first else .pipeline false (first :: rest)
  return if isNegated then .negation made else made

/-- Reads the rest of a chain of pipelines that depend on each other. -/
def chainRest (readToken : Reader Token) (command : Reader Command) : Nat → Command → Reader Command
  | 0, _ => throw .tooDeep
  | fuel + 1, first => do
    match ← readToken with
    | .andAlso =>
      lookOut true true true
      chainRest readToken command fuel (.both first (← pipeline readToken command))
    | .orElse =>
      lookOut true true true
      chainRest readToken command fuel (.either first (← pipeline readToken command))
    | _ =>
      putBack
      return first

def inBackground (line : Nat) : Command → Command
  | .pipeline _ commands => .pipeline true commands
  | .redirected line command redirections => .background line command redirections
  | command => .background line command []

inductive ListKind where
  | line
  /-- The commands within a compound command, of which there is at least one. -/
  | compound
  /-- The commands of a case or a substitution. -/
  | body
deriving DecidableEq

/-- Reads commands one after the other; `made` are those before them. -/
def listRest (commands : Bool → Reader (Option Command)) (command : Reader Command) (kind : ListKind) :
    Nat → Option Command → Reader (Option Command)
  | 0, _ => throw .tooDeep
  | fuel + 1, made => do
    let readToken := readToken commands
    lookOut (kind ≠ .line) true true
    match ← readToken with
    | .newline =>
      readDocuments commands
      return made
    | .endOfFile =>
      readDocuments commands
      putBack
      modify ({ · with token := .endOfFile })
      return made
    | token =>
      putBack
      if kind ≠ .line && (kind = .body || made.isSome) && token.endsList then return made
      let next ← chainRest readToken command maxJoints (← pipeline readToken command)
      let token ← readToken
      let line := (← get).line
      let next := if token = .ampersand then inBackground line next else next
      let made := match made with
        | some made => Command.sequence made next
        | none => next
      match token with
      | .newline | .endOfFile =>
        putBack
        listRest commands command kind fuel (some made)
      | .ampersand | .semicolon => listRest commands command kind fuel (some made)
      | _ =>
        if kind = .line then unexpected none
        putBack
        return some made

mutual

def list : Nat → ListKind → Reader (Option Command)
  | 0, _ => throw .tooDeep
  | fuel + 1, kind => listRest (substitution fuel) (command fuel) kind maxJoints none

/-- Reads the commands of a substitution, with the parenthesis that closes it if it has one. -/
def substitution : Nat → Bool → Reader (Option Command)
  | 0, _ => throw .tooDeep
  | fuel + 1, isClosed => do
    let command ← list fuel .body
    if isClosed then expect (readToken (substitution fuel)) .rightParen
    return command

def command : Nat → Reader Command
  | 0 => throw .tooDeep
  | fuel + 1 =>
    commandWith (readToken (substitution fuel)) (list fuel .compound) (list fuel .body)
      (command fuel)

end

/-- Commands may nest this deep. -/
def maxDepth : Nat := 100000

end Reader

inductive Parsed where
  | endOfInput
  /-- The command of the next lines, if they hold one, and what is left to read. -/
  | command (command : Option Command) (rest : Reading)

def Reading.parse (reading : Reading) : Except ReadStop Parsed :=
  let start := { reading with isPutBack := false, lookout := {}, pending := [] }
  match (Reader.list Reader.maxDepth .line).run start with
  | .ok (some command, rest) => .ok (.command (some command) rest)
  | .ok (none, rest) => .ok (if rest.token = .endOfFile then .endOfInput else .command none rest)
  | .error stop => .error stop

end ShellCompletion.Shell
