/-!
# Faults in grammar tokens

A token list is refused with the first token that is at fault. `Fault.message` and `TokenError.message`
hold the wording.
-/

namespace ShellCompletion

inductive Fault where
  | emptyToken
  | unknownForm
  | unclosedGroup
  | blankGroup
  | unclosedAliases
  | noSpelling
  | badSpelling (text : String)
  | unknownSet (name : String)
  /-- The spellings belong to two flags already and one of them is new. -/
  | conflictingAliases (first second : String)
  | badName (name : String)
  | misplacedRepeat (action : String)
  | unclosedFunction (action : String)
deriving DecidableEq, Repr

def Fault.message : Fault → String
  | .emptyToken => "empty token"
  | .unknownForm => "expected a flag, positional slot or `+` set switch"
  | .unclosedGroup => "unterminated exclusion-group prefix"
  | .blankGroup => "empty exclusion-group id"
  | .unclosedAliases => "unterminated alias set"
  | .noSpelling => "missing flag spelling"
  | .badSpelling text => "flag spelling '" ++ text ++ "' must start with '-'"
  | .unknownSet name => "unknown named set '@" ++ name ++ "'"
  | .conflictingAliases first second =>
    "'" ++ first ++ "' and '" ++ second ++ "' already name different flags"
  | .badName name => "invalid name '" ++ name ++ "'"
  | .misplacedRepeat action => "only the last action may repeat, found '*" ++ action ++ "'"
  | .unclosedFunction action => "function action '" ++ action ++ "' must end with '()'"

structure TokenError where
  index : Nat
  token : String
  fault : Fault
deriving DecidableEq, Repr

def TokenError.message (error : TokenError) : String :=
  "token #" ++ toString error.index ++ " `" ++ error.token ++ "`: " ++ error.fault.message

end ShellCompletion
