import ShellCompletion.Names
import ShellCompletion.Text.Cut

/-!
# Match policies

A policy says which candidates fit the text that is typed so far. `Policy.select` keeps the fitting
candidates in ascending order, each once.
-/

namespace ShellCompletion

inductive Policy where
  /-- The candidate begins with the typed text. -/
  | leading
  /-- The candidate names an entry of the directory that the typed text names. -/
  | path
  | custom (accepts : String → String → Bool)

namespace Policy

def beginsWith (candidate typed : String) : Bool := typed.toList.isPrefixOf candidate.toList

/-- A directory carries a slash at its end. -/
def dropSlash (candidate : List Char) : List Char :=
  if candidate.getLast? = some '/' then candidate.dropLast else candidate

/-- The directories agree and the name begins with the typed name; a name that begins with a dot is
hidden until the dot is typed. -/
def pathFits (candidate typed : String) : Bool :=
  let (directory, name) := Text.cutLast '/' (dropSlash candidate.toList)
  let (typedDirectory, typedName) := Text.cutLast '/' typed.toList
  directory == typedDirectory && typedName.isPrefixOf name &&
    (name.head? != some '.' || typedName.head? == some '.')

def fits : Policy → String → String → Bool
  | .leading, candidate, typed => beginsWith candidate typed
  | .path, candidate, typed => pathFits candidate typed
  | .custom accepts, candidate, typed => accepts candidate typed

def select (policy : Policy) (candidates : List String) (typed : String) : List String :=
  Names.ofList (candidates.filter (policy.fits · typed))

theorem beginsWith_iff {candidate typed : String} :
    beginsWith candidate typed = true ↔ typed.toList <+: candidate.toList := by
  simp [beginsWith]

theorem ascending_select (policy : Policy) (candidates : List String) (typed : String) :
    Names.Ascending (policy.select candidates typed) :=
  Names.ascending_ofList _

theorem mem_select {policy : Policy} {candidates : List String} {typed name : String} :
    name ∈ policy.select candidates typed ↔ name ∈ candidates ∧ policy.fits name typed = true := by
  simp [select]

end Policy

end ShellCompletion
