import ShellCompletion.Shell.Pattern

/-!
# Fields

An expanded word is a sequence of cells. Some of them came from expansions and are split into fields: at
separators, or only where arguments end. Blanks among the separators count as one, and none stands at an
end.
-/

namespace ShellCompletion.Shell

open Text (Octets)

/-- Where a character of an expanded word comes from. -/
inductive Area where
  /-- It is not split. -/
  | fixed
  /-- It is split at separators, together with its neighbours of the same number. -/
  | splits (number : Nat)
  /-- It is split where arguments end. -/
  | breaks (number : Nat)
deriving DecidableEq, Repr

inductive Cell where
  | char (c : Char) (escaped : Bool) (area : Area)
  /-- Something is quoted here, so that there is a field even if it is empty. -/
  | mark
deriving DecidableEq, Repr

namespace Cell

def area : Cell → Area
  | char _ _ area => area
  | mark => .fixed

def fixed (cell : Cell) : Cell :=
  match cell with
  | char c escaped _ => char c escaped .fixed
  | mark => mark

def text (cells : List Cell) : Octets :=
  cells.filterMap fun cell =>
    match cell with
    | char c _ _ => if c == '\x00' then none else some c
    | mark => none

def pattern (cells : List Cell) : Pattern :=
  cells.filterMap fun cell =>
    match cell with
    | char c escaped _ => if c == '\x00' then none else some (c, escaped)
    | mark => none

end Cell

namespace Fields

/-- Cells in a row that have the same area. -/
def runs (cells : List Cell) : List (Area × List Cell) :=
  cells.foldr (fun cell runs =>
    match runs with
    | (area, cells) :: rest =>
      if area = cell.area then (area, cell :: cells) :: rest
      else (cell.area, [cell]) :: (area, cells) :: rest
    | [] => [(cell.area, [cell])]) []

def isBlank (c : Char) : Bool := c == ' ' || c == '\t' || c == '\n'

/-- A character that ends a field. The end of an argument always does. -/
def separates (separators : Octets) (c : Char) : Bool := c == '\x00' || separators.contains c

/-- The end of an argument counts as a blank. -/
def isSoft (c : Char) : Bool := isBlank c || c == '\x00'

structure Draft where
  /-- The latest first. -/
  fields : List (List Cell) := []
  /-- The latest cell first. -/
  field : List Cell := []
  /-- The run before was split only where arguments end. -/
  afterBreaks : Bool := false

def Draft.close (draft : Draft) : Draft :=
  { draft with fields := draft.field.reverse :: draft.fields, field := [] }

/-- What is left of a run after the separators that belong to the one before: blanks and, after a blank,
one that is none. -/
def skip (separators : Octets) : (mayTakeOne : Bool) → List Cell → List Cell
  | mayTakeOne, .char c escaped area :: rest =>
    if !separates separators c then .char c escaped area :: rest
    else if isSoft c then skip separators mayTakeOne rest
    else if mayTakeOne then skip separators false rest
    else .char c escaped area :: rest
  | _, rest => rest

theorem length_skip_le (separators : Octets) (mayTakeOne : Bool) (cells : List Cell) :
    (skip separators mayTakeOne cells).length ≤ cells.length := by
  fun_induction skip separators mayTakeOne cells <;> simp_all <;> omega

/-- Splits a run at separators. After arguments every single one of them ends a field. -/
def splitRun (separators : Octets) (draft : Draft) (cells : List Cell) : Draft :=
  match cells with
  | [] => draft
  | .mark :: rest => splitRun separators { draft with field := .mark :: draft.field } rest
  | .char c escaped area :: rest =>
    if !separates separators c then
      splitRun separators { draft with field := .char c escaped area :: draft.field } rest
    else if draft.afterBreaks then splitRun separators draft.close rest
    else if isSoft c && draft.field.isEmpty then splitRun separators draft rest
    else
      have := length_skip_le separators (isSoft c) rest
      splitRun separators draft.close (skip separators (isSoft c) rest)
termination_by cells.length

/-- Splits a run where arguments end. -/
def breakRun : Draft → List Cell → Draft
  | draft, [] => draft
  | draft, .char c escaped area :: rest =>
    if c == '\x00' then breakRun draft.close rest
    else breakRun { draft with field := .char c escaped area :: draft.field } rest
  | draft, .mark :: rest => breakRun { draft with field := .mark :: draft.field } rest

def addRun (separators : Octets) (draft : Draft) : Area × List Cell → Draft
  | (.fixed, cells) => { draft with field := cells.reverse ++ draft.field }
  | (.splits _, cells) =>
    { splitRun separators draft cells with afterBreaks := false }
  | (.breaks _, cells) => { breakRun draft cells with afterBreaks := true }

def split (separators : Octets) (cells : List Cell) : List (List Cell) :=
  let draft := (runs cells).foldl (addRun separators) {}
  let endsInBreaks := match (runs cells).reverse.find? (·.1 != .fixed) with
    | some (.breaks _, _) => true
    | _ => false
  let draft := if draft.field.isEmpty && !endsInBreaks then draft else draft.close
  draft.fields.reverse

/-! ### Fields for variables -/

/-- What is read of a line for a number of variables. -/
structure LineDraft where
  /-- How many variables there are for fields that have not ended. -/
  left : Nat
  /-- The latest first. -/
  fields : List Octets := []
  /-- The latest character first. -/
  field : Octets := []
  /-- The field before the separators at its end. -/
  trimmed : Option Octets := none
  /-- A blank has come last, and it belongs to a separator. -/
  afterBlank : Bool := false
  area : Area := .fixed

namespace LineDraft

def push (draft : LineDraft) (c : Char) : LineDraft := { draft with field := c :: draft.field }

/-- Reads a character while the last variable takes all that is left. -/
def addLast (separators : Octets) (draft : LineDraft) (c : Char) : LineDraft :=
  if separators.contains c && isBlank c then
    { draft.push c with trimmed := some (draft.trimmed.getD draft.field) }
  else
    let trimmed := if separators.contains c && draft.afterBlank then draft.trimmed else none
    { draft.push c with trimmed, afterBlank := false }

/-- Ends a field at a separator, unless it is the last. -/
def endField (draft : LineDraft) (c : Char) : LineDraft :=
  let afterBlank := isBlank c
  if draft.left ≤ 1 then
    { draft.push c with left := 0, trimmed := some draft.field, afterBlank }
  else
    { draft with
      left := draft.left - 1
      fields := draft.field.reverse :: draft.fields
      field := []
      afterBlank }

def add (separators : Octets) (draft : LineDraft) (cell : Cell) : LineDraft :=
  match cell with
  | .mark => draft
  | .char c _ .fixed => draft.push c
  | .char c _ area =>
    let draft := if draft.area = area then draft else { draft with area, afterBlank := false }
    if draft.left = 0 then addLast separators draft c
    else if !separators.contains c then { draft.push c with afterBlank := false }
    else if draft.afterBlank then
      if isBlank c then draft else { draft with afterBlank := false }
    else if draft.field.isEmpty && isBlank c then draft
    else draft.endField c

end LineDraft

/-- The values of `count` variables that a line is read into. -/
def ofLine (separators : Octets) (count : Nat) (cells : List Cell) : List Octets :=
  let draft := cells.foldl (LineDraft.add separators) { left := count }
  let last := (draft.trimmed.getD draft.field).reverse
  let fields := (last :: draft.fields).reverse
  fields ++ List.replicate (count - fields.length) []

end Fields

end ShellCompletion.Shell
