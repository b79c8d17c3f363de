import ShellCompletion.Text.Cut

/-!
# Guarded operations

The operations that a request does with positions, each of which fails where a position is out of range.
A position in a text counts octets and has to lie between two characters. What is built from guarded
operations and answers for every input, never leaves the range.
-/

namespace ShellCompletion.Guarded

variable {α : Type}

/-- Positions are never negative. -/
def sub (a b : Nat) : Option Nat := if b ≤ a then some (a - b) else none

/-- A sum has room where `limit` has. -/
def add (limit a b : Nat) : Option Nat := if a + b ≤ limit then some (a + b) else none

def clamp (value low high : Nat) : Option Nat :=
  if low ≤ high then some (max low (min value high)) else none

def slice (items : List α) (first last : Nat) : Option (List α) :=
  if first ≤ last ∧ last ≤ items.length then some ((items.take last).drop first) else none

/-- Keeps what is accepted, if the test answers for every item. -/
def filter (accepts : α → Option Bool) : List α → Option (List α)
  | [] => some []
  | item :: rest => do
    let kept ← accepts item
    let others ← filter accepts rest
    return if kept then item :: others else others

section Numbers

variable {limit a b c value low high : Nat}

theorem sub_of_le (h : b ≤ a) : sub a b = some (a - b) := if_pos h

theorem add_of_le (h : a + b ≤ limit) : add limit a b = some (a + b) := if_pos h

theorem clamp_of_le (h : low ≤ high) : clamp value low high = some (max low (min value high)) := if_pos h

end Numbers

theorem slice_of_le {items : List α} {first last : Nat} (ordered : first ≤ last)
    (inside : last ≤ items.length) : slice items first last = some ((items.take last).drop first) :=
  if_pos ⟨ordered, inside⟩

theorem slice_to_end {items : List α} {first : Nat} (inside : first ≤ items.length) :
    slice items first items.length = some (items.drop first) := by
  rw [slice_of_le inside (Nat.le_refl _), List.take_length]

theorem filter_of_total {accepts : α → Option Bool} {keeps : α → Bool}
    (total : ∀ item, accepts item = some (keeps item)) (items : List α) :
    filter accepts items = some (items.filter keeps) := by
  induction items with
  | nil => rfl
  | cons item rest ih =>
    rw [filter, total, ih, List.filter_cons]
    rfl

/-! ### Texts -/

def octets : List Char → Nat
  | [] => 0
  | c :: rest => c.utf8Size + octets rest

/-- The text before an octet and the text from it on, if the octet is the first of a character. -/
def splitOctets : List Char → Nat → Option (List Char × List Char)
  | [], position => if position = 0 then some ([], []) else none
  | c :: rest, position =>
    if position = 0 then some ([], c :: rest)
    else if position < c.utf8Size then none
    else (splitOctets rest (position - c.utf8Size)).map fun (front, back) => (c :: front, back)

def sliceText (text : List Char) (first last : Nat) : Option (List Char) := do
  let (front, _) ← splitOctets text last
  let (_, part) ← splitOctets front first
  return part

/-- The position of the last `mark`. -/
def lastMark? (mark : Char) : List Char → Option Nat
  | [] => none
  | c :: rest =>
    match lastMark? mark rest with
    | some position => some (c.utf8Size + position)
    | none => if c = mark then some 0 else none

/-- A path after its last slash. -/
def splitPath (path : List Char) : Option (List Char × List Char) :=
  match lastMark? '/' path with
  | none => some ([], path)
  | some position => do
    let start ← add (octets path) position 1
    let directory ← sliceText path 0 start
    let name ← sliceText path start (octets path)
    return (directory, name)

section Texts

variable {mark : Char} {text front back part : List Char}

@[simp] theorem octets_append (front back : List Char) :
    octets (front ++ back) = octets front + octets back := by
  induction front with
  | nil => simp [octets]
  | cons c rest ih => rw [List.cons_append, octets, octets, ih, Nat.add_assoc]

theorem splitOctets_zero (text : List Char) : splitOctets text 0 = some ([], text) := by
  cases text <;> rfl

theorem splitOctets_append (front back : List Char) :
    splitOctets (front ++ back) (octets front) = some (front, back) := by
  induction front with
  | nil => exact splitOctets_zero back
  | cons c rest ih =>
    have filled := c.utf8Size_pos
    rw [List.cons_append, octets, splitOctets, if_neg (by omega), if_neg (by omega),
      Nat.add_sub_cancel_left, ih]
    rfl

theorem sliceText_append (front part back : List Char) :
    sliceText (front ++ part ++ back) (octets front) (octets (front ++ part)) = some part := by
  have outer := splitOctets_append (front ++ part) back
  have inner := splitOctets_append front part
  simp only [sliceText, outer, inner, Option.bind_eq_bind, Option.bind_some, Option.pure_def]

/-- The second octet of an accented letter starts no character. -/
example : sliceText ['é', '/'] 1 3 = none := by decide

theorem lastMark?_of_not_mem (absent : mark ∉ text) : lastMark? mark text = none := by
  induction text with
  | nil => rfl
  | cons c rest ih =>
    rw [List.mem_cons, not_or] at absent
    rw [lastMark?, ih absent.2]
    exact if_neg (Ne.symm absent.1)

theorem lastMark?_append (absent : mark ∉ back) :
    lastMark? mark (front ++ mark :: back) = some (octets front) := by
  induction front with
  | nil =>
    rw [List.nil_append, lastMark?, lastMark?_of_not_mem absent]
    exact if_pos rfl
  | cons c rest ih => rw [List.cons_append, lastMark?, ih, octets]

/-- A path can always be split after its last slash, which is one octet long. -/
theorem splitPath_eq (path : List Char) : splitPath path = some (Text.cutLast '/' path) := by
  have whole := Text.cutLast_append '/' path
  have absent := Text.not_mem_cutLast '/' path
  have ends := Text.cutLast_before '/' path
  generalize Text.cutLast '/' path = parts at whole absent ends ⊢
  obtain ⟨directory, name⟩ := parts
  dsimp only at whole absent ends
  subst whole
  rcases ends with rfl | ⟨before, rfl⟩
  · rw [splitPath, List.nil_append, lastMark?_of_not_mem absent]
  · have found : lastMark? '/' (before ++ ['/'] ++ name) = some (octets before) := by
      rw [List.append_assoc]
      exact lastMark?_append absent
    have start : octets before + 1 = octets (before ++ ['/']) := by
      rw [octets_append]
      rfl
    have fits : octets before + 1 ≤ octets (before ++ ['/'] ++ name) := by
      rw [octets_append, start]
      exact Nat.le_add_right ..
    have left : sliceText (before ++ ['/'] ++ name) 0 (octets (before ++ ['/'])) = some (before ++ ['/']) :=
      sliceText_append [] (before ++ ['/']) name
    have right := sliceText_append (before ++ ['/']) name []
    rw [List.append_nil] at right
    rw [splitPath, found]
    simp only [add_of_le fits, start, Option.bind_eq_bind, Option.bind_some, left, right, Option.pure_def]

end Texts

end ShellCompletion.Guarded
