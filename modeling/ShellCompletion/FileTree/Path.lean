import ShellCompletion.Text.Cut
import ShellCompletion.Text.OsText

/-!
# Paths

A path is a text of names between slashes. `Path.join` puts a relative path below another and takes an
absolute one as it is; `Path.steps` lists the names that lead along a path. The system may also hand out
a path that is no UTF-8; `OsText.join` puts a relative path below it.
-/

namespace ShellCompletion.Path

def isAbsolute (path : String) : Bool := path.toList.head? == some '/'

def endsWithSlash (path : String) : Bool := path.toList.getLast? == some '/'

def join (directory path : String) : String :=
  if isAbsolute path || directory.isEmpty then path
  else if endsWithSlash directory then directory ++ path
  else directory ++ "/" ++ path

/-- The names along a path. A slash at the end of a path asks for a directory, like a final dot. -/
def steps (path : String) : List String :=
  let names := (path.toList.splitOn '/').map String.ofList
  names.filter (· != "") ++ (if endsWithSlash path then ["."] else [])

/-- The last name of a path, which is empty after a slash at the end. -/
def baseName (path : String) : String := String.ofList (Text.cutLast '/' path.toList).2

/-- The directories of a search path, between colons. -/
def searchList (path : String) : List String := (path.toList.splitOn ':').map String.ofList

end ShellCompletion.Path

namespace ShellCompletion.OsText

def isAbsolute (path : OsText) : Bool := path.octets.head? == some 47

def endsWithSlash (path : OsText) : Bool := path.octets.getLast? == some 47

def join (directory : OsText) (path : String) : OsText :=
  if Path.isAbsolute path || directory.octets.isEmpty then path
  else if directory.endsWithSlash then ⟨directory.octets ++ (ofText path).octets⟩
  else ⟨directory.octets ++ 47 :: (ofText path).octets⟩

theorem ofText_append (first second : String) :
    ofText (first ++ second) = ⟨(ofText first).octets ++ (ofText second).octets⟩ := by
  simp [ofText]

theorem isEmpty_octets_ofText (text : String) : (ofText text).octets.isEmpty = text.isEmpty := by
  rw [Bool.eq_iff_iff, List.isEmpty_iff, String.isEmpty_iff, ofText, List.flatMap_eq_nil_iff,
    ← String.toList_eq_nil_iff, List.eq_nil_iff_forall_not_mem]
  exact forall_congr' fun c => forall_congr' fun _ => iff_false_intro String.utf8EncodeChar_ne_nil

theorem endsWithSlash_ofText (path : String) : (ofText path).endsWithSlash = Path.endsWithSlash path := by
  rw [Bool.eq_iff_iff, endsWithSlash, Path.endsWithSlash, beq_iff_eq, beq_iff_eq]
  rcases List.eq_nil_or_concat path.toList with blank | ⟨front, last, shape⟩
  · simp [ofText, blank]
  · have octets : (ofText path).octets.getLast? = (String.utf8EncodeChar last).getLast? := by
      simp [ofText, shape, List.getLast?_append, List.getLast?_eq_some_getLast String.utf8EncodeChar_ne_nil]
    rw [octets, shape, List.concat_eq_append, List.getLast?_concat, Option.some.injEq]
    constructor
    · intro ends
      exact mem_encodeChar_iff.mp (List.mem_of_getLast? ends)
    · rintro rfl
      rfl

theorem join_ofText (directory path : String) : (ofText directory).join path = Path.join directory path := by
  have slash : (ofText "/").octets = [47] := rfl
  rw [join, Path.join, isEmpty_octets_ofText, endsWithSlash_ofText]
  split
  next => rfl
  next =>
    split
    next => rw [ofText_append]
    next => rw [ofText_append, ofText_append, slash, List.append_assoc, List.singleton_append]

end ShellCompletion.OsText
