import ShellCompletion.FileTree.World

/-!
# Doubled slashes

A second slash after another one names nothing, so a path leads along the same names with it and without
it (`Path.steps_merge`). A world lists the same directory for both, as long as neither the path nor those
of the entries are too long to be asked for (`World.mergesSlashes`).
-/

namespace ShellCompletion

/-- The listing does not depend on a second slash after another one in `path`. -/
def MergesSlashes (list : OsText → Option (List Listed)) (path : String) : Prop :=
  ∀ before after : String, path = before ++ "//" ++ after → list path = list ↑(before ++ "/" ++ after)

namespace Path

variable (before after : String)

theorem endsWithSlash_merge : endsWithSlash (before ++ "//" ++ after) = endsWithSlash (before ++ "/" ++ after) := by
  simp [endsWithSlash, List.getLast?_append]

theorem steps_merge : steps (before ++ "//" ++ after) = steps (before ++ "/" ++ after) := by
  have double : (before ++ "//" ++ after).toList = before.toList ++ '/' :: ([] ++ '/' :: after.toList) := by simp
  have single : (before ++ "/" ++ after).toList = before.toList ++ '/' :: after.toList := by simp
  rw [steps, steps, endsWithSlash_merge, double, single]
  simp only [List.splitOn_append_cons_self, List.splitOn_nil, List.map_append, List.filter_append]
  rfl

theorem isAbsolute_merge : isAbsolute (before ++ "//" ++ after) = isAbsolute (before ++ "/" ++ after) := by
  simp [isAbsolute, List.head?_append]

theorem join_of_relative {directory name : String} (filled : directory ≠ "") (relative : isAbsolute name = false) :
    join directory name = directory ++ ((if endsWithSlash directory then "" else "/") ++ name) := by
  rw [join, if_neg (by simp [relative, filled])]
  split
  next => rw [String.empty_append]
  next => rw [String.append_assoc]

/-- The path of an entry has the second slash where the path of its directory has it. -/
theorem join_merge (name : String) :
    join (before ++ "//" ++ after) name = join (before ++ "/" ++ after) name ∨
      ∃ more, join (before ++ "//" ++ after) name = before ++ "//" ++ more ∧
        join (before ++ "/" ++ after) name = before ++ "/" ++ more := by
  cases absolute : isAbsolute name with
  | true => exact .inl (by simp [join, absolute])
  | false =>
    refine .inr ⟨after ++ ((if endsWithSlash (before ++ "/" ++ after) then "" else "/") ++ name), ?_, ?_⟩
    · rw [join_of_relative (by simp) absolute, endsWithSlash_merge, String.append_assoc]
    · rw [join_of_relative (by simp) absolute, String.append_assoc]

theorem utf8ByteSize_join_le (directory name : String) :
    (join directory name).utf8ByteSize ≤ directory.utf8ByteSize + 1 + name.utf8ByteSize := by
  unfold join
  split
  next => omega
  next =>
    split
    next => rw [String.utf8ByteSize_append]; omega
    next =>
      have slash : "/".utf8ByteSize = 1 := rfl
      refine Nat.le_of_eq ?_
      rw [String.utf8ByteSize_append, String.utf8ByteSize_append, slash]

end Path

namespace FileTree

variable (tree : FileTree) (base : Place) {before after : String}

theorem locate_merge (short : (before ++ "//" ++ after).utf8ByteSize ≤ maxPath) :
    tree.locate base (before ++ "//" ++ after) = tree.locate base (before ++ "/" ++ after) := by
  have shorter : (before ++ "/" ++ after).utf8ByteSize ≤ maxPath := by
    have one : "/".utf8ByteSize = 1 := rfl
    have two : "//".utf8ByteSize = 2 := rfl
    simp only [String.utf8ByteSize_append, one, two] at short ⊢
    omega
  unfold locate
  rw [Path.steps_merge, Path.isAbsolute_merge, if_neg (Nat.not_lt.mpr short), if_neg (Nat.not_lt.mpr shorter)]
  simp

theorem find_join_merge {name : String}
    (short : (before ++ "//" ++ after).utf8ByteSize + 1 + name.utf8ByteSize ≤ maxPath) :
    tree.find base (Path.join (before ++ "//" ++ after) name) =
      tree.find base (Path.join (before ++ "/" ++ after) name) := by
  have fits := Nat.le_trans (Path.utf8ByteSize_join_le (before ++ "//" ++ after) name) short
  rcases Path.join_merge before after name with same | ⟨more, double, single⟩
  · rw [same]
  · rw [double] at fits ⊢
    rw [single, find, find, locate_merge tree base fits]

theorem list?_merge (short : (before ++ "//" ++ after).utf8ByteSize ≤ maxPath)
    (namesShort : ∀ entry ∈ tree.nodes, ∀ name ∈ entry.1,
      (before ++ "//" ++ after).utf8ByteSize + 1 + name.utf8ByteSize ≤ maxPath) :
    tree.list? base (before ++ "//" ++ after) = tree.list? base (before ++ "/" ++ after) := by
  have located := locate_merge tree base short
  unfold list?
  rw [find, find, located]
  split
  next =>
    split
    next place _ =>
      refine congrArg some (List.map_congr_left fun name inside => ?_)
      have short : (before ++ "//" ++ after).utf8ByteSize + 1 + name.utf8ByteSize ≤ maxPath := by
        obtain ⟨entry, member, last⟩ := List.mem_filterMap.mp inside
        obtain ⟨-, last⟩ := Option.ite_none_right_eq_some.mp last
        exact namesShort entry member name (List.mem_of_getLast? last)
      dsimp only
      rw [find_join_merge tree base short]
    next => rfl
  next => rfl

end FileTree

/-- The listing of a directory in which no path is too long is the same for a doubled slash as for a single one. -/
theorem World.mergesSlashes (world : World) {path : String} (pathShort : path.utf8ByteSize ≤ FileTree.maxPath)
    (namesShort : ∀ entry ∈ world.tree.nodes, ∀ name ∈ entry.1,
      path.utf8ByteSize + 1 + name.utf8ByteSize ≤ FileTree.maxPath) :
    MergesSlashes world.list? path := by
  rintro before after rfl
  rw [World.list?, World.list?, OsText.text?_ofText, OsText.text?_ofText]
  exact FileTree.list?_merge world.tree world.directory pathShort namesShort

end ShellCompletion
