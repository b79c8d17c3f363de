/-!
# Sets of names

A set of names is a strictly ascending list. `ofList` builds the set of a list's members, so that two
lists with the same members give the same list (`ofList_eq_iff`).
-/

namespace ShellCompletion.Names

def Ascending (names : List String) : Prop := names.Pairwise (· < ·)

def insert (name : String) : List String → List String
  | [] => [name]
  | head :: rest =>
    if name < head then name :: head :: rest
    else if name = head then head :: rest
    else head :: insert name rest

def ofList (names : List String) : List String := names.foldr insert []

/-- The members of both lists in the order of their first mention. -/
def addNew (known new : List String) : List String :=
  new.foldl (fun names name => if name ∈ names then names else names ++ [name]) known

@[simp] theorem mem_insert {name other : String} {names : List String} :
    other ∈ insert name names ↔ other = name ∨ other ∈ names := by
  induction names with
  | nil => simp [insert]
  | cons head rest ih =>
    rw [insert]
    split
    next => simp
    next =>
      split
      next same => simp [same]
      next => simp only [List.mem_cons, ih]; grind

@[simp] theorem mem_ofList {name : String} {names : List String} :
    name ∈ ofList names ↔ name ∈ names := by
  induction names with
  | nil => simp [ofList]
  | cons head rest ih => simpa [ofList] using or_congr_right ih

theorem lt_of_not_lt_of_ne {a b : String} (notLess : ¬ a < b) (differ : a ≠ b) : b < a :=
  Decidable.byContradiction fun notAbove =>
    differ (String.le_antisymm (String.not_lt.mp notAbove) (String.not_lt.mp notLess))

theorem ascending_insert {name : String} {names : List String} (h : Ascending names) :
    Ascending (insert name names) := by
  induction names with
  | nil => simp [insert, Ascending]
  | cons head rest ih =>
    obtain ⟨above, ascending⟩ := List.pairwise_cons.mp h
    rw [insert]
    split
    next less =>
      refine List.pairwise_cons.mpr ⟨fun other inside => ?_, h⟩
      rcases List.mem_cons.mp inside with rfl | later
      · exact less
      · exact String.lt_trans less (above other later)
    next notLess =>
      split
      next => exact h
      next differ =>
        refine List.pairwise_cons.mpr ⟨fun other inside => ?_, ih ascending⟩
        rcases mem_insert.mp inside with rfl | later
        · exact lt_of_not_lt_of_ne notLess differ
        · exact above other later

theorem ascending_ofList (names : List String) : Ascending (ofList names) := by
  induction names with
  | nil => simp [ofList, Ascending]
  | cons head rest ih => exact ascending_insert ih

/-- An ascending list is determined by its members. -/
theorem eq_of_ascending {a b : List String} (ha : Ascending a) (hb : Ascending b)
    (same : ∀ name, name ∈ a ↔ name ∈ b) : a = b := by
  induction a generalizing b with
  | nil =>
    cases b with
    | nil => rfl
    | cons head rest => simpa using (same head).mpr (List.mem_cons_self ..)
  | cons x xs ih =>
    cases b with
    | nil => simpa using (same x).mp (List.mem_cons_self ..)
    | cons y ys =>
      obtain ⟨aboveX, ascendingX⟩ := List.pairwise_cons.mp ha
      obtain ⟨aboveY, ascendingY⟩ := List.pairwise_cons.mp hb
      have heads : x = y := by
        rcases List.mem_cons.mp ((same x).mp (List.mem_cons_self ..)) with h | h
        · exact h
        rcases List.mem_cons.mp ((same y).mpr (List.mem_cons_self ..)) with h' | h'
        · exact h'.symm
        exact absurd (aboveX y h') (String.lt_asymm (aboveY x h))
      subst heads
      congr 1
      refine ih ascendingX ascendingY fun name => ?_
      have whole := same name
      simp only [List.mem_cons] at whole
      constructor
      · intro inside
        refine (whole.mp (.inr inside)).resolve_left fun h => ?_
        exact String.lt_irrefl name (by simpa [h] using aboveX name inside)
      · intro inside
        refine (whole.mpr (.inr inside)).resolve_left fun h => ?_
        exact String.lt_irrefl name (by simpa [h] using aboveY name inside)

theorem ofList_eq_iff {a b : List String} :
    ofList a = ofList b ↔ ∀ name, name ∈ a ↔ name ∈ b :=
  ⟨fun h name => by rw [← mem_ofList, h, mem_ofList],
    fun h => eq_of_ascending (ascending_ofList a) (ascending_ofList b) (by simpa using h)⟩

theorem addNew_cons (known : List String) (name : String) (rest : List String) :
    addNew known (name :: rest) = addNew (if name ∈ known then known else known ++ [name]) rest := rfl

@[simp] theorem mem_addNew {known new : List String} {name : String} :
    name ∈ addNew known new ↔ name ∈ known ∨ name ∈ new := by
  induction new generalizing known with
  | nil => simp [addNew]
  | cons head rest ih =>
    rw [addNew_cons, ih]
    split
    next present => grind
    next => simp [or_assoc]

theorem nodup_addNew {known new : List String} (distinct : known.Nodup) :
    (addNew known new).Nodup := by
  induction new generalizing known with
  | nil => exact distinct
  | cons head rest ih =>
    rw [addNew_cons]
    apply ih
    split
    next => exact distinct
    next absent =>
      rw [List.nodup_append]
      refine ⟨distinct, by simp, ?_⟩
      intro name member other single same
      obtain rfl := List.mem_singleton.mp single
      exact absent (same ▸ member)

/-- Names that are all new are appended as they stand. -/
theorem addNew_eq_append {known new : List String} (distinct : (known ++ new).Nodup) :
    addNew known new = known ++ new := by
  induction new generalizing known with
  | nil => simp [addNew]
  | cons head rest ih =>
    have absent : head ∉ known := fun member =>
      (List.nodup_append.mp distinct).2.2 head member head (List.mem_cons_self ..) rfl
    rw [addNew_cons, if_neg absent, ih (by simpa using distinct), List.append_assoc,
      List.singleton_append]

end ShellCompletion.Names
