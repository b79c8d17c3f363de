import ShellCompletion.Text.Cut

/-!
# Texts without a mark

A mark is in a text that is put together from parts exactly if it is in one of the parts (`not_mem_intercalate`). The
parts that a text is split into at a mark are without it (`not_mem_of_mem_splitOn`).
-/

namespace ShellCompletion.Text

variable {mark : Char}

theorem length_lt_of_cut? {text before after : List Char} (found : cut? mark text = some (before, after)) :
    after.length < text.length := by
  obtain ⟨whole, -⟩ := eq_of_cut? found
  rw [whole, List.length_append, List.length_cons]
  omega

theorem not_mem_of_mem_splitOn {text part : List Char} (member : part ∈ text.splitOn mark) : mark ∉ part := by
  induction text generalizing part with
  | nil =>
    obtain rfl := List.mem_singleton.mp (List.splitOn_nil mark ▸ member)
    exact List.not_mem_nil
  | cons c rest ih =>
    rw [List.splitOn_cons_eq_if_modifyHead] at member
    split at member
    next =>
      rcases List.mem_cons.mp member with rfl | later
      · exact List.not_mem_nil
      · exact ih later
    next other =>
      obtain ⟨first, others, parts⟩ := List.exists_cons_of_ne_nil (List.splitOn_ne_nil mark rest)
      rw [parts] at member ih
      rcases List.mem_cons.mp member with rfl | later
      · have differ : mark ≠ c := fun same => other (beq_iff_eq.mpr same.symm)
        simpa [differ] using ih (List.mem_cons_self ..)
      · exact ih (List.mem_cons_of_mem _ later)

theorem not_mem_intercalate {separator : List Char} (apart : mark ∉ separator) {parts : List (List Char)} :
    mark ∉ separator.intercalate parts ↔ ∀ part ∈ parts, mark ∉ part := by
  induction parts with
  | nil => simp
  | cons part rest ih =>
    cases rest with
    | nil => simp
    | cons next more =>
      rw [List.intercalate_cons_cons, List.mem_append, List.mem_append, or_iff_left apart, not_or, ih,
        List.forall_mem_cons (a := part)]

/-! ### Strings -/

theorem not_mem_toList_append {first second : String} :
    mark ∉ (first ++ second).toList ↔ mark ∉ first.toList ∧ mark ∉ second.toList := by
  rw [String.toList_append, List.mem_append, not_or]

theorem not_mem_toList_join {texts : List String} :
    mark ∉ (String.join texts).toList ↔ ∀ text ∈ texts, mark ∉ text.toList := by
  induction texts with
  | nil => simp
  | cons text rest ih => rw [String.join_cons, not_mem_toList_append, ih, List.forall_mem_cons]

theorem not_mem_toList_intercalate {separator : String} (apart : mark ∉ separator.toList) {texts : List String} :
    mark ∉ (separator.intercalate texts).toList ↔ ∀ text ∈ texts, mark ∉ text.toList := by
  rw [String.toList_intercalate, not_mem_intercalate apart, List.forall_mem_map]

theorem not_mem_toList_pushn {c : Char} (other : mark ≠ c) (text : String) (count : Nat) :
    mark ∉ (text.pushn c count).toList ↔ mark ∉ text.toList := by
  rw [String.pushn_eq_repeat_push]
  induction count with
  | zero => rfl
  | succ count ih => rw [Nat.repeat, String.toList_push, List.mem_append, List.mem_singleton, or_iff_left other, ih]

theorem not_mem_toList_toString (other : mark.isDigit = false) (value : Nat) : mark ∉ (toString value).toList := by
  intro inside
  rw [Nat.toString_eq_repr, Nat.toList_repr] at inside
  rw [Nat.isDigit_of_mem_toDigits (by decide) (by decide) inside] at other
  cases other

end ShellCompletion.Text
