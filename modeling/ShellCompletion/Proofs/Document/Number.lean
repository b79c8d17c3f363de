import ShellCompletion.Document.Reader

/-!
# Numbers are read back

A natural number is written in decimal digits, without a zero in front (`leading_toDigits`). It is read back as an
integer (`integer?_toDigits`), and no other scalar looks like one (`scalar?_toDigits`).
-/

namespace ShellCompletion.Document

theorem hexValue?_of_isDigit {c : Char} (digit : c.isDigit = true) : hexValue? c = some (c.toNat - '0'.toNat) := by
  have range : '0' ≤ c ∧ c ≤ '9' := by simpa [Char.isDigit, Char.le_def] using digit
  rw [hexValue?, if_pos range]

theorem digits?_of_all {isDigit : Char → Bool} {text : List Char} (filled : text ≠ [])
    (all : ∀ c ∈ text, isDigit c = true) (plain : '_' ∉ text) : digits? isDigit text = some text := by
  induction text with
  | nil => exact absurd rfl filled
  | cons c rest ih =>
    obtain ⟨first, later⟩ := List.forall_mem_cons.mp all
    cases rest with
    | nil => simp [digits?, first]
    | cons d rest =>
      have apart : d ≠ '_' := by
        rintro rfl
        simp at plain
      have others := ih (List.cons_ne_nil _ _) later fun inside => plain (List.mem_cons_of_mem _ inside)
      simp [digits?, first, apart, others]

theorem number_of_all {text : List Char} (all : ∀ c ∈ text, c.isDigit = true) (sofar : Nat) :
    text.foldl (fun number digit => number * 10 + digitValue digit) sofar = Nat.ofDigitChars 10 text sofar := by
  induction text generalizing sofar with
  | nil => rfl
  | cons c rest ih =>
    obtain ⟨first, later⟩ := List.forall_mem_cons.mp all
    rw [List.foldl_cons, ih later, digitValue, hexValue?_of_isDigit first, Nat.mul_comm]
    rfl

section Digits

variable {value : Nat}

theorem isDigit_of_mem {c : Char} (inside : c ∈ Nat.toDigits 10 value) : c.isDigit = true :=
  Nat.isDigit_of_mem_toDigits (by decide) (by decide) inside

/-- Digits do not make up a text with any other character. -/
theorem toDigits_ne {text : List Char} (mark : Char) (inside : mark ∈ text) (other : mark.isDigit = false) :
    Nat.toDigits 10 value ≠ text := by
  rintro rfl
  rw [isDigit_of_mem inside] at other
  cases other

theorem leading_toDigits {rest : List Char} (zero : Nat.toDigits 10 value = '0' :: rest) : rest = [] := by
  induction value using Nat.strongRecOn generalizing rest with
  | ind value ih =>
    by_cases small : value < 10
    · rw [Nat.toDigits_of_lt_base small] at zero
      exact (List.cons.inj zero).2.symm
    · rw [Nat.toDigits_of_base_le (by decide) (by omega)] at zero
      -- The digits before the last are those of a smaller number, which would be zero.
      cases digits : Nat.toDigits 10 (value / 10) with
      | nil => exact absurd digits Nat.toDigits_ne_nil
      | cons c more =>
        rw [digits] at zero
        obtain ⟨rfl, -⟩ := List.cons.inj zero
        obtain rfl := ih (value / 10) (by omega) digits
        have read := Nat.ofDigitChars_toDigits (b := 10) (n := value / 10) (by decide) (by decide)
        rw [digits] at read
        have nothing : Nat.ofDigitChars 10 ['0'] 0 = 0 := rfl
        omega

theorem natural?_toDigits (value : Nat) : natural? 10 (Nat.toDigits 10 value) = some value := by
  have all : ∀ c ∈ Nat.toDigits 10 value, c.isDigit = true := fun c => isDigit_of_mem
  have small : ∀ c ∈ Nat.toDigits 10 value, (hexValue? c).any (· < 10) = true := by
    intro c inside
    have digit := isDigit_of_mem inside
    have range : '0' ≤ c ∧ c ≤ '9' := by simpa [Char.isDigit, Char.le_def] using digit
    have upper : c.toNat ≤ 57 := range.2
    simp [hexValue?_of_isDigit digit]
    omega
  have digits := digits?_of_all Nat.toDigits_ne_nil small fun inside => toDigits_ne '_' inside rfl rfl
  rw [natural?, digits, Option.map_some, number, number_of_all all, Nat.ofDigitChars_toDigits (by decide) (by decide)]

theorem decimal?_toDigits (value : Nat) : decimal? (Nat.toDigits 10 value) = some value := by
  unfold decimal?
  split
  next c rest same => cases leading_toDigits same
  next => exact natural?_toDigits value

theorem dropSign_toDigits (value : Nat) : dropSign (Nat.toDigits 10 value) = Nat.toDigits 10 value := by
  unfold dropSign
  split
  next rest same => exact absurd same (toDigits_ne '+' (by simp) rfl)
  next rest same => exact absurd same (toDigits_ne '-' (by simp) rfl)
  next => rfl

theorem wholeNumber?_toDigits (value : Nat) : wholeNumber? (Nat.toDigits 10 value) = some (value : Int) := by
  unfold wholeNumber?
  split
  next rest same => exact absurd same (toDigits_ne 'x' (by simp) rfl)
  next rest same => exact absurd same (toDigits_ne 'o' (by simp) rfl)
  next rest same => exact absurd same (toDigits_ne 'b' (by simp) rfl)
  next rest same => exact absurd same (toDigits_ne '-' (by simp) rfl)
  next => rw [dropSign_toDigits, decimal?_toDigits, Option.map_some, Int.ofNat_eq_natCast]

theorem integer?_toDigits (small : value < Nat.pow 2 128) : integer? (Nat.toDigits 10 value) = some (value : Int) := by
  have upper : (value : Int) < (Nat.pow 2 128 : Nat) := Int.ofNat_lt.mpr small
  have lower : -((Nat.pow 2 127 : Nat) : Int) ≤ value := by omega
  rw [integer?, wholeNumber?_toDigits]
  refine Option.filter_some_pos ?_
  rw [Bool.and_eq_true, decide_eq_true_eq, decide_eq_true_eq]
  exact ⟨lower, upper⟩

theorem scalar?_toDigits (small : value < Nat.pow 2 128) :
    scalar? (Nat.toDigits 10 value) = some (.integer value) := by
  have notTrue : Nat.toDigits 10 value ≠ "true".toList := toDigits_ne 't' (by decide) rfl
  have notFalse : Nat.toDigits 10 value ≠ "false".toList := toDigits_ne 'f' (by decide) rfl
  rw [scalar?, if_neg notTrue, if_neg notFalse, integer?_toDigits small]

end Digits

end ShellCompletion.Document
