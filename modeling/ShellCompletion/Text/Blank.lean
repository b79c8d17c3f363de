/-!
# Blank characters

`isBlank` holds of the characters that Unicode counts as white space. `trim` strips them from both
ends of a text and `trimEnd` from its end; what is left neither begins nor ends with a blank
(`exists_eq_trim`, `trim_surrounded`).
-/

namespace ShellCompletion.Text

def isBlank (c : Char) : Bool :=
  let code := c.toNat
  (0x9 ≤ code && code ≤ 0xD) || code == 0x20 || code == 0x85 || code == 0xA0 || code == 0x1680 ||
    (0x2000 ≤ code && code ≤ 0x200A) || code == 0x2028 || code == 0x2029 || code == 0x202F ||
    code == 0x205F || code == 0x3000

def trimStart (text : List Char) : List Char := text.dropWhile isBlank

def trimEnd (text : List Char) : List Char := (trimStart text.reverse).reverse

def trim (text : List Char) : List Char := trimEnd (trimStart text)

/-- The codes of the blank characters. -/
def blankCodes : List Nat :=
  [0x9, 0xA, 0xB, 0xC, 0xD, 0x20, 0x85, 0xA0, 0x1680, 0x2000, 0x2001, 0x2002, 0x2003, 0x2004, 0x2005,
    0x2006, 0x2007, 0x2008, 0x2009, 0x200A, 0x2028, 0x2029, 0x202F, 0x205F, 0x3000]

theorem mem_blankCodes {c : Char} (blank : isBlank c = true) : c.toNat ∈ blankCodes := by
  simp only [isBlank, Bool.or_eq_true, Bool.and_eq_true, decide_eq_true_eq, beq_iff_eq] at blank
  simp only [blankCodes, List.mem_cons, List.not_mem_nil, or_false]
  omega

theorem trimStart_of_not_blank {c : Char} {rest : List Char} (h : isBlank c = false) :
    trimStart (c :: rest) = c :: rest := by
  simp [trimStart, List.dropWhile, h]

theorem trimStart_eq_self {text : List Char} (clear : ∀ c ∈ text.head?, isBlank c = false) :
    trimStart text = text := by
  cases text with
  | nil => rfl
  | cons c rest => exact trimStart_of_not_blank (clear c rfl)

theorem head_trimStart (text : List Char) : ∀ c ∈ (trimStart text).head?, isBlank c = false := by
  intro c first
  have stop := List.head?_dropWhile_not isBlank text
  rwa [show (text.dropWhile isBlank).head? = some c from first] at stop

@[simp] theorem trimStart_trimStart (text : List Char) :
    trimStart (trimStart text) = trimStart text :=
  trimStart_eq_self (head_trimStart text)

@[simp] theorem trimEnd_trimEnd (text : List Char) : trimEnd (trimEnd text) = trimEnd text := by
  simp [trimEnd]

theorem isPrefix_trimEnd (text : List Char) : trimEnd text <+: text := by
  rw [← List.reverse_suffix, trimEnd, List.reverse_reverse]
  exact List.dropWhile_suffix isBlank

/-- Cutting blanks off the end keeps a beginning that is not blank. -/
theorem trimStart_trimEnd {text : List Char} (clear : ∀ c ∈ text.head?, isBlank c = false) :
    trimStart (trimEnd text) = trimEnd text := by
  apply trimStart_eq_self
  intro c first
  obtain ⟨rest, whole⟩ := isPrefix_trimEnd text
  apply clear c
  rw [← whole, List.head?_append, first]
  rfl

@[simp] theorem trim_trim (text : List Char) : trim (trim text) = trim text := by
  unfold trim
  rw [trimStart_trimEnd (head_trimStart text), trimEnd_trimEnd]

theorem head_trim (text : List Char) : ∀ c ∈ (trim text).head?, isBlank c = false := by
  rw [trim, ← trimStart_trimEnd (head_trimStart text)]
  exact head_trimStart _

theorem trim_sublist (text : List Char) : (trim text).Sublist text :=
  (isPrefix_trimEnd _).sublist.trans (List.dropWhile_sublist isBlank)

/-- A text without blanks is left as it is. -/
theorem trim_eq_self {text : List Char} (clear : ∀ c ∈ text, isBlank c = false) :
    trim text = text := by
  have start : trimStart text = text :=
    trimStart_eq_self fun c first => clear c (List.mem_of_mem_head? first)
  have back : trimStart text.reverse = text.reverse :=
    trimStart_eq_self fun c first =>
      clear c (List.mem_reverse.mp (List.mem_of_mem_head? first))
  rw [trim, start, trimEnd, back, List.reverse_reverse]

theorem trimStart_append {before : List Char} (blank : ∀ c ∈ before, isBlank c = true)
    (text : List Char) : trimStart (before ++ text) = trimStart text :=
  List.dropWhile_append_of_pos blank

theorem trimEnd_append (text : List Char) {after : List Char} (blank : ∀ c ∈ after, isBlank c = true) :
    trimEnd (text ++ after) = trimEnd text := by
  have reversed : ∀ c ∈ after.reverse, isBlank c = true := fun c member =>
    blank c (List.mem_reverse.mp member)
  rw [trimEnd, List.reverse_append, trimStart_append reversed, trimEnd]

/-- What is left of a text is the text less blanks around it. -/
theorem exists_eq_trim (text : List Char) :
    ∃ before after, (∀ c ∈ before, isBlank c = true) ∧ (∀ c ∈ after, isBlank c = true) ∧
      text = before ++ trim text ++ after := by
  have blank (text : List Char) : ∀ c ∈ text.takeWhile isBlank, isBlank c = true :=
    List.all_eq_true.mp List.all_takeWhile
  have back : trimStart text = trim text ++ ((trimStart text).reverse.takeWhile isBlank).reverse := by
    apply List.reverse_inj.mp
    rw [List.reverse_append, List.reverse_reverse, trim, trimEnd, List.reverse_reverse]
    exact List.takeWhile_append_dropWhile.symm
  refine ⟨text.takeWhile isBlank, ((trimStart text).reverse.takeWhile isBlank).reverse, blank text,
    fun c member => blank _ c (List.mem_reverse.mp member), ?_⟩
  rw [List.append_assoc, ← back]
  exact List.takeWhile_append_dropWhile.symm

/-- Blanks around a text without blanks are stripped and nothing else. -/
theorem trim_surrounded {before core after : List Char} (front : ∀ c ∈ before, isBlank c = true)
    (back : ∀ c ∈ after, isBlank c = true) (clear : ∀ c ∈ core, isBlank c = false)
    (filled : core ≠ []) : trim (before ++ core ++ after) = core := by
  obtain ⟨c, rest, rfl⟩ := List.exists_cons_of_ne_nil filled
  have first : isBlank c = false := clear c (List.mem_cons_self ..)
  have start : trimStart (c :: rest ++ after) = c :: rest ++ after := trimStart_of_not_blank first
  have whole := trim_eq_self clear
  rw [trim, trimStart_of_not_blank first] at whole
  rw [trim, List.append_assoc, trimStart_append front, start, trimEnd_append _ back, whole]

end ShellCompletion.Text
