import ShellCompletion.Text.Octets

/-!
# Texts of the system

What the system hands out as a text, a path or the value of a variable, is a sequence of octets that may
be no UTF-8. Every text is such a sequence (`text?_ofText`).
-/

namespace ShellCompletion

structure OsText where
  octets : List UInt8
deriving DecidableEq, Repr

namespace OsText

@[coe]
def ofText (text : String) : OsText := ⟨text.toList.flatMap String.utf8EncodeChar⟩

instance : Coe String OsText := ⟨ofText⟩

/-- The text that the octets encode, unless they are no UTF-8. -/
def text? (given : OsText) : Option String := String.fromUTF8? ⟨given.octets.toArray⟩

/-- How it is printed. -/
def shown (given : OsText) : String :=
  given.text?.getD (Text.decode (given.octets.map Text.ofByte))

theorem octets_ofText (text : String) : (ofText text).octets = text.toByteArray.data.toList := by
  rw [← String.utf8Encode_toList, List.utf8Encode, List.data_toByteArray]
  rfl

@[simp] theorem text?_ofText (text : String) : (ofText text).text? = some text := by
  rw [text?, octets_ofText]
  exact dif_pos text.isValidUTF8

theorem text?_eq_some_iff {given : OsText} {text : String} : given.text? = some text ↔ given = text := by
  constructor
  · intro read
    unfold text? String.fromUTF8? at read
    split at read
    next valid =>
      obtain rfl := Option.some.inj read
      obtain ⟨octets⟩ := given
      exact congrArg OsText.mk (octets_ofText (String.fromUTF8 _ valid)).symm
    next => cases read
  · rintro rfl
    exact text?_ofText text

/-- The octet 47 encodes a slash and is no part of another character. -/
theorem mem_encodeChar_iff {c : Char} : 47 ∈ String.utf8EncodeChar c ↔ c = '/' := by
  constructor
  · intro inside
    have octet (n : Nat) (same : (47 : UInt8) = UInt8.ofNat n) : n % 256 = 47 := by
      simpa using congrArg UInt8.toNat same.symm
    have code : c.val.toNat = 47 := by
      have bound := c.val.toNat_lt
      unfold String.utf8EncodeChar at inside
      dsimp only at inside
      split at inside
      next =>
        have := octet _ (List.mem_singleton.mp inside)
        omega
      next =>
        -- The octets of a code that needs more than one are at least 128.
        repeat' split at inside
        all_goals
          simp only [List.mem_cons, List.not_mem_nil, or_false] at inside
          grind
    exact Char.ext (UInt32.toNat_inj.mp code)
  · rintro rfl
    decide

end OsText

end ShellCompletion
