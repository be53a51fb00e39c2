import Mathlib.Data.List.Basic
import TeamOrders.Number.Unsigned
import TeamOrders.Text.Digit

/-!
# What digits denote

A row of decimal digits denotes a number in whatever scripts it is written. Grammars accept all such rows,
and readers of numbers only those of ASCII digits that denote a number below a limit. So a number that is
read from digits is the one denoted, but some digits denote a number that is not read.
-/

namespace TeamOrders

namespace Text

variable {c : Char} {digits : List Char} {limit : Nat}

/-- The value of a decimal digit. Every range of digits starts with a zero, and those that hold the digits
of several scripts start again after each nine. -/
def digitValue (c : Char) : Nat :=
  match digitRanges.find? fun range => range.1 ≤ c.toNat && c.toNat ≤ range.2 with
  | some range => (c.toNat - range.1) % 10
  | none => 0

def denoted (digits : List Char) : Nat := digits.foldl (fun n c => n * 10 + digitValue c) 0

/-- The row is one from which a number is read: of ASCII digits, and below the limit. -/
def IsReadable (limit : Nat) (digits : List Char) : Prop :=
  digits.all Number.isAsciiDigit = true ∧ denoted digits < limit

instance (limit : Nat) (digits : List Char) : Decidable (IsReadable limit digits) :=
  inferInstanceAs (Decidable (_ ∧ _))

theorem toNat_of_isAsciiDigit (h : Number.isAsciiDigit c = true) :
    48 ≤ c.toNat ∧ c.toNat ≤ 57 := by
  simpa [Number.isAsciiDigit, Char.le_def, UInt32.le_iff_toNat_le] using h

theorem digitValue_of_isAsciiDigit (h : Number.isAsciiDigit c = true) :
    digitValue c = Number.digitValue c := by
  obtain ⟨hlow, hhigh⟩ := toNat_of_isAsciiDigit h
  have hfind : (digitRanges.find? fun range => range.1 ≤ c.toNat && c.toNat ≤ range.2)
      = some (48, 57) := List.find?_cons_of_pos (by simp [hlow, hhigh])
  have hless : c.toNat - 48 < 10 := by omega
  rw [digitValue, hfind]
  exact Nat.mod_eq_of_lt hless

theorem digitsValue_eq_denoted (h : ∀ c ∈ digits, Number.isAsciiDigit c = true) :
    Number.digitsValue 0 digits = denoted digits := by
  rw [Number.digitsValue, denoted]
  exact List.foldl_ext _ _ 0 fun n c hc => by rw [digitValue_of_isAsciiDigit (h c hc)]

/-- From a row of digits the number that they denote is read, or none. -/
theorem readUnsigned_of_digits (hne : digits ≠ []) (hdigits : ∀ c ∈ digits, isDigit c = true) :
    Number.readUnsigned limit digits
      = if IsReadable limit digits then some (denoted digits) else none := by
  have hread : Number.readUnsigned limit digits = Number.readDigits limit digits := by
    unfold Number.readUnsigned
    split
    · exact absurd (hdigits '+' List.mem_cons_self) (by decide)
    · rfl
  rw [hread, Number.readDigits, List.isEmpty_eq_false_iff.mpr hne, Bool.false_or]
  cases hall : digits.all Number.isAsciiDigit with
  | true =>
    have hreadable : IsReadable limit digits ↔ denoted digits < limit := and_iff_right hall
    simp only [Bool.not_true, Bool.false_eq_true, if_false, hreadable,
      digitsValue_eq_denoted (List.all_eq_true.mp hall)]
  | false =>
    have hunreadable : ¬ IsReadable limit digits := fun h =>
      Bool.false_ne_true (hall.symm.trans h.1)
    rw [Bool.not_false, if_pos rfl, if_neg hunreadable]

/-- An Arabic three denotes a three, and none is read. -/
example : denoted "٣".toList = 3 ∧ Number.readUnsigned Number.wordLimit "٣".toList = none := by
  decide +kernel

end Text

end TeamOrders
