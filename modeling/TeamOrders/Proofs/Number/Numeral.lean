import Mathlib.Data.Bool.AllAny
import TeamOrders.Number.Unsigned
import TeamOrders.Roster

/-!
# Numerals are read back

The written form of a number is a row of ASCII digits, and reading it gives the number again.
-/

namespace TeamOrders

open Number Roster

def asciiDigits : List Char := ['0', '1', '2', '3', '4', '5', '6', '7', '8', '9']

theorem numeral_eq_toDigits (n : Nat) : numeral n = Nat.toDigits 10 n := Nat.toList_repr

theorem mem_asciiDigits_of_mem_numeral {n : Nat} {c : Char} (h : c ∈ numeral n) :
    c ∈ asciiDigits := by
  rw [numeral_eq_toDigits] at h
  have hdigit : ∀ d < 10, d.digitChar ∈ asciiDigits := by decide
  induction n using Nat.strongRecOn with
  | ind n ih =>
    by_cases hn : n < 10
    · rw [Nat.toDigits_of_lt_base hn, List.mem_singleton] at h
      rw [h]
      exact hdigit n hn
    · rw [Nat.toDigits_of_base_le (by decide) (by omega), List.mem_append, List.mem_singleton] at h
      rcases h with h | rfl
      · exact ih (n / 10) (by omega) h
      · exact hdigit (n % 10) (by omega)

theorem numeral_ne_nil (n : Nat) : numeral n ≠ [] := by
  rw [numeral_eq_toDigits]
  exact Nat.toDigits_ne_nil

theorem digitsValue_numeral (n : Nat) : digitsValue 0 (numeral n) = n := by
  have hfold : ∀ (digits : List Char) (value : Nat),
      digitsValue value digits = Nat.ofDigitChars 10 digits value := by
    intro digits
    induction digits with
    | nil =>
      intro value
      rfl
    | cons c digits ih =>
      intro value
      have hstep := ih (value * 10 + digitValue c)
      rw [Nat.ofDigitChars_cons, Nat.mul_comm 10 value]
      exact hstep
  rw [hfold, numeral_eq_toDigits, Nat.ofDigitChars_ten_toDigits]

theorem readUnsigned_numeral {limit n : Nat} (h : n < limit) :
    readUnsigned limit (numeral n) = some n := by
  have hdigits : ∀ c ∈ asciiDigits, isAsciiDigit c = true ∧ c ≠ '+' :=
    List.all_iff_forall_prop.mp (by decide)
  have hall : (numeral n).all isAsciiDigit = true := by
    rw [List.all_eq_true]
    intro c hc
    exact (hdigits c (mem_asciiDigits_of_mem_numeral hc)).1
  have hread : readDigits limit (numeral n) = some n := by
    have hne : (numeral n).isEmpty = false := by simpa using numeral_ne_nil n
    simp [readDigits, hne, hall, digitsValue_numeral, h]
  unfold readUnsigned
  split
  · rename_i digits hplus
    have hmem : '+' ∈ numeral n := by
      rw [hplus]
      exact List.mem_cons_self
    exact absurd rfl (hdigits '+' (mem_asciiDigits_of_mem_numeral hmem)).2
  · exact hread

end TeamOrders
