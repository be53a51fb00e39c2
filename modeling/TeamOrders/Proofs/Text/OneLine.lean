import TeamOrders.Command.Basic
import TeamOrders.Number.Decimal
import TeamOrders.Proofs.Number.Numeral
import TeamOrders.Proofs.Text.Lowercase

/-!
# Texts on one line

A text is on one line if it holds no line break. So is what is put together from such texts, what is
printed for a number, and what lower-casing makes of such a text: no small letter is a line break.
-/

namespace TeamOrders

open Text

def OneLine (s : String) : Prop := '\n' ∉ s.toList

instance (s : String) : Decidable (OneLine s) := inferInstanceAs (Decidable ('\n' ∉ s.toList))

theorem oneLine_ofList {s : List Char} : OneLine (String.ofList s) ↔ '\n' ∉ s := by
  rw [OneLine, String.toList_ofList]

theorem oneLine_append {a b : String} : OneLine (a ++ b) ↔ OneLine a ∧ OneLine b := by
  rw [OneLine, OneLine, OneLine, String.toList_append, List.mem_append, not_or]

theorem oneLine_intercalate {separator : String} (hseparator : OneLine separator) {texts : List String}
    (h : ∀ text ∈ texts, OneLine text) : OneLine (separator.intercalate texts) := by
  have hparts : ∀ part ∈ texts.map String.toList, '\n' ∉ part := List.forall_mem_map.mpr h
  rw [OneLine, String.toList_intercalate]
  generalize texts.map String.toList = parts at hparts ⊢
  induction parts with
  | nil => exact List.not_mem_nil
  | cons first rest ih =>
    obtain ⟨hfirst, hrest⟩ := List.forall_mem_cons.mp hparts
    cases rest with
    | nil => simpa using hfirst
    | cons next rest =>
      rw [List.intercalate_cons_cons, List.mem_append, List.mem_append, not_or, not_or]
      exact ⟨⟨hfirst, hseparator⟩, ih hrest⟩

theorem oneLine_listed {names : List String} (h : ∀ name ∈ names, OneLine name) :
    OneLine (listed names) := oneLine_intercalate (by decide) h

/-! ### Numbers -/

theorem oneLine_nat (n : Nat) : OneLine (toString n) := by
  intro hmem
  exact absurd (mem_asciiDigits_of_mem_numeral hmem) (by decide)

theorem oneLine_sign (negative : Bool) : OneLine (Double.sign negative) := by
  cases negative <;> decide

theorem oneLine_pointed {digits : List Char} (h : '\n' ∉ digits) (whole : Nat) :
    OneLine (Double.pointed digits whole) := by
  simp only [Double.pointed, oneLine_append, oneLine_ofList]
  exact ⟨⟨fun hmem => h (List.mem_of_mem_take hmem), by decide⟩, fun hmem => h (List.mem_of_mem_drop hmem)⟩

theorem oneLine_fixed (places : Nat) (x : Double) : OneLine (x.fixed places) := by
  cases x with
  | nan => exact (by decide : OneLine "NaN")
  | infinite negative => exact oneLine_append.mpr ⟨oneLine_sign negative, by decide⟩
  | finite negative units =>
    have hpadded : ∀ n count, '\n' ∉ List.replicate n '0' ++ (toString (count : Nat)).toList := by
      intro n count hmem
      rcases List.mem_append.mp hmem with hmem | hmem
      · exact absurd (List.eq_of_mem_replicate hmem) (by decide)
      · exact oneLine_nat count hmem
    refine oneLine_append.mpr ⟨oneLine_sign negative, ?_⟩
    split
    · exact oneLine_ofList.mpr (hpadded _ _)
    · exact oneLine_pointed (hpadded _ _) _

/-! ### Small letters -/

theorem not_mem_lowerChar {c : Char} (h : c ≠ '\n') : '\n' ∉ lowerChar c := by
  rcases lowerChar_eq_self_or c with hself | hsmall
  · rw [hself, List.mem_singleton]
    exact Ne.symm h
  · intro hmem
    exact absurd (hsmall '\n' hmem) (by decide)

theorem not_mem_lower {s : List Char} (h : '\n' ∉ s) : '\n' ∉ lower s := by
  suffices hafter : ∀ before, '\n' ∉ lowerAfter before s from hafter []
  induction s with
  | nil => exact fun _ => List.not_mem_nil
  | cons c s ih =>
    obtain ⟨hc, hs⟩ := not_or.mp (fun hmem => h (List.mem_cons.mpr hmem))
    intro before
    rw [lowerAfter, List.mem_append, not_or]
    refine ⟨?_, ih hs _⟩
    split
    · split <;> decide
    · exact not_mem_lowerChar (Ne.symm hc)

end TeamOrders
