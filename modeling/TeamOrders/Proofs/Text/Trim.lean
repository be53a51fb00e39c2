import Mathlib.Data.List.TakeWhile
import TeamOrders.Text.Trim

/-!
# Trimmed texts

A text is its trimmed form with white space around it. Trimming finds that form: it takes away white
space wherever it was added at an end, and leaves alone what has none there.
-/

namespace TeamOrders.Text

variable {s blanks : List Char}

def IsTrimmed (s : List Char) : Prop :=
  (∀ c ∈ s.head?, isBlank c = false) ∧ ∀ c ∈ s.getLast?, isBlank c = false

theorem dropWhile_eq_self {drop : Char → Bool} (h : ∀ c ∈ s.head?, drop c = false) :
    s.dropWhile drop = s := by
  cases s with
  | nil => rfl
  | cons c rest =>
    have hc : drop c = false := h c rfl
    rw [List.dropWhile_cons, hc]
    rfl

theorem head?_dropWhile_eq_false (drop : Char → Bool) (s : List Char) :
    ∀ c ∈ (s.dropWhile drop).head?, drop c = false := by
  intro c hc
  have hfalse := List.head?_dropWhile_not drop s
  rw [Option.mem_def] at hc
  simpa [hc] using hfalse

theorem trim_eq_self (h : IsTrimmed s) : trim s = s := by
  have hlast : ∀ c ∈ s.reverse.head?, isBlank c = false := by
    rw [List.head?_reverse]
    exact h.2
  rw [trim, trimBy, trimStartBy, dropWhile_eq_self h.1, trimEndBy, dropWhile_eq_self hlast,
    List.reverse_reverse]

theorem trim_blanks_append (h : ∀ c ∈ blanks, isBlank c = true) : trim (blanks ++ s) = trim s := by
  rw [trim, trim, trimBy, trimBy, trimStartBy, trimStartBy, List.dropWhile_append_of_pos h]

theorem trim_append_blanks (h : ∀ c ∈ blanks, isBlank c = true) : trim (s ++ blanks) = trim s := by
  have hreverse : ∀ c ∈ blanks.reverse, isBlank c = true := by
    intro c hc
    exact h c (List.mem_reverse.mp hc)
  have hnil : blanks.dropWhile isBlank = [] := by
    simpa [List.dropWhile_eq_nil_iff] using h
  rw [trim, trim, trimBy, trimBy, trimStartBy, trimStartBy, List.dropWhile_append]
  split
  · rename_i hempty
    rw [List.isEmpty_iff.mp hempty, hnil]
  · rw [trimEndBy, trimEndBy, List.reverse_append, List.dropWhile_append_of_pos hreverse]

/-- A text is its trimmed form between white space. -/
theorem exists_eq_append_trim (s : List Char) :
    ∃ before after, (∀ c ∈ before, isBlank c = true) ∧ (∀ c ∈ after, isBlank c = true) ∧
      s = before ++ trim s ++ after := by
  let started := s.dropWhile isBlank
  refine ⟨s.takeWhile isBlank, (started.reverse.takeWhile isBlank).reverse, ?_, ?_, ?_⟩
  · intro c hc
    exact List.mem_takeWhile_imp hc
  · intro c hc
    exact List.mem_takeWhile_imp (List.mem_reverse.mp hc)
  · have hstarted : trim s ++ (started.reverse.takeWhile isBlank).reverse = started := by
      rw [trim, trimBy, trimStartBy, trimEndBy, ← List.reverse_append,
        List.takeWhile_append_dropWhile, List.reverse_reverse]
    rw [List.append_assoc, hstarted, List.takeWhile_append_dropWhile]

theorem isTrimmed_trim (s : List Char) : IsTrimmed (trim s) := by
  constructor
  · intro c hc
    have hhead := head?_dropWhile_eq_false isBlank s
    apply hhead
    obtain ⟨tail, htail⟩ : ∃ tail, s.dropWhile isBlank = trim s ++ tail := by
      refine ⟨((s.dropWhile isBlank).reverse.takeWhile isBlank).reverse, ?_⟩
      rw [trim, trimBy, trimStartBy, trimEndBy, ← List.reverse_append,
        List.takeWhile_append_dropWhile, List.reverse_reverse]
    rw [htail, List.head?_append, Option.mem_def.mp hc]
    rfl
  · intro c hc
    rw [trim, trimBy, trimEndBy, List.getLast?_reverse] at hc
    exact head?_dropWhile_eq_false isBlank _ c hc

theorem trim_eq_nil_iff : trim s = [] ↔ ∀ c ∈ s, isBlank c = true := by
  constructor
  · intro h
    obtain ⟨before, after, hbefore, hafter, hs⟩ := exists_eq_append_trim s
    intro c hc
    rw [hs, h, List.append_nil] at hc
    rcases List.mem_append.mp hc with hc | hc
    · exact hbefore c hc
    · exact hafter c hc
  · intro h
    have hblanks := trim_append_blanks (s := []) h
    rw [List.nil_append] at hblanks
    rw [hblanks]
    rfl

theorem trimBy_isInfix (drop : Char → Bool) (s : List Char) : trimBy drop s <:+: s := by
  have hend : trimEndBy drop (trimStartBy drop s) <+: trimStartBy drop s := by
    rw [← List.reverse_suffix, trimEndBy, List.reverse_reverse]
    exact List.dropWhile_suffix drop
  exact hend.isInfix.trans (List.dropWhile_suffix drop).isInfix

theorem occursIn_of_isInfix {needle : List Char} (h : needle <:+: s) : occursIn needle s = true := by
  induction s with
  | nil =>
    rw [List.infix_nil.mp h]
    rfl
  | cons c s ih =>
    rw [occursIn, Bool.or_eq_true]
    rcases List.infix_cons_iff.mp h with hstarts | hwithin
    · exact .inl (List.isPrefixOf_iff_prefix.mpr hstarts)
    · exact .inr (ih hwithin)

theorem isInfix_of_occursIn {needle : List Char} (h : occursIn needle s = true) : needle <:+: s := by
  induction s with
  | nil => simpa [occursIn] using h
  | cons c s ih =>
    rw [occursIn, Bool.or_eq_true] at h
    rcases h with hstarts | hwithin
    · exact (List.isPrefixOf_iff_prefix.mp hstarts).isInfix
    · exact List.infix_cons_iff.mpr (.inr (ih hwithin))

theorem occursIn_iff_isInfix {needle : List Char} : occursIn needle s = true ↔ needle <:+: s :=
  ⟨isInfix_of_occursIn, occursIn_of_isInfix⟩

end TeamOrders.Text
