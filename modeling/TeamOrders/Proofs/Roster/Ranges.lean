import Mathlib.Data.List.Basic
import TeamOrders.Proofs.Roster.Agreement

/-!
# Lists expand item by item, and ranges exactly

A comma cuts a fragment, whatever stands around it, so what the two sides expand to stands side by side. A
range is one item: nothing in it separates, and its dash keeps it from being a word that is dropped. Its ends
are read with any zeros in front of them, and it stands for a run of consecutive numbers, or for itself when
the run would be too long or an end is not read.
-/

namespace TeamOrders.Roster

open Number Text

/-! ### Numbers with zeros in front -/

section Padded

variable {zeros n limit : Nat} {c : Char}

def padded (zeros n : Nat) : List Char := List.replicate zeros '0' ++ numeral n

theorem mem_asciiDigits_of_mem_padded (h : c ∈ padded zeros n) : c ∈ asciiDigits := by
  rcases List.mem_append.mp h with h | h
  · rw [List.eq_of_mem_replicate h]
    decide
  · exact mem_asciiDigits_of_mem_numeral h

theorem digitsValue_padded (zeros n : Nat) : digitsValue 0 (padded zeros n) = n := by
  induction zeros with
  | zero => exact digitsValue_numeral n
  | succ zeros ih => exact ih

theorem readDigits_padded (limit zeros n : Nat) :
    readDigits limit (padded zeros n) = if n < limit then some n else none := by
  have hne : (padded zeros n).isEmpty = false := by
    rw [List.isEmpty_eq_false_iff]
    exact List.append_ne_nil_of_right_ne_nil _ (numeral_ne_nil n)
  have hdigits : ∀ c ∈ asciiDigits, isAsciiDigit c = true := List.all_eq_true.mp rfl
  have hall : (padded zeros n).all isAsciiDigit = true :=
    List.all_eq_true.mpr fun c hc => hdigits c (mem_asciiDigits_of_mem_padded hc)
  simp only [readDigits, hne, hall, digitsValue_padded, Bool.not_true, Bool.or_self,
    Bool.false_eq_true, if_false]

end Padded

/-! ### Runs of numbers -/

section Run

variable {first last n : Nat}

/-- The consecutive numbers from one to another, both included, upwards or downwards. -/
def run (first last : Nat) : List Nat :=
  if first ≤ last then List.range' first (last - first + 1)
  else (List.range' last (first - last + 1)).reverse

theorem length_run (first last : Nat) :
    (run first last).length = ((first : Int) - last).natAbs + 1 := by
  unfold run
  split
  · rw [List.length_range']
    omega
  · rw [List.length_reverse, List.length_range']
    omega

theorem le_max_of_mem_run (h : n ∈ run first last) : n ≤ max first last := by
  unfold run at h
  split at h
  · rw [List.mem_range'_1] at h
    omega
  · rw [List.mem_reverse, List.mem_range'_1] at h
    omega

theorem countBetween_eq_run (first last : Nat) : countBetween first last = run first last := by
  unfold countBetween run
  split
  · exact (List.range'_eq_map_range ..).symm
  · rw [List.reverse_range']
    refine List.map_congr_left fun n _ => ?_
    omega

end Run

/-! ### Ranges -/

/-- A range of numbers as it is written: two numbers, each perhaps with zeros in front, and a dash. -/
structure WrittenRange where
  zeros : Nat
  first : Nat
  zerosLast : Nat
  last : Nat

namespace WrittenRange

def chars (range : WrittenRange) : List Char :=
  padded range.zeros range.first ++ '-' :: padded range.zerosLast range.last

/-- Both ends fit 64 bits, and the range is not too wide. -/
def Expands (range : WrittenRange) : Prop :=
  range.first < UInt64.size ∧ range.last < UInt64.size ∧
    ((range.first : Int) - range.last).natAbs ≤ 1000

instance (range : WrittenRange) : Decidable range.Expands := inferInstanceAs (Decidable (_ ∧ _))

def numbers (range : WrittenRange) : List Nat := run range.first range.last

variable (range : WrittenRange)

theorem mem_of_mem_chars {c : Char} (h : c ∈ range.chars) : c = '-' ∨ c ∈ asciiDigits := by
  rcases List.mem_append.mp h with h | h
  · exact .inr (mem_asciiDigits_of_mem_padded h)
  · exact (List.mem_cons.mp h).imp_right mem_asciiDigits_of_mem_padded

theorem dash_mem_chars : '-' ∈ range.chars := List.mem_append_right _ List.mem_cons_self

theorem isItemChar_of_mem_chars {c : Char} (h : c ∈ range.chars) : isItemChar c = true := by
  have hdigits : ∀ c ∈ asciiDigits, isItemChar c = true := List.all_eq_true.mp rfl
  rcases range.mem_of_mem_chars h with rfl | h
  · decide
  · exact hdigits c h

theorem dropWhile_sign_chars : range.chars.dropWhile (· == '#') = range.chars := by
  refine dropWhile_eq_self fun c hc => ?_
  have hsign : '#' ∉ asciiDigits := by decide
  rcases range.mem_of_mem_chars (List.mem_of_head? hc) with rfl | h
  · decide
  · exact beq_eq_false_iff_ne.mpr fun heq => hsign (heq ▸ h)

/-- A range is one item: it goes with none of the words that are dropped, since they have no dash. -/
theorem items_chars {introducing : List (List Char)} (h : ∀ word ∈ introducing, '-' ∉ word) :
    items introducing range.chars = [range.chars] := by
  have hunbroken : ∀ c ∈ range.chars, separatesItems c = false :=
    fun c hc => not_separatesItems_of_isItemChar (range.isItemChar_of_mem_chars hc)
  have hquote : '"' ∉ range.chars := fun hmem =>
    (ne_of_isItemChar (range.isItemChar_of_mem_chars hmem)).2 rfl
  have hdash : '-' ∈ range.chars.map Char.toLower := List.mem_map.mpr ⟨'-', range.dash_mem_chars, rfl⟩
  have hconnectors : range.chars.map Char.toLower ∉ connectors := by
    have hwords : ∀ word ∈ connectors, '-' ∉ word := by decide
    exact fun hmem => hwords _ hmem hdash
  have hintroducing : range.chars.map Char.toLower ∉ introducing := fun hmem => h _ hmem hdash
  have hkeeps : keeps introducing range.chars = true := by
    simp [keeps, hconnectors, hintroducing, List.ne_nil_of_mem range.dash_mem_chars]
  rw [items_eq_itemsWithin, itemsWithin_of_unbroken hunbroken, bare_of_no_quote hquote,
    dropWhile_sign_chars, List.filter_cons_of_pos hkeeps, List.filter_nil]

theorem cutAt_chars : cutAt '-' range.chars
    = some (padded range.zeros range.first, padded range.zerosLast range.last) := by
  have hdash : '-' ∉ asciiDigits := by decide
  have hleft : ∀ c ∈ padded range.zeros range.first, (c != '-') = true := fun c hc =>
    bne_iff_ne.mpr fun heq => hdash (heq ▸ mem_asciiDigits_of_mem_padded hc)
  rw [cutAt, chars, List.dropWhile_append_of_pos hleft, List.takeWhile_append_of_pos hleft]
  simp

theorem range?_chars :
    range? range.chars = if range.Expands then some range.numbers else none := by
  have hexpands : range.Expands ↔ range.first < wordLimit ∧ range.last < wordLimit ∧
      (range.first - range.last) + (range.last - range.first) ≤ maxSpan := by
    have hlimit : UInt64.size = wordLimit := rfl
    rw [Expands, hlimit, maxSpan]
    omega
  simp only [range?, cutAt_chars, readDigits_padded, countBetween_eq_run, hexpands, numbers]
  by_cases hfirst : range.first < wordLimit
  · by_cases hlast : range.last < wordLimit
    · simp only [hfirst, hlast, if_true, true_and]
    · simp only [hfirst, hlast, if_true, if_false, false_and, and_false]
  · simp only [hfirst, if_false, false_and]

theorem namedBy_chars {introducing : List (List Char)} (h : ∀ word ∈ introducing, '-' ∉ word)
    (ofNumber : Nat → List Char) (ofItem : List Char → List Char) :
    namedBy introducing ofNumber ofItem range.chars
      = if range.Expands then range.numbers.map ofNumber else [ofItem range.chars] := by
  rw [namedBy, range.items_chars h, List.flatMap_singleton, range?_chars]
  by_cases hexpands : range.Expands
  · rw [if_pos hexpands, if_pos hexpands]
  · rw [if_neg hexpands, if_neg hexpands]

theorem teamName_chars : teamName range.chars = teamPrefix ++ range.chars := by
  have hstarts : teamPrefix.isPrefixOf range.chars = false := by
    have hdigit : 't' ∉ asciiDigits := by decide
    rw [Bool.eq_false_iff]
    intro h
    rcases range.mem_of_mem_chars ((List.isPrefixOf_iff_prefix.mp h).subset List.mem_cons_self)
      with hdash | hmem
    · exact absurd hdash (by decide)
    · exact hdigit hmem
  rw [teamName_of_item fun c hc => range.isItemChar_of_mem_chars hc, trimStartBy,
    dropWhile_sign_chars, hstarts]
  rfl

theorem lt_of_mem_numbers {n : Nat} (h : range.Expands) (hmem : n ∈ range.numbers) :
    n < UInt64.size := by
  have hmax := le_max_of_mem_run hmem
  obtain ⟨hfirst, hlast, -⟩ := h
  omega

end WrittenRange

/-! ### First occurrences -/

section Distinct

variable {α : Type} [DecidableEq α]

/-- What has not been seen before comes in the order of its first occurrences. -/
theorem pairwise_idxOf_go (seen names : List α) :
    (distinct.go seen names).Pairwise fun a b => names.idxOf a < names.idxOf b := by
  induction names generalizing seen with
  | nil => exact List.Pairwise.nil
  | cons name rest ih =>
    have hlater : ∀ seen : List α, name ∈ seen →
        (distinct.go seen rest).Pairwise fun a b => (name :: rest).idxOf a < (name :: rest).idxOf b := by
      intro seen hseen
      have hne : ∀ x ∈ distinct.go seen rest, name ≠ x := by
        rintro x hx rfl
        exact (mem_distinct_go.mp hx).2 hseen
      refine (ih seen).imp_of_mem fun ha hb hless => ?_
      rw [List.idxOf_cons_ne _ (hne _ ha), List.idxOf_cons_ne _ (hne _ hb)]
      exact Nat.succ_lt_succ hless
    unfold distinct.go
    split
    · rename_i hseen
      exact hlater seen hseen
    · refine List.pairwise_cons.mpr ⟨fun x hx => ?_, hlater (name :: seen) List.mem_cons_self⟩
      have hne : name ≠ x := by
        rintro rfl
        exact (mem_distinct_go.mp hx).2 List.mem_cons_self
      rw [List.idxOf_cons_self, List.idxOf_cons_ne _ hne]
      exact Nat.succ_pos _

end Distinct

/-- Two fragments with a comma between them expand to what they expand to alone, side by side. A range
expands to the consecutive numbers from its first to its last, all of 64 bits, as tasks or as teams; but if it
is too wide or an end does not fit, it is one name. And of repeated names the first occurrences are kept, in
their order. -/
theorem lists_expand_exactly :
    (∀ s t : List Char,
      teams (s ++ ',' :: t) = teams s ++ teams t ∧ tasks (s ++ ',' :: t) = tasks s ++ tasks t) ∧
    (∀ range : WrittenRange,
      if range.Expands then
        tasks range.chars = range.numbers.map numeral ∧
        teams range.chars = range.numbers.map (teamPrefix ++ numeral ·) ∧
        range.numbers.length = ((range.first : Int) - range.last).natAbs + 1 ∧
        ∀ n ∈ range.numbers, n < UInt64.size
      else
        tasks range.chars = [range.chars] ∧ teams range.chars = [teamPrefix ++ range.chars]) ∧
    ∀ (α : Type) [DecidableEq α] (names : List α),
      (distinct names).Nodup ∧ (∀ name, name ∈ distinct names ↔ name ∈ names) ∧
      (distinct names).Pairwise fun a b => names.idxOf a < names.idxOf b := by
  refine ⟨fun s t => ⟨namedBy_append s t, namedBy_append s t⟩, fun range => ?_, fun α _ names => ?_⟩
  · rw [tasks_eq_namedBy, teams_eq_namedBy, range.namedBy_chars (by decide),
      range.namedBy_chars (by decide), range.teamName_chars]
    split
    · rename_i hexpands
      exact ⟨rfl, rfl, length_run _ _, fun n hmem => range.lt_of_mem_numbers hexpands hmem⟩
    · exact ⟨rfl, rfl⟩
  · exact ⟨nodup_distinct names, fun name => mem_distinct, pairwise_idxOf_go [] names⟩

end TeamOrders.Roster
