import TeamOrders.Text.Blank
import TeamOrders.Text.Lowercase

/-!
# Small letters part by part

Only the sigma is lower-cased by what stands around it, and it looks no further than to the next
character that is not passed over. A blank or a semicolon has no case and is not passed over, so
nothing is seen across it. No small letter is white space.
-/

namespace TeamOrders.Text

variable {s t gap : List Char}

/-- The character has no case and is not passed over in looking for one. -/
def EndsSight (c : Char) : Prop :=
  inRanges caseIgnorableRanges c = false ∧ inRanges casedRanges c = false

theorem endsSight_blank : EndsSight ' ' := by
  constructor <;> decide +kernel

theorem endsSight_semicolon : EndsSight ';' := by
  constructor <;> decide +kernel

theorem facesCased_append (s : List Char) (h : ∀ c ∈ t.head?, EndsSight c) :
    facesCased (s ++ t) = facesCased s := by
  unfold facesCased
  rw [List.dropWhile_append]
  cases hdrop : s.dropWhile (inRanges caseIgnorableRanges) with
  | cons c rest => rfl
  | nil =>
    cases t with
    | nil => rfl
    | cons c t =>
      obtain ⟨hpassed, hcased⟩ := h c rfl
      simp [hpassed, hcased]

theorem lowerAfter_append (before s : List Char) (h : ∀ c ∈ t.head?, EndsSight c) :
    lowerAfter before (s ++ t) = lowerAfter before s ++ lowerAfter (s.reverse ++ before) t := by
  induction s generalizing before with
  | nil => rfl
  | cons c s ih =>
    simp only [List.cons_append, lowerAfter, facesCased_append s h, ih, List.append_assoc,
      List.reverse_cons, List.nil_append]

/-- What stands before the character that ends the sight makes no difference. -/
theorem lowerAfter_of_endsSight {before hidden : List Char} (h : ∀ c ∈ hidden.head?, EndsSight c)
    (s : List Char) : lowerAfter (before ++ hidden) s = lowerAfter before s := by
  induction s generalizing before with
  | nil => rfl
  | cons c s ih =>
    have hrest : lowerAfter (c :: (before ++ hidden)) s = lowerAfter (c :: before) s := by
      rw [← List.cons_append]
      exact ih
    simp only [lowerAfter, facesCased_append before h, hrest]

/-! ### Small letters are no white space -/

theorem inRanges_eq_false_iff {ranges : List CodeRange} {c : Char} :
    inRanges ranges c = false ↔ ∀ range ∈ ranges, c.toNat < range.1 ∨ range.2 < c.toNat := by
  rw [inRanges, List.any_eq_false]
  simp only [Bool.and_eq_true, decide_eq_true_eq, not_and, Nat.not_le]
  refine forall₂_congr fun range _ => ?_
  omega

theorem isBlank_eq_false_iff {c : Char} :
    isBlank c = false ↔ ∀ range ∈ blankRanges, c.toNat < range.1 ∨ range.2 < c.toNat :=
  inRanges_eq_false_iff

theorem isBlank_ofNat {n : Nat} (h : ∀ range ∈ blankRanges, n < range.1 ∨ range.2 < n) :
    isBlank (Char.ofNat n) = false := by
  by_cases hvalid : n.isValidChar
  · have hcode : (Char.ofNat n).toNat = n := by
      rw [Char.ofNat, dif_pos hvalid]
      rfl
    rwa [isBlank_eq_false_iff, hcode]
  · rw [Char.ofNat, dif_neg hvalid]
    decide

theorem asciiLetters_apart_from_blanks :
    (blankRanges.all fun range => decide (range.2 < 97 ∨ 122 < range.1)) = true := by
  decide

/-- Beyond ASCII, too, the small letters lie apart from white space. -/
theorem capitalRuns_apart_from_blanks :
    (capitalRuns.all fun run => blankRanges.all fun range =>
      decide (((run.last : Int) + run.shift).toNat < range.1 ∨
        (range.2 : Int) < run.first + run.shift)) = true := by
  decide +kernel

/-- A character is its own small letter, or its small letters are no white space. -/
theorem lowerChar_eq_self_or (c : Char) :
    lowerChar c = [c] ∨ ∀ d ∈ lowerChar c, isBlank d = false := by
  unfold lowerChar
  split
  · unfold Char.toLower
    split
    · rename_i hcapital
      right
      rw [List.forall_mem_singleton, isBlank_eq_false_iff]
      intro range hrange
      simp only [ge_iff_le, UInt32.le_iff_toNat_le] at hcapital
      have hletter : 65 ≤ c.val.toNat ∧ c.val.toNat ≤ 90 := hcapital
      have hapart := List.all_eq_true.mp asciiLetters_apart_from_blanks range hrange
      rw [decide_eq_true_eq] at hapart
      change (c.val.toNat + 32) % 4294967296 < range.1 ∨ range.2 < (c.val.toNat + 32) % 4294967296
      omega
    · exact .inl rfl
  · split
    · right
      exact List.forall_mem_cons.mpr ⟨by decide, List.forall_mem_singleton.mpr (by decide)⟩
    · split
      · rename_i run hrun
        right
        rw [List.forall_mem_singleton]
        apply isBlank_ofNat
        intro range hrange
        have hcovers := List.find?_some hrun
        have hapart := List.all_eq_true.mp (List.all_eq_true.mp capitalRuns_apart_from_blanks run
          (List.mem_of_find?_eq_some hrun)) range hrange
        simp only [CapitalRun.covers, Bool.and_eq_true, decide_eq_true_eq] at hcovers hapart
        omega
      · exact .inl rfl

theorem lowerChar_ne_nil (c : Char) : lowerChar c ≠ [] := by
  unfold lowerChar
  split
  · exact List.cons_ne_nil _ _
  · split
    · exact List.cons_ne_nil _ _
    · split <;> exact List.cons_ne_nil _ _

theorem lowerAfter_cons (before : List Char) (c : Char) (s : List Char) :
    ∃ small, small ≠ [] ∧ (isBlank c = false → ∀ d ∈ small, isBlank d = false) ∧
      lowerAfter before (c :: s) = small ++ lowerAfter (c :: before) s := by
  refine ⟨_, ?_, fun hc => ?_, rfl⟩
  · split
    · exact List.cons_ne_nil _ _
    · exact lowerChar_ne_nil c
  · split
    · rw [List.forall_mem_singleton]
      split <;> decide
    · rcases lowerChar_eq_self_or c with hself | hsmall
      · rw [hself]
        exact List.forall_mem_singleton.mpr hc
      · exact hsmall

/-- The character is its own small letter wherever it stands. -/
def IsSmall (c : Char) : Prop := c ≠ 'Σ' ∧ lowerChar c = [c]

theorem lowerAfter_small_append (before t : List Char) (h : ∀ c ∈ s, IsSmall c) :
    lowerAfter before (s ++ t) = s ++ lowerAfter (s.reverse ++ before) t := by
  induction s generalizing before with
  | nil => rfl
  | cons c s ih =>
    obtain ⟨hsigma, hsmall⟩ := h c List.mem_cons_self
    have hrest := ih (c :: before) fun d hd => h d (List.mem_cons_of_mem c hd)
    simp only [List.cons_append, lowerAfter, if_neg hsigma, hsmall, hrest, List.reverse_cons,
      List.append_assoc, List.nil_append]

theorem lower_eq_self (h : ∀ c ∈ s, IsSmall c) : lower s = s := by
  have happend := lowerAfter_small_append [] [] h
  rw [List.append_nil] at happend
  rw [lower, happend, lowerAfter, List.append_nil]

theorem lower_append_gap (hne : gap ≠ []) (hsight : ∀ c ∈ gap, EndsSight c)
    (hgap : ∀ c ∈ gap, IsSmall c) (s t : List Char) :
    lower (s ++ (gap ++ t)) = lower s ++ (gap ++ lower t) := by
  have hhead : ∀ u : List Char, ∀ c ∈ (gap ++ u).head?, EndsSight c := by
    intro u c hc
    obtain ⟨d, rest, rfl⟩ := List.exists_cons_of_ne_nil hne
    obtain rfl : d = c := Option.some.inj hc
    exact hsight d List.mem_cons_self
  have hlast : ∀ c ∈ (gap.reverse ++ (s.reverse ++ [])).head?, EndsSight c := by
    intro c hc
    obtain ⟨d, rest, hreverse⟩ := List.exists_cons_of_ne_nil (List.reverse_ne_nil_iff.mpr hne)
    rw [hreverse] at hc
    obtain rfl : d = c := Option.some.inj hc
    exact hsight d (List.mem_reverse.mp (hreverse ▸ List.mem_cons_self))
  rw [lower, lowerAfter_append [] s (hhead t), lowerAfter_small_append _ t hgap,
    ← List.nil_append (gap.reverse ++ (s.reverse ++ [])), lowerAfter_of_endsSight hlast]
  rfl

end TeamOrders.Text
