import Mathlib.Data.Bool.AllAny
import Mathlib.Data.List.TakeWhile
import TeamOrders.Comment.Segment
import TeamOrders.Proofs.Text.Fold

/-!
# Separators of instructions

What is taken for a separator is a semicolon or one of the separating words, with no word going on at
its two ends. What follows about separators is read off this grammar, not off the way they are found.
-/

namespace TeamOrders.Comment

open Text

variable {s mark after : List Char} {before : Option Char} {n : Nat}

/-- What separates between what stands before it and behind it: a semicolon, or `then`, `also` or
`and` and `then` with white space between, as whole words in any case. -/
inductive IsSeparator (before : Option Char) (after : List Char) : List Char → Prop
  | semicolon : IsSeparator before after [';']
  | word {word : String} {mark : List Char} : word = "then" ∨ word = "also" →
    Spells word.toList mark → endsInWord before = false → startsInWord after = false →
      IsSeparator before after mark
  | andThen {front gap back : List Char} : Spells "and".toList front → gap ≠ [] →
    (∀ c ∈ gap, isBlank c = true) → Spells "then".toList back → endsInWord before = false →
      startsInWord after = false → IsSeparator before after (front ++ (gap ++ back))

theorem wholeWord_eq_some_iff {word : String} : wholeWord word s = some n ↔
    n = word.length ∧ ∃ mark rest, Spells word.toList mark ∧ s = mark ++ rest ∧
      startsInWord rest = false := by
  unfold wholeWord
  constructor
  · intro h
    split at h
    · rename_i rest hdrop
      split at h
      · cases h
      · rename_i hstarts
        obtain ⟨mark, hmark, rfl⟩ := dropWord_eq_some_iff.mp hdrop
        exact ⟨(Option.some.inj h).symm, mark, rest, hmark, rfl, by simpa using hstarts⟩
    · cases h
  · rintro ⟨rfl, mark, rest, hmark, rfl, hstarts⟩
    rw [dropWord_eq_some_iff.mpr ⟨mark, hmark, rfl⟩]
    simp [hstarts]

theorem drop_length_takeWhile (keep : Char → Bool) (s : List Char) :
    s.drop (s.takeWhile keep).length = s.dropWhile keep := by
  have hdrop : (s.takeWhile keep ++ s.dropWhile keep).drop (s.takeWhile keep).length
      = s.dropWhile keep := List.drop_left
  rwa [List.takeWhile_append_dropWhile] at hdrop

theorem andThen_eq_some_iff : andThen s = some n ↔
    ∃ front gap back rest, Spells "and".toList front ∧ gap ≠ [] ∧ (∀ c ∈ gap, isBlank c = true) ∧
      Spells "then".toList back ∧ startsInWord rest = false ∧
      s = front ++ (gap ++ (back ++ rest)) ∧ n = front.length + (gap.length + back.length) := by
  unfold andThen
  constructor
  · intro h
    split at h
    · rename_i behind hdrop
      obtain ⟨front, hfront, rfl⟩ := dropWord_eq_some_iff.mp hdrop
      dsimp only at h
      split at h
      · cases h
      · rename_i hblanks
        obtain ⟨m, hm, rfl⟩ := Option.map_eq_some_iff.mp h
        rw [drop_length_takeWhile] at hm
        obtain ⟨rfl, back, rest, hback, hbehind, hstarts⟩ := wholeWord_eq_some_iff.mp hm
        refine ⟨front, behind.takeWhile isBlank, back, rest, hfront, fun hnil => hblanks ?_,
          fun c hc => List.mem_takeWhile_imp hc, hback, hstarts, ?_, ?_⟩
        · rw [hnil, List.length_nil]
        · rw [← hbehind, List.takeWhile_append_dropWhile]
        · rw [hfront.length_eq, hback.length_eq, ← Nat.add_assoc]
          rfl
    · cases h
  · rintro ⟨front, gap, back, rest, hfront, hne, hgap, hback, hstarts, rfl, rfl⟩
    have htake : (gap ++ (back ++ rest)).takeWhile isBlank = gap := by
      obtain ⟨c, tail, hcons⟩ := List.exists_cons_of_ne_nil
        (List.append_ne_nil_of_left_ne_nil (back.ne_nil_of_length_eq_add_one hback.length_eq) rest)
      have hstarts := hback.startsInWord (by decide) (List.all_eq_true.mp rfl) rest
      rw [hcons] at hstarts ⊢
      rw [List.takeWhile_append_of_pos hgap, List.takeWhile_cons_of_neg, List.append_nil]
      simpa using isBlank_of_isWord hstarts
    have hthen : wholeWord "then" (back ++ rest) = some 4 :=
      wholeWord_eq_some_iff.mpr ⟨rfl, back, rest, hback, rfl, hstarts⟩
    simp only [dropWord_eq_some_iff.mpr ⟨front, hfront, rfl⟩, htake, List.length_eq_zero_iff, hne,
      if_false, List.drop_left, hthen, Option.map_some, hfront.length_eq, hback.length_eq,
      Option.some.injEq, ← Nat.add_assoc]
    rfl

theorem exists_word_of_wholeWord {word : String} (hword : word = "then" ∨ word = "also")
    (hbefore : endsInWord before = false) (h : wholeWord word s = some n) :
    ∃ mark rest, s = mark ++ rest ∧ mark.length = n ∧ IsSeparator before rest mark := by
  obtain ⟨rfl, mark, rest, hmark, rfl, hstarts⟩ := wholeWord_eq_some_iff.mp h
  exact ⟨mark, rest, rfl, hmark.length_eq.trans word.length_toList,
    .word hword hmark hbefore hstarts⟩

theorem exists_mark_of_separator (h : separator before s = some n) :
    ∃ mark rest, s = mark ++ rest ∧ mark.length = n ∧ IsSeparator before rest mark := by
  unfold separator at h
  split at h
  · rename_i hhead
    obtain ⟨rest, rfl⟩ := List.head?_eq_some_iff.mp hhead
    exact ⟨[';'], rest, rfl, Option.some.inj h, .semicolon⟩
  · split at h
    · cases h
    · rename_i hbefore
      rw [Bool.not_eq_true] at hbefore
      rcases Option.or_eq_some_iff.mp h with h | ⟨-, h⟩
      · rcases Option.or_eq_some_iff.mp h with h | ⟨-, h⟩
        · obtain ⟨front, gap, back, rest, hfront, hne, hgap, hback, hstarts, rfl, rfl⟩ :=
            andThen_eq_some_iff.mp h
          exact ⟨front ++ (gap ++ back), rest, by simp, by simp,
            .andThen hfront hne hgap hback hbefore hstarts⟩
        · exact exists_word_of_wholeWord (.inl rfl) hbefore h
      · exact exists_word_of_wholeWord (.inr rfl) hbefore h

/-- A separator is taken for one, or for the start of one. -/
theorem separator_ne_none (h : IsSeparator before after mark) :
    separator before (mark ++ after) ≠ none := by
  have hwords : ∀ {s : List Char}, endsInWord before = false →
      andThen s ≠ none ∨ wholeWord "then" s ≠ none ∨ wholeWord "also" s ≠ none →
      separator before s ≠ none := by
    intro s hbefore hany hnone
    rw [separator, hbefore] at hnone
    split at hnone
    · cases hnone
    · simp only [Bool.false_eq_true, if_false, Option.or_eq_none_iff] at hnone
      obtain ⟨⟨handThen, hthen⟩, halso⟩ := hnone
      rcases hany with hany | hany | hany
      · exact hany handThen
      · exact hany hthen
      · exact hany halso
  cases h with
  | semicolon => exact Option.some_ne_none 1
  | word hword hmark hbefore hstarts =>
    have hfound := wholeWord_eq_some_iff.mpr ⟨rfl, mark, after, hmark, rfl, hstarts⟩
    refine hwords hbefore (.inr ?_)
    rcases hword with rfl | rfl
    · exact .inl (hfound ▸ Option.some_ne_none _)
    · exact .inr (hfound ▸ Option.some_ne_none _)
  | @andThen front gap back hfront hne hgap hback hbefore hstarts =>
    have hfound := andThen_eq_some_iff.mpr
      ⟨front, gap, back, after, hfront, hne, hgap, hback, hstarts, rfl, rfl⟩
    refine hwords hbefore (.inl ?_)
    rw [List.append_assoc, List.append_assoc, hfound]
    exact Option.some_ne_none _

namespace IsSeparator

theorem ne_nil (h : IsSeparator before after mark) : mark ≠ [] := by
  cases h with
  | semicolon => exact List.cons_ne_nil _ _
  | word hword hmark =>
    rcases hword with rfl | rfl <;> exact mark.ne_nil_of_length_eq_add_one hmark.length_eq
  | andThen hfront =>
    exact List.append_ne_nil_of_left_ne_nil (List.ne_nil_of_length_eq_add_one hfront.length_eq) _

/-- No word goes on from a separator to what stands behind it. -/
theorem ends_apart (h : IsSeparator before after mark) :
    endsInWord mark.getLast? = false ∨ startsInWord after = false := by
  cases h with
  | semicolon => exact .inl (by decide)
  | word _ _ _ hafter => exact .inr hafter
  | andThen _ _ _ _ _ hafter => exact .inr hafter

theorem starts_apart (h : IsSeparator before after mark) :
    endsInWord before = false ∨ startsInWord (mark ++ after) = false := by
  cases h with
  | semicolon => exact .inr (by change isWord ';' = false; decide)
  | word _ _ hbefore => exact .inl hbefore
  | andThen _ _ _ _ hbefore => exact .inl hbefore

/-- A separator is one between other texts, too, as long as no word goes on there that ended here. -/
theorem move (h : IsSeparator before after mark) {before' : Option Char} {after' : List Char}
    (hbefore : endsInWord before = false → startsInWord (mark ++ after) = true →
      endsInWord before' = false)
    (hafter : endsInWord mark.getLast? = true → startsInWord after = false →
      startsInWord after' = false) : IsSeparator before' after' mark := by
  have hend : ∀ (word : String) (front back : List Char), word = "then" ∨ word = "also" →
      Spells word.toList back → endsInWord (front ++ back).getLast? = true := by
    intro word front back hword hback
    rw [← Option.or_none (o := (front ++ back).getLast?)]
    rcases hword with rfl | rfl <;>
      exact hback.endsInWord (by decide) (List.all_eq_true.mp rfl) front none
  cases h with
  | semicolon => exact .semicolon
  | word hword hmark hstarts hends =>
    refine .word hword hmark (hbefore hstarts ?_) (hafter (hend _ [] _ hword hmark) hends)
    rcases hword with rfl | rfl <;> exact hmark.startsInWord (by decide) (List.all_eq_true.mp rfl) after
  | @andThen front gap back hfront hne hgap hback hstarts hends =>
    rw [List.append_assoc] at hbefore
    rw [← List.append_assoc] at hafter
    refine .andThen hfront hne hgap hback (hbefore hstarts ?_)
      (hafter (hend _ (front ++ gap) _ (.inl rfl) hback) hends)
    exact hfront.startsInWord (by decide) (List.all_eq_true.mp rfl) _

end IsSeparator

theorem solid_separator (before : Option Char) (s : List Char) (n : Nat)
    (h : separator before s = some n) : 0 < n ∧ n ≤ s.length := by
  obtain ⟨mark, rest, rfl, rfl, hmark⟩ := exists_mark_of_separator h
  exact ⟨List.length_pos_iff.mpr hmark.ne_nil, by simp⟩

end TeamOrders.Comment
