import TeamOrders.Proofs.Comment.Canonical
import TeamOrders.Proofs.Comment.Segments

/-!
# Texts with a blank between them

A blank keeps the passes over comments from judging one text by another, as a semicolon does. So two texts
that are their own normal form are so together, with a blank between them. The cut into segments looks
across white space in one case only: `and` may stand before the blank and `then` behind it.
-/

namespace TeamOrders.Comment

open Text

variable {s t : List Char}

/-! ### The normal form -/

theorem fitting_of_fold_eq (h : fold s = s) : Fitting fits none s := by
  have hfit := (fold_fold_eq_iff s).mp (by rw [h, h])
  rwa [h] at hfit

theorem isTrimmed_of_fold_eq (h : fold s = s) : IsTrimmed s :=
  fitting_unpadded_iff.mp (fitting_and.mp (fitting_and.mp (fitting_of_fold_eq h)).1).2

theorem plain_of_fold_eq (h : fold s = s) : Plain s := h ▸ plain_fold s

theorem not_two_blanks_of_fold_eq (h : fold s = s) : ¬ [' ', ' '] <:+: s :=
  (fitting_single_iff (plain_of_fold_eq h)).mp (fitting_and.mp (fitting_of_fold_eq h)).2

theorem isGap_blank : IsGap [' '] := ⟨List.all_iff_forall_prop.mp (by decide), [], ' ', rfl, rfl⟩

theorem isJoint_blank : IsJoint [' '] := ⟨List.all_iff_forall_prop.mp (by decide), rfl⟩

theorem fold_append_blank (hs : IsTrimmed s) (hsne : s ≠ []) (ht : IsTrimmed t) (htne : t ≠ []) :
    fold (s ++ ' ' :: t) = fold s ++ ' ' :: fold t := by
  have hsqueeze : squeeze false [' '] = [' '] := rfl
  have hgap := fold_append_gap (s := s) (t := t) (by rwa [trim_eq_self hs]) (by rwa [trim_eq_self ht])
    isGap_blank isJoint_blank hsqueeze
  rwa [trim_eq_self hs, trim_eq_self ht] at hgap

/-! ### Separators -/

/-- A blank ends the words that separate, so at a place before it nothing behind it is seen, except behind
`and`. -/
theorem separator_append_blank {before : Option Char} (hne : s ≠ [])
    (hlast : ∀ c ∈ s.getLast?, isBlank c = false)
    (hand : Spells "and".toList s → endsInWord before = true) (t : List Char) :
    separator before (s ++ ' ' :: t) = separator before s := by
  have hforeign : ∀ word : List Char, (word.all fun letter => !foldsTo letter ' ') = true →
      Foreign word (' ' :: t) := by
    rintro word hword c hc letter hletter
    obtain rfl : ' ' = c := Option.some.inj hc
    simpa using List.all_eq_true.mp hword letter hletter
  have hword : ∀ c ∈ (' ' :: t).head?, isWord c = false := by
    rintro c hc
    obtain rfl : ' ' = c := Option.some.inj hc
    decide
  have hhead : (s ++ ' ' :: t).head? = s.head? := by
    obtain ⟨c, rest, rfl⟩ := List.exists_cons_of_ne_nil hne
    rfl
  unfold separator
  rw [hhead]
  split
  · rfl
  split
  · rfl
  · rename_i hbefore
    have handThen : andThen (s ++ ' ' :: t) = andThen s := by
      refine andThen_append_of_foreign s (hforeign _ (by decide)) (hforeign _ (by decide)) hword ?_
      intro rest hdrop hblanks
      obtain ⟨front, hfront, rfl⟩ := dropWord_eq_some_iff.mp hdrop
      rcases List.eq_nil_or_concat rest with rfl | ⟨start, last, rfl⟩
      · rw [List.append_nil] at hand
        exact absurd (hand hfront) hbefore
      · have hblank := List.dropWhile_eq_nil_iff.mp hblanks last (by simp)
        rw [hlast last (by simp)] at hblank
        cases hblank
    rw [handThen, wholeWord_append s (hforeign _ (by decide)) hword,
      wholeWord_append s (hforeign _ (by decide)) hword]

/-- Texts without separators have none with a blank between them, unless the first ends in `and`. -/
theorem unseparated_append_blank (hs : Unseparated s) (hlast : ∀ c ∈ s.getLast?, isBlank c = false)
    (hand : ∀ before front, s = before ++ front → Spells "and".toList front →
      endsInWord before.getLast? = true) (ht : Unseparated t) : Unseparated (s ++ ' ' :: t) := by
  intro before rest hsplit
  rcases List.append_eq_append_iff.mp hsplit with ⟨cut, rfl, hcut⟩ | ⟨cut, rfl, rfl⟩
  · cases cut with
    | nil =>
      rw [List.nil_append] at hcut
      rw [← hcut]
      exact separator_blank _ _
    | cons c cut =>
      obtain ⟨rfl, rfl⟩ := List.cons.inj hcut
      have hplace := ht cut rest rfl
      rw [List.getLast?_append, List.getLast?_cons]
      cases hcut : cut.getLast? with
      | none =>
        rw [hcut] at hplace
        exact (separator_behind (by decide) rest).trans hplace
      | some last => rwa [hcut] at hplace
  · rcases eq_or_ne cut [] with rfl | hne
    · exact separator_blank _ _
    · rw [separator_append_blank hne (fun c hc => hlast c ?_) (hand before cut rfl)]
      · exact hs before cut rfl
      · rwa [List.getLast?_append_of_ne_nil _ hne]

end TeamOrders.Comment
