import TeamOrders.Proofs.Comment.Separators
import TeamOrders.Proofs.Text.Substitution
import TeamOrders.Proofs.Text.Trim

/-!
# A semicolon separates

A semicolon separates wherever it stands, and no other separator reaches across it. So the segments
around a semicolon are those of the two sides, and white space at the ends of a side adds nothing to
them.
-/

namespace TeamOrders.Comment

open Text

variable {s t : List Char}

/-! ### Separators in front of a text -/

theorem wholeWord_append {word : String} (s : List Char) (hforeign : Foreign word.toList t)
    (hword : ∀ c ∈ t.head?, isWord c = false) : wholeWord word (s ++ t) = wholeWord word s := by
  unfold wholeWord
  rw [dropWord_append s hforeign]
  cases dropWord word.toList s with
  | none => rfl
  | some rest => simp only [Option.map_some, startsInWord_append rest hword]

/-- The text starts with a blank or a semicolon, and a semicolon is what its white space leads to. -/
structure Apart (t : List Char) : Prop where
  head : ∀ c ∈ t.head?, c = ' ' ∨ c = ';'
  behind : ∀ c ∈ (t.dropWhile isBlank).head?, c = ';'

theorem apart_semicolon (t : List Char) : Apart (';' :: t) := by
  have hdrop : (';' :: t).dropWhile isBlank = ';' :: t := by
    rw [List.dropWhile_cons_of_neg (by decide)]
  constructor
  · rintro c hc
    exact .inr (Option.some.inj hc).symm
  · rw [hdrop]
    rintro c hc
    exact (Option.some.inj hc).symm

theorem apart_blank : Apart [' '] := by
  have hdrop : [' '].dropWhile isBlank = [] := rfl
  refine ⟨fun c hc => .inl (Option.some.inj hc).symm, fun c hc => ?_⟩
  rw [hdrop] at hc
  cases hc

theorem Apart.isWord (h : Apart t) : ∀ c ∈ t.head?, isWord c = false := by
  intro c hc
  rcases h.head c hc with rfl | rfl <;> decide

theorem Apart.foreign {word : List Char} (h : Apart t)
    (hword : ∀ letter ∈ word, foldsTo letter ' ' = false ∧ foldsTo letter ';' = false) :
    Foreign word t := by
  intro c hc letter hletter
  rcases h.head c hc with rfl | rfl
  · exact (hword letter hletter).1
  · exact (hword letter hletter).2

theorem wholeWord_eq_none {word : String} {letter : Char} {rest : List Char}
    (hword : word.toList = letter :: rest) (hletter : foldsTo letter ';' = false)
    (h : ∀ c ∈ t.head?, c = ';') : wholeWord word t = none := by
  unfold wholeWord
  rw [hword]
  cases t with
  | nil => rfl
  | cons c t =>
    obtain rfl : c = ';' := h c rfl
    simp [dropWord, hletter]

/-- Nothing behind a text makes `and then` of what it ends in, if no `then` follows where it ends in `and`
and white space. -/
theorem andThen_append_of_foreign (s : List Char) (hand : Foreign "and".toList t)
    (hthen : Foreign "then".toList t) (hword : ∀ c ∈ t.head?, isWord c = false)
    (hends : ∀ rest, dropWord "and".toList s = some rest → rest.dropWhile isBlank = [] →
      wholeWord "then" (t.dropWhile isBlank) = none) : andThen (s ++ t) = andThen s := by
  have hnil : wholeWord "then" [] = none := rfl
  unfold andThen
  rw [dropWord_append s hand]
  cases hrest : dropWord "and".toList s with
  | none => rfl
  | some rest =>
    simp only [Option.map_some, drop_length_takeWhile, List.dropWhile_append]
    cases hdrop : rest.dropWhile isBlank with
    | nil =>
      simp [hends rest hrest hdrop, hnil]
    | cons c tail =>
      have hlength : (rest.takeWhile isBlank).length ≠ rest.length := by
        intro heq
        have hsum := congrArg List.length (List.takeWhile_append_dropWhile (p := isBlank) (l := rest))
        rw [List.length_append, heq, hdrop, List.length_cons] at hsum
        omega
      rw [List.takeWhile_append, if_neg hlength]
      simp only [List.isEmpty_cons, Bool.false_eq_true, if_false,
        wholeWord_append (c :: tail) hthen hword]

theorem andThen_append (s : List Char) (h : Apart t) : andThen (s ++ t) = andThen s :=
  andThen_append_of_foreign s (h.foreign (List.all_iff_forall_prop.mp (by decide)))
    (h.foreign (List.all_iff_forall_prop.mp (by decide))) h.isWord
    fun _ _ _ => wholeWord_eq_none rfl (by decide) h.behind

/-- No separator at a place of a text reaches into what stands apart from it. -/
theorem separator_append (before : Option Char) (hs : s ≠ []) (h : Apart t) :
    separator before (s ++ t) = separator before s := by
  have hthen : Foreign "then".toList t := h.foreign (List.all_iff_forall_prop.mp (by decide))
  have halso : Foreign "also".toList t := h.foreign (List.all_iff_forall_prop.mp (by decide))
  unfold separator
  have hhead : (s ++ t).head? = s.head? := by
    obtain ⟨c, rest, rfl⟩ := List.exists_cons_of_ne_nil hs
    rfl
  rw [hhead, andThen_append s h, wholeWord_append s hthen h.isWord,
    wholeWord_append s halso h.isWord]

theorem separator_semicolon (before : Option Char) (s : List Char) :
    separator before (';' :: s) = some 1 := rfl

theorem separator_behind {c : Char} (hc : isWord c = false) (s : List Char) :
    separator (some c) s = separator none s := by
  unfold separator
  rw [endsInWord_of_not_word hc]
  rfl

theorem separator_blank (before : Option Char) (s : List Char) :
    separator before (' ' :: s) = none := by
  have hhead : (' ' :: s).head? ≠ some ';' := by simp
  have hand : andThen (' ' :: s) = none := rfl
  have hthen : wholeWord "then" (' ' :: s) = none := rfl
  have halso : wholeWord "also" (' ' :: s) = none := rfl
  rw [separator, if_neg hhead, hand, hthen, halso]
  split <;> rfl

/-! ### The segments around a semicolon -/

/-- A semicolon separates the segments before it from those behind it. -/
theorem segments_append_semicolon (s t : List Char) :
    segments (s ++ ';' :: t) = segments s ++ segments t := by
  have hcut : cut separator (s ++ ';' :: t) = cut separator s ++ cut separator t :=
    cut_append_mark solid_separator
      (fun before s hs => separator_append before hs (apart_semicolon t))
      (fun before => separator_semicolon before t) (separator_behind (by decide)) s
  rw [segments, hcut, List.map_append, List.filter_append]
  rfl

theorem map_trim_cutFrom_blank (skip : Nat) (piece : List Char) (before : Option Char)
    (s : List Char) :
    (cutFrom separator skip (piece ++ [' ']) before s).map trim
      = (cutFrom separator skip piece before s).map trim := by
  have hblank : ∀ c ∈ [' '], isBlank c = true := List.all_eq_true.mp rfl
  have htrim : ∀ u : List Char, trim (' ' :: u) = trim u := fun u => trim_blanks_append hblank
  induction s generalizing skip piece before with
  | nil => simp [cutFrom, htrim]
  | cons c s ih =>
    cases skip with
    | succ skip => exact ih skip piece (some c)
    | zero =>
      cases hmatch : separator before (c :: s) with
      | none =>
        rw [cutFrom_of_none _ hmatch, cutFrom_of_none _ hmatch]
        exact ih 0 (c :: piece) (some c)
      | some n =>
        obtain ⟨n, rfl⟩ := Nat.exists_eq_succ_of_ne_zero
          (Nat.ne_of_gt (solid_separator before (c :: s) n hmatch).1)
        rw [cutFrom_of_hit _ hmatch, cutFrom_of_hit _ hmatch]
        simp [htrim]

theorem segments_blank_append (s : List Char) : segments (' ' :: s) = segments s := by
  have hcut : cut separator (' ' :: s) = cutFrom separator 0 ([] ++ [' ']) none s := by
    rw [cut, cutFrom_of_none _ (separator_blank none s), cutFrom_before (separator_behind (by decide))]
    rfl
  rw [segments, hcut, map_trim_cutFrom_blank]
  rfl

theorem map_trim_cutFrom_append_blank (skip : Nat) (piece : List Char) (before : Option Char)
    (s : List Char) :
    (cutFrom separator skip piece before (s ++ [' '])).map trim
      = (cutFrom separator skip piece before s).map trim := by
  have htrim : ∀ u : List Char, trim (u ++ [' ']) = trim u := fun u =>
    trim_append_blanks (List.all_eq_true.mp rfl)
  induction s generalizing skip piece before with
  | nil =>
    cases skip with
    | zero => simp [cutFrom, separator_blank, htrim]
    | succ skip => simp [cutFrom]
  | cons c s ih =>
    rw [List.cons_append]
    cases skip with
    | succ skip => exact ih skip piece (some c)
    | zero =>
      have hsame : separator before (c :: (s ++ [' '])) = separator before (c :: s) :=
        separator_append before (List.cons_ne_nil c s) apart_blank
      cases hmatch : separator before (c :: s) with
      | none =>
        rw [cutFrom_of_none _ (hsame.trans hmatch), cutFrom_of_none _ hmatch]
        exact ih 0 (c :: piece) (some c)
      | some n =>
        obtain ⟨n, rfl⟩ := Nat.exists_eq_succ_of_ne_zero
          (Nat.ne_of_gt (solid_separator before (c :: s) n hmatch).1)
        rw [cutFrom_of_hit _ (hsame.trans hmatch), cutFrom_of_hit _ hmatch, List.map_cons,
          List.map_cons, ih n [] (some c)]

theorem segments_append_blank (s : List Char) : segments (s ++ [' ']) = segments s := by
  rw [segments, cut, map_trim_cutFrom_append_blank]
  rfl

/-! ### Texts without separators -/

/-- No separator stands anywhere in the text. -/
def Unseparated (s : List Char) : Prop :=
  ∀ before rest, s = before ++ rest → separator before.getLast? rest = none

theorem unseparated_iff {s : List Char} : Unseparated s ↔
    ((List.range (s.length + 1)).all fun n => (separator (s.take n).getLast? (s.drop n)).isNone)
      = true := by
  rw [List.all_eq_true]
  constructor
  · intro h n _
    exact Option.isNone_iff_eq_none.mpr (h (s.take n) (s.drop n) (List.take_append_drop n s).symm)
  · rintro h before rest rfl
    have hplace := h before.length (List.mem_range.mpr (by rw [List.length_append]; omega))
    rwa [List.take_left, List.drop_left, Option.isNone_iff_eq_none] at hplace

instance (s : List Char) : Decidable (Unseparated s) := decidable_of_iff _ unseparated_iff.symm

theorem segments_of_unseparated {s : List Char} (whole : Unseparated s) (notBlank : trim s ≠ []) :
    segments s = [trim s] := by
  have hempty : (trim s).isEmpty = false := by simpa using notBlank
  rw [segments, cut_eq_self whole, List.map_singleton]
  simp [hempty]

end TeamOrders.Comment
