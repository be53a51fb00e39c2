import Mathlib.Data.Bool.AllAny
import TeamOrders.Proofs.Comment.Quotes
import TeamOrders.Proofs.Text.Fold
import TeamOrders.Proofs.Text.Lowercase
import TeamOrders.Proofs.Text.Substitution
import TeamOrders.Proofs.Text.Trim

/-!
# Nothing is seen across a semicolon

A semicolon with a blank behind it keeps the parts of a comment apart: no pass of the normal form
judges a character of one part by one of the other. So the normal form of the whole is that of the
parts with the semicolon between them.

The passes come in two groups. Those over quotes work on any white space, so the gap between the parts
is `IsGap` there. Squeezing leaves single blanks, and for the passes behind it the gap is `IsJoint`.
-/

namespace TeamOrders.Comment

open Text

variable {s t gap : List Char}

/-- White space and semicolons, with white space at the end. -/
structure IsGap (gap : List Char) : Prop where
  chars : ∀ c ∈ gap, isBlank c = true ∨ c = ';'
  ends : ∃ start last, gap = start ++ [last] ∧ isBlank last = true

structure IsJoint (gap : List Char) : Prop where
  chars : ∀ c ∈ gap, c = ' ' ∨ c = ';'
  ends : gap.getLast? = some ' '

theorem IsJoint.ne_nil (h : IsJoint gap) : gap ≠ [] := by
  rintro rfl
  cases h.ends

/-! ### Quotes -/

theorem closesQuote_of_gap {c : Char} (h : isBlank c = true ∨ c = ';') : closesQuote c = true :=
  closesQuote_iff.mpr (h.imp_right fun hmark => by simp [hmark])

theorem not_isFancyQuote_of_gap {c : Char} (h : isBlank c = true ∨ c = ';') :
    isFancyQuote c = false := by
  rw [Bool.eq_false_iff]
  intro hquote
  have hcloses := closesQuote_of_gap h
  rw [(neutral_of_isFancyQuote hquote).2.2] at hcloses
  cases hcloses

theorem not_isSingleQuote_of_gap {c : Char} (h : isBlank c = true ∨ c = ';') :
    isSingleQuote c = false := not_isSingleQuote_of_decides (.inr (closesQuote_of_gap h))

def unifyQuotes (s : List Char) : List Char := closeQuotes (openQuotes (straighten s))

theorem straighten_append_gap (h : IsGap gap) (s t : List Char) :
    straighten (s ++ (gap ++ t)) = straighten s ++ (gap ++ straighten t) := by
  have hgap : gap.map (fun c => if isFancyQuote c then '"' else c) = gap := by
    refine (List.map_congr_left fun c hc => ?_).trans (List.map_id' gap)
    rw [not_isFancyQuote_of_gap (h.chars c hc)]
    rfl
  rw [straighten, List.map_append, List.map_append, hgap]
  rfl

theorem openQuotes_append_gap (h : IsGap gap) (s t : List Char) :
    openQuotes (s ++ (gap ++ t)) = openQuotes s ++ (gap ++ openQuotes t) := by
  obtain ⟨start, last, hend, hblank⟩ := h.ends
  have hgap : ∀ c ∈ gap, isSingleQuote c = false := fun c hc =>
    not_isSingleQuote_of_gap (h.chars c hc)
  have hlast : ∀ before : Option Char, gap.getLast?.or before = some last := by
    intro before
    rw [hend, List.getLast?_append]
    rfl
  have hopens : opensQuote last = true := opensQuote_iff.mpr (.inl hblank)
  simp only [openQuotes_eq_openedAfter]
  rw [openedAfter_append, openedAfter_append, openedAfter_eq_self _ hgap, hlast,
    openedAfter_of_opensQuote hopens]

theorem closeQuotes_append_gap (h : IsGap gap) (s t : List Char) :
    closeQuotes (s ++ (gap ++ t)) = closeQuotes s ++ (gap ++ closeQuotes t) := by
  have hhead : ∀ c ∈ (gap ++ t).head?, closesQuote c = true := by
    intro c hc
    obtain ⟨start, last, hend, -⟩ := h.ends
    cases hgap : gap with
    | nil => simp [hgap] at hend
    | cons d rest =>
      rw [hgap] at hc
      obtain rfl : d = c := Option.some.inj hc
      exact closesQuote_of_gap (h.chars d (hgap ▸ List.mem_cons_self))
  simp only [closeQuotes_eq_closedBefore]
  rw [closedBefore_append s hhead, closedBefore_append_of_not_quote fun c hc =>
    not_isSingleQuote_of_gap (h.chars c hc)]

theorem unifyQuotes_append_gap (h : IsGap gap) (s t : List Char) :
    unifyQuotes (s ++ (gap ++ t)) = unifyQuotes s ++ (gap ++ unifyQuotes t) := by
  rw [unifyQuotes, straighten_append_gap h, openQuotes_append_gap h, closeQuotes_append_gap h]
  rfl

/-! The passes over quotes put quotes in the place of quotes. So a class of characters that makes no
difference between quotes stays where it is. -/

/-- The class makes no difference between quotes. -/
structure QuoteBlind (f : Char → Bool) : Prop where
  single : ∀ c, isSingleQuote c = true → f c = f '"'
  fancy : ∀ c, isFancyQuote c = true → f c = f '"'

namespace QuoteBlind

variable {f : Char → Bool} {value : Bool}

theorem openedAt (h : QuoteBlind f) (before : Option Char) (c : Char) :
    f (openedAt before c) = f c := by
  rw [Comment.openedAt]
  split
  · rename_i hopens
    exact (h.single c (Bool.and_eq_true_iff.mp hopens).2).symm
  · rfl

theorem closedAt (h : QuoteBlind f) (after : Option Char) (c : Char) :
    f (closedAt after c) = f c := by
  rw [Comment.closedAt]
  split
  · rename_i hcloses
    exact (h.single c (Bool.and_eq_true_iff.mp hcloses).1).symm
  · rfl

theorem map_straighten (h : QuoteBlind f) (s : List Char) : (straighten s).map f = s.map f := by
  rw [straighten, List.map_map]
  exact List.map_congr_left fun c _ => eq_straightened h.fancy c

theorem map_openedAfter (h : QuoteBlind f) (before : Option Char) (s : List Char) :
    (openedAfter before s).map f = s.map f := by
  induction s generalizing before with
  | nil => rfl
  | cons c rest ih => rw [openedAfter_cons, List.map_cons, List.map_cons, h.openedAt, ih]

theorem map_closedBefore (h : QuoteBlind f) (s : List Char) :
    (closedBefore s).map f = s.map f := by
  induction s with
  | nil => rfl
  | cons c rest ih => rw [closedBefore_cons, List.map_cons, List.map_cons, h.closedAt, ih]

theorem map_unifyQuotes (h : QuoteBlind f) (s : List Char) : (unifyQuotes s).map f = s.map f := by
  rw [unifyQuotes, closeQuotes_eq_closedBefore, openQuotes_eq_openedAfter, h.map_closedBefore,
    h.map_openedAfter, h.map_straighten]

/-- A class that sees no difference at an end of a text says the same of it. -/
theorem forall_mem_of_map_eq {before after : Option Char} (hmap : after.map f = before.map f)
    (h : ∀ c ∈ before, f c = value) : ∀ c ∈ after, f c = value := by
  intro c hc
  rw [Option.mem_def.mp hc] at hmap
  obtain ⟨d, hd, hsame⟩ := Option.map_eq_some_iff.mp hmap.symm
  exact hsame.symm.trans (h d hd)

theorem head?_unifyQuotes (h : QuoteBlind f) (hs : ∀ c ∈ s.head?, f c = value) :
    ∀ c ∈ (unifyQuotes s).head?, f c = value := by
  have hmap := congrArg List.head? (h.map_unifyQuotes s)
  rw [List.head?_map, List.head?_map] at hmap
  exact forall_mem_of_map_eq hmap hs

theorem getLast?_unifyQuotes (h : QuoteBlind f) (hs : ∀ c ∈ s.getLast?, f c = value) :
    ∀ c ∈ (unifyQuotes s).getLast?, f c = value := by
  have hmap := congrArg List.getLast? (h.map_unifyQuotes s)
  rw [List.getLast?_map, List.getLast?_map] at hmap
  exact forall_mem_of_map_eq hmap hs

end QuoteBlind

theorem quoteBlind_isBlank : QuoteBlind isBlank := by
  constructor
  · intro c hquote
    change isBlank c = false
    rw [Bool.eq_false_iff]
    intro hblank
    rw [not_isSingleQuote_of_gap (.inl hblank)] at hquote
    cases hquote
  · intro c hquote
    change isBlank c = false
    rw [Bool.eq_false_iff]
    intro hblank
    rw [not_isFancyQuote_of_gap (.inl hblank)] at hquote
    cases hquote

/-! ### White space -/

theorem squeeze_nil (within : Bool) : squeeze within [] = [] := rfl

theorem squeeze_of_not_blank {c : Char} (within : Bool) (h : isBlank c = false) :
    squeeze within (c :: s) = c :: squeeze false s := by
  simp only [squeeze, h, Bool.false_eq_true, if_false]

theorem squeeze_true_of_blank {c : Char} (h : isBlank c = true) :
    squeeze true (c :: s) = squeeze true s := by
  simp only [squeeze, h, if_true]

theorem squeeze_false_of_blank {c : Char} (h : isBlank c = true) :
    squeeze false (c :: s) = ' ' :: squeeze true s := by
  simp only [squeeze, h, if_true, Bool.false_eq_true, if_false]

/-- A row of white space has begun at the end of a text. -/
def endsBlank (within : Bool) (s : List Char) : Bool := (s.map isBlank).getLast?.getD within

theorem squeeze_append (within : Bool) (s t : List Char) :
    squeeze within (s ++ t) = squeeze within s ++ squeeze (endsBlank within s) t := by
  induction s generalizing within with
  | nil => rfl
  | cons c s ih =>
    have hends : endsBlank within (c :: s) = endsBlank (isBlank c) s := by
      cases s <;> simp [endsBlank, List.getLast?_cons]
    rw [hends, List.cons_append]
    cases hc : isBlank c with
    | true =>
      cases within with
      | true => rw [squeeze_true_of_blank hc, squeeze_true_of_blank hc, ih]
      | false => rw [squeeze_false_of_blank hc, squeeze_false_of_blank hc, ih, List.cons_append]
    | false => rw [squeeze_of_not_blank within hc, squeeze_of_not_blank within hc, ih, List.cons_append]

theorem squeeze_blanks (within : Bool) (h : ∀ c ∈ s, isBlank c = true) :
    squeeze within s = if within || s.isEmpty then [] else [' '] := by
  induction s generalizing within with
  | nil => simp [squeeze_nil]
  | cons c s ih =>
    have hc : isBlank c = true := h c List.mem_cons_self
    have hrest := ih true fun d hd => h d (List.mem_cons_of_mem c hd)
    simp only [Bool.true_or, if_true] at hrest
    cases within with
    | true => rw [squeeze_true_of_blank hc, hrest, Bool.true_or, if_pos rfl]
    | false =>
      rw [squeeze_false_of_blank hc, hrest]
      rfl

theorem squeeze_true_of_not_blank (h : ∀ c ∈ s.head?, isBlank c = false) :
    squeeze true s = squeeze false s := by
  cases s with
  | nil => rfl
  | cons c s =>
    have hc : isBlank c = false := h c rfl
    rw [squeeze_of_not_blank true hc, squeeze_of_not_blank false hc]

theorem squeeze_gap {before after : List Char} (hbefore : ∀ c ∈ before, isBlank c = true)
    (hafter : ∀ c ∈ after, isBlank c = true) :
    ∃ blank, (blank = [] ∨ blank = [' ']) ∧
      squeeze false (before ++ ';' :: ' ' :: after) = blank ++ [';', ' '] := by
  refine ⟨squeeze false before, ?_, ?_⟩
  · rw [squeeze_blanks false hbefore]
    cases before <;> simp
  · have hsemicolon : isBlank ';' = false := by decide
    have hblank : isBlank ' ' = true := by decide
    have hrest : squeeze true after = [] := by simp [squeeze_blanks true hafter]
    rw [squeeze_append]
    rw [squeeze_of_not_blank _ hsemicolon, squeeze_false_of_blank hblank, hrest]

/-! ### Words and letters -/

section Joint

variable {word new : String} {mark : Char}

theorem markedWord_eq_some_iff {before : Option Char} {n : Nat} {put : List Char} :
    markedWord word mark new before s = some (n, put) ↔
      n = word.length + 1 ∧ put = new.toList ∧ endsInWord before = false ∧
        ∃ spelt rest, Spells word.toList spelt ∧ s = spelt ++ mark :: rest := by
  unfold markedWord
  constructor
  · intro h
    split at h
    · cases h
    · rename_i hbefore
      split at h
      · rename_i c rest hdrop
        split at h
        · rename_i hc
          obtain ⟨rfl, rfl⟩ := Prod.mk.inj (Option.some.inj h)
          obtain ⟨spelt, hspelt, rfl⟩ := dropWord_eq_some_iff.mp hdrop
          exact ⟨rfl, rfl, Bool.eq_false_iff.mpr hbefore, spelt, rest, hspelt, hc ▸ rfl⟩
        · cases h
      · cases h
  · rintro ⟨rfl, rfl, hbefore, spelt, rest, hspelt, rfl⟩
    simp [hbefore, dropWord_eq_some_iff.mpr ⟨spelt, hspelt, rfl⟩]

theorem markedWord_solid (word : String) (mark : Char) (new : String) :
    Solid (markedWord word mark new) := by
  intro before s n put h
  obtain ⟨rfl, -, -, spelt, rest, hspelt, rfl⟩ := markedWord_eq_some_iff.mp h
  rw [List.length_append, hspelt.length_eq, String.length_toList, List.length_cons]
  omega

theorem forall_mem_substitute_markedWord {P : Char → Prop} (hnew : ∀ c ∈ new.toList, P c)
    (hs : ∀ c ∈ s, P c) : ∀ c ∈ substitute (markedWord word mark new) s, P c :=
  forall_mem_substitute hs fun _ _ _ _ hhit => (markedWord_eq_some_iff.mp hhit).2.1 ▸ hnew

theorem markedWord_blind (hforeign : Foreign word.toList t) (hmark : ∀ c ∈ t.head?, c ≠ mark) :
    Blind (markedWord word mark new) t := by
  intro before s _
  unfold markedWord
  split
  · rfl
  · rw [dropWord_append s hforeign]
    cases hdrop : dropWord word.toList s with
    | none => rfl
    | some rest =>
      cases rest with
      | cons c rest => rfl
      | nil =>
        cases t with
        | nil => rfl
        | cons c t =>
          have hc : c ≠ mark := hmark c rfl
          simp [hc]

theorem markedWord_eq_none (hforeign : Foreign word.toList t) (hword : word.toList ≠ [])
    (before : Option Char) : markedWord word mark new before t = none := by
  unfold markedWord
  rw [dropWord_eq_none hforeign hword]
  split <;> rfl

theorem IsJoint.head?_append (h : IsJoint gap) (t : List Char) :
    ∀ c ∈ (gap ++ t).head?, c = ' ' ∨ c = ';' := by
  intro c hc
  obtain ⟨d, rest, rfl⟩ := List.exists_cons_of_ne_nil h.ne_nil
  obtain rfl : d = c := Option.some.inj hc
  exact h.chars d List.mem_cons_self

/-- A pass over a marked word treats the parts around a joint each by itself, if neither a blank nor
a semicolon is part of what it looks for. -/
theorem substitute_markedWord_append_joint (h : IsJoint gap) (hword : word.toList ≠ [])
    (hblank : ∀ letter ∈ mark :: word.toList, letter ≠ ' ' ∧ foldsTo letter ' ' = false)
    (hsemicolon : ∀ letter ∈ mark :: word.toList, letter ≠ ';' ∧ foldsTo letter ';' = false)
    (s t : List Char) :
    substitute (markedWord word mark new) (s ++ (gap ++ t))
      = substitute (markedWord word mark new) s
        ++ (gap ++ substitute (markedWord word mark new) t) := by
  have houtside : ∀ c, c = ' ' ∨ c = ';' → ∀ letter ∈ mark :: word.toList,
      c ≠ letter ∧ foldsTo letter c = false := by
    rintro c (rfl | rfl) letter hletter
    · exact ⟨(hblank letter hletter).1.symm, (hblank letter hletter).2⟩
    · exact ⟨(hsemicolon letter hletter).1.symm, (hsemicolon letter hletter).2⟩
  have hforeign : ∀ u : List Char, (∀ c ∈ u.head?, c = ' ' ∨ c = ';') → Foreign word.toList u :=
    fun u hu c hc letter hletter => (houtside c (hu c hc) letter (List.mem_cons_of_mem _ hletter)).2
  have hmark : ∀ u : List Char, (∀ c ∈ u.head?, c = ' ' ∨ c = ';') → ∀ c ∈ u.head?, c ≠ mark :=
    fun u hu c hc => (houtside c (hu c hc) mark List.mem_cons_self).1
  refine substitute_append_gap (markedWord_solid word mark new) (fun u => ?_) (fun c hc before u => ?_)
    h.ne_nil (fun u => ?_) s t
  · exact markedWord_blind (hforeign _ (h.head?_append u)) (hmark _ (h.head?_append u))
  · refine markedWord_eq_none (hforeign _ fun d hd => ?_) hword before
    obtain rfl : c = d := Option.some.inj hd
    exact h.chars c hc
  · have hbefore : endsInWord gap.getLast? = endsInWord none := by
      rw [h.ends]
      decide
    rw [markedWord, markedWord, hbefore]

end Joint

theorem spaceTasks_append_joint (h : IsJoint gap) (s t : List Char) :
    spaceTasks (s ++ (gap ++ t)) = spaceTasks s ++ (gap ++ spaceTasks t) :=
  substitute_markedWord_append_joint h (by decide) (List.all_iff_forall_prop.mp (by decide))
    (List.all_iff_forall_prop.mp (by decide)) s t

theorem spaceTeams_append_joint (h : IsJoint gap) (s t : List Char) :
    spaceTeams (s ++ (gap ++ t)) = spaceTeams s ++ (gap ++ spaceTeams t) :=
  substitute_markedWord_append_joint h (by decide) (List.all_iff_forall_prop.mp (by decide))
    (List.all_iff_forall_prop.mp (by decide)) s t

theorem lower_append_joint (h : IsJoint gap) (s t : List Char) :
    lower (s ++ (gap ++ t)) = lower s ++ (gap ++ lower t) := by
  refine lower_append_gap h.ne_nil (fun c hc => ?_) (fun c hc => ?_) s t
  · rcases h.chars c hc with rfl | rfl
    · exact endsSight_blank
    · exact endsSight_semicolon
  · rcases h.chars c hc with rfl | rfl <;> exact ⟨by decide, by decide⟩

/-! ### The normal form of a whole -/

theorem fold_eq (s : List Char) :
    fold s = lower (spaceTeams (spaceTasks (squeeze false (unifyQuotes (trim s))))) := rfl

theorem endsBlank_eq_false (h : ∀ c ∈ s.getLast?, isBlank c = false) : endsBlank false s = false := by
  rw [endsBlank, List.getLast?_map]
  cases hs : s.getLast? with
  | none => rfl
  | some d => exact h d hs

theorem isGap_semicolon {before after : List Char} (hbefore : ∀ c ∈ before, isBlank c = true)
    (hafter : ∀ c ∈ after, isBlank c = true) : IsGap (before ++ ';' :: ' ' :: after) := by
  refine ⟨fun c hc => ?_, ?_⟩
  · rcases List.mem_append.mp hc with hc | hc
    · exact .inl (hbefore c hc)
    · rcases List.mem_cons.mp hc with rfl | hc
      · exact .inr rfl
      · rcases List.mem_cons.mp hc with rfl | hc
        · exact .inl (by decide)
        · exact .inl (hafter c hc)
  · rcases List.eq_nil_or_concat after with rfl | ⟨start, last, rfl⟩
    · exact ⟨before ++ [';'], ' ', by simp, by decide⟩
    · refine ⟨before ++ ';' :: ' ' :: start, last, by simp, hafter last ?_⟩
      simp

theorem isJoint_semicolon {blank : List Char} (h : blank = [] ∨ blank = [' ']) :
    IsJoint (blank ++ [';', ' ']) := by
  rcases h with rfl | rfl
  · exact ⟨List.all_iff_forall_prop.mp (by decide), rfl⟩
  · exact ⟨List.all_iff_forall_prop.mp (by decide), rfl⟩

theorem trim_append_gap {gap : List Char} (ha : trim s ≠ []) (hb : trim t ≠ []) :
    trim (trim s ++ (gap ++ trim t)) = trim s ++ (gap ++ trim t) := by
  refine trim_eq_self ⟨fun c hc => (isTrimmed_trim s).1 c ?_, fun c hc => (isTrimmed_trim t).2 c ?_⟩
  · obtain ⟨d, rest, hd⟩ := List.exists_cons_of_ne_nil ha
    rw [hd] at hc ⊢
    exact hc
  · obtain ⟨last, hlast⟩ := Option.ne_none_iff_exists'.mp (mt List.getLast?_eq_none_iff.mp hb)
    rw [← List.append_assoc, List.getLast?_append, hlast] at hc
    rw [hlast]
    exact hc

/-- The white space around the semicolon is squeezed into the joint, and each part by itself. -/
theorem squeeze_append_gap {blank : List Char} (hs : ∀ c ∈ s.getLast?, isBlank c = false)
    (ht : ∀ c ∈ t.head?, isBlank c = false) (hgap : IsGap gap)
    (hsqueeze : squeeze false gap = blank) :
    squeeze false (unifyQuotes s ++ (gap ++ unifyQuotes t))
      = squeeze false (unifyQuotes s) ++ (blank ++ squeeze false (unifyQuotes t)) := by
  obtain ⟨start, last, rfl, hlast⟩ := hgap.ends
  have hends : endsBlank false (start ++ [last]) = true := by simp [endsBlank, hlast]
  have hquotes : endsBlank false (unifyQuotes s) = false :=
    endsBlank_eq_false (quoteBlind_isBlank.getLast?_unifyQuotes hs)
  rw [squeeze_append, hquotes, squeeze_append, hsqueeze, hends,
    squeeze_true_of_not_blank (quoteBlind_isBlank.head?_unifyQuotes ht)]

/-- What keeps two parts apart keeps their normal forms apart, once it is squeezed. -/
theorem fold_append_gap {blank : List Char} (hs : trim s ≠ []) (ht : trim t ≠ []) (hgap : IsGap gap)
    (hjoint : IsJoint blank) (hsqueeze : squeeze false gap = blank) :
    fold (trim s ++ (gap ++ trim t)) = fold s ++ (blank ++ fold t) := by
  rw [fold_eq, fold_eq s, fold_eq t, trim_append_gap hs ht, unifyQuotes_append_gap hgap,
    squeeze_append_gap (isTrimmed_trim s).2 (isTrimmed_trim t).1 hgap hsqueeze,
    spaceTasks_append_joint hjoint, spaceTeams_append_joint hjoint, lower_append_joint hjoint]

theorem fold_blanks_append {before after : List Char} (hbefore : ∀ c ∈ before, isBlank c = true)
    (hafter : ∀ c ∈ after, isBlank c = true) (s : List Char) :
    fold (before ++ (s ++ after)) = fold s := by
  rw [fold_eq, fold_eq s, trim_blanks_append hbefore, trim_append_blanks hafter]

theorem fold_append_semicolon (a b : List Char) (ha : trim a ≠ []) (hb : trim b ≠ []) :
    ∃ blank, (blank = [] ∨ blank = [' ']) ∧
      fold (a ++ [';', ' '] ++ b) = fold a ++ (blank ++ [';', ' '] ++ fold b) := by
  obtain ⟨front, before, hfront, hbefore, haEq⟩ := exists_eq_append_trim a
  obtain ⟨after, back, hafter, hback, hbEq⟩ := exists_eq_append_trim b
  obtain ⟨blank, hblank, hsqueeze⟩ := squeeze_gap hbefore hafter
  refine ⟨blank, hblank, ?_⟩
  have hwhole : a ++ [';', ' '] ++ b
      = front ++ ((trim a ++ ((before ++ ';' :: ' ' :: after) ++ trim b)) ++ back) := by
    conv_lhs => rw [haEq, hbEq]
    simp
  rw [hwhole, fold_blanks_append hfront hback,
    fold_append_gap ha hb (isGap_semicolon hbefore hafter) (isJoint_semicolon hblank) hsqueeze]

end TeamOrders.Comment
