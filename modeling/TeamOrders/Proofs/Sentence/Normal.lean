import TeamOrders.Proofs.Comment.Junction
import TeamOrders.Proofs.Comment.Segments
import TeamOrders.Proofs.Sentence.Clean

/-!
# Smooth texts are left as they are

A smooth text has nothing that a pass over comments would change: only plain characters, commas and
single blanks, and no word that separates instructions. Its normal form is the text itself, and so is
its only segment. Smooth texts are put together from smooth pieces, which is how sentences are shown to
be smooth.
-/

namespace TeamOrders

open Text Comment

/-- A stretch of a text that no pass changes. `within` says that a blank stands before it, and `blank`
that one stands before what follows. -/
structure Smooth (within : Bool) (s : List Char) (blank : Bool) : Prop where
  chars : ∀ c ∈ s, c ∈ sentenceChars
  squeezed : squeeze within s = s
  ends : endsBlank within s = blank
  noThen : ¬ HoldsWord "then".toList s
  noAlso : ¬ HoldsWord "also".toList s

variable {within blank : Bool} {s t : List Char}

/-! ### Smooth pieces -/

theorem not_holdsWord_of_not_isInfix {word : List Char} (h : ¬ word <:+: s) : ¬ HoldsWord word s := by
  rintro ⟨before, after, rfl, -, -⟩
  exact h ⟨before, after, by simp⟩

/-- The piece passes the tests for a smooth one. -/
def looksSmooth (within : Bool) (s : List Char) (blank : Bool) : Bool :=
  s.all (sentenceChars.contains ·) && squeeze within s == s && endsBlank within s == blank
    && !occursIn "then".toList s && !occursIn "also".toList s

theorem smooth_of_looksSmooth (h : looksSmooth within s blank = true) : Smooth within s blank := by
  simp only [looksSmooth, Bool.and_eq_true, List.all_eq_true, List.contains_iff_mem, beq_iff_eq,
    Bool.not_eq_true'] at h
  obtain ⟨⟨⟨⟨hchars, hsqueezed⟩, hends⟩, hthen⟩, halso⟩ := h
  refine ⟨hchars, hsqueezed, hends, not_holdsWord_of_not_isInfix fun hwithin => ?_,
    not_holdsWord_of_not_isInfix fun hwithin => ?_⟩
  · rw [occursIn_of_isInfix hwithin] at hthen
    cases hthen
  · rw [occursIn_of_isInfix hwithin] at halso
    cases halso

/-- Smooth pieces make a smooth text, unless two words grow together. -/
theorem Smooth.append {last : Bool} (hs : Smooth within s blank) (ht : Smooth blank t last)
    (joint : endsInWord s.getLast? = false ∨ startsInWord t = false) :
    Smooth within (s ++ t) last := by
  refine ⟨fun c hc => ?_, ?_, ?_, fun h => ?_, fun h => ?_⟩
  · rcases List.mem_append.mp hc with hc | hc
    · exact hs.chars c hc
    · exact ht.chars c hc
  · rw [squeeze_append, hs.squeezed, hs.ends, ht.squeezed]
  · rw [← ht.ends, ← hs.ends]
    simp only [endsBlank, List.map_append, List.getLast?_append]
    cases (t.map isBlank).getLast? <;> rfl
  · rcases holdsWord_append (List.all_eq_true.mp rfl) joint h with h | h
    · exact hs.noThen h
    · exact ht.noThen h
  · rcases holdsWord_append (List.all_eq_true.mp rfl) joint h with h | h
    · exact hs.noAlso h
    · exact ht.noAlso h

theorem squeeze_eq_self (within : Bool) (h : ∀ c ∈ s, isBlank c = false) : squeeze within s = s := by
  induction s generalizing within with
  | nil => rfl
  | cons c s ih =>
    have hc : isBlank c = false := h c List.mem_cons_self
    rw [squeeze_of_not_blank within hc, ih false fun d hd => h d (List.mem_cons_of_mem c hd)]

theorem endsBlank_of_not_blank (within : Bool) (hne : s ≠ []) (h : ∀ c ∈ s, isBlank c = false) :
    endsBlank within s = false := by
  rw [endsBlank, List.getLast?_map, List.getLast?_eq_some_getLast hne]
  exact h _ (List.getLast_mem hne)

theorem PlainWord.not_blank (word : PlainWord) : ∀ c ∈ word.chars, isBlank c = false :=
  fun c hc => isBlank_of_plain c (word.plain c hc)

theorem PlainWord.smooth (word : PlainWord) (within : Bool) : Smooth within word.chars false where
  chars := fun c hc => List.mem_cons_of_mem _ (List.mem_cons_of_mem _ (word.plain c hc))
  squeezed := squeeze_eq_self within word.not_blank
  ends := endsBlank_of_not_blank within word.nonempty word.not_blank
  noThen := word.noThen
  noAlso := word.noAlso

/-- A stretch between words: it starts with no word character and ends in a blank. -/
structure Spacer (gap : List Char) : Prop where
  smooth : Smooth false gap true
  starts : startsInWord gap = false
  ends : endsInWord gap.getLast? = false
  nonempty : gap ≠ []

theorem Smooth.spaced {gap : List Char} (hs : Smooth within s false) (hgap : Spacer gap)
    (ht : Smooth true t false) : Smooth within (s ++ (gap ++ t)) false := by
  have hstart : startsInWord (gap ++ t) = false := by
    rw [startsInWord_append_left hgap.nonempty, hgap.starts]
  exact hs.append (hgap.smooth.append ht (.inl hgap.ends)) (.inr hstart)

/-- Plain words are smooth with a spacer between any two of them. -/
theorem smooth_intercalate {gap : List Char} (hgap : Spacer gap) (within : Bool)
    {words : List PlainWord} (hwords : words ≠ []) :
    Smooth within (gap.intercalate (words.map (·.chars))) false := by
  induction words generalizing within with
  | nil => exact absurd rfl hwords
  | cons word rest ih =>
    cases rest with
    | nil =>
      simp only [List.map_cons, List.map_nil, List.intercalate_singleton]
      exact word.smooth within
    | cons next rest =>
      have hrest := ih true (by simp)
      rw [List.map_cons, List.map_cons, List.intercalate_cons_cons, List.append_assoc,
        ← List.map_cons]
      exact (word.smooth within).spaced hgap hrest

theorem CleanText.smooth (text : CleanText) (within : Bool) : Smooth within text.chars false := by
  have hgap : Spacer [' '] := ⟨smooth_of_looksSmooth (by decide), rfl, rfl, by simp⟩
  exact smooth_intercalate hgap within text.nonempty

def NameList.chars (list : NameList) : List Char :=
  [',', ' '].intercalate (list.names.map (·.chars))

theorem NameList.smooth (list : NameList) (within : Bool) : Smooth within list.chars false := by
  have hwords : list.names.map CleanName.toPlainWord ≠ [] := by simpa using list.nonempty
  have hgap : Spacer [',', ' '] := ⟨smooth_of_looksSmooth (by decide), rfl, rfl, by simp⟩
  have hsmooth := smooth_intercalate hgap within hwords
  rwa [List.map_map] at hsmooth

/-! ### The normal form -/

theorem length_squeeze_le (within : Bool) (s : List Char) : (squeeze within s).length ≤ s.length := by
  induction s generalizing within with
  | nil => exact Nat.le_refl _
  | cons c s ih =>
    have htrue := ih true
    have hfalse := ih false
    cases hc : isBlank c with
    | false =>
      rw [squeeze_of_not_blank within hc, List.length_cons, List.length_cons]
      omega
    | true =>
      cases within with
      | true =>
        rw [squeeze_true_of_blank hc, List.length_cons]
        omega
      | false =>
        rw [squeeze_false_of_blank hc, List.length_cons, List.length_cons]
        omega

theorem Smooth.not_blank_head (h : Smooth true s blank) : ∀ c ∈ s.head?, isBlank c = false := by
  intro c hc
  cases s with
  | nil => cases hc
  | cons d s =>
    obtain rfl : d = c := Option.some.inj hc
    rw [Bool.eq_false_iff]
    intro hblank
    have hsqueezed := h.squeezed
    rw [squeeze_true_of_blank hblank] at hsqueezed
    have hlength := length_squeeze_le true s
    rw [hsqueezed, List.length_cons] at hlength
    omega

theorem Smooth.ne_nil (h : Smooth true s false) : s ≠ [] := by
  rintro rfl
  exact absurd h.ends (by decide)

theorem Smooth.isTrimmed (h : Smooth true s false) : IsTrimmed s := by
  refine ⟨h.not_blank_head, fun c hc => ?_⟩
  have hends := h.ends
  rw [endsBlank, List.getLast?_map, Option.mem_def.mp hc] at hends
  exact hends

theorem straighten_eq_self (h : ∀ c ∈ s, c ∈ sentenceChars) : straighten s = s := by
  refine (List.map_congr_left fun c hc => ?_).trans (List.map_id' s)
  rw [not_isFancyQuote_of_sentence c (h c hc)]
  rfl

theorem unifyQuotes_eq_self (h : ∀ c ∈ s, c ∈ sentenceChars) : unifyQuotes s = s := by
  have hquotes : ∀ c ∈ s, isSingleQuote c = false := fun c hc =>
    not_isSingleQuote_of_sentence c (h c hc)
  have hclosed := closedBefore_append_of_not_quote hquotes []
  rw [List.append_nil] at hclosed
  rw [unifyQuotes, straighten_eq_self h, openQuotes_eq_openedAfter,
    openedAfter_eq_self none hquotes, closeQuotes_eq_closedBefore, hclosed]
  exact List.append_nil s

theorem substitute_markedWord_eq_self {word new : String} {mark : Char} (h : mark ∉ s) :
    substitute (markedWord word mark new) s = s := by
  apply substitute_eq_self
  intro before rest hsuffix
  unfold markedWord
  split
  · rfl
  · split
    · rename_i c behind hdrop
      have hc : c ∈ s := ((suffix_of_dropWord hdrop).trans hsuffix).subset List.mem_cons_self
      rw [if_neg]
      rintro rfl
      exact h hc
    · rfl

theorem fold_eq_self (h : Smooth true s false) : fold s = s := by
  have hmarks : '#' ∉ s ∧ '-' ∉ s :=
    ⟨fun hc => (ne_mark_of_sentence _ (h.chars _ hc)).1 rfl,
      fun hc => (ne_mark_of_sentence _ (h.chars _ hc)).2.1 rfl⟩
  rw [fold_eq, trim_eq_self h.isTrimmed, unifyQuotes_eq_self h.chars,
    ← squeeze_true_of_not_blank h.not_blank_head, h.squeezed, spaceTasks,
    substitute_markedWord_eq_self hmarks.1, spaceTeams, substitute_markedWord_eq_self hmarks.2,
    lower_eq_self fun c hc => isSmall_of_sentence c (h.chars c hc)]

/-! ### The only segment -/

theorem eq_of_spells {word spelt : List Char} (h : Spells word spelt)
    (hplain : ∀ c ∈ spelt, c ∈ sentenceChars) : spelt = word := by
  induction h with
  | nil => rfl
  | @cons letter c word spelt hletter _ ih =>
    obtain ⟨hc, hrest⟩ := List.forall_mem_cons.mp hplain
    rw [(foldsTo_iff_of_sentence letter hc).mp hletter, ih hrest]

theorem separator_eq_none (h : Smooth true s false) {before rest : List Char}
    (hsplit : s = before ++ rest) : separator before.getLast? rest = none := by
  refine Option.eq_none_iff_forall_ne_some.mpr fun n hn => ?_
  obtain ⟨mark, behind, rfl, -, hmark⟩ := exists_mark_of_separator hn
  have hchars : ∀ c ∈ mark, c ∈ sentenceChars := fun c hc => h.chars c (by simp [hsplit, hc])
  cases hmark with
  | semicolon => exact (ne_mark_of_sentence _ (hchars ';' List.mem_cons_self)).2.2 rfl
  | word hword hspelt hbefore hbehind =>
    obtain rfl := eq_of_spells hspelt hchars
    rcases hword with rfl | rfl
    · exact h.noThen ⟨before, behind, hsplit, hbefore, hbehind⟩
    · exact h.noAlso ⟨before, behind, hsplit, hbefore, hbehind⟩
  | @andThen front gap back _ hne hgap hback _ hbehind =>
    obtain rfl := eq_of_spells hback fun c hc => hchars c (by simp [hc])
    have hends := endsInWord_of_blanks hgap hne (before ++ front).getLast?
    rw [← List.getLast?_append] at hends
    exact h.noThen ⟨before ++ front ++ gap, behind, by simp [hsplit], hends, hbehind⟩

theorem segments_eq_self (h : Smooth true s false) : segments s = [s] := by
  have hcut : cut separator s = [s] := cut_eq_self fun before rest => separator_eq_none h
  have hempty : s.isEmpty = false := by simpa using h.ne_nil
  rw [segments, hcut, List.map_singleton, trim_eq_self h.isTrimmed]
  simp [hempty]

end TeamOrders
