import TeamOrders.Proofs.Comment.OneLine

/-!
# What stands at the edges of a normal form

White space is taken from the edges of a comment before anything else is done to it. After that only
one pass puts a blank where none was: the one that makes a blank of the dash behind `team`. So a comment
that does not end in a dash has a normal form without white space at its edges, unless the vocabulary
puts it there.
-/

namespace TeamOrders.Comment

open Text

variable {s : List Char}

/-- The character is white space, or a dash, which may become a blank. -/
def isLoose (c : Char) : Bool := isBlank c || c == '-'

theorem isLoose_eq_false_iff {c : Char} : isLoose c = false ↔ isBlank c = false ∧ c ≠ '-' := by
  rw [isLoose, Bool.or_eq_false_iff, beq_eq_false_iff_ne]

theorem quoteBlind_isLoose : QuoteBlind isLoose := by
  constructor
  · intro c hquote
    refine isLoose_eq_false_iff.mpr ⟨quoteBlind_isBlank.single c hquote, ?_⟩
    rintro rfl
    exact absurd hquote (by decide)
  · intro c hquote
    refine isLoose_eq_false_iff.mpr ⟨quoteBlind_isBlank.fancy c hquote, ?_⟩
    rintro rfl
    exact absurd hquote (by decide)

/-! ### Squeezing -/

theorem head?_squeeze (h : ∀ c ∈ s.head?, isBlank c = false) :
    (squeeze false s).head? = s.head? := by
  cases s with
  | nil => rfl
  | cons c s => rw [squeeze_of_not_blank false (h c rfl), List.head?_cons, List.head?_cons]

theorem getLast?_squeeze (within : Bool) (h : ∀ c ∈ s.getLast?, isBlank c = false) :
    (squeeze within s).getLast? = s.getLast? := by
  rcases List.eq_nil_or_concat s with rfl | ⟨start, last, rfl⟩
  · rfl
  · rw [List.concat_eq_append] at h ⊢
    have hlast : isBlank last = false := h last (by simp)
    rw [squeeze_append, squeeze_of_not_blank _ hlast, squeeze_nil, List.getLast?_concat,
      List.getLast?_concat]

/-! ### Marked words -/

section MarkedWord

variable {word new : String} {mark : Char} {before : Option Char}

theorem getLast?_of_markedWord {put : List Char}
    (h : markedWord word mark new before s = some (s.length, put)) : s.getLast? = some mark := by
  obtain ⟨hlength, -, -, spelt, rest, hspelt, rfl⟩ := markedWord_eq_some_iff.mp h
  rw [List.length_append, hspelt.length_eq, String.length_toList, List.length_cons] at hlength
  obtain rfl : rest = [] := List.eq_nil_of_length_eq_zero (by omega)
  exact List.getLast?_concat

theorem markedWord_filling (h : new.toList ≠ []) : Filling (markedWord word mark new) :=
  fun _ _ _ _ hhit => (markedWord_eq_some_iff.mp hhit).2.1 ▸ h

theorem head?_substitute_markedWord {P : Char → Prop} {first : Char}
    (hfirst : new.toList.head? = some first) (hput : P first) (hs : ∀ c ∈ s.head?, P c) :
    ∀ c ∈ (substitute (markedWord word mark new) s).head?, P c := by
  have hnew : new.toList ≠ [] := List.ne_nil_of_mem (List.mem_of_head? hfirst)
  refine (replaced_substitute (markedWord_solid word mark new) s).head? (markedWord_filling hnew) hs ?_
  intro before rest n put hhit c hc
  rw [(markedWord_eq_some_iff.mp hhit).2.1, hfirst] at hc
  exact Option.some.inj hc ▸ hput

theorem getLast?_substitute_markedWord {P : Char → Prop} {last : Char}
    (hlast : new.toList.getLast? = some last) (hput : P last ∨ s.getLast? ≠ some mark)
    (hs : ∀ c ∈ s.getLast?, P c) :
    ∀ c ∈ (substitute (markedWord word mark new) s).getLast?, P c := by
  have hnew : new.toList ≠ [] := List.ne_nil_of_mem (List.mem_of_getLast? hlast)
  refine (replaced_substitute (markedWord_solid word mark new) s).getLast? (markedWord_filling hnew) hs ?_
  intro before rest put hsuffix hhit c hc
  rcases hput with hput | hmark
  · rw [(markedWord_eq_some_iff.mp hhit).2.1, hlast] at hc
    exact Option.some.inj hc ▸ hput
  · obtain ⟨start, rfl⟩ := hsuffix
    rw [List.getLast?_append, getLast?_of_markedWord hhit, Option.some_or] at hmark
    exact absurd rfl hmark

end MarkedWord

/-! ### Small letters -/

theorem lowerAfter_ne_nil (before : List Char) (h : s ≠ []) : lowerAfter before s ≠ [] := by
  obtain ⟨c, s, rfl⟩ := List.exists_cons_of_ne_nil h
  obtain ⟨small, hne, -, hlower⟩ := lowerAfter_cons before c s
  rw [hlower]
  exact fun hnil => hne (List.append_eq_nil_iff.mp hnil).1

theorem lower_ne_nil (h : s ≠ []) : lower s ≠ [] := lowerAfter_ne_nil [] h

theorem isTrimmed_lower (h : IsTrimmed s) : IsTrimmed (lower s) := by
  constructor
  · cases s with
    | nil => exact h.1
    | cons c s =>
      obtain ⟨small, hne, hsmall, hlower⟩ := lowerAfter_cons [] c s
      obtain ⟨d, rest, rfl⟩ := List.exists_cons_of_ne_nil hne
      rw [lower, hlower]
      intro e he
      obtain rfl : d = e := Option.some.inj he
      exact hsmall (h.1 c rfl) d List.mem_cons_self
  · suffices hafter : ∀ before, ∀ c ∈ (lowerAfter before s).getLast?, isBlank c = false from
      hafter []
    have hlast := h.2
    clear h
    induction s with
    | nil => exact fun _ => hlast
    | cons c s ih =>
      intro before d hd
      obtain ⟨small, hne, hsmall, hlower⟩ := lowerAfter_cons before c s
      rw [hlower] at hd
      cases s with
      | nil =>
        rw [lowerAfter, List.append_nil] at hd
        exact hsmall (hlast c rfl) d (List.mem_of_getLast? hd)
      | cons e s =>
        rw [List.getLast?_cons_cons] at hlast
        obtain ⟨f, hf⟩ := Option.ne_none_iff_exists'.mp
          (mt List.getLast?_eq_none_iff.mp (lowerAfter_ne_nil (c :: before) (List.cons_ne_nil e s)))
        rw [List.getLast?_append, hf, Option.some_or] at hd
        exact ih hlast (c :: before) d (hf.trans hd)

/-! ### The normal form -/

/-- Without a vocabulary, the normal form of a comment that does not end in a dash is trimmed. -/
theorem isTrimmed_fold (h : (trim s).getLast? ≠ some '-') : IsTrimmed (fold s) := by
  have htrim := isTrimmed_trim s
  have hhead := quoteBlind_isBlank.head?_unifyQuotes htrim.1
  have hlast : ∀ c ∈ (unifyQuotes (trim s)).getLast?, isLoose c = false :=
    quoteBlind_isLoose.getLast?_unifyQuotes fun c hc =>
      isLoose_eq_false_iff.mpr ⟨htrim.2 c hc, fun hdash => h (hdash ▸ hc)⟩
  have hlastBlank := fun c hc => (isLoose_eq_false_iff.mp (hlast c hc)).1
  rw [← head?_squeeze hhead] at hhead
  rw [← getLast?_squeeze false hlastBlank] at hlast
  rw [fold_eq]
  generalize squeeze false (unifyQuotes (trim s)) = squeezed at hhead hlast
  have htasksHead : ∀ c ∈ (spaceTasks squeezed).head?, isBlank c = false :=
    head?_substitute_markedWord rfl (by decide) hhead
  have htasksLast : ∀ c ∈ (spaceTasks squeezed).getLast?, isLoose c = false :=
    getLast?_substitute_markedWord rfl (.inl (by decide)) hlast
  have hundashed : (spaceTasks squeezed).getLast? ≠ some '-' :=
    fun hdash => (isLoose_eq_false_iff.mp (htasksLast '-' hdash)).2 rfl
  apply isTrimmed_lower
  constructor
  · exact head?_substitute_markedWord rfl (by decide) htasksHead
  · intro c hc
    exact (isLoose_eq_false_iff.mp
      (getLast?_substitute_markedWord rfl (.inr hundashed) htasksLast c hc)).1

/-! ### The vocabulary -/

section Vocabulary

variable {vocabulary : Vocabulary}

theorem hit_solid (words : ∀ entry ∈ vocabulary.entries, entry.1 ≠ []) : Solid vocabulary.hit := by
  intro before s n put hhit
  obtain ⟨entry, hentry, hprefix, rfl, -⟩ := Vocabulary.exists_entry_of_hit hhit
  exact ⟨List.length_pos_iff.mpr (words entry hentry), hprefix.length_le⟩

theorem hit_filling (meanings : ∀ entry ∈ vocabulary.entries, entry.2 ≠ []) :
    Filling vocabulary.hit := by
  intro before s n put hhit
  obtain ⟨entry, hentry, -, -, rfl⟩ := Vocabulary.exists_entry_of_hit hhit
  exact meanings entry hentry

theorem isTrimmed_apply (words : ∀ entry ∈ vocabulary.entries, entry.1 ≠ [])
    (meanings : ∀ entry ∈ vocabulary.entries, entry.2 ≠ [])
    (trimmed : ∀ entry ∈ vocabulary.entries, IsTrimmed entry.2) (h : IsTrimmed s) :
    IsTrimmed (vocabulary.apply s) := by
  unfold Vocabulary.apply
  split
  · exact h
  · constructor
    · refine (replaced_substitute (hit_solid words) s).head? (hit_filling meanings) h.1 ?_
      intro before rest n put hhit
      obtain ⟨entry, hentry, -, -, rfl⟩ := Vocabulary.exists_entry_of_hit hhit
      exact (trimmed entry hentry).1
    · refine (replaced_substitute (hit_solid words) s).getLast? (hit_filling meanings) h.2 ?_
      intro before rest put _ hhit
      obtain ⟨entry, hentry, -, -, rfl⟩ := Vocabulary.exists_entry_of_hit hhit
      exact (trimmed entry hentry).2

end Vocabulary

theorem ne_nil_of_not_blank {text : String} (h : isBlankText text = false) : text.toList ≠ [] := by
  intro hnil
  rw [isBlankText, hnil] at h
  cases h

/-- Under accepted settings whose words mean nothing with white space at an edge, the normal form of a
comment that does not end in a dash is trimmed. -/
theorem isTrimmed_normalize {settings : Settings} (accepted : settings.check = .ok ())
    (trimmed : ∀ entry ∈ settings.vocabulary.entries, IsTrimmed entry.2.toList)
    (h : (trim s).getLast? ≠ some '-') : IsTrimmed (normalize settings.words s) := by
  have hsaid := (Settings.check_eq_ok_iff.mp accepted).2
  apply isTrimmed_apply
  · intro entry hentry
    obtain ⟨given, hgiven, rfl⟩ := exists_entry_of_mem hentry
    exact lower_ne_nil (ne_nil_of_not_blank (hsaid given hgiven).1)
  · intro entry hentry
    obtain ⟨given, hgiven, rfl⟩ := exists_entry_of_mem hentry
    exact lower_ne_nil (ne_nil_of_not_blank (hsaid given hgiven).2)
  · intro entry hentry
    obtain ⟨given, hgiven, rfl⟩ := exists_entry_of_mem hentry
    exact isTrimmed_lower (trimmed given hgiven)
  · exact isTrimmed_fold h

end TeamOrders.Comment
