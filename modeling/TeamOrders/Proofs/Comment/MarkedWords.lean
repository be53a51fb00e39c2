import TeamOrders.Proofs.Comment.Neighbours

/-!
# Marked words

The words `task` and `team` with a mark behind them are what the last passes of the normal form look for.
The passes before them put nothing for a word but the word, and nothing for a mark but the mark. So marked
words stand in a text after these passes where they stood before.
-/

namespace TeamOrders.Comment

open Text

/-! ### Places in a text -/

/-- At some place in a text, something holds of what stands before the place and of what follows it. -/
def Somewhere (P : Option Char → List Char → Prop) (before : Option Char) (s : List Char) : Prop :=
  ∃ front place, s = front ++ place ∧ P (front.getLast?.or before) place

/-- At this place a word may start, and it is this word, in any case, with a mark behind it and then what is
wanted. -/
def MarkedAt (word : List Char) (mark : Char) (wanted : List Char → Prop) (before : Option Char)
    (place : List Char) : Prop :=
  endsInWord before = false ∧
    ∃ spelt rest, Spells word spelt ∧ place = spelt ++ mark :: rest ∧ wanted rest

variable {P Q : Option Char → List Char → Prop} {before before' : Option Char} {c : Char}
  {s t letters : List Char}

theorem somewhere_nil : Somewhere P before [] ↔ P before [] := by
  constructor
  · rintro ⟨front, place, h, hplace⟩
    obtain ⟨rfl, rfl⟩ := List.append_eq_nil_iff.mp h.symm
    exact hplace
  · exact fun h => ⟨[], [], rfl, h⟩

theorem somewhere_cons : Somewhere P before (c :: s) ↔
    P before (c :: s) ∨ Somewhere P (some c) s := by
  constructor
  · rintro ⟨front, place, h, hplace⟩
    cases front with
    | nil => exact .inl (h ▸ hplace)
    | cons d front =>
      obtain ⟨rfl, rfl⟩ := List.cons.inj h
      rw [getLast?_cons_or] at hplace
      exact .inr ⟨front, place, rfl, hplace⟩
  · rintro (h | ⟨front, place, rfl, hplace⟩)
    · exact ⟨[], c :: s, rfl, h⟩
    · exact ⟨c :: front, place, rfl, getLast?_cons_or c front before ▸ hplace⟩

theorem somewhere_append (h : Somewhere P before (s ++ t)) :
    (∃ front c back, s = front ++ c :: back ∧ P (front.getLast?.or before) (c :: (back ++ t))) ∨
      Somewhere P (s.getLast?.or before) t := by
  induction s generalizing before with
  | nil => exact .inr h
  | cons c s ih =>
    rcases somewhere_cons.mp h with h | h
    · exact .inl ⟨[], c, s, rfl, h⟩
    · rw [getLast?_cons_or]
      refine (ih h).imp_left ?_
      rintro ⟨front, d, back, rfl, hplace⟩
      exact ⟨c :: front, d, back, rfl, (getLast?_cons_or c front before).symm ▸ hplace⟩

theorem Somewhere.imp (h : ∀ before place, P before place → Q before place)
    (hP : Somewhere P before s) : Somewhere Q before s := by
  obtain ⟨front, place, hsplit, hplace⟩ := hP
  exact ⟨front, place, hsplit, h _ _ hplace⟩

structure Starts (P : Option Char → List Char → Prop) : Prop where
  apart : ∀ before place, P before place → endsInWord before = false
  letter : ∀ before place, P before place → startsInWord place = true

namespace Starts

theorem not_somewhere_nil (starts : Starts P) : ¬ Somewhere P before [] := by
  rw [somewhere_nil]
  intro h
  have hstarts := starts.letter _ _ h
  cases hstarts

theorem somewhere_cons_of_not_word (starts : Starts P) (hc : isWord c = false) :
    Somewhere P before (c :: s) ↔ Somewhere P (some c) s := by
  rw [somewhere_cons]
  refine or_iff_right fun h => ?_
  have hstarts : isWord c = true := starts.letter _ _ h
  rw [hc] at hstarts
  cases hstarts

theorem somewhere_cons_of_word (starts : Starts P) (hbefore : endsInWord before = true) :
    Somewhere P before (c :: s) ↔ Somewhere P (some c) s := by
  rw [somewhere_cons]
  refine or_iff_right fun h => ?_
  rw [starts.apart _ _ h] at hbefore
  cases hbefore

theorem somewhere_append_of_word (starts : Starts P) (hbefore : endsInWord before = true)
    (hletters : ∀ c ∈ letters, isWord c = true) (t : List Char) :
    Somewhere P before (letters ++ t) ↔ Somewhere P (letters.getLast?.or before) t := by
  induction letters generalizing before with
  | nil => rfl
  | cons c letters ih =>
    obtain ⟨hc, hrest⟩ := List.forall_mem_cons.mp hletters
    have hword : endsInWord (some c) = true := hc
    rw [List.cons_append, starts.somewhere_cons_of_word hbefore, ih hword hrest, getLast?_cons_or]

theorem somewhere_append_of_not_word (starts : Starts P)
    (hletters : ∀ c ∈ letters, isWord c = false) (t : List Char) :
    Somewhere P before (letters ++ t) ↔ Somewhere P (letters.getLast?.or before) t := by
  induction letters generalizing before with
  | nil => rfl
  | cons c letters ih =>
    obtain ⟨hc, hrest⟩ := List.forall_mem_cons.mp hletters
    rw [List.cons_append, starts.somewhere_cons_of_not_word hc, ih hrest, getLast?_cons_or]

theorem somewhere_marked (starts : Starts P) {mark : Char} (hne : letters ≠ [])
    (hletters : ∀ c ∈ letters, isWord c = true) (hmark : isWord mark = false) (t : List Char) :
    Somewhere P before (letters ++ mark :: t) ↔
      P before (letters ++ mark :: t) ∨ Somewhere P (some mark) t := by
  obtain ⟨c, letters, rfl⟩ := List.exists_cons_of_ne_nil hne
  obtain ⟨hc, hrest⟩ := List.forall_mem_cons.mp hletters
  have hword : endsInWord (some c) = true := hc
  rw [List.cons_append, somewhere_cons, starts.somewhere_append_of_word hword hrest,
    starts.somewhere_cons_of_not_word hmark]

end Starts

/-! ### Marked words -/

/-- The word is not empty, its letters are small and none is an i, which is also put for the dotted capital
I; the mark belongs to no word and is plain. -/
structure IsMarked (word : List Char) (mark : Char) : Prop where
  ne_nil : word ≠ []
  letters : ∀ letter ∈ word, letter.isLower = true ∧ letter ≠ 'i'
  notWord : isWord mark = false
  plain : markOf mark = .plain

section Marked

variable {word word' : List Char} {mark mark' : Char} {wanted wanted' : List Char → Prop}

theorem IsMarked.isWord (marked : IsMarked word mark) {spelt : List Char} (h : Spells word spelt) :
    ∀ c ∈ spelt, isWord c = true :=
  h.isWord fun letter hletter => (marked.letters letter hletter).1

theorem IsMarked.ne_nil_of_spells (marked : IsMarked word mark) {spelt : List Char}
    (h : Spells word spelt) : spelt ≠ [] :=
  fun hnil => marked.ne_nil (List.forall₂_nil_right_iff.mp (hnil ▸ h))

theorem starts_markedAt (marked : IsMarked word mark) : Starts (MarkedAt word mark wanted) where
  apart := fun _ _ h => h.1
  letter := by
    rintro _ _ ⟨-, spelt, rest, hspelt, rfl, -⟩
    exact hspelt.startsInWord marked.ne_nil (fun letter h => (marked.letters letter h).1) _

/-- Two texts that begin with a word and what is none are split alike. -/
theorem split_of_words {letters' rest rest' : List Char} (hletters : ∀ c ∈ letters, isWord c = true)
    (hletters' : ∀ c ∈ letters', isWord c = true) (hmark : isWord mark = false)
    (hmark' : isWord mark' = false) (h : letters ++ mark :: rest = letters' ++ mark' :: rest') :
    letters = letters' ∧ mark = mark' ∧ rest = rest' := by
  induction letters generalizing letters' with
  | nil =>
    cases letters' with
    | nil => exact ⟨rfl, List.cons.inj h⟩
    | cons d letters' =>
      obtain ⟨rfl, -⟩ := List.cons.inj h
      rw [hletters' mark List.mem_cons_self] at hmark
      cases hmark
  | cons c letters ih =>
    obtain ⟨hc, hrest⟩ := List.forall_mem_cons.mp hletters
    cases letters' with
    | nil =>
      obtain ⟨rfl, -⟩ := List.cons.inj h
      rw [hc] at hmark'
      cases hmark'
    | cons d letters' =>
      obtain ⟨rfl, htail⟩ := List.cons.inj h
      obtain ⟨rfl, hmarks, hrests⟩ := ih hrest (List.forall_mem_cons.mp hletters').2 htail
      exact ⟨rfl, hmarks, hrests⟩

theorem markedAt_append_iff (marked : IsMarked word mark) (hletters : ∀ c ∈ letters, isWord c = true)
    (hmark : isWord mark' = false) {rest : List Char} :
    MarkedAt word mark wanted before (letters ++ mark' :: rest) ↔
      endsInWord before = false ∧ Spells word letters ∧ mark' = mark ∧ wanted rest := by
  constructor
  · rintro ⟨hbefore, spelt, rest', hspelt, heq, hwanted⟩
    obtain ⟨rfl, rfl, rfl⟩ := split_of_words hletters (marked.isWord hspelt) hmark marked.notWord heq
    exact ⟨hbefore, hspelt, rfl, hwanted⟩
  · rintro ⟨hbefore, hspelt, rfl, hwanted⟩
    exact ⟨hbefore, letters, rest, hspelt, rfl, hwanted⟩

/-- Of the character before a text it matters only whether it belongs to a word. -/
theorem somewhere_markedAt_before (h : endsInWord before = endsInWord before') (s : List Char) :
    Somewhere (MarkedAt word mark wanted) before s ↔
      Somewhere (MarkedAt word mark wanted) before' s := by
  have hplace : ∀ place, MarkedAt word mark wanted before place ↔
      MarkedAt word mark wanted before' place := fun place => by
    rw [MarkedAt, MarkedAt, h]
  cases s with
  | nil => rw [somewhere_nil, somewhere_nil, hplace]
  | cons c s => rw [somewhere_cons, somewhere_cons, hplace]

theorem MarkedAt.imp (h : ∀ rest, wanted rest → wanted' rest) {place : List Char}
    (hmarked : MarkedAt word mark wanted before place) : MarkedAt word mark wanted' before place := by
  obtain ⟨hbefore, spelt, rest, hspelt, heq, hwanted⟩ := hmarked
  exact ⟨hbefore, spelt, rest, hspelt, heq, h rest hwanted⟩

/-! ### Words that are carried along -/

/-- Two texts behind one character are in a relation that carries words: a word that has begun goes on alike
in both of them, up to the mark behind it. -/
structure CarriesWords (mark : Char) (R : Option Char → List Char → List Char → Prop) : Prop where
  forth : ∀ {before c s t}, endsInWord before = true → isWord c = true ∨ c = mark →
    R before (c :: s) t → ∃ rest, t = c :: rest ∧ R (some c) s rest
  back : ∀ {before c s t}, endsInWord before = true → isWord c = true ∨ c = mark →
    R before s (c :: t) → ∃ rest, s = c :: rest ∧ R (some c) rest t

namespace CarriesWords

variable {R : Option Char → List Char → List Char → Prop}

theorem symm (carries : CarriesWords mark R) : CarriesWords mark fun before s t => R before t s :=
  ⟨carries.back, carries.forth⟩

theorem append_mark (carries : CarriesWords mark R) (hletters : ∀ c ∈ letters, isWord c = true)
    (hbefore : endsInWord before = true) (h : R before (letters ++ mark :: s) t) :
    ∃ rest, t = letters ++ mark :: rest ∧ R (some mark) s rest := by
  induction letters generalizing before t with
  | nil => exact carries.forth hbefore (.inr rfl) h
  | cons c letters ih =>
    obtain ⟨hc, hrest⟩ := List.forall_mem_cons.mp hletters
    have hword : endsInWord (some c) = true := hc
    obtain ⟨t, rfl, htail⟩ := carries.forth hbefore (.inl hc) h
    obtain ⟨rest, rfl, hcarried⟩ := ih hrest hword htail
    exact ⟨rest, rfl, hcarried⟩

theorem markedAt (carries : CarriesWords mark R) (marked : IsMarked word mark)
    (hwanted : ∀ rest rest', R (some mark) rest rest' → wanted rest → wanted' rest')
    (hbefore : endsInWord before = endsInWord before') (hc : isWord c = true) (h : R (some c) s t)
    (hplace : MarkedAt word mark wanted before (c :: s)) :
    MarkedAt word mark wanted' before' (c :: t) := by
  obtain ⟨hstarts, spelt, rest, hspelt, heq, hrest⟩ := hplace
  obtain ⟨d, spelt, rfl⟩ := List.exists_cons_of_ne_nil (marked.ne_nil_of_spells hspelt)
  obtain ⟨rfl, rfl⟩ := List.cons.inj heq
  have hword : endsInWord (some c) = true := hc
  obtain ⟨new, rfl, hcarried⟩ :=
    carries.append_mark (List.forall_mem_cons.mp (marked.isWord hspelt)).2 hword h
  exact ⟨hbefore ▸ hstarts, c :: spelt, new, hspelt, rfl, hwanted rest new hcarried hrest⟩

theorem markedAt_iff (carries : CarriesWords mark R) (marked : IsMarked word mark)
    (hwanted : ∀ rest rest', R (some mark) rest rest' → (wanted rest ↔ wanted' rest'))
    (hbefore : endsInWord before = endsInWord before') (hc : isWord c = true) (h : R (some c) s t) :
    MarkedAt word mark wanted before (c :: s) ↔ MarkedAt word mark wanted' before' (c :: t) :=
  ⟨carries.markedAt marked (fun rest rest' h => (hwanted rest rest' h).mp) hbefore hc h,
    carries.symm.markedAt marked (fun rest rest' h => (hwanted rest' rest h).mpr) hbefore.symm hc h⟩

end CarriesWords

/-! ### Passes that keep words -/

/-- A pass over what stands behind a character that keeps words and the mark, and puts other characters for
others. Only where no word has begun may it put nothing. -/
structure KeepsWords (mark : Char) (pass : Option Char → List Char → List Char) : Prop where
  nil : ∀ before, pass before [] = []
  keep : ∀ before c s, isWord c = true ∨ c = mark → pass before (c :: s) = c :: pass (some c) s
  other : ∀ before c s, isWord c = false → c ≠ mark → ∃ new : List Char,
    (∀ d ∈ new, isWord d = false ∧ d ≠ mark) ∧ (new = [] → endsInWord before = false) ∧
      pass before (c :: s) = new ++ pass (some c) s

namespace KeepsWords

variable {pass : Option Char → List Char → List Char}

theorem exists_of_cons (keeps : KeepsWords mark pass) (hbefore : endsInWord before = true)
    (hc : isWord c = true ∨ c = mark) (h : pass before s = c :: t) :
    ∃ rest, s = c :: rest ∧ pass (some c) rest = t := by
  cases s with
  | nil =>
    rw [keeps.nil] at h
    cases h
  | cons d s =>
    by_cases hd : isWord d = true ∨ d = mark
    · rw [keeps.keep before d s hd] at h
      obtain ⟨rfl, htail⟩ := List.cons.inj h
      exact ⟨s, rfl, htail⟩
    · rw [not_or, Bool.not_eq_true] at hd
      obtain ⟨new, hnew, hnil, hpass⟩ := keeps.other before d s hd.1 hd.2
      cases new with
      | nil =>
        rw [hnil rfl] at hbefore
        cases hbefore
      | cons e new =>
        rw [hpass] at h
        obtain ⟨rfl, -⟩ := List.cons.inj h
        have he := hnew e List.mem_cons_self
        rcases hc with hc | rfl
        · rw [he.1] at hc
          cases hc
        · exact absurd rfl he.2

theorem carriesWords (keeps : KeepsWords mark pass) :
    CarriesWords mark fun before s t => pass before s = t where
  forth := by
    rintro before c s _ - hc rfl
    exact ⟨pass (some c) s, keeps.keep before c s hc, rfl⟩
  back := fun hbefore hc h => keeps.exists_of_cons hbefore hc h

theorem somewhere_iff (keeps : KeepsWords mark pass) (marked : IsMarked word mark)
    (hwanted : ∀ rest, wanted rest ↔ wanted' (pass (some mark) rest))
    (hbefore : endsInWord before = endsInWord before') (s : List Char) :
    Somewhere (MarkedAt word mark wanted) before s ↔
      Somewhere (MarkedAt word mark wanted') before' (pass before s) := by
  have starts : Starts (MarkedAt word mark wanted) := starts_markedAt marked
  have starts' : Starts (MarkedAt word mark wanted') := starts_markedAt marked
  induction s generalizing before before' with
  | nil =>
    rw [keeps.nil]
    exact iff_of_false starts.not_somewhere_nil starts'.not_somewhere_nil
  | cons c s ih =>
    cases hc : isWord c with
    | true =>
      rw [keeps.keep before c s (.inl hc), somewhere_cons, somewhere_cons]
      have hmarked : ∀ rest rest', pass (some mark) rest = rest' → (wanted rest ↔ wanted' rest') := by
        rintro rest _ rfl
        exact hwanted rest
      exact or_congr (keeps.carriesWords.markedAt_iff marked hmarked hbefore hc rfl) (ih rfl)
    | false =>
      rw [starts.somewhere_cons_of_not_word hc]
      by_cases hmark : c = mark
      · rw [keeps.keep before c s (.inr hmark), starts'.somewhere_cons_of_not_word hc]
        exact ih rfl
      · obtain ⟨new, hnew, hnil, hpass⟩ := keeps.other before c s hc hmark
        rw [hpass, starts'.somewhere_append_of_not_word fun d hd => (hnew d hd).1]
        refine ih ?_
        rw [endsInWord_of_not_word hc]
        cases hlast : new.getLast? with
        | none =>
          rw [Option.none_or, ← hbefore, hnil (List.getLast?_eq_none_iff.mp hlast)]
        | some d =>
          exact (endsInWord_of_not_word (hnew d (List.mem_of_getLast? hlast)).1).symm

end KeepsWords

/-! ### Quotes and white space -/

def fancyQuotes : List Char := ['“', '”', '„', '‟', '«', '»', '\u0060']

theorem not_isFancyQuote_of_not_mem (h : c ∉ fancyQuotes) : isFancyQuote c = false := by
  simpa [isFancyQuote, fancyQuotes] using h

theorem fancyQuotes_apart_from_words : (fancyQuotes.all fun c => !isWord c) = true :=
  all_not_isWord (by decide)

theorem not_isFancyQuote_of_isWord (h : isWord c = true) : isFancyQuote c = false :=
  not_isFancyQuote_of_not_mem (not_mem_of_all fancyQuotes_apart_from_words h)

theorem unifiedAt_of_plain (hfancy : isFancyQuote c = false) (hmark : markOf c = .plain)
    (before after : Option Char) : unifiedAt before c after = c := by
  have hquote : isSingleQuote c = false := by
    rw [Bool.eq_false_iff, ne_eq, ← markOf_eq_quote_iff, hmark]
    exact fun h => by cases h
  rw [unifiedAt, hfancy, hquote]
  rfl

theorem keepsWords_unified (hfancy : isFancyQuote mark = false) (hmark : markOf mark = .plain)
    (hquote : mark ≠ '"') : KeepsWords mark unified where
  nil := fun _ => rfl
  keep := by
    intro before c s hc
    rw [unified_cons, unifiedAt_of_plain]
    · rcases hc with hc | rfl
      · exact not_isFancyQuote_of_isWord hc
      · exact hfancy
    · rcases hc with hc | rfl
      · exact markOf_of_isWord hc
      · exact hmark
  other := by
    intro before c s hc hne
    refine ⟨[unifiedAt before c s.head?], List.forall_mem_singleton.mpr ?_, fun h => (by cases h), rfl⟩
    have hstraight : isWord '"' = false := by decide
    unfold unifiedAt
    split
    · exact ⟨hstraight, hquote.symm⟩
    · split
      · exact ⟨hstraight, hquote.symm⟩
      · exact ⟨hc, hne⟩

theorem keepsWords_squeeze (hmark : markOf mark = .plain) :
    KeepsWords mark fun before s => squeeze (before.any isBlank) s where
  nil := fun _ => rfl
  keep := by
    intro before c s hc
    have hblank : isBlank c = false := by
      rcases hc with hc | rfl
      · exact isBlank_of_isWord hc
      · rw [← markOf_ne_blank_iff, hmark]
        exact fun h => by cases h
    rw [squeeze_of_not_blank _ hblank, Option.any_some, hblank]
  other := by
    intro before c s hc hne
    cases hblank : isBlank c with
    | false =>
      refine ⟨[c], List.forall_mem_singleton.mpr ⟨hc, hne⟩, fun h => (by cases h), ?_⟩
      rw [squeeze_of_not_blank _ hblank, Option.any_some, hblank, List.singleton_append]
    | true =>
      cases hwithin : before.any isBlank with
      | true =>
        refine ⟨[], List.forall_mem_nil _, fun _ => ?_, ?_⟩
        · cases before with
          | none => cases hwithin
          | some d => exact endsInWord_of_not_word (isWord_of_isBlank hwithin)
        · rw [squeeze_true_of_blank hblank, Option.any_some, hblank, List.nil_append]
      | false =>
        refine ⟨[' '], List.forall_mem_singleton.mpr ⟨by decide, ?_⟩, fun h => (by cases h), ?_⟩
        · rintro rfl
          exact absurd hmark (by decide)
        · rw [squeeze_false_of_blank hblank, Option.any_some, hblank, List.singleton_append]

end Marked

end TeamOrders.Comment
