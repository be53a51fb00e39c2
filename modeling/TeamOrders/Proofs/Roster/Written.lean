import TeamOrders.Proofs.Roster.Ids

/-!
# Lists as they are written

The pattern of lists and the taking apart of lists are two descriptions of one syntax. They agree where
an ampersand has white space on both sides, as they do for commas and for the word `and`, however the
items are introduced. The pattern also takes an ampersand that touches an item, but the list is not cut
there, so what stands on its two sides is read as one item that holds an ampersand.
-/

namespace TeamOrders

open Pattern Phrase Text

variable {w : String} {s t rest : List Char}

def IsGap (gap : List Char) : Prop := ∀ c ∈ gap, isBlank c = true

/-! ### What the pattern of lists takes -/

/-- A comma or an ampersand with any white space around it, or `and` with white space on both sides. -/
structure Separator where
  before : List Char
  mark : List Char
  after : List Char
  blankBefore : IsGap before
  blankAfter : IsGap after
  marked : mark = [','] ∨ mark = ['&'] ∨ (mark = "and".toList ∧ before ≠ [] ∧ after ≠ [])

def Separator.chars (separator : Separator) : List Char :=
  separator.before ++ (separator.mark ++ separator.after)

/-- A word before an item, with or without an `s` and with white space behind it, or nothing. -/
def IsIntroducing (w : String) (introduction : List Char) : Prop :=
  introduction = [] ∨ ∃ form gap, (form = w.toList ∨ form = w.toList ++ ['s']) ∧ gap ≠ [] ∧
    IsGap gap ∧ introduction = form ++ gap

/-- A name, perhaps behind a word that introduces it and a number sign. -/
structure WrittenItem (w : String) where
  introduction : List Char
  sign : List Char
  name : List Char
  introducing : IsIntroducing w introduction
  signed : sign = [] ∨ sign = ['#']
  nonempty : name ≠ []
  named : ∀ c ∈ name, isNameChar c = true

def WrittenItem.chars (item : WrittenItem w) : List Char :=
  item.introduction ++ (item.sign ++ item.name)

/-- One or more items with separators between them. -/
structure WrittenList (w : String) where
  first : WrittenItem w
  others : List (Separator × WrittenItem w)

namespace WrittenList

def tail (others : List (Separator × WrittenItem w)) : List Char :=
  others.flatMap fun (separator, item) => separator.chars ++ item.chars

def chars (list : WrittenList w) : List Char := list.first.chars ++ tail list.others

def names (list : WrittenList w) : List (List Char) :=
  list.first.name :: list.others.map fun (_, item) => item.name

end WrittenList

theorem reaches_space_iff :
    Reaches (space : Pattern Slot) s rest ↔ ∃ gap, IsGap gap ∧ s = gap ++ rest := by
  rw [space, reaches_optional, blanks, reaches_run]
  constructor
  · rintro (⟨gap, -, hgap, rfl⟩ | rfl)
    · exact ⟨gap, hgap, rfl⟩
    · exact ⟨[], List.forall_mem_nil _, rfl⟩
  · rintro ⟨gap, hgap, rfl⟩
    rcases eq_or_ne gap [] with rfl | hne
    · exact .inr rfl
    · exact .inl ⟨gap, hne, hgap, rfl⟩

theorem reaches_blanks_iff :
    Reaches (blanks : Pattern Slot) s rest ↔ ∃ gap, gap ≠ [] ∧ IsGap gap ∧ s = gap ++ rest :=
  reaches_run

theorem reaches_listSeparator_iff :
    Reaches listSeparator s rest ↔ ∃ separator : Separator, s = separator.chars ++ rest := by
  simp only [listSeparator, choice, Pattern.all, reaches_alt, reaches_seq, reaches_space_iff,
    reaches_blanks_iff, reaches_word]
  constructor
  · rintro (⟨_, ⟨before, hbefore, rfl⟩, _, rfl, after, hafter, rfl⟩ |
      ⟨_, ⟨before, hbefore, rfl⟩, _, rfl, after, hafter, rfl⟩ |
      ⟨_, ⟨before, hne, hbefore, rfl⟩, _, rfl, after, hne', hafter, rfl⟩)
    · exact ⟨⟨before, [','], after, hbefore, hafter, .inl rfl⟩, by simp [Separator.chars]⟩
    · exact ⟨⟨before, ['&'], after, hbefore, hafter, .inr (.inl rfl)⟩, by simp [Separator.chars]⟩
    · exact ⟨⟨before, _, after, hbefore, hafter, .inr (.inr ⟨rfl, hne, hne'⟩)⟩,
        by simp [Separator.chars]⟩
  · rintro ⟨⟨before, mark, after, hbefore, hafter, rfl | rfl | ⟨rfl, hne, hne'⟩⟩, rfl⟩
    · exact .inl ⟨_, ⟨before, hbefore, List.append_assoc _ _ _⟩, _, rfl, after, hafter, rfl⟩
    · exact .inr (.inl ⟨_, ⟨before, hbefore, List.append_assoc _ _ _⟩, _, rfl, after, hafter, rfl⟩)
    · exact .inr (.inr ⟨_, ⟨before, hne, hbefore, List.append_assoc _ _ _⟩, _,
        List.append_assoc _ _ _, after, hne', hafter, rfl⟩)

theorem IsGap.eq_of_blank_cons {gap : List Char} (hgap : IsGap gap)
    (hs : ∀ c ∈ s.head?, isBlank c = false) (h : ' ' :: s = gap ++ rest) :
    gap = [] ∧ rest = ' ' :: s ∨ gap = [' '] ∧ rest = s := by
  match gap with
  | [] => exact .inl ⟨rfl, h.symm⟩
  | [c] =>
    obtain ⟨rfl, hrest⟩ := List.cons.inj h
    exact .inr ⟨rfl, hrest.symm⟩
  | c :: d :: gap =>
    have hhead : d ∈ s.head? := by
      rw [(List.cons.inj h).2]
      rfl
    have hblank := hgap d (List.mem_cons_of_mem c List.mem_cons_self)
    rw [hs d hhead] at hblank
    cases hblank

/-- Behind a blank, a list goes on only with a comma, an ampersand or the word `and`. -/
theorem fails_listSeparator_blank_cons (hs : ∀ c ∈ s.head?, isBlank c = false)
    (hmarks : ∀ c ∈ s.head?, c ≠ ',' ∧ c ≠ '&')
    (hword : ∀ c rest, s = "and".toList ++ c :: rest → isBlank c = false) :
    Fails listSeparator (' ' :: s) := by
  rw [fails_iff]
  intro rest h
  obtain ⟨⟨before, mark, after, hbefore, hafter, hmark⟩, h⟩ := reaches_listSeparator_iff.mp h
  simp only [Separator.chars, List.append_assoc] at h
  rcases hbefore.eq_of_blank_cons hs h with ⟨rfl, hrest⟩ | ⟨rfl, rfl⟩
  · rcases hmark with rfl | rfl | ⟨-, hne, -⟩
    · exact absurd (List.cons.inj hrest).1 (by decide)
    · exact absurd (List.cons.inj hrest).1 (by decide)
    · exact hne rfl
  · rcases hmark with rfl | rfl | ⟨rfl, -, hne⟩
    · exact (hmarks ',' rfl).1 rfl
    · exact (hmarks '&' rfl).2 rfl
    · obtain ⟨c, after, rfl⟩ := List.exists_cons_of_ne_nil hne
      have hblank := hafter c List.mem_cons_self
      rw [hword c (after ++ rest) rfl] at hblank
      cases hblank

theorem reaches_introduced_iff : Reaches (introduced w) s rest ↔
    ∃ introduction, IsIntroducing w introduction ∧ s = introduction ++ rest := by
  simp only [introduced, oneOrMany, Pattern.all, reaches_optional, reaches_seq, reaches_blanks_iff,
    reaches_word]
  constructor
  · rintro (⟨_, ⟨_, rfl, rfl | rfl⟩, gap, hne, hgap, rfl⟩ | rfl)
    · exact ⟨w.toList ++ ['s'] ++ gap, .inr ⟨_, gap, .inr rfl, hne, hgap, rfl⟩, by simp⟩
    · exact ⟨w.toList ++ gap, .inr ⟨_, gap, .inl rfl, hne, hgap, rfl⟩, by simp⟩
    · exact ⟨[], .inl rfl, rfl⟩
  · rintro ⟨_, rfl | ⟨form, gap, rfl | rfl, hne, hgap, rfl⟩, rfl⟩
    · exact .inr rfl
    · exact .inl ⟨_, ⟨_, List.append_assoc _ _ _, .inr rfl⟩, gap, hne, hgap, rfl⟩
    · exact .inl ⟨gap ++ rest, ⟨_, by simp, .inl rfl⟩, gap, hne, hgap, rfl⟩

theorem reaches_item_iff :
    Reaches (Phrase.item w) s rest ↔ ∃ item : WrittenItem w, s = item.chars ++ rest := by
  simp only [Phrase.item, Pattern.all, numberSign, name?, reaches_seq, reaches_introduced_iff,
    reaches_optional, reaches_word, reaches_run]
  constructor
  · rintro ⟨_, ⟨introduction, hintroduction, rfl⟩, _, rfl | rfl, name, hne, hname, rfl⟩
    · exact ⟨⟨introduction, ['#'], name, hintroduction, .inr rfl, hne, hname⟩,
        by simp [WrittenItem.chars]⟩
    · exact ⟨⟨introduction, [], name, hintroduction, .inl rfl, hne, hname⟩,
        by simp [WrittenItem.chars]⟩
  · rintro ⟨⟨introduction, sign, name, hintroduction, rfl | rfl, hne, hname⟩, rfl⟩
    · exact ⟨_, ⟨introduction, hintroduction, List.append_assoc _ _ _⟩, _, .inr rfl, name, hne, hname,
        rfl⟩
    · exact ⟨_, ⟨introduction, hintroduction, List.append_assoc _ _ _⟩, _, .inl rfl, name, hne, hname,
        rfl⟩

namespace WrittenList

def snoc (list : WrittenList w) (separator : Separator) (item : WrittenItem w) : WrittenList w :=
  ⟨list.first, list.others ++ [(separator, item)]⟩

theorem chars_snoc (list : WrittenList w) (separator : Separator) (item : WrittenItem w) :
    (list.snoc separator item).chars = list.chars ++ (separator.chars ++ item.chars) := by
  simp [chars, snoc, tail]

theorem tail_cons (separator : Separator) (item : WrittenItem w)
    (others : List (Separator × WrittenItem w)) :
    tail ((separator, item) :: others) = separator.chars ++ (item.chars ++ tail others) := by
  simp [tail]

theorem reaches_tail (others : List (Separator × WrittenItem w)) (rest : List Char) :
    Reaches (star (Pattern.all [listSeparator, Phrase.item w])) (tail others ++ rest) rest := by
  induction others with
  | nil => exact reaches_star_self _ rest
  | cons first others ih =>
    obtain ⟨separator, item⟩ := first
    have hstep : Reaches (Pattern.all [listSeparator, Phrase.item w])
        (tail ((separator, item) :: others) ++ rest) (tail others ++ rest) := by
      refine reaches_seq.mpr ⟨item.chars ++ (tail others ++ rest), ?_,
        reaches_item_iff.mpr ⟨item, rfl⟩⟩
      exact reaches_listSeparator_iff.mpr ⟨separator, by simp [tail_cons]⟩
    refine hstep.star_cons ?_ ih
    have hname := List.length_pos_iff.mpr item.nonempty
    simp only [tail_cons, WrittenItem.chars, List.length_append]
    omega

/-- The pattern of lists takes the lists that are written so, and nothing else. -/
theorem reaches_list_iff :
    Reaches (Phrase.list w) s rest ↔ ∃ list : WrittenList w, s = list.chars ++ rest := by
  constructor
  · intro h
    obtain ⟨mid, hfirst, hothers⟩ := reaches_seq.mp h
    obtain ⟨first, rfl⟩ := reaches_item_iff.mp hfirst
    refine invariant_of_reaches_star
      (fun t => ∃ list : WrittenList w, first.chars ++ mid = list.chars ++ t) hothers
      ⟨⟨first, []⟩, by simp [chars, tail]⟩ ?_
    rintro t u ⟨list, hlist⟩ hstep
    obtain ⟨_, hseparator, hitem⟩ := reaches_seq.mp hstep
    obtain ⟨item, rfl⟩ := reaches_item_iff.mp hitem
    obtain ⟨separator, rfl⟩ := reaches_listSeparator_iff.mp hseparator
    exact ⟨list.snoc separator item, by simp [hlist, chars_snoc]⟩
  · rintro ⟨list, rfl⟩
    rw [chars, List.append_assoc]
    exact reaches_seq.mpr ⟨_, reaches_item_iff.mpr ⟨list.first, rfl⟩, reaches_tail list.others rest⟩

end WrittenList

end TeamOrders
