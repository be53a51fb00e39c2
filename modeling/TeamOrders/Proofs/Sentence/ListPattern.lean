import TeamOrders.Proofs.Phrase.Preference
import TeamOrders.Proofs.Roster.Ids
import TeamOrders.Proofs.Sentence.Roster

/-!
# How the pattern of a list matches a list

On a list of clean names behind `team`, `teams`, `task` or `tasks`, the preferred match takes the whole
list, as long as what follows neither goes on with a name nor starts with a separator. Other matches may
end earlier, but none goes past the end of the list.
-/

namespace TeamOrders

open Pattern Phrase Text

variable {s t rest : List Char}

/-- Two texts that are cut where a class of characters ends are cut at the same place. -/
theorem eq_of_append_eq_append {accepts : Char → Bool} {x y : List Char}
    (hx : ∀ c ∈ x, accepts c = true) (hy : ∀ c ∈ y, accepts c = true)
    (hs : ∀ c ∈ s.head?, accepts c = false) (ht : ∀ c ∈ t.head?, accepts c = false)
    (h : x ++ s = y ++ t) : x = y := by
  have hwhole : ∀ {z u : List Char}, (∀ c ∈ z, accepts c = true) →
      (∀ c ∈ u.head?, accepts c = false) → (z ++ u).takeWhile accepts = z := by
    intro z u hz hu
    have hstop : u.takeWhile accepts = [] := by
      cases u with
      | nil => rfl
      | cons c u =>
        have hc : accepts c = false := hu c rfl
        simp [hc]
    rw [List.takeWhile_append_of_pos hz, hstop, List.append_nil]
  rw [← hwhole hx hs, h, hwhole hy ht]

theorem exists_suffix_of_append_eq {accepts : Char → Bool} {x taken : List Char}
    (htaken : ∀ c ∈ taken, accepts c = true) (ht : ∀ c ∈ t.head?, accepts c = false)
    (h : x ++ t = taken ++ rest) : ∃ y, x = taken ++ y ∧ rest = y ++ t := by
  rcases List.append_eq_append_iff.mp h with ⟨cut, htake, rfl⟩ | ⟨cut, rfl, rfl⟩
  · cases cut with
    | nil => exact ⟨[], by simpa using htake.symm, rfl⟩
    | cons c cut =>
      have hc : accepts c = true := htaken c (by simp [htake])
      have hc' : accepts c = false := ht c rfl
      rw [hc] at hc'
      cases hc'
  · exact ⟨cut, rfl, rfl⟩

/-- What may follow a list: no name goes on there, and no separator stands there. -/
structure EndsList (rest : List Char) : Prop where
  name : ∀ c ∈ rest.head?, isNameChar c = false
  separator : Fails listSeparator rest

/-- A word that lists are introduced by, and the forms that it has. -/
def IsIntroduction (w : String) (form : List Char) : Prop :=
  (w = "team" ∨ w = "task") ∧ (form = w.toList ∨ form = w.toList ++ ['s'])

theorem IsIntroduction.mem_listWords {w : String} {form : List Char} (h : IsIntroduction w form) :
    form ∈ listWords := by
  obtain ⟨rfl | rfl, rfl | rfl⟩ := h <;> decide

theorem IsIntroduction.nameChars {w : String} {form : List Char} (h : IsIntroduction w form) :
    ∀ c ∈ form, isNameChar c = true := by
  have hall : ∀ word ∈ listWords, word.all isNameChar = true := by decide
  exact List.all_eq_true.mp (hall form h.mem_listWords)

theorem not_isBlank_of_isNameChar {c : Char} (h : isNameChar c = true) : isBlank c = false :=
  Roster.not_isBlank_of_isItemChar (Roster.isItemChar_of_isNameChar h)

theorem PlainWord.nameChars (word : PlainWord) : ∀ c ∈ word.chars, isNameChar c = true :=
  fun c hc => isNameChar_of_plain c (word.plain c hc)

/-! ### The preferred match of an item -/

theorem PlainWord.takes_name (word : PlainWord) (hrest : ∀ c ∈ rest.head?, isNameChar c = false) :
    Takes name? (word.chars ++ rest) [] rest :=
  takes_run word.nonempty word.nameChars hrest

theorem exists_form_of_reaches {w : String} (hw : w = "team" ∨ w = "task")
    (h : Reaches (oneOrMany w : Pattern Slot) s rest) :
    ∃ form, IsIntroduction w form ∧ s = form ++ rest := by
  simp only [oneOrMany, all, reaches_seq, reaches_optional, reaches_word] at h
  obtain ⟨mid, hstart, rfl | rfl⟩ := h
  · exact ⟨w.toList ++ ['s'], ⟨hw, .inr rfl⟩, by rw [hstart]; simp⟩
  · exact ⟨w.toList, ⟨hw, .inl rfl⟩, hstart⟩

/-- No name goes on where white space is matched. -/
theorem ends_name_of_reaches_blanks (h : Reaches (blanks : Pattern Slot) s rest) :
    ∀ c ∈ s.head?, isNameChar c = false := by
  obtain ⟨taken, hne, hblank, rfl⟩ := reaches_run.mp h
  intro c hc
  obtain ⟨d, more, rfl⟩ := List.exists_cons_of_ne_nil hne
  obtain rfl : d = c := Option.some.inj hc
  rw [Bool.eq_false_iff]
  intro hname
  have hd := hblank d List.mem_cons_self
  rw [not_isBlank_of_isNameChar hname] at hd
  cases hd

theorem fails_introduction {w : String} (hw : w = "team" ∨ w = "task") (name : CleanName)
    (hrest : ∀ c ∈ rest.head?, isNameChar c = false) :
    Fails (all [oneOrMany w, blanks] : Pattern Slot) (name.chars ++ rest) := by
  rw [fails_iff]
  intro last h
  obtain ⟨mid, hword, hblanks⟩ := reaches_seq.mp h
  obtain ⟨form, hform, heq⟩ := exists_form_of_reaches hw hword
  have hname : name.chars = form := eq_of_append_eq_append name.nameChars hform.nameChars hrest
    (ends_name_of_reaches_blanks hblanks) heq
  exact name.named (hname ▸ hform.mem_listWords)

theorem PlainWord.fails_numberSign (word : PlainWord) (rest : List Char) :
    Fails (Pattern.word "#" : Pattern Slot) (word.chars ++ rest) := by
  rw [fails_iff]
  intro last h
  rw [reaches_word] at h
  obtain ⟨c, more, hchars⟩ := List.exists_cons_of_ne_nil word.nonempty
  rw [hchars] at h
  obtain ⟨rfl, -⟩ := List.cons.inj h
  exact (ne_mark_of_plain '#' (word.plain '#' (by rw [hchars]; exact List.mem_cons_self))).1 rfl

theorem takes_item {w : String} (hw : w = "team" ∨ w = "task") (name : CleanName)
    (hrest : ∀ c ∈ rest.head?, isNameChar c = false) :
    Takes (item w) (name.chars ++ rest) [] rest :=
  (takes_optional_of_fails (fails_introduction hw name hrest)).seq
    ((takes_optional_of_fails (name.fails_numberSign rest)).seq (name.takes_name hrest))

theorem takes_blank (hrest : ∀ c ∈ rest.head?, isBlank c = false) :
    Takes (blanks : Pattern Slot) (' ' :: rest) [] rest :=
  takes_run (s := [' ']) (by simp) (List.all_eq_true.mp rfl) hrest

theorem PlainWord.not_blank_head (word : PlainWord) (rest : List Char) :
    ∀ c ∈ (word.chars ++ rest).head?, isBlank c = false := by
  intro c hc
  obtain ⟨d, more, hchars⟩ := List.exists_cons_of_ne_nil word.nonempty
  rw [hchars] at hc
  obtain rfl : d = c := Option.some.inj hc
  exact word.not_blank d (by rw [hchars]; exact List.mem_cons_self)

theorem takes_introduced {w : String} {form : List Char} (h : IsIntroduction w form)
    (hrest : ∀ c ∈ rest.head?, isBlank c = false) :
    Takes (introduced w) (form ++ ' ' :: rest) [] rest := by
  obtain ⟨-, rfl | rfl⟩ := h
  · have hmany : Takes (oneOrMany w) (w.toList ++ ' ' :: rest) [] (' ' :: rest) :=
      (takes_word w (' ' :: rest)).seq (takes_optional_of_fails rfl)
    exact (hmany.seq (takes_blank hrest)).optional
  · have hmany : Takes (oneOrMany w) (w.toList ++ 's' :: ' ' :: rest) [] (' ' :: rest) :=
      (takes_word w ('s' :: ' ' :: rest)).seq (takes_word "s" (' ' :: rest)).optional
    have htext : w.toList ++ ['s'] ++ ' ' :: rest = w.toList ++ 's' :: ' ' :: rest := by simp
    rw [htext]
    exact (hmany.seq (takes_blank hrest)).optional

theorem takes_introduced_item {w : String} {form : List Char} (h : IsIntroduction w form)
    (word : PlainWord) (hrest : ∀ c ∈ rest.head?, isNameChar c = false) :
    Takes (item w) (form ++ ' ' :: (word.chars ++ rest)) [] rest :=
  (takes_introduced h (word.not_blank_head rest)).seq
    ((takes_optional_of_fails (word.fails_numberSign rest)).seq (word.takes_name hrest))

/-! ### The preferred match of a list -/

def tail (others : List CleanName) : List Char := others.flatMap fun name => ',' :: ' ' :: name.chars

theorem tail_cons (name : CleanName) (others : List CleanName) (rest : List Char) :
    tail (name :: others) ++ rest = ',' :: ' ' :: (name.chars ++ (tail others ++ rest)) := by
  simp [tail]

theorem NameList.chars_eq (list : NameList) : ∃ first others, list.names = first :: others ∧
    list.chars = first.chars ++ tail others := by
  obtain ⟨first, others, hnames⟩ := List.exists_cons_of_ne_nil list.nonempty
  refine ⟨first, others, hnames, ?_⟩
  rw [NameList.chars, hnames, List.map_cons, intercalate_cons_eq, List.flatMap_map]
  rfl

theorem tail_head (others : List CleanName) (hrest : ∀ c ∈ rest.head?, isNameChar c = false) :
    ∀ c ∈ (tail others ++ rest).head?, isNameChar c = false := by
  intro c hc
  cases others with
  | nil => exact hrest c hc
  | cons name others =>
    rw [tail_cons] at hc
    obtain rfl : ',' = c := Option.some.inj hc
    decide

theorem takes_separator (hrest : ∀ c ∈ rest.head?, isBlank c = false) :
    Takes listSeparator (',' :: ' ' :: rest) [] rest := by
  have hspace : Takes (space : Pattern Slot) (',' :: ' ' :: rest) [] (',' :: ' ' :: rest) :=
    takes_optional_of_fails rfl
  have hcomma : Takes (word "," : Pattern Slot) (',' :: ' ' :: rest) [] (' ' :: rest) :=
    takes_word "," (' ' :: rest)
  exact (hspace.seq (hcomma.seq (takes_blank hrest).optional)).alt _

theorem repeats_tail {w : String} (hw : w = "team" ∨ w = "task") (others : List CleanName)
    (hrest : EndsList rest) :
    Repeats (all [listSeparator, item w]) (tail others ++ rest) [] rest := by
  induction others with
  | nil => exact .stop (hrest.separator.seq _)
  | cons name others ih =>
    have hitem : Takes (item w) (name.chars ++ (tail others ++ rest)) [] (tail others ++ rest) :=
      takes_item hw name (tail_head others hrest.name)
    have hstep : Takes (all [listSeparator, item w]) (tail (name :: others) ++ rest) []
        (tail others ++ rest) := by
      rw [tail_cons]
      exact (takes_separator (name.not_blank_head _)).seq hitem
    have hshorter : (tail others ++ rest).length < (tail (name :: others) ++ rest).length := by
      rw [tail_cons]
      simp only [List.length_cons, List.length_append]
      omega
    exact .more hstep hshorter ih

theorem takes_single {w : String} {form : List Char} (h : IsIntroduction w form) (word : PlainWord)
    (hrest : EndsList rest) : Takes (Phrase.list w) (form ++ ' ' :: (word.chars ++ rest)) [] rest :=
  (takes_introduced_item h word hrest.name).seq
    (Repeats.stop (hrest.separator.seq _)).takes_star

theorem takes_list {w : String} {form : List Char} (h : IsIntroduction w form) (list : NameList)
    (hrest : EndsList rest) : Takes (Phrase.list w) (form ++ ' ' :: (list.chars ++ rest)) [] rest := by
  obtain ⟨first, others, -, hchars⟩ := list.chars_eq
  have hfirst : Takes (item w) (form ++ ' ' :: (first.chars ++ (tail others ++ rest))) []
      (tail others ++ rest) :=
    takes_introduced_item h first.toPlainWord (tail_head others hrest.name)
  rw [hchars, List.append_assoc]
  exact hfirst.seq (repeats_tail h.1 others hrest).takes_star

end TeamOrders
