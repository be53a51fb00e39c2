import Mathlib.Data.Bool.AllAny
import TeamOrders.Proofs.Text.Fold
import TeamOrders.Proofs.Text.Lowercase
import TeamOrders.Phrase.Table
import TeamOrders.Roster
import TeamOrders.Comment.Normal

/-!
# Clean names and texts

Names that every phrase can carry: small letters, digits, underscores and points, none of the words
that lists are taken apart by, and no word that separates instructions. Each character of such a name
is passed on as it is by all passes over a comment, which is checked here once for the 38 of them.
-/

namespace TeamOrders

open Text

def plainChars : List Char :=
  ['a', 'b', 'c', 'd', 'e', 'f', 'g', 'h', 'i', 'j', 'k', 'l', 'm', 'n', 'o', 'p', 'q', 'r', 's',
    't', 'u', 'v', 'w', 'x', 'y', 'z', '0', '1', '2', '3', '4', '5', '6', '7', '8', '9', '_', '.']

/-- The word stands somewhere in the text, with no word character before or behind it. -/
def HoldsWord (word s : List Char) : Prop :=
  ∃ before after, s = before ++ (word ++ after) ∧ endsInWord before.getLast? = false ∧
    startsInWord after = false

theorem holdsWord_iff {word s : List Char} : HoldsWord word s ↔ ∃ i < s.length + 1,
    word <+: s.drop i ∧ endsInWord (s.take i).getLast? = false ∧
      startsInWord (s.drop (i + word.length)) = false := by
  constructor
  · rintro ⟨before, after, rfl, hbefore, hafter⟩
    refine ⟨before.length, ?_, ?_, ?_, ?_⟩
    · rw [List.length_append]
      omega
    · rw [List.drop_left]
      exact List.prefix_append word after
    · rwa [List.take_left]
    · rwa [← List.append_assoc, ← List.length_append, List.drop_left]
  · rintro ⟨i, -, ⟨after, hword⟩, hbefore, hafter⟩
    refine ⟨s.take i, after, ?_, hbefore, ?_⟩
    · rw [hword, List.take_append_drop]
    · rwa [← List.drop_drop, ← hword, List.drop_left] at hafter

instance {word s : List Char} : Decidable (HoldsWord word s) :=
  decidable_of_iff _ holdsWord_iff.symm

/-- A word of a text: it is not blank, and no separator is part of it. -/
structure PlainWord where
  chars : List Char
  nonempty : chars ≠ []
  plain : ∀ c ∈ chars, c ∈ plainChars
  noThen : ¬ HoldsWord "then".toList chars
  noAlso : ¬ HoldsWord "also".toList chars

def listWords : List (List Char) :=
  ["team", "teams", "task", "tasks", "and", "or"].map String.toList

/-- A name that no list takes apart. -/
structure CleanName extends PlainWord where
  named : chars ∉ listWords

def CleanName.text (name : CleanName) : String := String.ofList name.chars

/-- A name that passes the tests for a clean one. -/
def CleanName.ofText (s : String)
    (h : s.toList ≠ [] ∧ (s.toList.all fun c => decide (c ∈ plainChars)) = true ∧
      ¬ HoldsWord "then".toList s.toList ∧ ¬ HoldsWord "also".toList s.toList ∧
      s.toList ∉ listWords) : CleanName where
  chars := s.toList
  nonempty := h.1
  plain := List.all_iff_forall_prop.mp h.2.1
  noThen := h.2.2.1
  noAlso := h.2.2.2.1
  named := h.2.2.2.2

structure NameList where
  names : List CleanName
  nonempty : names ≠ []
  distinct : (names.map (·.chars)).Nodup

/-- Words with single blanks between them. -/
structure CleanText where
  words : List PlainWord
  nonempty : words ≠ []

def CleanText.chars (text : CleanText) : List Char :=
  [' '].intercalate (text.words.map (·.chars))

def CleanText.text (text : CleanText) : String := String.ofList text.chars

/-! ### Characters -/

variable {c : Char}

-- Checked through `List.all`: a statement on all characters would be decided on every one there is.
theorem isBlank_of_plain : ∀ c ∈ plainChars, isBlank c = false :=
  List.all_iff_forall_prop.mp (by decide)

theorem isNameChar_of_plain : ∀ c ∈ plainChars, Phrase.isNameChar c = true :=
  List.all_iff_forall_prop.mp (by decide)

theorem separatesItems_of_plain : ∀ c ∈ plainChars, Roster.separatesItems c = false :=
  List.all_iff_forall_prop.mp (by decide)

theorem ne_mark_of_plain : ∀ c ∈ plainChars, c ≠ '#' ∧ c ≠ '"' ∧ c ≠ '-' ∧ c ≠ '\n' :=
  List.all_iff_forall_prop.mp (by decide)

def sentenceChars : List Char := ' ' :: ',' :: plainChars

theorem not_isFancyQuote_of_sentence : ∀ c ∈ sentenceChars, Comment.isFancyQuote c = false :=
  List.all_iff_forall_prop.mp (by decide)

theorem not_isSingleQuote_of_sentence : ∀ c ∈ sentenceChars, Comment.isSingleQuote c = false :=
  List.all_iff_forall_prop.mp (by decide)

theorem ne_mark_of_sentence : ∀ c ∈ sentenceChars, c ≠ '#' ∧ c ≠ '-' ∧ c ≠ ';' :=
  List.all_iff_forall_prop.mp (by decide)

theorem toLower_of_sentence : ∀ c ∈ sentenceChars, c.toLower = c :=
  List.all_iff_forall_prop.mp (by decide)

theorem isSmall_of_sentence : ∀ c ∈ sentenceChars, IsSmall c := by
  have hchecked : ∀ c ∈ sentenceChars, c ≠ 'Σ' ∧ lowerChar c = [c] :=
    List.all_iff_forall_prop.mp (by decide)
  exact hchecked

/-- In a sentence, only a letter itself is taken for it. -/
theorem foldsTo_iff_of_sentence (letter : Char) (h : c ∈ sentenceChars) :
    foldsTo letter c = true ↔ c = letter := by
  have hspecial : ∀ c ∈ sentenceChars, c ≠ 'ſ' ∧ c ≠ '\u212a' :=
    List.all_iff_forall_prop.mp (by decide)
  obtain ⟨hs, hk⟩ := hspecial c h
  simp [foldsTo, toLower_of_sentence c h, hs, hk]

/-! ### Words across a joint -/

theorem endsInWord_append (s : List Char) {t : List Char} (ht : t ≠ []) :
    endsInWord (s ++ t).getLast? = endsInWord t.getLast? := by
  obtain ⟨last, hlast⟩ := Option.ne_none_iff_exists'.mp (mt List.getLast?_eq_none_iff.mp ht)
  rw [List.getLast?_append, hlast]
  rfl

theorem startsInWord_of_word {s : List Char} (hs : s ≠ []) (h : ∀ c ∈ s, isWord c = true) :
    startsInWord s = true := by
  obtain ⟨c, rest, rfl⟩ := List.exists_cons_of_ne_nil hs
  exact h c List.mem_cons_self

theorem endsInWord_of_word {s : List Char} (hs : s ≠ []) (h : ∀ c ∈ s, isWord c = true) :
    endsInWord s.getLast? = true := by
  rw [List.getLast?_eq_some_getLast hs]
  exact h _ (List.getLast_mem hs)

/-- A word cannot lie across a place where a word character is missing on one of the two sides. -/
theorem holdsWord_append {word s t : List Char} (hword : ∀ c ∈ word, isWord c = true)
    (joint : endsInWord s.getLast? = false ∨ startsInWord t = false)
    (h : HoldsWord word (s ++ t)) : HoldsWord word s ∨ HoldsWord word t := by
  obtain ⟨before, after, heq, hbefore, hafter⟩ := h
  rcases List.append_eq_append_iff.mp heq with ⟨cut, rfl, rfl⟩ | ⟨cut, rfl, hcut⟩
  · refine .inr ⟨cut, after, rfl, ?_, hafter⟩
    by_cases hne : cut = []
    · rw [hne]
      rfl
    · rwa [endsInWord_append s hne] at hbefore
  · rcases List.append_eq_append_iff.mp hcut with ⟨within, rfl, rfl⟩ | ⟨within, rfl, rfl⟩
    · refine .inl ⟨before, within, rfl, hbefore, ?_⟩
      by_cases hne : within = []
      · rw [hne]
        rfl
      · rwa [startsInWord_append_left hne] at hafter
    · by_cases hwithin : within = []
      · rw [hwithin, List.append_nil]
        exact .inl ⟨before, [], by simp, hbefore, rfl⟩
      · by_cases hcut : cut = []
        · rw [hcut, List.nil_append]
          exact .inr ⟨[], after, rfl, rfl, hafter⟩
        · exfalso
          have hends : endsInWord (before ++ cut).getLast? = true := by
            rw [endsInWord_append before hcut]
            exact endsInWord_of_word hcut fun c hc => hword c (List.mem_append_left _ hc)
          have hstarts : startsInWord (within ++ after) = true := by
            rw [startsInWord_append_left hwithin]
            exact startsInWord_of_word hwithin fun c hc => hword c (List.mem_append_right _ hc)
          rcases joint with joint | joint
          · rw [hends] at joint
            cases joint
          · rw [hstarts] at joint
            cases joint

end TeamOrders
