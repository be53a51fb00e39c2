import Mathlib.Data.List.Forall2
import TeamOrders.Text.Fold

/-!
# Recognising a word does not look past its end

Dropping a word reads as many characters as the word has. So what comes later in a text has no part
in it, as long as it does not go on with a letter of the word.
-/

namespace TeamOrders.Text

variable {word s t rest : List Char}

/-- A text starts with no form of a letter of the word, if it starts with anything. -/
def Foreign (word t : List Char) : Prop :=
  ∀ c ∈ t.head?, ∀ letter ∈ word, foldsTo letter c = false

theorem Foreign.tail {letter : Char} (h : Foreign (letter :: word) t) : Foreign word t := by
  intro c hc other hother
  exact h c hc other (List.mem_cons_of_mem letter hother)

theorem dropWord_append (s : List Char) (h : Foreign word t) :
    dropWord word (s ++ t) = (dropWord word s).map (· ++ t) := by
  induction word generalizing s with
  | nil => rfl
  | cons letter word ih =>
    cases s with
    | nil =>
      cases t with
      | nil => rfl
      | cons c t =>
        have hc : foldsTo letter c = false := h c rfl letter List.mem_cons_self
        simp [dropWord, hc]
    | cons c s =>
      simp only [List.cons_append, dropWord]
      split
      · exact ih s h.tail
      · rfl

theorem dropWord_eq_none (h : Foreign word t) (hword : word ≠ []) : dropWord word t = none := by
  obtain ⟨letter, tail, rfl⟩ := List.exists_cons_of_ne_nil hword
  simpa [dropWord] using dropWord_append [] h

/-! ### Words as they are spelt -/

/-- The characters are those of a word in small letters, whatever their case. -/
def Spells (word spelt : List Char) : Prop :=
  List.Forall₂ (fun letter c => foldsTo letter c = true) word spelt

theorem Spells.length_eq {spelt : List Char} (h : Spells word spelt) : spelt.length = word.length :=
  (List.Forall₂.length_eq h).symm

theorem dropWord_eq_some_iff :
    dropWord word s = some rest ↔ ∃ spelt, Spells word spelt ∧ s = spelt ++ rest := by
  induction word generalizing s with
  | nil =>
    constructor
    · intro h
      exact ⟨[], .nil, Option.some.inj h⟩
    · rintro ⟨_, h, rfl⟩
      cases h
      rfl
  | cons letter word ih =>
    constructor
    · intro h
      cases s with
      | nil => cases h
      | cons c s =>
        rw [dropWord] at h
        split at h
        · rename_i hletter
          obtain ⟨spelt, hspelt, rfl⟩ := ih.mp h
          exact ⟨c :: spelt, .cons hletter hspelt, rfl⟩
        · cases h
    · rintro ⟨_, hspells, rfl⟩
      obtain ⟨c, spelt, hletter, hspelt, rfl⟩ := List.forall₂_cons_left_iff.mp hspells
      rw [List.cons_append, dropWord, if_pos hletter]
      exact ih.mpr ⟨spelt, hspelt, rfl⟩

theorem suffix_of_dropWord (h : dropWord word s = some rest) : rest <:+ s := by
  obtain ⟨spelt, -, rfl⟩ := dropWord_eq_some_iff.mp h
  exact List.suffix_append spelt rest

/-! ### Words and white space -/

def apart (ranges others : List CodeRange) : Bool :=
  ranges.all fun range => others.all fun other => range.2.blt other.1 || other.2.blt range.1

theorem inRanges_of_apart {ranges others : List CodeRange} {c : Char}
    (hapart : apart ranges others = true) (h : inRanges ranges c = true) :
    inRanges others c = false := by
  obtain ⟨range, hrange, hbounds⟩ := List.any_eq_true.mp h
  refine List.any_eq_false.mpr fun other hother hin => ?_
  have hsides := List.all_eq_true.mp (List.all_eq_true.mp hapart range hrange) other hother
  simp only [Bool.and_eq_true, Bool.or_eq_true, decide_eq_true_eq, Nat.blt_eq] at hbounds hin hsides
  omega

theorem between_iff {first last c : Char} : first.val ≤ c.val ∧ c.val ≤ last.val ↔
    first.toNat ≤ c.toNat ∧ c.toNat ≤ last.toNat := by
  rw [UInt32.le_iff_toNat_le, UInt32.le_iff_toNat_le]
  rfl

theorem isUpper_iff {c : Char} : c.isUpper = true ↔ 65 ≤ c.toNat ∧ c.toNat ≤ 90 :=
  decide_eq_true_iff.trans (@between_iff 'A' 'Z' c)

theorem isLower_iff {c : Char} : c.isLower = true ↔ 97 ≤ c.toNat ∧ c.toNat ≤ 122 := by
  change (decide ('a'.val ≤ c.val) && decide (c.val ≤ 'z'.val)) = true ↔ _
  rw [Bool.and_eq_true, decide_eq_true_iff, decide_eq_true_iff]
  exact @between_iff 'a' 'z' c

theorem isDigit_iff {c : Char} : c.isDigit = true ↔ 48 ≤ c.toNat ∧ c.toNat ≤ 57 := by
  change (decide ('0'.val ≤ c.val) && decide (c.val ≤ '9'.val)) = true ↔ _
  rw [Bool.and_eq_true, decide_eq_true_iff, decide_eq_true_iff]
  exact @between_iff '0' '9' c

theorem isAlpha_iff {c : Char} : c.isAlpha = true ↔ c.isUpper = true ∨ c.isLower = true :=
  Bool.or_eq_true_iff

def signRanges : List CodeRange := digitRanges ++ (markRanges ++ joinerRanges)

theorem inRanges_append (ranges others : List CodeRange) (c : Char) :
    inRanges (ranges ++ others) c = (inRanges ranges c || inRanges others c) :=
  List.any_append

theorem isWord_eq_of_not_ascii {c : Char} (hc : 0x80 ≤ c.toNat) : isWord c =
    (inRanges alphabeticRanges c && !inRanges recentRanges c || inRanges signRanges c) := by
  rw [isWord, if_neg (by omega), signRanges, inRanges_append, inRanges_append, Bool.or_assoc,
    Bool.or_assoc, isDigit]

/-- The characters of words are letters or signs, and the ASCII ones are in the same tables. -/
theorem inRanges_of_isWord {c : Char} (h : isWord c = true) :
    inRanges (alphabeticRanges ++ signRanges) c = true := by
  by_cases hascii : c.toNat < 0x80
  · rw [isWord, if_pos hascii, Char.isAlphanum, Bool.or_eq_true, Bool.or_eq_true, isAlpha_iff,
      isUpper_iff, isLower_iff, isDigit_iff, beq_iff_eq] at h
    suffices hrange : ∃ range ∈ alphabeticRanges ++ signRanges,
        range.1 ≤ c.toNat ∧ c.toNat ≤ range.2 by
      obtain ⟨range, hmem, hbounds⟩ := hrange
      exact List.any_eq_true.mpr ⟨range, hmem, by simpa using hbounds⟩
    rcases h with ((h | h) | h) | rfl
    · exact ⟨(0x41, 0x5A), List.mem_append_left _ List.mem_cons_self, h⟩
    · exact ⟨(0x61, 0x7A), List.mem_append_left _ (List.mem_cons_of_mem _ List.mem_cons_self), h⟩
    · exact ⟨(0x30, 0x39), List.mem_append_right _ (List.mem_append_left _ List.mem_cons_self), h⟩
    · exact ⟨(0x5F, 0x5F), List.mem_append_right _ (List.mem_append_right _
        (List.mem_append_right _ List.mem_cons_self)), by decide⟩
  · rw [isWord_eq_of_not_ascii (by omega), Bool.or_eq_true, Bool.and_eq_true] at h
    rw [inRanges_append, Bool.or_eq_true]
    exact h.imp_left (·.1)

def gapRanges : List CodeRange := (0xAB, 0xAB) :: (0xBB, 0xBB) :: (0x2018, 0x201F) :: blankRanges

theorem gaps_apart_from_words : apart gapRanges (alphabeticRanges ++ signRanges) = true := by
  decide +kernel

theorem isWord_of_gap {c : Char} (h : inRanges gapRanges c = true) : isWord c = false := by
  have hout := inRanges_of_apart gaps_apart_from_words h
  rw [Bool.eq_false_iff]
  intro hword
  rw [inRanges_of_isWord hword] at hout
  cases hout

theorem isWord_of_isBlank {c : Char} (h : isBlank c = true) : isWord c = false := by
  obtain ⟨range, hrange, hbounds⟩ := List.any_eq_true.mp h
  exact isWord_of_gap (List.any_eq_true.mpr ⟨range, List.mem_cons_of_mem _
    (List.mem_cons_of_mem _ (List.mem_cons_of_mem _ hrange)), hbounds⟩)

theorem isBlank_of_isWord {c : Char} (h : isWord c = true) : isBlank c = false := by
  rw [Bool.eq_false_iff]
  intro hblank
  rw [isWord_of_isBlank hblank] at h
  cases h

/-- The character belongs to no word, which is told without the long tables. -/
def standsOff (c : Char) : Bool := if c.toNat < 0x80 then !isWord c else inRanges gapRanges c

theorem all_not_isWord {chars : List Char} (h : chars.all standsOff = true) :
    (chars.all fun c => !isWord c) = true := by
  refine List.all_eq_true.mpr fun c hc => ?_
  have hoff := List.all_eq_true.mp h c hc
  unfold standsOff at hoff
  split at hoff
  · exact hoff
  · rw [isWord_of_gap hoff, Bool.not_false]

theorem isWord_of_isAlpha {c : Char} (h : c.isAlpha = true) : isWord c = true := by
  have hcode := isAlpha_iff.mp h
  rw [isUpper_iff, isLower_iff] at hcode
  rw [isWord, if_pos (by omega), Char.isAlphanum, h, Bool.true_or, Bool.true_or]

theorem toLower_of_not_isUpper {c : Char} (h : c.isUpper = false) : c.toLower = c := by
  unfold Char.toLower
  split
  · rename_i hcapital
    exact absurd hcapital (decide_eq_false_iff_not.mp h)
  · rfl

theorem isUpper_toLower (c : Char) : c.toLower.isUpper = false := by
  have hcapitals : ∀ n < 91, 65 ≤ n → (Char.ofNat n).toLower.isUpper = false := by decide
  cases hupper : c.isUpper with
  | false => rw [toLower_of_not_isUpper hupper, hupper]
  | true =>
    have hcode := isUpper_iff.mp hupper
    rw [← Char.ofNat_toNat c]
    exact hcapitals _ (by omega) hcode.1

theorem isWord_of_foldsTo {letter c : Char} (hletter : letter.isLower = true)
    (h : foldsTo letter c = true) : isWord c = true := by
  simp only [foldsTo, Bool.or_eq_true, Bool.and_eq_true, beq_iff_eq, or_assoc] at h
  rcases h with rfl | ⟨-, rfl⟩ | ⟨-, rfl⟩
  · apply isWord_of_isAlpha
    cases hupper : c.isUpper with
    | true => exact isAlpha_iff.mpr (.inl hupper)
    | false => exact isAlpha_iff.mpr (.inr (toLower_of_not_isUpper hupper ▸ hletter))
  · decide
  · decide +kernel

theorem Spells.isWord {spelt : List Char} (h : Spells word spelt)
    (hword : ∀ letter ∈ word, letter.isLower = true) : ∀ c ∈ spelt, isWord c = true := by
  induction h with
  | nil => exact List.forall_mem_nil _
  | cons hletter _ ih =>
    obtain ⟨hfirst, hrest⟩ := List.forall_mem_cons.mp hword
    exact List.forall_mem_cons.mpr ⟨isWord_of_foldsTo hfirst hletter, ih hrest⟩

/-- A text that goes on with a word starts in one. -/
theorem Spells.startsInWord {spelt : List Char} (h : Spells word spelt) (hne : word ≠ [])
    (hword : ∀ letter ∈ word, letter.isLower = true) (rest : List Char) :
    startsInWord (spelt ++ rest) = true := by
  obtain ⟨letter, word, rfl⟩ := List.exists_cons_of_ne_nil hne
  obtain ⟨c, spelt, hletter, -, rfl⟩ := List.forall₂_cons_left_iff.mp h
  exact isWord_of_foldsTo (hword letter List.mem_cons_self) hletter

theorem Spells.endsInWord {spelt : List Char} (h : Spells word spelt) (hne : word ≠ [])
    (hword : ∀ letter ∈ word, letter.isLower = true) (before : List Char) (start : Option Char) :
    endsInWord ((before ++ spelt).getLast?.or start) = true := by
  have hspelt : spelt ≠ [] := fun hnil => hne (List.forall₂_nil_right_iff.mp (hnil ▸ h))
  rw [List.getLast?_append, List.getLast?_eq_some_getLast hspelt]
  exact h.isWord hword _ (List.getLast_mem hspelt)

theorem endsInWord_of_not_word {c : Char} (h : isWord c = false) : endsInWord (some c) = false := by
  simp [endsInWord, h]

theorem endsInWord_of_blanks (hblanks : ∀ c ∈ s, isBlank c = true) (hne : s ≠ [])
    (before : Option Char) : endsInWord (s.getLast?.or before) = false := by
  rw [List.getLast?_eq_some_getLast hne]
  exact isWord_of_isBlank (hblanks _ (List.getLast_mem hne))

theorem startsInWord_append_left (hne : s ≠ []) (t : List Char) :
    startsInWord (s ++ t) = startsInWord s := by
  obtain ⟨c, rest, rfl⟩ := List.exists_cons_of_ne_nil hne
  rfl

theorem startsInWord_append (s : List Char) (h : ∀ c ∈ t.head?, isWord c = false) :
    startsInWord (s ++ t) = startsInWord s := by
  cases s with
  | nil =>
    cases t with
    | nil => rfl
    | cons c t =>
      have hc : isWord c = false := h c rfl
      simp [startsInWord, hc]
  | cons c s => rfl

end TeamOrders.Text
