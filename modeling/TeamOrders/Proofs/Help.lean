import Mathlib.Data.List.Nodup
import TeamOrders.Help
import TeamOrders.Proofs.Roster.Items
import TeamOrders.Proofs.Spelling.EditDistance
import TeamOrders.Proofs.Text.Fold

/-!
# Hints for misspelt keywords

A slip of one key takes a letter out of a keyword, puts one in or replaces one, or swaps two neighbours. Each
of the first three is a single edit, and a word at distance one points to a keyword of more than three letters.
A swap of two different neighbours is two edits, so the swapped word does not point to the keyword, and the
kind is hinted at only if another word or another keyword does it.
-/

namespace TeamOrders

open Text

namespace Spelling

variable {s t : List Char}

/-! ### Slips -/

/-- Two neighbours, which are different, are swapped. -/
inductive Swap : List Char → List Char → Prop where
  | swap (before : List Char) (c d : Char) (after : List Char) (different : c ≠ d) :
    Swap (before ++ c :: d :: after) (before ++ d :: c :: after)

/-- An edit that keeps the length changes what stands at a single place. -/
theorem Edit.exists_place (h : Edit s t) (hlength : s.length = t.length) :
    ∃ place : Nat, ∀ other : Nat, other ≠ place → s[other]? = t[other]? := by
  cases h with
  | insert before c after =>
    simp only [List.length_append, List.length_cons] at hlength
    omega
  | delete before c after =>
    simp only [List.length_append, List.length_cons] at hlength
    omega
  | replace before c d after =>
    refine ⟨before.length, fun other hother => ?_⟩
    have hset : before ++ d :: after = (before ++ c :: after).set before.length d := by simp
    rw [hset, List.getElem?_set_ne (Ne.symm hother)]

theorem Swap.length_eq (h : Swap s t) : s.length = t.length := by
  cases h
  simp

theorem Swap.ne (h : Swap s t) : s ≠ t := by
  cases h with
  | swap before c d after different =>
    intro hsame
    exact different (List.cons.inj (List.append_cancel_left hsame)).1

/-- A swap changes what stands at two places, so it is no single edit. -/
theorem Swap.not_edit (h : Swap s t) : ¬ Edit s t := by
  intro hedit
  obtain ⟨place, hplace⟩ := hedit.exists_place h.length_eq
  cases h with
  | swap before c d after different =>
    have hfirst : before.length = place := by
      by_contra hother
      have hsame := hplace before.length hother
      rw [List.getElem?_append_right (Nat.le_refl _), List.getElem?_append_right (Nat.le_refl _),
        Nat.sub_self] at hsame
      exact different (Option.some.inj hsame)
    have hsecond : before.length + 1 = place := by
      by_contra hother
      have hsame := hplace (before.length + 1) hother
      rw [List.getElem?_append_right (Nat.le_add_right _ 1),
        List.getElem?_append_right (Nat.le_add_right _ 1), Nat.add_sub_cancel_left] at hsame
      exact different (Option.some.inj hsame).symm
    omega

theorem editDistance_le_one_iff : editDistance s t ≤ 1 ↔ s = t ∨ Edit s t := by
  constructor
  · intro h
    have hedits := edits_editDistance s t
    rcases Nat.le_one_iff_eq_zero_or_eq_one.mp h with hzero | hone
    · exact .inl ((editDistance_eq_zero_iff s t).mp hzero)
    · rw [hone] at hedits
      cases hedits with
      | more first rest =>
        cases rest
        exact .inr first
  · rintro (rfl | hedit)
    · rw [editDistance_self]
      exact Nat.zero_le 1
    · exact hedit.editDistance_le

theorem Swap.editDistance_eq (h : Swap s t) : editDistance s t = 2 := by
  have hmore : ¬ editDistance s t ≤ 1 := by
    rw [editDistance_le_one_iff]
    rintro (hsame | hedit)
    · exact h.ne hsame
    · exact h.not_edit hedit
  cases h with
  | swap before c d after different =>
    have hsecond := Edit.replace (before ++ [d]) d c after
    rw [List.append_assoc, List.append_assoc] at hsecond
    have htwo : Edits 2 (before ++ c :: d :: after) (before ++ d :: c :: after) :=
      .more (.replace before c d (d :: after)) (.more hsecond (.none _))
    have hle := htwo.editDistance_le
    omega

end Spelling

namespace Help

open Spelling

variable {entry : HelpEntry} {keyword : String} {word segment : List Char}

/-! ### Words -/

/-- The word stands in the text between blanks, or at its ends. -/
def StandsIn (word s : List Char) : Prop :=
  ∃ front back, s = front ++ (word ++ back) ∧ (∀ c ∈ front.getLast?, c = ' ') ∧
    ∀ c ∈ back.head?, c = ' '

theorem StandsIn.mem_fields {separates : Char → Bool} (h : StandsIn word segment)
    (hblank : separates ' ' = true) (hword : ∀ c ∈ word, separates c = false) :
    word ∈ fields separates segment := by
  obtain ⟨front, back, rfl, hfront, hback⟩ := h
  have hrest : word ∈ fields separates (word ++ back) := by
    cases back with
    | nil => rw [List.append_nil, Roster.fields_of_none hword]; exact List.mem_singleton_self word
    | cons c back =>
      obtain rfl := hback c rfl
      rw [Roster.fields_cut hword hblank]
      exact List.mem_cons_self
  rcases List.eq_nil_or_concat front with rfl | ⟨start, last, rfl⟩
  · exact hrest
  · rw [List.concat_eq_append] at hfront ⊢
    obtain rfl := hfront last List.getLast?_concat
    rw [List.append_assoc, List.singleton_append, Roster.fields_append hblank]
    exact List.mem_append_right _ hrest

/-- No character takes less than a byte. -/
theorem length_le_utf8ByteSize (s : List Char) : s.length ≤ (String.ofList s).utf8ByteSize := by
  induction s with
  | nil => exact Nat.zero_le _
  | cons c s ih =>
    have hsize := c.utf8Size_pos
    rw [String.ofList_cons, String.utf8ByteSize_append, String.utf8ByteSize_singleton, List.length_cons]
    omega

theorem isAlphanumeric_of_isLower {c : Char} (h : c.isLower = true) : isAlphanumeric c = true := by
  have hcode := isLower_iff.mp h
  have halpha : c.isAlpha = true := isAlpha_iff.mpr (.inr h)
  rw [isAlphanumeric, if_pos (by omega), Char.isAlphanum, halpha, Bool.true_or]

theorem StandsIn.mem_words (h : StandsIn word segment) (hsmall : ∀ c ∈ word, c.isLower = true)
    (hlong : 1 < word.length) : word ∈ words segment := by
  refine List.mem_filter.mpr ⟨h.mem_fields (by decide) fun c hc => ?_, ?_⟩
  · rw [isAlphanumeric_of_isLower (hsmall c hc), Bool.not_true]
  · exact decide_eq_true (hlong.trans_le (length_le_utf8ByteSize word))

/-! ### Hints -/

/-- A word of the text points to a keyword of the entry, where near misses count. -/
def PointedTo (entry : HelpEntry) (segment : List Char) : Prop :=
  ∃ word ∈ words segment, ∃ keyword ∈ entry.keywords, pointsTo true word keyword.toList = true

/-- The hints are three templates of entries that stand before this one. -/
def CrowdedOut (entry : HelpEntry) (segment : List Char) : Prop :=
  ∃ earlier later three : List HelpEntry, entries = earlier ++ entry :: later ∧ three.Sublist earlier ∧
    three.length = maxHints ∧ hints true segment = three.map (·.template)

theorem nodup_templates : (entries.map (·.template)).Nodup := by decide

theorem hints_eq (segment : List Char) : ∃ pointed : HelpEntry → Bool,
    (∀ entry, pointed entry = true ↔ PointedTo entry segment) ∧
    hints true segment = ((entries.filter pointed).take maxHints).map (·.template) := by
  refine ⟨_, fun entry => ?_, rfl⟩
  simp only [List.any_eq_true]
  constructor
  · rintro ⟨keyword, hkeyword, word, hword, hpoints⟩
    exact ⟨word, hword, keyword, hkeyword, hpoints⟩
  · rintro ⟨word, hword, keyword, hkeyword, hpoints⟩
    exact ⟨keyword, hkeyword, word, hword, hpoints⟩

theorem PointedTo.of_template_mem (hentry : entry ∈ entries)
    (h : entry.template ∈ hints true segment) : PointedTo entry segment := by
  obtain ⟨pointed, hpointed, hhints⟩ := hints_eq segment
  rw [hhints] at h
  obtain ⟨other, hother, hsame⟩ := List.mem_map.mp h
  have hfiltered := List.mem_filter.mp (List.mem_of_mem_take hother)
  obtain rfl : other = entry := List.inj_on_of_nodup_map nodup_templates hfiltered.1 hentry hsame
  exact (hpointed other).mp hfiltered.2

/-- An entry that is pointed to gives a hint, unless three before it do. -/
theorem PointedTo.template_mem (hentry : entry ∈ entries) (h : PointedTo entry segment) :
    entry.template ∈ hints true segment ∨ CrowdedOut entry segment := by
  obtain ⟨pointed, hpointed, hhints⟩ := hints_eq segment
  obtain ⟨earlier, later, hsplit⟩ := List.append_of_mem hentry
  have hfilter : entries.filter pointed = earlier.filter pointed ++ entry :: later.filter pointed := by
    rw [hsplit, List.filter_append, List.filter_cons_of_pos ((hpointed entry).mpr h)]
  rw [hfilter] at hhints
  rcases Nat.lt_or_ge (earlier.filter pointed).length maxHints with hfew | hmany
  · left
    rw [hhints, List.take_append]
    obtain ⟨room, hroom⟩ : ∃ room, maxHints - (earlier.filter pointed).length = room + 1 :=
      ⟨maxHints - (earlier.filter pointed).length - 1, by omega⟩
    rw [hroom, List.take_succ_cons]
    exact List.mem_map_of_mem (List.mem_append_right _ List.mem_cons_self)
  · right
    rw [List.take_append_of_le_length hmany] at hhints
    exact ⟨earlier, later, _, hsplit, (List.take_sublist _ _).trans List.filter_sublist,
      List.length_take_of_le hmany, hhints⟩

/-- The entry gives a hint, or three entries before it do. -/
def Hinted (entry : HelpEntry) (segment : List Char) : Prop :=
  entry.template ∈ hints true segment ∨ CrowdedOut entry segment

theorem hinted_iff (hentry : entry ∈ entries) :
    Hinted entry segment ↔ CrowdedOut entry segment ∨ PointedTo entry segment := by
  constructor
  · rintro (hmem | hcrowded)
    · exact .inr (.of_template_mem hentry hmem)
    · exact .inl hcrowded
  · rintro (hcrowded | hpointed)
    · exact .inr hcrowded
    · exact hpointed.template_mem hentry

theorem pointsTo_iff : pointsTo true word keyword.toList = true ↔
    keyword.toList <+: word ∨ 3 < keyword.length ∧ editDistance keyword.toList word ≤ 1 := by
  rw [pointsTo, Bool.true_and, Bool.or_eq_true, Bool.and_eq_true, List.isPrefixOf_iff_prefix,
    decide_eq_true_iff, decide_eq_true_iff, String.length_toList, distance_eq_editDistance,
    editDistance_comm]

theorem not_pointsTo_of_swap (h : Swap keyword.toList word) :
    pointsTo true word keyword.toList ≠ true := by
  rw [ne_eq, pointsTo_iff, h.editDistance_eq]
  rintro (hstarts | ⟨-, hnear⟩)
  · exact h.ne (hstarts.eq_of_length h.length_eq)
  · omega

/-- The word stands in the segment for a keyword of more than three letters. If it was misspelt by one edit,
the entry of the keyword gives a hint or three entries before it do. If two neighbours were swapped, the word
is two edits away, and the entry gives a hint exactly if another word or another keyword of it makes it do so. -/
theorem hinted_of_slip (hentry : entry ∈ entries) (hkeyword : keyword ∈ entry.keywords)
    (hlong : 3 < keyword.length) (hsmall : ∀ c ∈ word, c.isLower = true)
    (hstands : StandsIn word segment) :
    (Edit keyword.toList word → Hinted entry segment) ∧
    (Swap keyword.toList word → distance word keyword.toList = 2 ∧
      (Hinted entry segment ↔ CrowdedOut entry segment ∨
        ∃ other ∈ words segment, ∃ key ∈ entry.keywords, (other, key) ≠ (word, keyword) ∧
          pointsTo true other key.toList = true)) := by
  constructor
  · intro hedit
    have hletters : 1 < word.length := by
      have hlength := length_le_add_editDistance word keyword.toList
      have hdistance := hedit.editDistance_le
      rw [editDistance_comm, String.length_toList] at hlength
      omega
    exact (hinted_iff hentry).mpr (.inr
      ⟨word, hstands.mem_words hsmall hletters, keyword, hkeyword,
        pointsTo_iff.mpr (.inr ⟨hlong, hedit.editDistance_le⟩)⟩)
  · intro hswap
    refine ⟨by rw [distance_eq_editDistance, editDistance_comm, hswap.editDistance_eq], ?_⟩
    rw [hinted_iff hentry]
    refine or_congr_right ⟨?_, ?_⟩
    · rintro ⟨other, hother, key, hkey, hpoints⟩
      refine ⟨other, hother, key, hkey, ?_, hpoints⟩
      intro hsame
      obtain ⟨rfl, rfl⟩ := Prod.mk.inj hsame
      exact not_pointsTo_of_swap hswap hpoints
    · rintro ⟨other, hother, key, hkey, -, hpoints⟩
      exact ⟨other, hother, key, hkey, hpoints⟩

/-- Four kinds are hinted at, of which three are told. -/
theorem hinted_of_slip_behind_three :
    let segment := "strt, asign, mve and blok".toList
    ∃ entry ∈ entries, "block" ∈ entry.keywords ∧ 3 < "block".length ∧
      Edit "block".toList "blok".toList ∧ ("blok".toList.all fun c => c.isLower) = true ∧
      StandsIn "blok".toList segment ∧ entry.template ∉ hints true segment ∧
      CrowdedOut entry segment := by
  intro segment
  have htold : ∃ entry ∈ entries, "block" ∈ entry.keywords ∧ entry.template ∉ hints true segment := by
    decide +kernel
  obtain ⟨entry, hentry, hkeyword, hmissing⟩ := htold
  have hedit : Edit "block".toList "blok".toList := .delete ['b', 'l', 'o'] 'c' ['k']
  have hsmall : ("blok".toList.all fun c => c.isLower) = true := by decide
  have hlast : "strt, asign, mve and ".toList.getLast? = some ' ' := by decide +kernel
  have hstands : StandsIn "blok".toList segment :=
    ⟨"strt, asign, mve and ".toList, [], by decide +kernel,
      fun c hc => (Option.some.inj (hlast.symm.trans hc)).symm, nofun⟩
  have hlong : 3 < "block".length := by decide
  have hhinted := (hinted_of_slip hentry hkeyword hlong
    (fun c hc => List.all_eq_true.mp hsmall c hc) hstands).1 hedit
  exact ⟨entry, hentry, hkeyword, hlong, hedit, hsmall, hstands, hmissing,
    hhinted.resolve_left hmissing⟩

/-- A swap is no near miss: nobody is told how to block a team. -/
theorem swapped_keyword_gives_no_hint :
    let segment := "blcok team a".toList
    ∃ entry ∈ entries, "block" ∈ entry.keywords ∧ 3 < "block".length ∧
      Swap "block".toList "blcok".toList ∧ ("blcok".toList.all fun c => c.isLower) = true ∧
      StandsIn "blcok".toList segment ∧ hints true segment = [] ∧ ¬ Hinted entry segment := by
  intro segment
  have hkeyword : ∃ entry ∈ entries, "block" ∈ entry.keywords := by decide
  obtain ⟨entry, hentry, hkeyword⟩ := hkeyword
  have hnone : hints true segment = [] := by decide +kernel
  have hfirst : " team a".toList.head? = some ' ' := by decide
  have hstands : StandsIn "blcok".toList segment :=
    ⟨[], " team a".toList, by decide +kernel, nofun,
      fun c hc => (Option.some.inj (hfirst.symm.trans hc)).symm⟩
  refine ⟨entry, hentry, hkeyword, by decide, .swap ['b', 'l'] 'o' 'c' ['k'] (by decide), by decide,
    hstands, hnone, ?_⟩
  rintro (hmem | ⟨earlier, later, three, -, -, hthree, hhints⟩)
  · rw [hnone] at hmem
    cases hmem
  · rw [hnone] at hhints
    obtain rfl := List.map_eq_nil_iff.mp hhints.symm
    cases hthree

end Help

end TeamOrders
