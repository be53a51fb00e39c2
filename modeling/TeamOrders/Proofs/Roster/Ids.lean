import TeamOrders.Proofs.Number.Numeral
import TeamOrders.Proofs.Phrase.Slots
import TeamOrders.Proofs.Roster.Items
import TeamOrders.Proofs.Text.Lowercase

/-!
# The names of teams and tasks

A list that a phrase has matched holds small characters only. So its teams go by names that name the
same team when they are taken for a word, whole and in small letters, and its tasks by names without a
number sign in front.
-/

namespace TeamOrders.Roster

open Text Phrase

variable {s id item : List Char} {c : Char} {introducing : List (List Char)}

def isItemChar (c : Char) : Bool := isNameChar c || c == '#' || c == '&'

theorem isItemChar_of_isListChar (h : isListChar c = true) (hc : separatesItems c = false) :
    isItemChar c = true := by
  simp only [separatesItems, Bool.or_eq_false_iff] at hc
  simpa [isListChar, isItemChar, hc.1, hc.2, or_assoc] using h

theorem code_of_isItemChar (h : isItemChar c = true) :
    c.toNat = 35 ∨ c.toNat = 38 ∨ c.toNat = 45 ∨ c.toNat = 46 ∨ (48 ≤ c.toNat ∧ c.toNat ≤ 57) ∨
      c.toNat = 95 ∨ (97 ≤ c.toNat ∧ c.toNat ≤ 122) := by
  simp only [isItemChar, isNameChar, Bool.or_eq_true, Bool.and_eq_true, decide_eq_true_eq, beq_iff_eq,
    Char.le_def, UInt32.le_iff_toNat_le, or_assoc] at h
  rcases h with h | h | rfl | rfl | rfl | rfl | rfl
  · exact .inr (.inr (.inr (.inr (.inr (.inr h)))))
  · exact .inr (.inr (.inr (.inr (.inl h))))
  all_goals decide

theorem not_isBlank_of_isItemChar (h : isItemChar c = true) : isBlank c = false := by
  have hcode := code_of_isItemChar h
  simp only [isBlank, inRanges, blankRanges, List.any_cons, List.any_nil, Bool.or_eq_false_iff,
    Bool.and_eq_false_iff, decide_eq_false_iff_not, and_true]
  omega

theorem ne_of_isItemChar (h : isItemChar c = true) : c ≠ ',' ∧ c ≠ '"' := by
  have hcode := code_of_isItemChar h
  constructor
  · rintro rfl
    exact absurd hcode (by decide)
  · rintro rfl
    exact absurd hcode (by decide)

theorem not_separatesItems_of_isItemChar (h : isItemChar c = true) : separatesItems c = false := by
  simp [separatesItems, not_isBlank_of_isItemChar h, (ne_of_isItemChar h).1]

theorem toLower_of_isItemChar (h : isItemChar c = true) : c.toLower = c := by
  have hcode := code_of_isItemChar h
  have hcapital : ¬ (c.val ≥ 'A'.val ∧ c.val ≤ 'Z'.val) := by
    simp only [ge_iff_le, UInt32.le_iff_toNat_le]
    change ¬ (65 ≤ c.toNat ∧ c.toNat ≤ 90)
    omega
  unfold Char.toLower
  split
  · rename_i h'
    exact absurd h' (by simpa using hcapital)
  · rfl

theorem isSmall_of_isItemChar (h : isItemChar c = true) : IsSmall c := by
  have hcode := code_of_isItemChar h
  constructor
  · rintro rfl
    exact absurd hcode (by decide)
  · rw [lowerChar, if_pos (by omega), toLower_of_isItemChar h]

theorem isItemChar_of_isNameChar (h : isNameChar c = true) : isItemChar c = true := by
  simp [isItemChar, h]

/-! ### Items of a list -/

theorem isItemChar_of_mem_items (hs : ∀ c ∈ s, isListChar c = true)
    (h : item ∈ items introducing s) : ∀ c ∈ item, isItemChar c = true := by
  intro c hc
  obtain ⟨hmem, hseparates⟩ := (mem_of_mem_items h).2 c hc
  exact isItemChar_of_isListChar (hs c hmem) hseparates

theorem head?_of_mem_items (hs : ∀ c ∈ s, isListChar c = true) (h : item ∈ items introducing s) :
    ∀ c ∈ item.head?, c ≠ '#' := by
  rw [items_eq_itemsWithin] at h
  obtain ⟨field, hfield, rfl⟩ := List.mem_map.mp (List.mem_filter.mp h).1
  have hquote : '"' ∉ field := fun hmem =>
    absurd (hs _ (mem_of_mem_fields hfield _ hmem).1) (by decide)
  rw [bare_of_no_quote hquote]
  intro c hc
  simpa using head?_dropWhile_eq_false (· == '#') field c hc

/-! ### Teams -/

/-- The name of a team, as lists give it. -/
structure IsTeamId (id : List Char) : Prop where
  starts : teamPrefix <+: id
  chars : ∀ c ∈ id, isItemChar c = true

/-- In a word of item characters only number signs are taken off and the prefix is put on. -/
theorem teamName_of_item (h : ∀ c ∈ item, isItemChar c = true) :
    teamName item = if teamPrefix.isPrefixOf (trimStartBy (· == '#') item)
      then trimStartBy (· == '#') item else teamPrefix ++ trimStartBy (· == '#') item := by
  have htrimmed : IsTrimmed item :=
    ⟨fun c hc => not_isBlank_of_isItemChar (h c (List.mem_of_head? hc)),
      fun c hc => not_isBlank_of_isItemChar (h c (List.mem_of_getLast? hc))⟩
  have hsmall : lower (trimStartBy (· == '#') item) = trimStartBy (· == '#') item :=
    lower_eq_self fun c hc => isSmall_of_isItemChar (h c ((List.dropWhile_suffix _).subset hc))
  rw [teamName, trim_eq_self htrimmed, hsmall]

theorem starts_teamName (h : ∀ c ∈ item, isItemChar c = true) : teamPrefix <+: teamName item := by
  rw [teamName_of_item h]
  split
  · rename_i hstarts
    exact List.isPrefixOf_iff_prefix.mp hstarts
  · exact List.prefix_append teamPrefix _

theorem mem_of_mem_teamName (h : ∀ c ∈ item, isItemChar c = true) (hc : c ∈ teamName item) :
    c ∈ teamPrefix ∨ c ∈ item := by
  rw [teamName_of_item h] at hc
  split at hc
  · exact .inr ((List.dropWhile_suffix _).subset hc)
  · exact (List.mem_append.mp hc).imp_right fun hmem => (List.dropWhile_suffix _).subset hmem

/-- The names of teams are written in the characters of items, numerals and the prefix. -/
theorem starts_and_chars_of_mem_teams {P : Char → Prop} (hstarts : ∀ c ∈ teamPrefix, P c)
    (hdigits : ∀ c ∈ asciiDigits, P c) (hs : ∀ c ∈ s, isListChar c = true)
    (hitems : ∀ c ∈ s, separatesItems c = false → P c) (h : id ∈ teams s) :
    teamPrefix <+: id ∧ ∀ c ∈ id, P c := by
  rw [teams_eq_namedBy] at h
  rcases exists_of_mem_namedBy h with ⟨n, rfl⟩ | ⟨item, hitem, rfl⟩
  · exact ⟨List.prefix_append teamPrefix _, List.forall_mem_append.mpr
      ⟨hstarts, fun c hc => hdigits c (mem_asciiDigits_of_mem_numeral hc)⟩⟩
  · have hchars := isItemChar_of_mem_items hs hitem
    refine ⟨starts_teamName hchars, fun c hc => ?_⟩
    rcases mem_of_mem_teamName hchars hc with hc | hc
    · exact hstarts c hc
    · obtain ⟨hmem, hseparates⟩ := (mem_of_mem_items hitem).2 c hc
      exact hitems c hmem hseparates

theorem isTeamId_of_mem_teams (hs : ∀ c ∈ s, isListChar c = true) (h : id ∈ teams s) :
    IsTeamId id := by
  obtain ⟨hstarts, hchars⟩ := starts_and_chars_of_mem_teams
    (P := fun c => isItemChar c = true) (List.all_eq_true.mp rfl) (List.all_eq_true.mp rfl) hs
    (fun c hc hseparates => isItemChar_of_isListChar (hs c hc) hseparates) h
  exact ⟨hstarts, hchars⟩

theorem IsTeamId.teamName_eq (h : IsTeamId id) : teamName id = id := by
  obtain ⟨rest, rfl⟩ := h.starts
  rw [teamName_of_item h.chars]
  exact if_pos (List.isPrefixOf_iff_prefix.mpr (List.prefix_append teamPrefix rest))

theorem IsTeamId.toLower_eq (h : IsTeamId id) : id.map Char.toLower = id :=
  (List.map_congr_left fun c hc => toLower_of_isItemChar (h.chars c hc)).trans (List.map_id' id)

/-! ### Tasks -/

structure IsTaskId (id : List Char) : Prop where
  nonempty : id ≠ []
  unsigned : ∀ c ∈ id.head?, c ≠ '#'
  chars : ∀ c ∈ id, isItemChar c = true

theorem isTaskId_of_mem_tasks (hs : ∀ c ∈ s, isListChar c = true) (h : id ∈ tasks s) :
    IsTaskId id := by
  have hdigits : ∀ c ∈ asciiDigits, isItemChar c = true := List.all_eq_true.mp rfl
  have hsign : '#' ∉ asciiDigits := by decide
  rw [tasks_eq_namedBy] at h
  rcases exists_of_mem_namedBy h with ⟨n, rfl⟩ | ⟨item, hitem, rfl⟩
  · exact ⟨numeral_ne_nil n,
      fun c hc heq => hsign (heq ▸ mem_asciiDigits_of_mem_numeral (List.mem_of_head? hc)),
      fun c hc => hdigits c (mem_asciiDigits_of_mem_numeral hc)⟩
  · exact ⟨(mem_of_mem_items hitem).1, head?_of_mem_items hs hitem, isItemChar_of_mem_items hs hitem⟩

/-! ### Repeated names -/

section Distinct

variable {α : Type} [DecidableEq α] {x : α} {seen names : List α}

theorem mem_distinct_go : x ∈ distinct.go seen names ↔ x ∈ names ∧ x ∉ seen := by
  induction names generalizing seen with
  | nil => simp [distinct.go]
  | cons name rest ih =>
    unfold distinct.go
    split
    · rename_i hseen
      rw [ih, List.mem_cons]
      constructor
      · exact fun h => ⟨.inr h.1, h.2⟩
      · rintro ⟨rfl | h, hx⟩
        · exact absurd hseen hx
        · exact ⟨h, hx⟩
    · rename_i hseen
      rw [List.mem_cons, ih, List.mem_cons, List.mem_cons]
      by_cases hx : x = name
      · simp [hx, hseen]
      · simp [hx]

theorem mem_distinct : x ∈ distinct names ↔ x ∈ names := by
  simp [distinct, mem_distinct_go]

theorem nodup_distinct (names : List α) : (distinct names).Nodup := by
  suffices hgo : ∀ seen, (distinct.go seen names).Nodup from hgo []
  induction names with
  | nil => exact fun _ => List.nodup_nil
  | cons name rest ih =>
    intro seen
    unfold distinct.go
    split
    · exact ih seen
    · refine List.nodup_cons.mpr ⟨fun hmem => ?_, ih _⟩
      exact (mem_distinct_go.mp hmem).2 List.mem_cons_self

end Distinct

end TeamOrders.Roster
