import TeamOrders.Proofs.Number.Numeral
import TeamOrders.Proofs.Phrase.Slots
import TeamOrders.Proofs.Text.Lowercase
import TeamOrders.Proofs.Text.Trim
import TeamOrders.Roster

/-!
# The items of a fragment

Items stand between separating characters, so a fragment that is put together at such a character has
the items of its parts, and white space around a fragment does not matter. An item is a part of the
fragment that holds no separating character; in a fragment that the pattern of a list has matched it
holds small characters only.
-/

namespace TeamOrders.Roster

open Text

variable {s t item : List Char} {separates : Char → Bool} {introducing : List (List Char)}

/-! ### Fields -/

theorem fields_cons_of_separates {c : Char} (h : separates c = true) (s : List Char) :
    fields separates (c :: s) = [] :: fields separates s := by
  rw [fields, if_pos h]

theorem fields_cons_of_not {c : Char} (h : separates c = false) (s : List Char) :
    ∃ first more, fields separates s = first :: more ∧
      fields separates (c :: s) = (c :: first) :: more := by
  have hne : fields separates s ≠ [] := by
    cases s with
    | nil => exact List.cons_ne_nil [] []
    | cons d s =>
      unfold fields
      split
      · exact List.cons_ne_nil _ _
      · split <;> exact List.cons_ne_nil _ _
  obtain ⟨first, more, heq⟩ := List.exists_cons_of_ne_nil hne
  refine ⟨first, more, heq, ?_⟩
  rw [fields, h, heq]
  rfl

theorem fields_eq_splitOnP (separates : Char → Bool) (s : List Char) :
    fields separates s = s.splitOnP separates := by
  induction s with
  | nil => rfl
  | cons c s ih =>
    rw [List.splitOnP_cons_eq_if_modifyHead, ← ih]
    cases hc : separates c with
    | true => exact fields_cons_of_separates hc s
    | false =>
      obtain ⟨first, more, heq, hcons⟩ := fields_cons_of_not hc s
      rw [hcons, heq]
      rfl

theorem fields_of_none (h : ∀ c ∈ s, separates c = false) : fields separates s = [s] := by
  rw [fields_eq_splitOnP, List.splitOnP_eq_singleton h]

/-- Where a separating character joins two texts, their fields stand side by side. -/
theorem fields_append {mark : Char} (hmark : separates mark = true) (s t : List Char) :
    fields separates (s ++ mark :: t) = fields separates s ++ fields separates t := by
  simp only [fields_eq_splitOnP, List.splitOnP_append_cons s t hmark]

theorem fields_cut {mark : Char} (h : ∀ c ∈ s, separates c = false) (hmark : separates mark = true)
    (t : List Char) : fields separates (s ++ mark :: t) = s :: fields separates t := by
  rw [fields_append hmark, fields_of_none h, List.singleton_append]

theorem mem_of_mem_fields {field : List Char} (h : field ∈ fields separates s) :
    ∀ c ∈ field, c ∈ s ∧ separates c = false := by
  induction s generalizing field with
  | nil =>
    obtain rfl := List.mem_singleton.mp h
    simp
  | cons c s ih =>
    have hmore : field ∈ fields separates s → ∀ d ∈ field, d ∈ c :: s ∧ separates d = false :=
      fun hmem d hd => (ih hmem d hd).imp_left (List.mem_cons_of_mem c)
    cases hc : separates c with
    | true =>
      rw [fields, if_pos hc] at h
      rcases List.mem_cons.mp h with rfl | h
      · simp
      · exact hmore h
    | false =>
      obtain ⟨first, more, heq, hcons⟩ := fields_cons_of_not hc s
      rw [heq] at hmore ih
      rw [hcons] at h
      rcases List.mem_cons.mp h with rfl | h
      · intro d hd
        rcases List.mem_cons.mp hd with rfl | hd
        · exact ⟨List.mem_cons_self, hc⟩
        · exact (ih List.mem_cons_self d hd).imp_left (List.mem_cons_of_mem c)
      · exact hmore (List.mem_cons_of_mem first h)

/-- What starts a text and holds no separating character starts its first field. -/
theorem prefix_head_fields {part : List Char} (hpart : ∀ c ∈ part, separates c = false)
    (h : part <+: s) : ∃ first more, fields separates s = first :: more ∧ part <+: first := by
  induction part generalizing s with
  | nil =>
    cases s with
    | nil => exact ⟨[], [], rfl, List.nil_prefix⟩
    | cons c s =>
      cases hc : separates c with
      | true => exact ⟨[], _, fields_cons_of_separates hc s, List.nil_prefix⟩
      | false =>
        obtain ⟨first, more, -, hcons⟩ := fields_cons_of_not hc s
        exact ⟨_, _, hcons, List.nil_prefix⟩
  | cons c part ih =>
    obtain ⟨rest, rfl⟩ := h
    obtain ⟨hc, hrest⟩ := List.forall_mem_cons.mp hpart
    obtain ⟨first, more, heq, hstarts⟩ := ih hrest (List.prefix_append part rest)
    obtain ⟨first', more', heq', hcons⟩ := fields_cons_of_not hc (part ++ rest)
    rw [heq] at heq'
    obtain ⟨rfl, rfl⟩ := List.cons.inj heq'
    exact ⟨_, _, hcons, (List.prefix_cons_inj c).mpr hstarts⟩

/-- What stands in a text and holds no separating character stands in a field. -/
theorem exists_field_of_isInfix {part : List Char} (hpart : ∀ c ∈ part, separates c = false)
    (h : part <:+: s) : ∃ field ∈ fields separates s, part <:+: field := by
  induction s with
  | nil => exact ⟨[], List.mem_singleton.mpr rfl, h⟩
  | cons c s ih =>
    rcases List.infix_cons_iff.mp h with hstart | hlater
    · obtain ⟨first, more, heq, hstarts⟩ := prefix_head_fields hpart hstart
      exact ⟨first, heq ▸ List.mem_cons_self, hstarts.isInfix⟩
    · obtain ⟨field, hfield, hwithin⟩ := ih hlater
      cases hc : separates c with
      | true =>
        exact ⟨field, fields_cons_of_separates hc s ▸ List.mem_cons_of_mem [] hfield, hwithin⟩
      | false =>
        obtain ⟨first, more, heq, hcons⟩ := fields_cons_of_not hc s
        rw [heq] at hfield
        rw [hcons]
        rcases List.mem_cons.mp hfield with rfl | hfield
        · exact ⟨_, List.mem_cons_self, hwithin.trans (List.suffix_cons c field).isInfix⟩
        · exact ⟨field, List.mem_cons_of_mem _ hfield, hwithin⟩

/-! ### Items -/

theorem bare_sign (s : List Char) : bare ('#' :: s) = bare s := rfl

theorem bare_isInfix (s : List Char) : bare s <:+: s :=
  (trimBy_isInfix _ _).trans (List.dropWhile_suffix _).isInfix

theorem bare_of_no_quote (h : '"' ∉ s) : bare s = s.dropWhile (· == '#') := by
  have hno : ∀ c ∈ s.dropWhile (· == '#'), (c == '"') = false := fun c hc =>
    beq_eq_false_iff_ne.mpr fun heq => h (heq ▸ (List.dropWhile_suffix _).subset hc)
  have hstart : ∀ c ∈ (s.dropWhile (· == '#')).head?, (c == '"') = false :=
    fun c hc => hno c (List.mem_of_head? hc)
  have hend : ∀ c ∈ (s.dropWhile (· == '#')).reverse.head?, (c == '"') = false :=
    fun c hc => hno c (List.mem_reverse.mp (List.mem_of_head? hc))
  rw [bare, trimStartBy, trimBy, trimStartBy, dropWhile_eq_self hstart, trimEndBy,
    dropWhile_eq_self hend, List.reverse_reverse]

def keeps (introducing : List (List Char)) (item : List Char) : Bool :=
  !item.isEmpty && !connectors.contains (item.map Char.toLower)
    && !introducing.contains (item.map Char.toLower)

def itemsWithin (introducing : List (List Char)) (s : List Char) : List (List Char) :=
  ((fields separatesItems s).map bare).filter (keeps introducing)

theorem itemsWithin_nil : itemsWithin introducing [] = [] := rfl

theorem itemsWithin_append {mark : Char} (hmark : separatesItems mark = true) (s t : List Char) :
    itemsWithin introducing (s ++ mark :: t)
      = itemsWithin introducing s ++ itemsWithin introducing t := by
  rw [itemsWithin, fields_append hmark, List.map_append, List.filter_append]
  rfl

theorem itemsWithin_marks_append {marks : List Char} (h : ∀ c ∈ marks, separatesItems c = true)
    (s : List Char) : itemsWithin introducing (marks ++ s) = itemsWithin introducing s := by
  induction marks with
  | nil => rfl
  | cons mark marks ih =>
    obtain ⟨hmark, hmarks⟩ := List.forall_mem_cons.mp h
    have hfirst : itemsWithin introducing ([] ++ mark :: (marks ++ s))
        = itemsWithin introducing [] ++ itemsWithin introducing (marks ++ s) :=
      itemsWithin_append hmark [] _
    rw [itemsWithin_nil, List.nil_append, List.nil_append] at hfirst
    rw [List.cons_append, hfirst, ih hmarks]

/-- Separating characters between two texts do nothing but separate them. -/
theorem itemsWithin_append_marks {marks : List Char} (hne : marks ≠ [])
    (h : ∀ c ∈ marks, separatesItems c = true) (s t : List Char) :
    itemsWithin introducing (s ++ (marks ++ t))
      = itemsWithin introducing s ++ itemsWithin introducing t := by
  obtain ⟨mark, more, rfl⟩ := List.exists_cons_of_ne_nil hne
  obtain ⟨hmark, hmore⟩ := List.forall_mem_cons.mp h
  rw [List.cons_append, itemsWithin_append hmark, itemsWithin_marks_append hmore]

theorem separatesItems_of_blank {c : Char} (h : isBlank c = true) : separatesItems c = true := by
  simp [separatesItems, h]

theorem items_eq_itemsWithin (introducing : List (List Char)) (s : List Char) :
    items introducing s = itemsWithin introducing s := by
  obtain ⟨before, after, hbefore, hafter, hs⟩ := exists_eq_append_trim s
  have hmarks : ∀ c ∈ before, separatesItems c = true :=
    fun c hc => separatesItems_of_blank (hbefore c hc)
  have hend : itemsWithin introducing (trim s ++ after) = itemsWithin introducing (trim s) := by
    rcases eq_or_ne after [] with rfl | hne
    · rw [List.append_nil]
    · have happend : itemsWithin introducing (trim s ++ (after ++ []))
          = itemsWithin introducing (trim s) ++ itemsWithin introducing [] :=
        itemsWithin_append_marks hne (fun c hc => separatesItems_of_blank (hafter c hc)) _ _
      rwa [List.append_nil, itemsWithin_nil, List.append_nil] at happend
  calc itemsWithin introducing (trim s)
      = itemsWithin introducing (before ++ (trim s ++ after)) := by
        rw [itemsWithin_marks_append hmarks, hend]
    _ = itemsWithin introducing s := by rw [← List.append_assoc, ← hs]

theorem mem_of_mem_items (h : item ∈ items introducing s) :
    item ≠ [] ∧ ∀ c ∈ item, c ∈ s ∧ separatesItems c = false := by
  rw [items_eq_itemsWithin] at h
  obtain ⟨hmem, hkeeps⟩ := List.mem_filter.mp h
  obtain ⟨field, hfield, rfl⟩ := List.mem_map.mp hmem
  refine ⟨fun hnil => ?_, fun c hc => mem_of_mem_fields hfield c ((bare_isInfix field).subset hc)⟩
  rw [hnil] at hkeeps
  exact absurd hkeeps (by simp [keeps])

theorem items_append (introducing : List (List Char)) (s t : List Char) :
    items introducing (s ++ ',' :: t) = items introducing s ++ items introducing t := by
  simp only [items_eq_itemsWithin]
  exact itemsWithin_append (by decide) s t

/-! ### Names -/

section Named

variable {ofNumber : Nat → List Char} {ofItem : List Char → List Char}

/-- The names of a fragment: those of the numbers in a range, and one for every other item. -/
def namedBy (introducing : List (List Char)) (ofNumber : Nat → List Char)
    (ofItem : List Char → List Char) (s : List Char) : List (List Char) :=
  (items introducing s).flatMap fun item =>
    match range? item with
    | some numbers => numbers.map ofNumber
    | none => [ofItem item]

theorem teams_eq_namedBy (s : List Char) :
    teams s = namedBy teamWords (teamPrefix ++ numeral ·) teamName s := rfl

theorem tasks_eq_namedBy (s : List Char) : tasks s = namedBy taskWords numeral (·) s := rfl

theorem mem_namedBy_of_item (hitem : item ∈ items introducing s) (hrange : range? item = none) :
    ofItem item ∈ namedBy introducing ofNumber ofItem s := by
  refine List.mem_flatMap.mpr ⟨item, hitem, ?_⟩
  rw [hrange]
  exact List.mem_singleton_self _

theorem exists_of_mem_namedBy {name : List Char} (h : name ∈ namedBy introducing ofNumber ofItem s) :
    (∃ n, name = ofNumber n) ∨ ∃ item ∈ items introducing s, name = ofItem item := by
  obtain ⟨item, hitem, hname⟩ := List.mem_flatMap.mp h
  split at hname
  · obtain ⟨n, -, rfl⟩ := List.mem_map.mp hname
    exact .inl ⟨n, rfl⟩
  · exact .inr ⟨item, hitem, List.mem_singleton.mp hname⟩

theorem namedBy_append (s t : List Char) : namedBy introducing ofNumber ofItem (s ++ ',' :: t)
    = namedBy introducing ofNumber ofItem s ++ namedBy introducing ofNumber ofItem t := by
  rw [namedBy, items_append, List.flatMap_append]
  rfl

end Named

end TeamOrders.Roster
