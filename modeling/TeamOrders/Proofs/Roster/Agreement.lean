import TeamOrders.Proofs.Roster.Written

/-!
# Where lists are taken apart as they are matched

A written list gives the names of its items, one after the other, exactly if every ampersand in it has
white space on both sides. An ampersand that touches an item becomes a part of a name, which no name by
itself can give.
-/

namespace TeamOrders

open Phrase Text Roster

variable {w : String} {s : List Char} {introducing : List (List Char)}

/-- The separator is no ampersand that touches an item. -/
def Separator.IsApart (separator : Separator) : Prop :=
  separator.mark = ['&'] → separator.before ≠ [] ∧ separator.after ≠ []

/-- No ampersand in the list touches an item. -/
def WrittenList.IsApart (list : WrittenList w) : Prop :=
  ∀ separator ∈ list.others.map Prod.fst, separator.IsApart

/-! ### Lists whose ampersands stand apart -/

theorem IsGap.separates {gap : List Char} (h : IsGap gap) : ∀ c ∈ gap, separatesItems c = true :=
  fun c hc => separatesItems_of_blank (h c hc)

theorem itemsWithin_append_separator {separator : Separator} (h : separator.IsApart)
    (s t : List Char) : itemsWithin introducing (s ++ (separator.chars ++ t))
      = itemsWithin introducing s ++ itemsWithin introducing t := by
  obtain ⟨before, mark, after, hbefore, hafter, hmark⟩ := separator
  have hword : itemsWithin introducing mark = [] → before ≠ [] → after ≠ [] →
      itemsWithin introducing (s ++ (before ++ (mark ++ after) ++ t))
        = itemsWithin introducing s ++ itemsWithin introducing t := by
    intro hdropped hne hne'
    rw [List.append_assoc, List.append_assoc, itemsWithin_append_marks hne hbefore.separates,
      itemsWithin_append_marks hne' hafter.separates, hdropped, List.nil_append]
  rcases hmark with rfl | rfl | ⟨rfl, hne, hne'⟩
  · have hmarks : ∀ c ∈ before ++ ([','] ++ after), separatesItems c = true :=
      List.forall_mem_append.mpr ⟨hbefore.separates,
        List.forall_mem_append.mpr ⟨List.all_eq_true.mp rfl, hafter.separates⟩⟩
    exact itemsWithin_append_marks (by simp) hmarks s t
  · exact hword rfl (h rfl).1 (h rfl).2
  · exact hword rfl hne hne'

/-- The words that introduce items are no items themselves. -/
def DropsWord (introducing : List (List Char)) (w : String) : Prop :=
  ∀ form, form = w.toList ∨ form = w.toList ++ ['s'] → itemsWithin introducing form = []

theorem dropsWord_teamWords : DropsWord teamWords "team" := by
  rintro form (rfl | rfl) <;> rfl

theorem dropsWord_taskWords : DropsWord taskWords "task" := by
  rintro form (rfl | rfl) <;> rfl

theorem itemsWithin_of_unbroken (h : ∀ c ∈ s, separatesItems c = false) :
    itemsWithin introducing s = [bare s].filter (keeps introducing) := by
  rw [itemsWithin, fields_of_none h]
  rfl

theorem WrittenItem.unbroken (item : WrittenItem w) : ∀ c ∈ item.name, separatesItems c = false :=
  fun c hc => not_separatesItems_of_isItemChar (isItemChar_of_isNameChar (item.named c hc))

theorem itemsWithin_item (dropped : DropsWord introducing w) (item : WrittenItem w) :
    itemsWithin introducing item.chars = itemsWithin introducing item.name := by
  have hsigned : itemsWithin introducing (item.sign ++ item.name)
      = itemsWithin introducing item.name := by
    rcases item.signed with hsign | hsign
    · rw [hsign, List.nil_append]
    · have hunbroken : ∀ c ∈ '#' :: item.name, separatesItems c = false :=
        List.forall_mem_cons.mpr ⟨by decide, item.unbroken⟩
      rw [hsign, List.singleton_append, itemsWithin_of_unbroken hunbroken, bare_sign,
        itemsWithin_of_unbroken item.unbroken]
  rcases item.introducing with hintroduction | ⟨form, gap, hform, hne, hgap, hintroduction⟩
  · rw [WrittenItem.chars, hintroduction, List.nil_append, hsigned]
  · rw [WrittenItem.chars, hintroduction, List.append_assoc,
      itemsWithin_append_marks hne hgap.separates, dropped form hform, List.nil_append, hsigned]

theorem itemsWithin_append_tail (dropped : DropsWord introducing w)
    {others : List (Separator × WrittenItem w)} (h : ∀ other ∈ others, other.1.IsApart)
    (s : List Char) : itemsWithin introducing (s ++ WrittenList.tail others)
      = itemsWithin introducing s
        ++ (others.map fun (_, item) => item.name).flatMap (itemsWithin introducing) := by
  induction others generalizing s with
  | nil => simp [WrittenList.tail]
  | cons other others ih =>
    obtain ⟨separator, item⟩ := other
    obtain ⟨hfirst, hrest⟩ := List.forall_mem_cons.mp h
    have htail : s ++ WrittenList.tail ((separator, item) :: others)
        = s ++ (separator.chars ++ item.chars) ++ WrittenList.tail others := by
      simp [WrittenList.tail_cons]
    rw [htail, ih hrest, itemsWithin_append_separator hfirst, itemsWithin_item dropped]
    simp

theorem itemsWithin_list (dropped : DropsWord introducing w) {list : WrittenList w}
    (h : list.IsApart) :
    itemsWithin introducing list.chars = list.names.flatMap (itemsWithin introducing) := by
  have hothers : ∀ other ∈ list.others, other.1.IsApart :=
    fun other hother => h other.1 (List.mem_map_of_mem hother)
  rw [WrittenList.chars, itemsWithin_append_tail dropped hothers, itemsWithin_item dropped]
  rfl

/-! ### Lists with an ampersand that touches an item -/

/-- Somewhere an ampersand stands in one piece with a character of a name. -/
def HoldsTouching (s : List Char) : Prop :=
  ∃ part, part <:+: s ∧ (∀ c ∈ part, separatesItems c = false) ∧ '&' ∈ part ∧
    ∃ d ∈ part, isNameChar d = true

theorem mem_dropWhile_of_ne {c mark : Char} (hc : c ∈ s) (hne : c ≠ mark) :
    c ∈ s.dropWhile (· == mark) := by
  rw [← List.takeWhile_append_dropWhile (p := (· == mark)) (l := s), List.mem_append] at hc
  refine hc.resolve_left fun hmem => hne ?_
  simpa using List.mem_takeWhile_imp hmem

theorem exists_item_of_touching (hs : ∀ c ∈ s, isListChar c = true)
    (hwords : ∀ word ∈ introducing, '&' ∉ word) (h : HoldsTouching s) :
    ∃ item ∈ items introducing s, '&' ∈ item := by
  obtain ⟨part, hpart, hunbroken, hmark, d, hd, hname⟩ := h
  obtain ⟨field, hfield, hwithin⟩ := exists_field_of_isInfix hunbroken hpart
  have hchars : ∀ c ∈ field, isItemChar c = true := by
    intro c hc
    obtain ⟨hmem, hseparates⟩ := mem_of_mem_fields hfield c hc
    exact isItemChar_of_isListChar (hs c hmem) hseparates
  have hquote : '"' ∉ field := fun hmem => (ne_of_isItemChar (hchars _ hmem)).2 rfl
  have hampersand : '&' ∈ bare field := by
    rw [bare_of_no_quote hquote]
    exact mem_dropWhile_of_ne (hwithin.subset hmark) (by decide)
  have hnamed : d ∈ bare field := by
    rw [bare_of_no_quote hquote]
    refine mem_dropWhile_of_ne (hwithin.subset hd) fun heq => ?_
    rw [heq] at hname
    exact absurd hname (by decide)
  have hsmall : (bare field).map Char.toLower = bare field :=
    (List.map_congr_left fun c hc =>
      toLower_of_isItemChar (hchars c ((bare_isInfix field).subset hc))).trans (List.map_id' _)
  have hconnectors : bare field ∉ connectors := by
    have hwords : ∀ word ∈ connectors, '&' ∉ word ∨ word = ['&'] := by decide
    intro hmem
    rcases hwords _ hmem with hword | hword
    · exact hword hampersand
    · rw [hword, List.mem_singleton] at hnamed
      rw [hnamed] at hname
      exact absurd hname (by decide)
  have hintroducing : bare field ∉ introducing := fun hmem => hwords _ hmem hampersand
  refine ⟨bare field, ?_, hampersand⟩
  rw [items_eq_itemsWithin]
  refine List.mem_filter.mpr ⟨List.mem_map_of_mem hfield, ?_⟩
  simp [keeps, hsmall, hconnectors, hintroducing, List.ne_nil_of_mem hnamed]

theorem eq_append_of_cutAt {mark : Char} {left right : List Char}
    (h : cutAt mark s = some (left, right)) : s = left ++ mark :: right := by
  unfold cutAt at h
  split at h
  · cases h
  · rename_i c rest hdrop
    cases h
    obtain rfl : c = mark := by
      simpa using head?_dropWhile_eq_false (· != mark) s c (by rw [hdrop]; rfl)
    rw [← hdrop, List.takeWhile_append_dropWhile]

theorem readDigits_of_ampersand {limit : Nat} (h : '&' ∈ s) : Number.readDigits limit s = none := by
  have hall : s.all Number.isAsciiDigit = false := List.all_eq_false.mpr ⟨'&', h, by decide⟩
  simp [Number.readDigits, hall]

theorem range?_of_ampersand (h : '&' ∈ s) : range? s = none := by
  unfold range?
  split
  · rfl
  · rename_i left right hcut
    rw [eq_append_of_cutAt hcut, List.mem_append, List.mem_cons] at h
    rcases h with h | h | h
    · rw [readDigits_of_ampersand h]
    · exact absurd h (by decide)
    · rw [readDigits_of_ampersand h]
      split <;> simp_all

/-- A name holds an ampersand exactly if it comes of an item that holds one. -/
structure KeepsAmpersand (introducing : List (List Char)) (ofNumber : Nat → List Char)
    (ofItem : List Char → List Char) : Prop where
  words : ∀ word ∈ introducing, '&' ∉ word
  number : ∀ n, '&' ∉ ofNumber n
  item : ∀ item, (∀ c ∈ item, isItemChar c = true) → ('&' ∈ ofItem item ↔ '&' ∈ item)

theorem ampersand_not_mem_numeral (n : Nat) : '&' ∉ numeral n := fun hmem =>
  absurd (mem_asciiDigits_of_mem_numeral hmem) (by decide)

theorem keepsAmpersand_teams : KeepsAmpersand teamWords (teamPrefix ++ numeral ·) teamName where
  words := by decide
  number := by
    intro n hmem
    rcases List.mem_append.mp hmem with hmem | hmem
    · exact absurd hmem (by decide)
    · exact ampersand_not_mem_numeral n hmem
  item := by
    intro item hitem
    constructor
    · exact fun hmem => (mem_of_mem_teamName hitem hmem).resolve_left (by decide)
    · intro hmem
      have hrest : '&' ∈ trimStartBy (· == '#') item := mem_dropWhile_of_ne hmem (by decide)
      rw [teamName_of_item hitem]
      split
      · exact hrest
      · exact List.mem_append_right _ hrest

theorem keepsAmpersand_tasks : KeepsAmpersand taskWords numeral (·) :=
  ⟨by decide, ampersand_not_mem_numeral, fun _ _ => Iff.rfl⟩

namespace KeepsAmpersand

variable {ofNumber : Nat → List Char} {ofItem : List Char → List Char}

theorem exists_of_touching (keeps : KeepsAmpersand introducing ofNumber ofItem)
    (hs : ∀ c ∈ s, isListChar c = true) (h : HoldsTouching s) :
    ∃ name ∈ namedBy introducing ofNumber ofItem s, '&' ∈ name := by
  obtain ⟨item, hitem, hmark⟩ := exists_item_of_touching hs keeps.words h
  exact ⟨ofItem item, mem_namedBy_of_item hitem (range?_of_ampersand hmark),
    (keeps.item item (isItemChar_of_mem_items hs hitem)).mpr hmark⟩

theorem not_mem_of_name (keeps : KeepsAmpersand introducing ofNumber ofItem)
    (hs : ∀ c ∈ s, isNameChar c = true) {name : List Char}
    (h : name ∈ namedBy introducing ofNumber ofItem s) : '&' ∉ name := by
  intro hmark
  rcases exists_of_mem_namedBy h with ⟨n, rfl⟩ | ⟨item, hitem, rfl⟩
  · exact keeps.number n hmark
  · have hname : ∀ c ∈ item, isNameChar c = true := fun c hc => hs c ((mem_of_mem_items hitem).2 c hc).1
    rw [keeps.item item fun c hc => isItemChar_of_isNameChar (hname c hc)] at hmark
    exact absurd (hname _ hmark) (by decide)

end KeepsAmpersand

/-! ### Written lists -/

theorem WrittenList.isListChar (hw : w.toList.all isListChar = true) (list : WrittenList w) :
    ∀ c ∈ list.chars, isListChar c = true := by
  have hreaches : Pattern.Reaches (Phrase.list w) list.chars [] :=
    WrittenList.reaches_list_iff.mpr ⟨list, (List.append_nil _).symm⟩
  obtain ⟨taken, htaken, hall⟩ :=
    Pattern.exists_taken_of_reaches (within_list (List.all_eq_true.mp hw)) hreaches
  rwa [htaken, List.append_nil]

theorem WrittenList.exists_last (list : WrittenList w) :
    ∃ front c, list.chars = front ++ [c] ∧ isNameChar c = true := by
  have hitem : ∀ item : WrittenItem w, ∃ front c, item.chars = front ++ [c] ∧ isNameChar c = true := by
    intro item
    obtain ⟨front, c, hname⟩ := (List.eq_nil_or_concat item.name).resolve_left item.nonempty
    refine ⟨item.introduction ++ (item.sign ++ front), c, ?_, item.named c (by simp [hname])⟩
    simp [WrittenItem.chars, hname]
  obtain ⟨first, others⟩ := list
  rcases List.eq_nil_or_concat others with rfl | ⟨before, ⟨separator, item⟩, rfl⟩
  · simpa [chars, tail] using hitem first
  · obtain ⟨front, c, hfront, hc⟩ := hitem item
    refine ⟨chars ⟨first, before⟩ ++ (separator.chars ++ front), c, ?_, hc⟩
    have hsnoc := chars_snoc ⟨first, before⟩ separator item
    simpa [snoc, hfront] using hsnoc

theorem WrittenItem.exists_first (hw : w = "team" ∨ w = "task") (item : WrittenItem w) :
    ∃ sign c rest, item.chars = sign ++ c :: rest ∧ (sign = [] ∨ sign = ['#']) ∧
      isNameChar c = true := by
  obtain ⟨d, more, hname⟩ := List.exists_cons_of_ne_nil item.nonempty
  rcases item.introducing with hintroduction | ⟨form, gap, hform, -, -, hintroduction⟩
  · refine ⟨item.sign, d, more, ?_, item.signed, item.named d (by simp [hname])⟩
    rw [WrittenItem.chars, hintroduction, hname, List.nil_append]
  · have hstarts : ∃ rest, form = 't' :: rest := by
      rcases hw with rfl | rfl <;> rcases hform with rfl | rfl <;> exact ⟨_, rfl⟩
    obtain ⟨rest, rfl⟩ := hstarts
    exact ⟨[], 't', rest ++ gap ++ (item.sign ++ item.name),
      by simp [WrittenItem.chars, hintroduction], .inl rfl, rfl⟩

/-- An ampersand that touches an item makes one piece with it. -/
theorem WrittenList.holdsTouching (hw : w = "team" ∨ w = "task") {list : WrittenList w}
    (h : ¬ list.IsApart) : HoldsTouching list.chars := by
  simp only [IsApart, Separator.IsApart, not_forall, List.mem_map] at h
  obtain ⟨_, ⟨⟨separator, item⟩, hmem, rfl⟩, hmark, htouch⟩ := h
  obtain ⟨before, after, hothers⟩ := List.append_of_mem hmem
  obtain ⟨front, c, hfront, hc⟩ := exists_last ⟨list.first, before⟩
  obtain ⟨sign, d, rest, hitem, hsign, hd⟩ := item.exists_first hw
  have hchars : list.chars = (front ++ [c]) ++ (separator.before ++ '&' ::
      (separator.after ++ (sign ++ d :: rest))) ++ tail after := by
    have hsplit : list.chars
        = chars ⟨list.first, before⟩ ++ (separator.chars ++ item.chars) ++ tail after := by
      simp [chars, hothers, tail]
    rw [hsplit, hfront, hitem, Separator.chars, hmark]
    simp
  have hunbroken : ∀ {e : Char}, isNameChar e = true → separatesItems e = false :=
    fun he => not_separatesItems_of_isItemChar (isItemChar_of_isNameChar he)
  rcases eq_or_ne separator.before [] with hbefore | hbefore
  · refine ⟨[c, '&'], ?_, ?_, by simp, c, by simp, hc⟩
    · rw [hchars, hbefore]
      exact ⟨front, separator.after ++ (sign ++ d :: rest) ++ tail after, by simp⟩
    · simpa using ⟨hunbroken hc, rfl⟩
  · have hafter : separator.after = [] := by
      by_contra hne
      exact htouch ⟨hbefore, hne⟩
    refine ⟨'&' :: (sign ++ [d]), ?_, ?_, by simp, d, by simp, hd⟩
    · rw [hchars, hafter]
      exact ⟨front ++ [c] ++ separator.before, rest ++ tail after, by simp⟩
    · rcases hsign with rfl | rfl
      · simpa using ⟨rfl, hunbroken hd⟩
      · simpa using ⟨rfl, rfl, hunbroken hd⟩

theorem WrittenList.exists_item_of_mem_names {list : WrittenList w} {name : List Char}
    (h : name ∈ list.names) : ∃ item : WrittenItem w, item.name = name := by
  rcases List.mem_cons.mp h with rfl | h
  · exact ⟨list.first, rfl⟩
  · obtain ⟨⟨_, item⟩, -, rfl⟩ := List.mem_map.mp h
    exact ⟨item, rfl⟩

section Named

variable {ofNumber : Nat → List Char} {ofItem : List Char → List Char}

theorem namedBy_of_apart (dropped : DropsWord introducing w) {list : WrittenList w} (h : list.IsApart) :
    namedBy introducing ofNumber ofItem list.chars
      = list.names.flatMap (namedBy introducing ofNumber ofItem) := by
  rw [namedBy, items_eq_itemsWithin, itemsWithin_list dropped h, List.flatMap_assoc]
  congr 1
  funext name
  rw [namedBy, items_eq_itemsWithin]

/-- No name by itself gives what an ampersand makes that touches an item. -/
theorem namedBy_list_iff (keeps : KeepsAmpersand introducing ofNumber ofItem)
    (dropped : DropsWord introducing w) (hw : w = "team" ∨ w = "task") (list : WrittenList w) :
    namedBy introducing ofNumber ofItem list.chars
      = list.names.flatMap (namedBy introducing ofNumber ofItem) ↔ list.IsApart := by
  refine ⟨fun hsame => ?_, namedBy_of_apart dropped⟩
  by_contra htouch
  have hchars : w.toList.all isListChar = true := by
    rcases hw with rfl | rfl <;> rfl
  obtain ⟨id, hid, hmark⟩ :=
    keeps.exists_of_touching (list.isListChar hchars) (WrittenList.holdsTouching hw htouch)
  rw [hsame] at hid
  obtain ⟨name, hname, hid⟩ := List.mem_flatMap.mp hid
  obtain ⟨item, rfl⟩ := WrittenList.exists_item_of_mem_names hname
  exact keeps.not_mem_of_name item.named hid hmark

end Named

/-- The pattern of lists takes every written list as a whole. It is taken apart into its names exactly
if no ampersand in it touches an item. -/
theorem written_lists_taken_apart (teamList : WrittenList "team") (taskList : WrittenList "task") :
    (Pattern.Reaches (Phrase.list "team") teamList.chars [] ∧
      (teams teamList.chars = teamList.names.flatMap teams ↔ teamList.IsApart)) ∧
    (Pattern.Reaches (Phrase.list "task") taskList.chars [] ∧
      (tasks taskList.chars = taskList.names.flatMap tasks ↔ taskList.IsApart)) := by
  have htakes : ∀ {w : String} (list : WrittenList w), Pattern.Reaches (Phrase.list w) list.chars [] :=
    fun list => WrittenList.reaches_list_iff.mpr ⟨list, (List.append_nil _).symm⟩
  exact ⟨⟨htakes teamList, namedBy_list_iff keepsAmpersand_teams dropsWord_teamWords (.inl rfl) teamList⟩,
    ⟨htakes taskList, namedBy_list_iff keepsAmpersand_tasks dropsWord_taskWords (.inr rfl) taskList⟩⟩

/-- In `a&b` the pattern sees two teams, and taking it apart gives one. -/
theorem touching_ampersand_joins_names :
    (∃ list : WrittenList "team", list.chars = "a&b".toList ∧
      list.names = ["a".toList, "b".toList]) ∧
    teams "a&b".toList = ["team-a&b".toList] ∧
    ["a".toList, "b".toList].flatMap teams = ["team-a".toList, "team-b".toList] := by
  refine ⟨⟨⟨⟨[], [], ['a'], .inl rfl, .inl rfl, by simp, List.all_eq_true.mp rfl⟩,
    [(⟨[], ['&'], [], List.forall_mem_nil _, List.forall_mem_nil _, .inr (.inl rfl)⟩,
      ⟨[], [], ['b'], .inl rfl, .inl rfl, by simp, List.all_eq_true.mp rfl⟩)]⟩, rfl, rfl⟩, ?_, ?_⟩
  · decide +kernel
  · decide +kernel

end TeamOrders
