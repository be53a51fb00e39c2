import TeamOrders.Proofs.Sentence.Phrases

/-!
# No sentence is put in a second phrase

Most phrases fail on the first words of a sentence. Two phrases share the first words of another: the
bare synchronisation, and the inverse assignment, which reads `teams` as the name of a task. Neither can
match a whole sentence, because no match of a list goes past its end.
-/

namespace TeamOrders

open Pattern Phrase Text

variable {s t rest : List Char}

/-! ### White space -/

theorem not_reaches_blanks (h : ∀ c ∈ s.head?, isBlank c = false) :
    ¬ Reaches (blanks : Pattern Slot) s rest := by
  rw [blanks, reaches_run]
  rintro ⟨taken, hne, hblank, rfl⟩
  obtain ⟨c, more, rfl⟩ := List.exists_cons_of_ne_nil hne
  have hc : isBlank c = false := h c rfl
  rw [hblank c List.mem_cons_self] at hc
  cases hc

theorem eq_of_reaches_blanks (hs : ∀ c ∈ s.head?, isBlank c = false)
    (h : Reaches (blanks : Pattern Slot) (' ' :: s) rest) : rest = s := by
  rw [blanks, reaches_run] at h
  obtain ⟨taken, hne, hblank, heq⟩ := h
  obtain ⟨c, more, rfl⟩ := List.exists_cons_of_ne_nil hne
  obtain ⟨rfl, rfl⟩ := List.cons.inj heq
  cases more with
  | nil => rfl
  | cons d more =>
    have hd : isBlank d = false := hs d rfl
    rw [hblank d (by simp)] at hd
    cases hd

theorem reaches_space : Reaches (space : Pattern Slot) s rest ↔
    Reaches (blanks : Pattern Slot) s rest ∨ rest = s := reaches_optional

/-! ### Separators -/

theorem not_blank_of_nameChars (hne : s ≠ []) (h : ∀ c ∈ s, isNameChar c = true) (t : List Char) :
    ∀ c ∈ (s ++ t).head?, isBlank c = false := by
  intro c hc
  obtain ⟨d, more, rfl⟩ := List.exists_cons_of_ne_nil hne
  obtain rfl : d = c := Option.some.inj hc
  exact not_isBlank_of_isNameChar (h d List.mem_cons_self)

theorem reaches_separator : Reaches listSeparator s rest ↔
    (∃ mid, Reaches (space : Pattern Slot) s (',' :: mid) ∧ Reaches (space : Pattern Slot) mid rest) ∨
    (∃ mid, Reaches (space : Pattern Slot) s ('&' :: mid) ∧ Reaches (space : Pattern Slot) mid rest) ∨
    (∃ mid, Reaches (blanks : Pattern Slot) s ("and".toList ++ mid) ∧
      Reaches (blanks : Pattern Slot) mid rest) := by
  have hmark : ∀ mark : String, Reaches (all [space, word mark, space] : Pattern Slot) s rest ↔
      ∃ mid, Reaches (space : Pattern Slot) s (mark.toList ++ mid) ∧
        Reaches (space : Pattern Slot) mid rest := by
    intro mark
    simp only [reaches_all_cons, reaches_all_last, reaches_word]
    constructor
    · rintro ⟨_, hfirst, mid, rfl, hsecond⟩
      exact ⟨mid, hfirst, hsecond⟩
    · rintro ⟨mid, hfirst, hsecond⟩
      exact ⟨_, hfirst, mid, rfl, hsecond⟩
  have hand : Reaches (all [blanks, word "and", blanks] : Pattern Slot) s rest ↔
      ∃ mid, Reaches (blanks : Pattern Slot) s ("and".toList ++ mid) ∧
        Reaches (blanks : Pattern Slot) mid rest := by
    simp only [reaches_all_cons, reaches_all_last, reaches_word]
    constructor
    · rintro ⟨_, hfirst, mid, rfl, hsecond⟩
      exact ⟨mid, hfirst, hsecond⟩
    · rintro ⟨mid, hfirst, hsecond⟩
      exact ⟨_, hfirst, mid, rfl, hsecond⟩
  have hcomma := hmark ","
  have hampersand := hmark "&"
  change Reaches (alt _ (alt _ (all [blanks, word "and", blanks]))) s rest ↔ _
  rw [reaches_alt, reaches_alt, hcomma, hampersand, hand]
  exact Iff.rfl

/-- No separator stands within a name. -/
theorem fails_separator_of_nameChars (hne : s ≠ []) (h : ∀ c ∈ s, isNameChar c = true)
    (t : List Char) : Fails listSeparator (s ++ t) := by
  have hblank := not_blank_of_nameChars hne h t
  have hmark : ∀ mark mid, isNameChar mark = false →
      ¬ Reaches (space : Pattern Slot) (s ++ t) (mark :: mid) := by
    intro mark mid hmark hspace
    rcases reaches_space.mp hspace with hreach | heq
    · exact not_reaches_blanks hblank hreach
    · obtain ⟨c, more, rfl⟩ := List.exists_cons_of_ne_nil hne
      obtain ⟨rfl, -⟩ := List.cons.inj heq
      rw [h mark List.mem_cons_self] at hmark
      cases hmark
  rw [fails_iff]
  intro last hreach
  rcases reaches_separator.mp hreach with ⟨mid, hspace, -⟩ | ⟨mid, hspace, -⟩ | ⟨mid, hblanks, -⟩
  · exact hmark ',' mid (by decide) hspace
  · exact hmark '&' mid (by decide) hspace
  · exact not_reaches_blanks hblank hblanks

theorem endsList_name (name : CleanName) (hrest : ∀ c ∈ rest.head?, isNameChar c = false) :
    EndsList (' ' :: (name.chars ++ rest)) := by
  have hhead := name.not_blank_head rest
  have hmark : ∀ mark mid, mark ≠ ' ' → mark ∉ plainChars →
      ¬ Reaches (space : Pattern Slot) (' ' :: (name.chars ++ rest)) (mark :: mid) := by
    intro mark mid hblank hplain hspace
    rcases reaches_space.mp hspace with hreach | heq
    · have heq := eq_of_reaches_blanks hhead hreach
      obtain ⟨c, more, hchars⟩ := List.exists_cons_of_ne_nil name.nonempty
      rw [hchars] at heq
      obtain ⟨rfl, -⟩ := List.cons.inj heq
      exact hplain (name.plain mark (by rw [hchars]; exact List.mem_cons_self))
    · exact hblank (List.cons.inj heq).1
  apply endsList_blank
  rw [fails_iff]
  intro last hreach
  rcases reaches_separator.mp hreach with ⟨mid, hspace, -⟩ | ⟨mid, hspace, -⟩ | ⟨mid, hand, hblanks⟩
  · exact hmark ',' mid (by decide) (by decide) hspace
  · exact hmark '&' mid (by decide) (by decide) hspace
  · have heq := eq_of_reaches_blanks hhead hand
    have hname : "and".toList = name.chars :=
      eq_of_append_eq_append (List.all_eq_true.mp rfl) name.nameChars (ends_name_of_reaches_blanks hblanks) hrest
        heq
    exact name.named (by rw [← hname]; decide)

theorem reaches_separator_comma (hs : ∀ c ∈ s.head?, isBlank c = false)
    (h : Reaches listSeparator (',' :: ' ' :: s) rest) : rest = s ∨ rest = ' ' :: s := by
  have hcomma : ∀ c ∈ (',' :: ' ' :: s).head?, isBlank c = false := by
    intro c hc
    obtain rfl : ',' = c := Option.some.inj hc
    decide
  rcases reaches_separator.mp h with ⟨mid, hfirst, hsecond⟩ | ⟨mid, hfirst, -⟩ | ⟨mid, hfirst, -⟩
  · rcases reaches_space.mp hfirst with hblanks | heq
    · exact absurd hblanks (not_reaches_blanks hcomma)
    · obtain rfl : mid = ' ' :: s := (List.cons.inj heq).2
      rcases reaches_space.mp hsecond with hblanks | rfl
      · exact .inl (eq_of_reaches_blanks hs hblanks)
      · exact .inr rfl
  · rcases reaches_space.mp hfirst with hblanks | heq
    · exact absurd hblanks (not_reaches_blanks hcomma)
    · exact absurd (List.cons.inj heq).1 (by decide)
  · exact absurd hfirst (not_reaches_blanks hcomma)

/-! ### Items -/

theorem reaches_name {x : List Char} (hx : ∀ c ∈ x, isNameChar c = true)
    (ht : ∀ c ∈ t.head?, isNameChar c = false) (hsign : Fails (word "#" : Pattern Slot) (x ++ t))
    (h : Reaches (all [numberSign, name?]) (x ++ t) rest) :
    ∃ y, (∀ c ∈ y, isNameChar c = true) ∧ rest = y ++ t := by
  rw [reaches_all_cons] at h
  obtain ⟨start, hnumber, hname⟩ := h
  rcases reaches_optional.mp hnumber with hreach | rfl
  · exact absurd hreach (fails_iff.mp hsign start)
  · obtain ⟨taken, -, htaken, heq⟩ := reaches_run.mp (reaches_all_last.mp hname)
    obtain ⟨y, rfl, rfl⟩ := exists_suffix_of_append_eq htaken ht heq
    exact ⟨y, fun c hc => hx c (List.mem_append_right taken hc), rfl⟩

theorem reaches_item {w : String} {x : List Char} (hx : ∀ c ∈ x, isNameChar c = true)
    (ht : ∀ c ∈ t.head?, isNameChar c = false)
    (hword : Fails (all [oneOrMany w, blanks] : Pattern Slot) (x ++ t))
    (hsign : Fails (word "#" : Pattern Slot) (x ++ t)) (h : Reaches (item w) (x ++ t) rest) :
    ∃ y, (∀ c ∈ y, isNameChar c = true) ∧ rest = y ++ t := by
  rw [item, reaches_all_cons] at h
  obtain ⟨mid, hintro, hname⟩ := h
  rcases reaches_optional.mp hintro with hreach | rfl
  · exact absurd hreach (fails_iff.mp hword mid)
  · exact reaches_name hx ht hsign hname

theorem reaches_item_name {w : String} (hw : w = "team" ∨ w = "task") (name : CleanName)
    (ht : ∀ c ∈ t.head?, isNameChar c = false) (h : Reaches (item w) (name.chars ++ t) rest) :
    ∃ y, (∀ c ∈ y, isNameChar c = true) ∧ rest = y ++ t :=
  reaches_item name.nameChars ht (fails_introduction hw name ht) (name.fails_numberSign t) h

theorem not_reaches_item_blank {w : String} (hw : w = "team" ∨ w = "task") :
    ¬ Reaches (item w) (' ' :: s) rest := by
  intro h
  have hword : Fails (all [oneOrMany w, blanks] : Pattern Slot) (' ' :: s) := by
    unfold Fails
    rcases hw with rfl | rfl <;> cbv
  rw [item, reaches_all_cons] at h
  obtain ⟨mid, hintro, h⟩ := h
  rw [reaches_all_cons] at h
  obtain ⟨start, hnumber, hname⟩ := h
  rcases reaches_optional.mp hintro with hreach | rfl
  · exact fails_iff.mp hword mid hreach
  · rcases reaches_optional.mp hnumber with hreach | rfl
    · exact absurd (List.cons.inj (reaches_word.mp hreach)).1 (by decide)
    · obtain ⟨taken, hne, htaken, heq⟩ := reaches_run.mp (reaches_all_last.mp hname)
      obtain ⟨c, more, rfl⟩ := List.exists_cons_of_ne_nil hne
      obtain ⟨rfl, -⟩ := List.cons.inj heq
      exact absurd (htaken ' ' List.mem_cons_self) (by decide)

/-! ### Lists -/

/-- From within the last item of a list, nothing more is matched. -/
theorem eq_of_reaches_star {w : String} {x : List Char} (hx : ∀ c ∈ x, isNameChar c = true)
    (ht : EndsList t) (h : Reaches (star (all [listSeparator, item w])) (x ++ t) rest) :
    rest = x ++ t := by
  refine invariant_of_reaches_star (fun s => s = x ++ t) h rfl ?_
  rintro s last rfl hstep
  rw [reaches_all_cons] at hstep
  obtain ⟨mid, hseparator, -⟩ := hstep
  exfalso
  cases x with
  | nil => exact fails_iff.mp ht.separator mid hseparator
  | cons c x =>
    exact fails_iff.mp (fails_separator_of_nameChars (List.cons_ne_nil c x) hx t) mid hseparator

theorem reaches_list_word {w : String} {x : List Char} (hx : ∀ c ∈ x, isNameChar c = true)
    (ht : EndsList t) (hword : Fails (all [oneOrMany w, blanks] : Pattern Slot) (x ++ t))
    (hsign : Fails (word "#" : Pattern Slot) (x ++ t)) (h : Reaches (Phrase.list w) (x ++ t) rest) :
    ∃ y, (∀ c ∈ y, isNameChar c = true) ∧ rest = y ++ t := by
  rw [Phrase.list, reaches_all_cons] at h
  obtain ⟨mid, hitem, hstar⟩ := h
  obtain ⟨y, hy, rfl⟩ := reaches_item hx ht.name hword hsign hitem
  exact ⟨y, hy, eq_of_reaches_star hy ht hstar⟩

/-- From within an item of a list, no match goes past the end of the list. -/
theorem suffix_of_reaches_tail {w : String} (hw : w = "team" ∨ w = "task") {x : List Char}
    (others : List CleanName) (hx : ∀ c ∈ x, isNameChar c = true) (ht : EndsList t)
    (h : Reaches (star (all [listSeparator, item w])) (x ++ (tail others ++ t)) rest) :
    t <:+ rest := by
  suffices hinv : ∃ y others, (∀ c ∈ y, isNameChar c = true) ∧ rest = y ++ (tail others ++ t) by
    obtain ⟨y, others, -, rfl⟩ := hinv
    exact ⟨y ++ tail others, by simp⟩
  refine invariant_of_reaches_star
    (fun s => ∃ y others, (∀ c ∈ y, isNameChar c = true) ∧ s = y ++ (tail others ++ t)) h
    ⟨x, others, hx, rfl⟩ ?_
  rintro s last ⟨y, others, hy, rfl⟩ hstep
  rw [reaches_all_cons] at hstep
  obtain ⟨mid, hseparator, hitem⟩ := hstep
  cases y with
  | cons c y =>
    exact absurd hseparator
      (fails_iff.mp (fails_separator_of_nameChars (List.cons_ne_nil c y) hy _) mid)
  | nil =>
    cases others with
    | nil => exact absurd hseparator (fails_iff.mp ht.separator mid)
    | cons name others =>
      rw [List.nil_append, tail_cons] at hseparator
      rcases reaches_separator_comma (name.not_blank_head _) hseparator with rfl | rfl
      · obtain ⟨y, hy, rfl⟩ := reaches_item_name hw name (tail_head others ht.name) hitem
        exact ⟨y, others, hy, rfl⟩
      · exact absurd hitem (not_reaches_item_blank hw)

/-- No match of a list behind a word that introduces it goes past the end of the list. -/
theorem suffix_of_reaches_list {w : String} {form : List Char} (h : IsIntroduction w form)
    (list : NameList) (ht : EndsList t)
    (hreach : Reaches (Phrase.list w) (form ++ ' ' :: (list.chars ++ t)) rest) : t <:+ rest := by
  obtain ⟨first, others, -, hchars⟩ := list.chars_eq
  have htail := tail_head others ht.name
  have hhead := first.not_blank_head (tail others ++ t)
  have hends := endsList_name first htail
  rw [hchars, List.append_assoc, Phrase.list, reaches_all_cons] at hreach
  obtain ⟨mid, hitem, hstar⟩ := hreach
  rw [item, reaches_all_cons] at hitem
  obtain ⟨start, hintro, hname⟩ := hitem
  rcases reaches_optional.mp hintro with hform | rfl
  · obtain ⟨behind, hword, hblanks⟩ := reaches_seq.mp hform
    obtain ⟨other, hother, heq⟩ := exists_form_of_reaches h.1 hword
    have hsame : form = other := eq_of_append_eq_append h.nameChars hother.nameChars hends.name
      (ends_name_of_reaches_blanks hblanks) heq
    obtain rfl : _ = behind := List.append_cancel_left (hsame ▸ heq)
    obtain rfl := eq_of_reaches_blanks hhead hblanks
    obtain ⟨y, hy, rfl⟩ := reaches_name first.nameChars htail (first.fails_numberSign _) hname
    exact suffix_of_reaches_tail h.1 others hy ht hstar
  · have hsign : Fails (word "#" : Pattern Slot)
        (form ++ ' ' :: (first.chars ++ (tail others ++ t))) := by
      obtain ⟨rfl | rfl, rfl | rfl⟩ := h <;> rfl
    obtain ⟨y, hy, rfl⟩ := reaches_name h.nameChars hends.name hsign hname
    rw [eq_of_reaches_star hy hends hstar]
    exact ⟨y ++ ' ' :: (first.chars ++ tail others), by simp⟩

/-! ### The two rivals -/

/-- A synchronisation with a condition is not one without. -/
theorem match?_teamSyncBare (teams : NameList) (condition : List Char) :
    teamSyncBare.match? ("sync teams ".toList ++ (teams.chars ++ (" on ".toList ++ condition)))
      = none := by
  refine match?_eq_none fun h => ?_
  have hverb : ∀ s, (all [syncWords, blanks] : Pattern Slot).ends ("sync teams ".toList ++ s)
      = [⟨[], "teams".toList ++ ' ' :: s⟩] := by
    intro s
    cbv
  have hparts : Reaches (all ([syncWords, blanks] ++ [teamList .teams]))
      ("sync teams ".toList ++ (teams.chars ++ (" on ".toList ++ condition))) [] := h
  obtain ⟨mid, hstart, hlist⟩ := reaches_all.mp hparts
  obtain rfl := eq_of_reaches (hverb _) hstart
  have hsuffix := suffix_of_reaches_list isIntroduction_teams teams (endsList_on condition)
    (reaches_slot.mp (reaches_all_last.mp hlist))
  have hnil := List.suffix_nil.mp hsuffix
  exact absurd (List.append_eq_nil_iff.mp hnil).1 (by decide)

/-- Where no name and no white space starts, no priority is found. -/
theorem eq_of_reaches_priorityClause {x : List Char} (hx : ∀ c ∈ x, isNameChar c = true)
    (h : Reaches priorityClause (x ++ (" tasks ".toList ++ t)) rest) :
    rest = x ++ (" tasks ".toList ++ t) := by
  rcases reaches_optional.mp h with hclause | rfl
  · exfalso
    cases x with
    | nil =>
      revert hclause
      rw [List.nil_append]
      have hfails : Fails (all [blanks, oneOf ["with", "at", "as"], blanks,
          slot Slot.priority (oneOf ["low", "normal", "medium", "high", "critical", "urgent"]),
          optional (all [blanks, word "priority"])]) (" tasks ".toList ++ t) := by
        unfold Fails
        cbv
      exact fails_iff.mp hfails rest
    | cons c x =>
      obtain ⟨mid, hblanks, -⟩ := reaches_seq.mp hclause
      exact not_reaches_blanks (not_blank_of_nameChars (List.cons_ne_nil c x) hx _) hblanks
  · rfl

/-- Behind `to`, the rest of an assignment to tasks is no team with a priority. -/
theorem not_reaches_toTeams (tasks : List Char) :
    ¬ Reaches (all [teamList .teams, priorityClause]) ("to".toList ++ (" tasks ".toList ++ tasks))
      [] := by
  intro h
  obtain ⟨mid, hteams, hpriority⟩ := reaches_all_cons.mp h
  have hends : EndsList (" tasks ".toList ++ tasks) := endsList_word (by decide) (by decide) _
  have hword : Fails (all [oneOrMany "team", blanks] : Pattern Slot)
      ("to".toList ++ (" tasks ".toList ++ tasks)) := by
    unfold Fails
    cbv
  obtain ⟨y, hy, rfl⟩ := reaches_list_word (List.all_eq_true.mp rfl) hends hword rfl (reaches_slot.mp hteams)
  have hnil := eq_of_reaches_priorityClause hy (reaches_all_last.mp hpriority)
  exact absurd (List.append_eq_nil_iff.mp (List.append_eq_nil_iff.mp hnil.symm).2).1 (by decide)

/-- Read as a list of tasks, `teams` is the only task, since no separator stands behind it. -/
theorem eq_of_reaches_teams_blanks (first : CleanName)
    (ht : ∀ c ∈ t.head?, isNameChar c = false)
    (h : Reaches (all [taskList, blanks]) ("teams".toList ++ ' ' :: (first.chars ++ t)) rest) :
    rest = first.chars ++ t := by
  have hword : Fails (all [oneOrMany "task", blanks] : Pattern Slot)
      ("teams".toList ++ ' ' :: (first.chars ++ t)) := by
    unfold Fails
    cbv
  obtain ⟨mid, htasks, hblanks⟩ := reaches_all_cons.mp h
  obtain ⟨y, hy, rfl⟩ := reaches_list_word (List.all_eq_true.mp rfl) (endsList_name first ht) hword
    rfl (reaches_slot.mp htasks)
  rw [reaches_all_last] at hblanks
  have hyNil : y = [] := by
    by_contra hne
    exact not_reaches_blanks (not_blank_of_nameChars hne hy _) hblanks
  rw [hyNil, List.nil_append] at hblanks
  exact eq_of_reaches_blanks (first.not_blank_head t) hblanks

/-- Behind `teams` as a task, the first team would have to be `to`, with a team behind it. -/
theorem not_reaches_toFirst (first : CleanName) (others : List CleanName) (tasks : List Char) :
    ¬ Reaches (all [word "to", blanks, teamList .teams, priorityClause])
      (first.chars ++ (tail others ++ (" to tasks ".toList ++ tasks))) [] := by
  intro h
  have hto := endsList_toTasks tasks
  obtain ⟨afterTo, hfirst, hrest⟩ := reaches_all_cons.mp h
  obtain ⟨afterBlanks, hblanks, hrest⟩ := reaches_all_cons.mp hrest
  have heq := reaches_word.mp hfirst
  have hname : first.chars = "to".toList := eq_of_append_eq_append first.nameChars
    (List.all_eq_true.mp rfl) (tail_head others hto.name) (ends_name_of_reaches_blanks hblanks) heq
  obtain rfl : _ = afterTo := List.append_cancel_left (hname ▸ heq)
  cases others with
  | cons name others =>
    have hcomma : ∀ c ∈ (tail (name :: others) ++ (" to tasks ".toList ++ tasks)).head?,
        isBlank c = false := by
      intro c hc
      rw [tail_cons] at hc
      obtain rfl : ',' = c := Option.some.inj hc
      decide
    exact not_reaches_blanks hcomma hblanks
  | nil =>
    have hblank : ∀ c ∈ ("to".toList ++ (" tasks ".toList ++ tasks)).head?, isBlank c = false := by
      intro c hc
      obtain rfl : 't' = c := Option.some.inj hc
      decide
    obtain rfl := eq_of_reaches_blanks hblank hblanks
    exact not_reaches_toTeams tasks hrest

/-- An assignment of teams to tasks is not one of the task `teams` to a team. -/
theorem match?_teamAssignInverse (teams : NameList) (tasks : List Char) :
    teamAssignInverse.match? ("assign teams ".toList ++ (teams.chars ++ (" to tasks ".toList ++ tasks)))
      = none := by
  apply match?_eq_none
  intro h
  have hverb : ∀ s, (all [oneOf ["allocate", "delegate", "assign", "give"], blanks] :
      Pattern Slot).ends ("assign teams ".toList ++ s) = [⟨[], "teams".toList ++ ' ' :: s⟩] := by
    intro s
    cbv
  have hparts : Reaches (all ([oneOf ["allocate", "delegate", "assign", "give"], blanks]
      ++ [taskList, blanks, word "to", blanks, teamList .teams, priorityClause]))
      ("assign teams ".toList ++ (teams.chars ++ (" to tasks ".toList ++ tasks))) [] := h
  obtain ⟨start, hstart, hrest⟩ := reaches_all.mp hparts
  obtain rfl := eq_of_reaches (hverb _) hstart
  obtain ⟨first, others, -, hchars⟩ := teams.chars_eq
  have htail := tail_head others (endsList_toTasks tasks).name
  rw [hchars, List.append_assoc] at hrest
  have hlists : Reaches (all ([taskList, blanks]
      ++ [word "to", blanks, teamList .teams, priorityClause]))
      ("teams".toList ++ ' ' :: (first.chars ++ (tail others ++ (" to tasks ".toList ++ tasks)))) [] :=
    hrest
  obtain ⟨behind, htasks, hto⟩ := reaches_all.mp hlists
  obtain rfl := eq_of_reaches_teams_blanks first htail htasks
  exact not_reaches_toFirst first others tasks hto

end TeamOrders
