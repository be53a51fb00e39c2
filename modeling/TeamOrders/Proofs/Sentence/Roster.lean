import TeamOrders.Proofs.Roster.Items
import TeamOrders.Proofs.Sentence.Normal

/-!
# Lists of clean names are taken apart as they were put together

A list of clean names behind a word such as `teams` is cut at its commas and blanks. What introduces it
and what is empty between two separators is dropped; every name is kept, since it is none of the words
that are dropped and holds none of the marks that are cut off. No clean name is a range, and none has
the prefix of a team yet.
-/

namespace TeamOrders

open Text

variable {s t : List Char}

theorem intercalate_cons_eq (sep first : List Char) (rest : List (List Char)) :
    sep.intercalate (first :: rest) = first ++ rest.flatMap (sep ++ ·) := by
  induction rest generalizing first with
  | nil => simp
  | cons next rest ih =>
    rw [List.intercalate_cons_cons, ih, List.flatMap_cons]
    simp only [List.append_assoc]

theorem NameList.smooth_introduced {word : List Char} (list : NameList) (h : word ∈ listWords) :
    Smooth true (word ++ ' ' :: list.chars) false := by
  have hlooks : ∀ word ∈ listWords, looksSmooth true (word ++ [' ']) true = true := by decide
  have hends : endsInWord (word ++ [' ']).getLast? = false := by
    rw [List.getLast?_append]
    rfl
  have hsmooth := (smooth_of_looksSmooth (hlooks word h)).append (list.smooth true) (.inl hends)
  rwa [List.append_assoc] at hsmooth

namespace Roster

/-! ### Fields -/

theorem fields_names (first : CleanName) (rest : List CleanName) :
    fields separatesItems ([',', ' '].intercalate ((first :: rest).map (·.chars)))
      = first.chars :: rest.flatMap fun name => [[], name.chars] := by
  have hname : ∀ name : CleanName, ∀ c ∈ name.chars, separatesItems c = false := fun name c hc =>
    separatesItems_of_plain c (name.plain c hc)
  rw [List.map_cons, intercalate_cons_eq]
  induction rest generalizing first with
  | nil =>
    rw [List.map_nil, List.flatMap_nil, List.append_nil, fields_of_none (hname first)]
    rfl
  | cons next rest ih =>
    have hblank : fields separatesItems (' ' :: (next.chars
          ++ (rest.map (·.chars)).flatMap ([',', ' '] ++ ·)))
        = [] :: fields separatesItems (next.chars
          ++ (rest.map (·.chars)).flatMap ([',', ' '] ++ ·)) :=
      fields_cons_of_separates (by decide) _
    rw [List.map_cons, List.flatMap_cons, List.append_assoc]
    change fields separatesItems (first.chars ++ ',' :: (' ' :: (next.chars
      ++ (rest.map (·.chars)).flatMap ([',', ' '] ++ ·)))) = _
    rw [fields_cut (hname first) (by decide), hblank, ih next, List.flatMap_cons]
    rfl

/-! ### Items -/

theorem bare_eq_self (h : ∀ c ∈ s, c ∈ plainChars) : bare s = s := by
  have hquote : '"' ∉ s := fun hmem => absurd (h _ hmem) (by decide)
  have hsign : ∀ c ∈ s.head?, (c == '#') = false := by
    intro c hc
    simpa using (ne_mark_of_plain c (h c (List.mem_of_head? hc))).1
  rw [bare_of_no_quote hquote, dropWhile_eq_self hsign]

theorem map_toLower_eq_self (h : ∀ c ∈ s, c ∈ plainChars) : s.map Char.toLower = s := by
  refine (List.map_congr_left fun c hc => ?_).trans (List.map_id' s)
  exact toLower_of_sentence c (List.mem_cons_of_mem _ (List.mem_cons_of_mem _ (h c hc)))

theorem keeps_name {introducing : List (List Char)} (h : ∀ word ∈ introducing, word ∈ listWords)
    (name : CleanName) : keeps introducing name.chars = true := by
  have hempty : name.chars.isEmpty = false := by simpa using name.nonempty
  have hconnectors : name.chars ∉ connectors := by
    intro hmem
    have hword : name.chars = ['&'] ∨ name.chars ∈ listWords := by
      have hall : ∀ word ∈ connectors, word = ['&'] ∨ word ∈ listWords := by decide
      exact hall _ hmem
    rcases hword with hword | hword
    · have hplain := name.plain '&' (by rw [hword]; exact List.mem_cons_self)
      exact absurd hplain (by decide)
    · exact name.named hword
  have hintroducing : name.chars ∉ introducing := fun hmem => name.named (h _ hmem)
  simp [keeps, map_toLower_eq_self name.plain, hempty, hconnectors, hintroducing]

/-- A list behind a word that introduces it has the names of the list as items. -/
theorem items_names {introducing : List (List Char)} {word : List Char} (list : NameList)
    (h : ∀ word ∈ introducing, word ∈ listWords) (hword : word ∈ introducing) :
    items introducing (word ++ ' ' :: list.chars) = list.names.map (·.chars) := by
  have hchars : ∀ word ∈ listWords, (word.all fun c => decide (c ∈ plainChars)) = true := by decide
  have hplain : ∀ c ∈ word, c ∈ plainChars :=
    List.all_iff_forall_prop.mp (hchars word (h word hword))
  have htrim : trim (word ++ ' ' :: list.chars) = word ++ ' ' :: list.chars :=
    trim_eq_self (list.smooth_introduced (h word hword)).isTrimmed
  have hdropped : keeps introducing word = false := by
    simp [keeps, map_toLower_eq_self hplain, hword]
  have hseparates : ∀ c ∈ word, separatesItems c = false := fun c hc =>
    separatesItems_of_plain c (hplain c hc)
  obtain ⟨first, rest, hnames⟩ := List.exists_cons_of_ne_nil list.nonempty
  have hrest : ∀ names : List CleanName,
      ((names.flatMap fun name => [[], name.chars]).map bare).filter (keeps introducing)
        = names.map (·.chars) := by
    intro names
    induction names with
    | nil => rfl
    | cons name names ih =>
      have hnil : keeps introducing (bare []) = false := by
        simp [keeps, bare, trimBy, trimStartBy, trimEndBy]
      rw [List.flatMap_cons, List.map_append, List.filter_append, ih]
      simp [hnil, bare_eq_self name.plain, keeps_name h name]
  change ((fields separatesItems (trim (word ++ ' ' :: list.chars))).map bare).filter
    (keeps introducing) = _
  rw [htrim, fields_cut hseparates (by decide), NameList.chars, hnames, fields_names,
    List.map_cons, List.map_cons, List.filter_cons, List.filter_cons, hrest,
    bare_eq_self hplain, hdropped, bare_eq_self first.plain, keeps_name h first]
  rfl

/-! ### Names -/

theorem range?_plain (h : ∀ c ∈ s, c ∈ plainChars) : range? s = none := by
  have hnone : s.dropWhile (· != '-') = [] := by
    rw [List.dropWhile_eq_nil_iff]
    intro c hc
    simpa using (ne_mark_of_plain c (h c hc)).2.2.1
  rw [range?, cutAt, hnone]

theorem isTrimmed_plain (h : ∀ c ∈ s, c ∈ plainChars) : IsTrimmed s := by
  constructor
  · intro c hc
    exact isBlank_of_plain c (h c (List.mem_of_head? hc))
  · intro c hc
    exact isBlank_of_plain c (h c (List.mem_of_getLast? hc))

theorem trimStart_plain (h : ∀ c ∈ s, c ∈ plainChars) : trimStartBy (· == '#') s = s := by
  apply dropWhile_eq_self
  intro c hc
  simpa using (ne_mark_of_plain c (h c (List.mem_of_head? hc))).1

theorem teamName_plain (h : ∀ c ∈ s, c ∈ plainChars) : teamName s = teamPrefix ++ s := by
  have hlower : lower s = s := lower_eq_self fun c hc =>
    isSmall_of_sentence c (List.mem_cons_of_mem _ (List.mem_cons_of_mem _ (h c hc)))
  have hstarts : teamPrefix.isPrefixOf s = false := by
    rw [Bool.eq_false_iff]
    intro hprefix
    have hdash : '-' ∈ s := (List.isPrefixOf_iff_prefix.mp hprefix).subset (by decide)
    exact absurd (h _ hdash) (by decide)
  unfold teamName
  dsimp only
  rw [trim_eq_self (isTrimmed_plain h), trimStart_plain h, hlower, if_neg (by simp [hstarts])]

theorem distinct_eq_self {α : Type} [DecidableEq α] {names : List α} (h : names.Nodup) :
    distinct names = names := by
  suffices hgo : ∀ seen : List α, (∀ name ∈ names, name ∉ seen) → distinct.go seen names = names from
    hgo [] (by simp)
  induction names with
  | nil =>
    intro seen _
    rfl
  | cons name rest ih =>
    intro seen hseen
    obtain ⟨hname, hrest⟩ := List.nodup_cons.mp h
    have hgo := ih hrest (name :: seen) (by
      intro other hother hmem
      rcases List.mem_cons.mp hmem with rfl | hmem
      · exact hname hother
      · exact hseen other (List.mem_cons_of_mem _ hother) hmem)
    rw [distinct.go, if_neg (hseen name List.mem_cons_self), hgo]

theorem namedBy_names {introducing : List (List Char)} {ofNumber : Nat → List Char}
    {ofItem : List Char → List Char} {word : List Char} (list : NameList)
    (h : ∀ word ∈ introducing, word ∈ listWords) (hword : word ∈ introducing) :
    namedBy introducing ofNumber ofItem (word ++ ' ' :: list.chars)
      = list.names.map fun name => ofItem name.chars := by
  rw [namedBy, items_names list h hword, List.flatMap_map, List.map_eq_flatMap]
  congr 1
  funext name
  rw [range?_plain name.plain]

theorem teams_names {word : List Char} (list : NameList) (h : word ∈ teamWords) :
    teams (word ++ ' ' :: list.chars) = list.names.map fun name => teamPrefix ++ name.chars := by
  rw [teams_eq_namedBy, namedBy_names list (by decide) h]
  exact List.map_congr_left fun name _ => teamName_plain name.plain

theorem tasks_names {word : List Char} (list : NameList) (h : word ∈ taskWords) :
    tasks (word ++ ' ' :: list.chars) = list.names.map (·.chars) :=
  namedBy_names list (by decide) h

end Roster

end TeamOrders
