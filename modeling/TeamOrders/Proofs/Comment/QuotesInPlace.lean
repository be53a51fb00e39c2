import TeamOrders.Proofs.Comment.Neighbours

/-!
# Quotes in their places

What becomes of a quote can be told from its place in the trimmed comment alone: from the character that
stands before it there and the one behind it. No pass over quotes moves a character, so the three of them
together are one pass from place to place.
-/

namespace TeamOrders.Comment

open Text

variable {s : List Char}

/-- Every character between the neighbours that it has in the text, place by place. -/
def unifiedInPlace (s : List Char) : List Char :=
  s.mapIdx fun place c => unifiedAt (s.take place).getLast? c (s.drop (place + 1)).head?

theorem unified_eq_mapIdx (before : Option Char) (s : List Char) : unified before s =
    s.mapIdx fun place c =>
      unifiedAt ((s.take place).getLast?.or before) c (s.drop (place + 1)).head? := by
  induction s generalizing before with
  | nil => rfl
  | cons c s ih =>
    rw [unified_cons, ih, List.mapIdx_cons]
    simp only [List.take_succ_cons, List.drop_succ_cons, getLast?_cons_or]
    rfl

theorem unified_eq_unifiedInPlace (s : List Char) : unified none s = unifiedInPlace s := by
  rw [unified_eq_mapIdx, unifiedInPlace]
  simp only [Option.or_none]

theorem getElem?_unifiedInPlace (front : List Char) (c : Char) (back : List Char) :
    (unifiedInPlace (front ++ c :: back))[front.length]? =
      some (unifiedAt front.getLast? c back.head?) := by
  have hdrop : (front ++ c :: back).drop (front.length + 1) = back := by
    rw [List.drop_append]
    simp
  rw [unifiedInPlace, List.getElem?_mapIdx, List.getElem?_append_right (Nat.le_refl _), Nat.sub_self,
    List.getElem?_cons_zero, Option.map_some, List.take_left, hdrop]

/-- A single quote stays where no quotation can open or close. -/
theorem unifiedAt_between {a b c : Char} (hquote : isSingleQuote c = true)
    (ha : opensQuote a = false) (hb : closesQuote b = false) : unifiedAt (some a) c (some b) = c := by
  have hfancy : isFancyQuote c = false := by
    rw [Bool.eq_false_iff]
    intro hfancy
    rw [(neutral_of_isFancyQuote hfancy).1] at hquote
    cases hquote
  simp [unifiedAt, hfancy, ha, hb]

theorem neutral_of_isWord {c : Char} (h : isWord c = true) :
    opensQuote c = false ∧ closesQuote c = false := by
  have hplain := markOf_of_isWord h
  constructor
  · rw [Bool.eq_false_iff, ne_eq, opensQuote_iff_markOf, hplain]
    decide
  · rw [Bool.eq_false_iff, ne_eq, closesQuote_iff_markOf, hplain]
    decide

/-- The passes over quotes are one pass that judges every character where it stands, and the normal form of
a text begins with that pass over the trimmed text. A single quote between two word characters, as an
apostrophe is, stays. -/
theorem quotes_unified_in_place (vocabulary : Vocabulary) (s : List Char) :
    closeQuotes (openQuotes (straighten s)) = unifiedInPlace s ∧
    normalize vocabulary s = vocabulary.apply
      (lower (spaceTeams (spaceTasks (squeeze false (unifiedInPlace (trim s)))))) ∧
    ∀ front a c b back, s = front ++ a :: c :: b :: back → isWord a = true →
      isSingleQuote c = true → isWord b = true →
      (unifiedInPlace s)[front.length + 1]? = some c := by
  have hpasses : ∀ text, unifyQuotes text = unifiedInPlace text := fun text =>
    (unifyQuotes_eq_unified text).trans (unified_eq_unifiedInPlace text)
  refine ⟨hpasses s, ?_, ?_⟩
  · rw [normalize, fold_eq, hpasses]
  · rintro front a c b back rfl ha hquote hb
    have hplace := getElem?_unifiedInPlace (front ++ [a]) c (b :: back)
    rw [List.getLast?_concat, List.head?_cons,
      unifiedAt_between hquote (neutral_of_isWord ha).1 (neutral_of_isWord hb).2] at hplace
    simpa using hplace

/-- Beside curly quotes, single and double, the apostrophe stays. -/
theorem quotes_unified_in_place_of_apostrophe :
    let front := "(‘do".toList
    let back := "’, “go” ‘now’)".toList
    let text := front ++ 'n' :: '’' :: 't' :: back
    isWord 'n' = true ∧ isSingleQuote '’' = true ∧ isWord 't' = true ∧
      closeQuotes (openQuotes (straighten text)) = "(\"don’t\", \"go\" \"now\")".toList ∧
      (unifiedInPlace text)[front.length + 1]? = some '’' := by
  intro front back text
  have hn : isWord 'n' = true := by decide
  have hquote : isSingleQuote '’' = true := by decide
  have ht : isWord 't' = true := by decide
  have hunified : unifiedInPlace text = "(\"don’t\", \"go\" \"now\")".toList := by decide +kernel
  obtain ⟨hpasses, -, hkept⟩ := quotes_unified_in_place ⟨[]⟩ text
  exact ⟨hn, hquote, ht, hpasses.trans hunified, hkept front 'n' '’' 't' back rfl hn hquote ht⟩

end TeamOrders.Comment
