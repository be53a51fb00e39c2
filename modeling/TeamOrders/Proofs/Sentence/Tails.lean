import TeamOrders.Proofs.Comment.Joined
import TeamOrders.Proofs.Roster.Agreement
import TeamOrders.Proofs.Sentence.Meant

/-!
# What stands behind the teams of a block

A tail is any text in its normal form that does not go on with the list of teams. The list ends before
it, and the grammar takes it in one of two ways: a word that introduces a condition is taken off where
a blank and more stand behind it, and otherwise the whole of the tail is the condition.
-/

namespace TeamOrders

open Pattern Phrase Text Comment

/-! ### Names of teams -/

/-- The words that introduce or take apart lists of teams, or separate instructions. -/
def reservedWords : List (List Char) :=
  ["team", "teams", "and", "or", "then", "also"].map String.toList

/-- A name of a team: small letters, digits and underscores that make none of the reserved words. -/
structure TeamWord where
  chars : List Char
  nonempty : chars ≠ []
  plain : ∀ c ∈ chars, c ∈ plainChars ∧ c ≠ '.'
  free : chars ∉ reservedWords

/-- A text of word characters holds no word but itself. -/
theorem eq_of_holdsWord {word s : List Char} (hs : ∀ c ∈ s, isWord c = true)
    (h : HoldsWord word s) : s = word := by
  obtain ⟨before, after, rfl, hbefore, hafter⟩ := h
  have hnone : before = [] := by
    by_contra hne
    rw [endsInWord_of_word hne fun c hc => hs c (List.mem_append_left _ hc)] at hbefore
    cases hbefore
  have hnone' : after = [] := by
    by_contra hne
    rw [startsInWord_of_word hne fun c hc =>
      hs c (List.mem_append_right _ (List.mem_append_right _ hc))] at hafter
    cases hafter
  rw [hnone, hnone', List.nil_append, List.append_nil]

namespace TeamWord

def ofText (s : String)
    (h : s.toList ≠ [] ∧ (s.toList.all fun c => decide (c ∈ plainChars ∧ c ≠ '.')) = true ∧
      s.toList ∉ reservedWords) : TeamWord :=
  ⟨s.toList, h.1, List.all_iff_forall_prop.mp h.2.1, h.2.2⟩

variable (name : TeamWord)

def team : String := "team-" ++ String.ofList name.chars

theorem isWord : ∀ c ∈ name.chars, isWord c = true := by
  have hplain : ∀ c ∈ plainChars, c = '.' ∨ Text.isWord c = true :=
    List.all_iff_forall_prop.mp (by decide)
  exact fun c hc => (hplain c (name.plain c hc).1).resolve_left (name.plain c hc).2

def toPlainWord : PlainWord where
  chars := name.chars
  nonempty := name.nonempty
  plain := fun c hc => (name.plain c hc).1
  noThen := fun h => name.free (eq_of_holdsWord name.isWord h ▸ by decide)
  noAlso := fun h => name.free (eq_of_holdsWord name.isWord h ▸ by decide)

theorem items_eq :
    Roster.items Roster.teamWords ("team".toList ++ ' ' :: name.chars) = [name.chars] := by
  have hplain : ∀ c ∈ name.chars, c ∈ plainChars := name.toPlainWord.plain
  have hconnectors : name.chars ∉ Roster.connectors := by
    have hwords : ∀ word ∈ Roster.connectors, word = ['&'] ∨ word ∈ reservedWords := by
      decide
    intro hmem
    rcases hwords _ hmem with hword | hword
    · exact absurd (hplain '&' (hword ▸ List.mem_cons_self)) (by decide)
    · exact name.free hword
  have hintroducing : name.chars ∉ Roster.teamWords := by
    have hwords : ∀ word ∈ Roster.teamWords, word ∈ reservedWords := by decide
    exact fun hmem => name.free (hwords _ hmem)
  have hkeeps : Roster.keeps Roster.teamWords name.chars = true := by
    simp [Roster.keeps, Roster.map_toLower_eq_self hplain, name.nonempty, hconnectors, hintroducing]
  rw [Roster.items_eq_itemsWithin, Roster.itemsWithin_append (by decide),
    dropsWord_teamWords _ (.inl rfl), List.nil_append,
    itemsWithin_of_unbroken fun c hc => separatesItems_of_plain c (hplain c hc),
    Roster.bare_eq_self hplain, List.filter_cons_of_pos hkeeps, List.filter_nil]

theorem teamsIn_eq {m : Match} {role : Slot}
    (h : m.get? role = some ("team".toList ++ ' ' :: name.chars)) :
    Meaning.teamsIn m role = [name.team] := by
  have hplain : ∀ c ∈ name.chars, c ∈ plainChars := name.toPlainWord.plain
  have hteams : Roster.teams ("team".toList ++ ' ' :: name.chars)
      = [Roster.teamPrefix ++ name.chars] := by
    rw [Roster.teams, name.items_eq, List.flatMap_singleton, Roster.range?_plain hplain,
      Roster.teamName_plain hplain]
  rw [Meaning.teamsIn, Meaning.textIn, h, Option.getD_some, hteams]
  exact congrArg (fun id => [id]) (ofList_teamPrefix_append name.chars)

end TeamWord

/-! ### Tails -/

/-- What may stand behind the teams of a block: nothing, or a text that is its own normal form, holds
no quotes and no separators, and does not go on with the list of the teams. -/
structure Tail where
  chars : List Char
  normal : normalized chars = chars
  unquoted : '"' ∉ chars
  unseparated : Unseparated chars
  apart : ∀ start ∈ [",", "&", "and "], ¬ start.toList <+: chars

namespace Tail

def ofText (s : String)
    (h : normalized s.toList = s.toList ∧ '"' ∉ s.toList ∧ Unseparated s.toList ∧
      ∀ start ∈ [",", "&", "and "], ¬ start.toList <+: s.toList) : Tail :=
  ⟨s.toList, h.1, h.2.1, h.2.2.1, h.2.2.2⟩

variable (tail : Tail)

def clause : List Char := if tail.chars = [] then [] else ' ' :: tail.chars

def first : List Char := tail.chars.takeWhile (· != ' ')

/-- The tail without a word that introduces a condition, if it starts with one. -/
def stated : List Char :=
  if tail.first ∈ conditionWords then tail.chars.drop (tail.first.length + 1) else tail.chars

/-- The condition that the tail states. Where nothing is stated, it is completion. -/
def condition : String :=
  if tail.stated = [] then "completion" else String.ofList tail.stated

/-- The condition, if it is introduced by `until` and stated. -/
def until? : Option String :=
  if tail.first = "until".toList ∧ tail.stated ≠ [] then some tail.condition else none

/-- The condition that is read. A word that introduces a condition, with nothing behind it, is taken
for the condition. -/
def readCondition : String :=
  if tail.chars ∈ conditionWords then String.ofList tail.chars else tail.condition

theorem fold_eq : fold tail.chars = tail.chars := by
  rw [← normalized_eq_fold, tail.normal]

theorem isTrimmed : IsTrimmed tail.chars := isTrimmed_of_fold_eq tail.fold_eq

theorem eq_blank {c : Char} (hc : c ∈ tail.chars) (h : isBlank c = true) : c = ' ' :=
  (plain_of_fold_eq tail.fold_eq c hc).2 h

theorem not_mem_newline : '\n' ∉ tail.chars := fun hmem =>
  absurd (tail.eq_blank hmem (by decide)) (by decide)

/-! ### The list of teams ends before a tail -/

theorem fails_listSeparator : Fails listSeparator (' ' :: tail.chars) := by
  apply fails_listSeparator_blank_cons tail.isTrimmed.1
  · intro c hc
    obtain ⟨rest, hchars⟩ := List.head?_eq_some_iff.mp hc
    constructor
    · rintro rfl
      exact tail.apart "," (by decide) ⟨rest, hchars.symm⟩
    · rintro rfl
      exact tail.apart "&" (by decide) ⟨rest, hchars.symm⟩
  · intro c rest hchars
    rw [Bool.eq_false_iff]
    intro hblank
    obtain rfl := tail.eq_blank (by simp [hchars]) hblank
    exact tail.apart "and " (by decide) ⟨rest, by simp [hchars]⟩

theorem endsList_clause : EndsList tail.clause := by
  unfold clause
  split
  · exact endsList_nil
  · exact endsList_blank tail.fails_listSeparator

/-! ### What the grammar takes for the condition -/

/-- A tail is its first word, or goes on behind it with a blank and a trimmed text. -/
theorem chars_eq_first_or : tail.chars = tail.first ∨
    ∃ rest, tail.chars = tail.first ++ ' ' :: rest ∧ rest ≠ [] ∧ IsTrimmed rest := by
  have hsplit : tail.chars = tail.first ++ tail.chars.dropWhile (· != ' ') :=
    List.takeWhile_append_dropWhile.symm
  cases hdrop : tail.chars.dropWhile (· != ' ') with
  | nil =>
    rw [hdrop, List.append_nil] at hsplit
    exact .inl hsplit
  | cons c rest =>
    obtain rfl : c = ' ' := by
      simpa using head?_dropWhile_eq_false (· != ' ') tail.chars c (by rw [hdrop]; rfl)
    rw [hdrop] at hsplit
    have hlast : ∀ d ∈ (' ' :: rest).getLast?, isBlank d = false := by
      have htrimmed := tail.isTrimmed.2
      rwa [hsplit, List.getLast?_append_of_ne_nil _ (List.cons_ne_nil _ _)] at htrimmed
    have hne : rest ≠ [] := by
      rintro rfl
      exact absurd (hlast ' ' rfl) (by decide)
    refine .inr ⟨rest, hsplit, hne, fun d hd => ?_, ?_⟩
    · rw [Bool.eq_false_iff]
      intro hblank
      have hmem : d ∈ tail.chars := hsplit ▸ List.mem_append_right _
        (List.mem_cons_of_mem _ (List.mem_of_head? hd))
      obtain rfl := tail.eq_blank hmem hblank
      obtain ⟨rest, rfl⟩ := List.head?_eq_some_iff.mp hd
      exact not_two_blanks_of_fold_eq tail.fold_eq ⟨tail.first, rest, by simp [hsplit]⟩
    · obtain ⟨d, rest, rfl⟩ := List.exists_cons_of_ne_nil hne
      rwa [List.getLast?_cons_cons] at hlast

/-- Where no word that introduces a condition has a blank behind it, none is taken off. -/
theorem takes_conditionClause_whole (hne : tail.chars ≠ [])
    (h : ∀ word ∈ conditionWords, ∀ rest, tail.chars ≠ word ++ ' ' :: rest) :
    Takes conditionClause (' ' :: tail.chars) [(.condition, ⟨tail.chars, []⟩)] [] := by
  have hfails : Fails (all [slot Slot.connector
      (oneOf ["until", "when", "because", "for", "after"]), blanks]) tail.chars := by
    rw [fails_iff]
    intro rest hreaches
    obtain ⟨mid, hword, hblanks⟩ := reaches_all_cons.mp hreaches
    obtain ⟨word, hmem, hmid⟩ := reaches_oneOf.mp (reaches_slot.mp hword)
    obtain ⟨gap, hgapne, hgap, rfl⟩ := reaches_run.mp (reaches_all_last.mp hblanks)
    obtain ⟨c, gap, rfl⟩ := List.exists_cons_of_ne_nil hgapne
    have hc : c ∈ tail.chars := by
      rw [hmid]
      simp
    obtain rfl := tail.eq_blank hc (hgap c List.mem_cons_self)
    exact h word.toList (List.mem_map_of_mem hmem) (gap ++ rest) hmid
  have hblank := takes_blank tail.isTrimmed.1
  exact (hblank.cons ((takes_optional_of_fails hfails).cons
    (takes_restOfLine hne tail.not_mem_newline).last)).optional

/-! ### What a tail states -/

theorem not_mem_first : ' ' ∉ tail.first := fun hmem => by
  simpa using List.mem_takeWhile_imp hmem

theorem first_of_chars_eq {word rest : List Char} (hword : ' ' ∉ word)
    (h : tail.chars = word ++ ' ' :: rest) : tail.first = word := by
  have hkeep : ∀ c ∈ word, (c != ' ') = true := fun c hc =>
    bne_iff_ne.mpr fun heq => hword (heq ▸ hc)
  rw [first, h, List.takeWhile_append_of_pos hkeep, List.takeWhile_cons_of_neg (by decide),
    List.append_nil]

theorem blank_not_mem_of_mem_conditionWords {word : List Char} (h : word ∈ conditionWords) :
    ' ' ∉ word := by
  have hwords : ∀ word ∈ conditionWords, ' ' ∉ word := by decide
  exact hwords word h

theorem not_mem_conditionWords {word rest : List Char} (h : tail.chars = word ++ ' ' :: rest) :
    tail.chars ∉ conditionWords := fun hmem =>
  blank_not_mem_of_mem_conditionWords hmem (h ▸ by simp)

/-- A tail that states nothing leaves the condition to the default. -/
theorem condition_of_stated_eq_nil (h : tail.stated = []) :
    tail.condition = "completion" ∧ tail.until? = none := by
  rw [condition, until?, h, if_pos rfl, if_neg fun hand => hand.2 rfl]
  exact ⟨rfl, rfl⟩

theorem condition_of_nil (h : tail.chars = []) :
    tail.condition = "completion" ∧ tail.until? = none := by
  have hstated : tail.stated = [] := by
    rw [stated, h, List.drop_nil, ite_self]
  exact tail.condition_of_stated_eq_nil hstated

theorem condition_of_not_mem (h : tail.first ∉ conditionWords) (hne : tail.chars ≠ []) :
    tail.condition = String.ofList tail.chars ∧ tail.until? = none := by
  have hstated : tail.stated = tail.chars := if_neg h
  have huntil : tail.first ≠ "until".toList := fun heq => h (heq ▸ by decide)
  rw [condition, until?, hstated, if_neg hne, if_neg fun hand => huntil hand.1]
  exact ⟨rfl, rfl⟩

theorem condition_of_bare (hfirst : tail.chars = tail.first) (h : tail.chars ∈ conditionWords) :
    tail.condition = "completion" ∧ tail.until? = none := by
  have hstated : tail.stated = [] := by
    rw [stated, ← hfirst, if_pos h, List.drop_of_length_le (Nat.le_succ _)]
  exact tail.condition_of_stated_eq_nil hstated

theorem condition_of_mem {rest : List Char} (h : tail.first ∈ conditionWords)
    (heq : tail.chars = tail.first ++ ' ' :: rest) (hne : rest ≠ []) :
    tail.condition = String.ofList rest ∧
      tail.until? = if tail.first = "until".toList then some (String.ofList rest) else none := by
  have hstated : tail.stated = rest := by
    rw [stated, if_pos h]
    generalize tail.first = word at heq
    rw [heq, ← List.drop_drop, List.drop_left]
    rfl
  rw [condition, until?, condition, hstated, if_neg hne]
  simp only [ne_eq, hne, not_false_eq_true, and_true]

theorem readCondition_of_mem (h : tail.chars ∈ conditionWords) :
    tail.readCondition = String.ofList tail.chars := if_pos h

theorem readCondition_of_not_mem (h : tail.chars ∉ conditionWords) :
    tail.readCondition = tail.condition := if_neg h

/-- The condition that is read is the one that the tail states, unless nothing stands behind the word
that introduces it. -/
theorem readCondition_eq_iff : tail.readCondition = tail.condition ↔ tail.chars ∉ conditionWords := by
  have hother : ∀ word ∈ conditionWords, String.ofList word ≠ "completion" := by decide
  refine ⟨fun heq hmem => ?_, tail.readCondition_of_not_mem⟩
  rcases tail.chars_eq_first_or with hbare | ⟨rest, hlonger, -⟩
  · rw [tail.readCondition_of_mem hmem, (tail.condition_of_bare hbare hmem).1] at heq
    exact hother _ hmem heq
  · exact tail.not_mem_conditionWords hlonger hmem

end Tail

end TeamOrders
