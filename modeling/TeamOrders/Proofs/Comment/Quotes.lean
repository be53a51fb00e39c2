import Mathlib.Data.List.Induction
import TeamOrders.Comment.Normal

/-!
# Quotes are judged by their neighbours

Each of the two passes over single quotes consumes the neighbour that decides. No such neighbour is a
single quote itself, so nothing is missed by that, and each pass is the pointwise one that looks at
the character before, or at the character behind. From this form it is plain where a text can be cut
without a quote being judged differently.
-/

namespace TeamOrders.Comment

open Text

variable {s t : List Char} {c : Char}

/-! ### Quotes and the characters that decide about them -/

theorem isFancyQuote_iff : isFancyQuote c = true ↔
    c = '“' ∨ c = '”' ∨ c = '„' ∨ c = '‟' ∨ c = '«' ∨ c = '»' ∨ c = '\u0060' := by
  simp [isFancyQuote]

theorem isSingleQuote_iff : isSingleQuote c = true ↔
    c = '\'' ∨ c = '‘' ∨ c = '’' ∨ c = '‚' ∨ c = '‛' := by
  simp [isSingleQuote]

theorem opensQuote_iff : opensQuote c = true ↔ isBlank c = true ∨ c = '(' := by
  simp [opensQuote]

theorem closesQuote_iff : closesQuote c = true ↔ isBlank c = true ∨
    c = ',' ∨ c = '.' ∨ c = ';' ∨ c = ':' ∨ c = '!' ∨ c = '?' ∨ c = ')' := by
  simp [closesQuote]

/-- A quote of any kind is no neighbour by which others open or close. -/
theorem neutral_of_isFancyQuote (h : isFancyQuote c = true) :
    isSingleQuote c = false ∧ opensQuote c = false ∧ closesQuote c = false := by
  rcases isFancyQuote_iff.mp h with rfl | rfl | rfl | rfl | rfl | rfl | rfl <;>
    exact ⟨rfl, by decide, by decide⟩

theorem not_isSingleQuote_of_decides (h : opensQuote c = true ∨ closesQuote c = true) :
    isSingleQuote c = false := by
  rw [Bool.eq_false_iff]
  intro hquote
  rcases isSingleQuote_iff.mp hquote with rfl | rfl | rfl | rfl | rfl <;> exact absurd h (by decide)

/-! ### Each pass is pointwise -/

/-- A character behind another, or at the start; a single quote there may open a quotation. -/
def openedAt (before : Option Char) (c : Char) : Char :=
  if before.all opensQuote && isSingleQuote c then '"' else c

/-- A character before another, or at the end; a single quote there may close a quotation. -/
def closedAt (after : Option Char) (c : Char) : Char :=
  if isSingleQuote c && after.all closesQuote then '"' else c

def openedAfter : Option Char → List Char → List Char
  | _, [] => []
  | before, c :: rest => openedAt before c :: openedAfter (some c) rest

def closedBefore : List Char → List Char
  | [] => []
  | c :: rest => closedAt rest.head? c :: closedBefore rest

theorem openedAfter_nil (before : Option Char) : openedAfter before [] = [] := rfl

theorem openedAfter_cons (before : Option Char) (c : Char) (s : List Char) :
    openedAfter before (c :: s) = openedAt before c :: openedAfter (some c) s := rfl

theorem closedBefore_nil : closedBefore [] = [] := rfl

theorem closedBefore_cons (c : Char) (s : List Char) :
    closedBefore (c :: s) = closedAt s.head? c :: closedBefore s := rfl

theorem openedAt_of_not_quote {before : Option Char} {c : Char} (h : isSingleQuote c = false) :
    openedAt before c = c := by
  simp [openedAt, h]

theorem closedAt_of_not_quote {after : Option Char} {c : Char} (h : isSingleQuote c = false) :
    closedAt after c = c := by
  simp [closedAt, h]

theorem openedAt_behind_quote {before c : Char} (h : isSingleQuote before = true) :
    openedAt (some before) c = c := by
  have hopens : opensQuote before = false := by
    rw [Bool.eq_false_iff]
    intro hopens
    rw [not_isSingleQuote_of_decides (.inl hopens)] at h
    cases h
  simp [openedAt, hopens]

theorem openQuotesWithin_cons (before : Char) (s : List Char) :
    openQuotesWithin (before :: s) = before :: openedAfter (some before) s := by
  induction s using List.twoStepInduction generalizing before with
  | nil => rfl
  | singleton c =>
    by_cases h : opensQuote before && isSingleQuote c <;>
      simp [openQuotesWithin, openedAfter_cons, openedAfter_nil, openedAt, h]
  | cons_cons c d rest ihRest ihTail =>
    by_cases h : opensQuote before && isSingleQuote c
    · have hd : openedAt (some c) d = d := openedAt_behind_quote (Bool.and_eq_true_iff.mp h).2
      rw [openQuotesWithin, if_pos h, ihRest d, openedAfter_cons, openedAfter_cons, hd]
      simp [openedAt, h]
    · have hc : openedAt (some before) c = c := by simp [openedAt, h]
      rw [openQuotesWithin, if_neg h, ihTail d c]
      conv_rhs => rw [openedAfter_cons, hc]

theorem openQuotes_eq_openedAfter (s : List Char) : openQuotes s = openedAfter none s := by
  cases s with
  | nil => rfl
  | cons c rest =>
    by_cases h : isSingleQuote c
    · cases rest with
      | nil => simp [openQuotes, openQuotesWithin, openedAfter_cons, openedAfter_nil, openedAt, h]
      | cons d rest =>
        rw [openQuotes, if_pos h, openQuotesWithin_cons, openedAfter_cons, openedAfter_cons,
          openedAt_behind_quote h]
        simp [openedAt, h]
    · rw [openQuotes, if_neg h, openQuotesWithin_cons, openedAfter_cons]
      simp [openedAt, h]

theorem closeQuotes_eq_closedBefore (s : List Char) : closeQuotes s = closedBefore s := by
  induction s using List.twoStepInduction with
  | nil => rfl
  | singleton c =>
    by_cases h : isSingleQuote c <;>
      simp [closeQuotes, closedBefore_cons, closedBefore_nil, closedAt, h]
  | cons_cons c d rest ihRest ihTail =>
    by_cases h : isSingleQuote c && closesQuote d
    · have hd : closedAt rest.head? d = d :=
        closedAt_of_not_quote (not_isSingleQuote_of_decides (.inr (Bool.and_eq_true_iff.mp h).2))
      rw [closeQuotes, if_pos h, ihRest, closedBefore_cons, closedBefore_cons, hd]
      simp [closedAt, h]
    · have hc : closedAt (some d) c = c := by simp [closedAt, h]
      rw [closeQuotes, if_neg h, ihTail]
      conv_rhs => rw [closedBefore_cons, List.head?_cons, hc]

/-! ### All quotes at once -/

/-- A character between its neighbours: quotes that are not straight and single quotes that open or close
a quotation become straight double quotes. -/
def unifiedAt (before : Option Char) (c : Char) (after : Option Char) : Char :=
  if isFancyQuote c then '"'
  else if isSingleQuote c && (before.all opensQuote || after.all closesQuote) then '"' else c

def unified : Option Char → List Char → List Char
  | _, [] => []
  | before, c :: rest => unifiedAt before c rest.head? :: unified (some c) rest

theorem unified_cons (before : Option Char) (c : Char) (s : List Char) :
    unified before (c :: s) = unifiedAt before c s.head? :: unified (some c) s := rfl

def straightened (c : Char) : Char := if isFancyQuote c then '"' else c

/-- A class that makes no difference between quotes does not see that one is straightened. -/
theorem eq_straightened {f : Char → Bool} (h : ∀ c, isFancyQuote c = true → f c = f '"') (c : Char) :
    f (straightened c) = f c := by
  unfold straightened
  split
  · rename_i hquote
    exact (h c hquote).symm
  · rfl

theorem opensQuote_straightened (c : Char) : opensQuote (straightened c) = opensQuote c :=
  eq_straightened (fun _ h => (neutral_of_isFancyQuote h).2.1) c

theorem closesQuote_straightened (c : Char) : closesQuote (straightened c) = closesQuote c :=
  eq_straightened (fun _ h => (neutral_of_isFancyQuote h).2.2) c

theorem closesQuote_openedAt (before : Option Char) (c : Char) :
    closesQuote (openedAt before c) = closesQuote c := by
  unfold openedAt
  split
  · rename_i h
    cases hcloses : closesQuote c with
    | false => decide
    | true =>
      rw [not_isSingleQuote_of_decides (.inr hcloses), Bool.and_false] at h
      cases h
  · rfl

/-- The three passes look at the neighbours of a quote as they are in the text. -/
theorem closedBefore_openedAfter (before : Option Char) (s : List Char) :
    closedBefore (openedAfter (before.map straightened) (s.map straightened)) = unified before s := by
  induction s generalizing before with
  | nil => rfl
  | cons c rest ih =>
    have hafter : (openedAfter (some (straightened c)) (rest.map straightened)).head?.all closesQuote
        = rest.head?.all closesQuote := by
      cases rest with
      | nil => rfl
      | cons d rest =>
        simp [openedAfter_cons, closesQuote_openedAt, closesQuote_straightened]
    have hbefore : (before.map straightened).all opensQuote = before.all opensQuote := by
      cases before with
      | none => rfl
      | some b => simp [opensQuote_straightened]
    rw [List.map_cons, openedAfter_cons, closedBefore_cons, unified_cons, ← ih (some c)]
    congr 1
    unfold unifiedAt closedAt openedAt
    rw [hafter, hbefore]
    cases hfancy : isFancyQuote c with
    | true => simp [straightened, hfancy]
    | false =>
      cases hsingle : isSingleQuote c <;> cases before.all opensQuote <;>
        simp [straightened, hfancy, hsingle]

/-! ### Cutting a text between quotes -/

theorem openedAfter_append (before : Option Char) (s t : List Char) :
    openedAfter before (s ++ t) = openedAfter before s ++ openedAfter (s.getLast?.or before) t := by
  induction s generalizing before with
  | nil => rfl
  | cons c rest ih =>
    rw [List.cons_append, openedAfter_cons, openedAfter_cons, ih, List.cons_append]
    cases rest <;> simp [List.getLast?_cons]

theorem openedAfter_of_opensQuote {before : Char} (h : opensQuote before = true) (s : List Char) :
    openedAfter (some before) s = openedAfter none s := by
  cases s with
  | nil => rfl
  | cons c rest => simp [openedAfter_cons, openedAt, h]

theorem openedAfter_eq_self (before : Option Char) (h : ∀ c ∈ s, isSingleQuote c = false) :
    openedAfter before s = s := by
  induction s generalizing before with
  | nil => rfl
  | cons c rest ih =>
    rw [openedAfter_cons, openedAt_of_not_quote (h c List.mem_cons_self),
      ih _ fun d hd => h d (List.mem_cons_of_mem c hd)]

theorem closedBefore_append (s : List Char) (h : ∀ c ∈ t.head?, closesQuote c = true) :
    closedBefore (s ++ t) = closedBefore s ++ closedBefore t := by
  induction s with
  | nil => rfl
  | cons c rest ih =>
    rw [List.cons_append, closedBefore_cons, closedBefore_cons, ih, List.cons_append]
    cases rest with
    | nil =>
      have hall : t.head?.all closesQuote = true := by
        cases ht : t.head? with
        | none => rfl
        | some d => exact h d ht
      simp [closedAt, hall]
    | cons d rest => rfl

theorem closedBefore_append_of_not_quote (h : ∀ c ∈ s, isSingleQuote c = false) (t : List Char) :
    closedBefore (s ++ t) = s ++ closedBefore t := by
  induction s with
  | nil => rfl
  | cons c rest ih =>
    rw [List.cons_append, closedBefore_cons, closedAt_of_not_quote (h c List.mem_cons_self),
      ih fun d hd => h d (List.mem_cons_of_mem c hd), List.cons_append]

end TeamOrders.Comment
