import TeamOrders.Proofs.Comment.Junction

/-!
# Neighbours

Which quotes a comment keeps and where its white space is squeezed depends on which characters stand next
to each other, and of a character it matters only whether it is white space, a single quote, or one that
quotes open behind or close before. So a text is looked at as a row of marks, and a relation between
neighbours in the row is followed through the passes. What the passes put in is plain, except that a blank
comes in where a dash was.
-/

namespace TeamOrders.Comment

open Text

variable {s t : List Char} {c : Char}

/-! ### Marks -/

inductive Mark where
  | blank
  | opening
  | quote
  | closing
  | plain
deriving DecidableEq

/-- What a character is to its neighbours: white space, the bracket that opens, a single quote, a
character before which quotes close, or none of these. -/
def markOf (c : Char) : Mark :=
  if isBlank c then .blank
  else if c = '(' then .opening
  else if isSingleQuote c then .quote
  else if closesQuote c then .closing
  else .plain

theorem markOf_eq_blank_iff : markOf c = .blank ↔ isBlank c = true := by
  unfold markOf
  split_ifs <;> simp_all

theorem markOf_ne_blank_iff : markOf c ≠ .blank ↔ isBlank c = false := by
  rw [ne_eq, markOf_eq_blank_iff, Bool.not_eq_true]

theorem not_isSingleQuote_of_isBlank (h : isBlank c = true) : isSingleQuote c = false :=
  not_isSingleQuote_of_gap (.inl h)

theorem markOf_eq_quote_iff : markOf c = .quote ↔ isSingleQuote c = true := by
  have hbracket : isSingleQuote '(' = false := by decide
  unfold markOf
  split_ifs with hblank hopening hquote hcloses
  · simp [not_isSingleQuote_of_isBlank hblank]
  · simp [hopening, hbracket]
  · simpa using hquote
  · simpa using hquote
  · simpa using hquote

theorem opensQuote_iff_markOf : opensQuote c = true ↔ markOf c = .blank ∨ markOf c = .opening := by
  rw [opensQuote_iff]
  unfold markOf
  split_ifs <;> simp_all

theorem closesQuote_iff_markOf : closesQuote c = true ↔ markOf c = .blank ∨ markOf c = .closing := by
  have hbracket : closesQuote '(' = false := by decide
  unfold markOf
  split_ifs with hblank hopening hquote hcloses
  · simp [closesQuote_iff, hblank]
  · simp [hopening, hbracket]
  · have hnot : closesQuote c = false := by
      rw [Bool.eq_false_iff]
      intro hcloses
      rw [not_isSingleQuote_of_decides (.inr hcloses)] at hquote
      cases hquote
    simp [hnot]
  · simpa using hcloses
  · simpa using hcloses

/-- The characters other than white space that matter to their neighbours. -/
def signs : List Char :=
  ['(', '\'', '‘', '’', '‚', '‛', ',', '.', ';', ':', '!', '?', ')']

theorem markOf_eq_plain (hblank : isBlank c = false) (hsigns : c ∉ signs) : markOf c = .plain := by
  simp only [signs, List.mem_cons, List.not_mem_nil, or_false, not_or] at hsigns
  have hquote : isSingleQuote c = false := by simp [isSingleQuote, hsigns]
  have hcloses : closesQuote c = false := by simp [closesQuote, hblank, hsigns]
  rw [markOf, hblank, hquote, hcloses, if_neg hsigns.1]
  rfl

theorem not_mem_of_all {p : Char → Bool} {chars : List Char}
    (h : (chars.all fun d => !p d) = true) (hc : p c = true) : c ∉ chars := by
  intro hmem
  have hnot := List.all_eq_true.mp h c hmem
  rw [hc] at hnot
  cases hnot

theorem signs_apart_from_words : (signs.all fun c => !isWord c) = true :=
  all_not_isWord (by decide)

theorem markOf_of_isWord (h : isWord c = true) : markOf c = .plain :=
  markOf_eq_plain (isBlank_of_isWord h) (not_mem_of_all signs_apart_from_words h)

/-! ### Rows -/

/-- What may stand next to what, the ends of the text being `none`. -/
abbrev Relation := Option Mark → Option Mark → Bool

/-- Any two neighbours in a row, from what stands before it to its end, stand in the relation. -/
def Row (R : Relation) : Option Mark → List Mark → Prop
  | before, [] => R before none = true
  | before, mark :: rest => R before (some mark) = true ∧ Row R (some mark) rest

def next (s : List Char) : Option Mark := s.head?.map markOf

def Fitting (R : Relation) (before : Option Char) (s : List Char) : Prop :=
  Row R (before.map markOf) (s.map markOf)

/-- A plain character may stand next to anything. -/
structure Lenient (R : Relation) : Prop where
  behind : ∀ mark, R (some .plain) mark = true
  before : ∀ mark, R mark (some .plain) = true

variable {R : Relation} {before before' : Option Char}

theorem fitting_nil : Fitting R before [] ↔ R (before.map markOf) none = true := Iff.rfl

theorem fitting_cons : Fitting R before (c :: s) ↔
    R (before.map markOf) (some (markOf c)) = true ∧ Fitting R (some c) s := Iff.rfl

/-- Only the first character of a text has to do with what stands before it. -/
theorem fitting_iff_behind_plain (lenient : Lenient R) {plain : Char} (hplain : markOf plain = .plain)
    (s : List Char) : Fitting R before s ↔
      R (before.map markOf) (next s) = true ∧ Fitting R (some plain) s := by
  cases s with
  | nil => simp [fitting_nil, next, hplain, lenient.behind]
  | cons c s => simp [fitting_cons, next, hplain, lenient.behind]

theorem fitting_plain_append (lenient : Lenient R) {plain : Char} (hplain : markOf plain = .plain)
    (hs : ∀ c ∈ s, markOf c = .plain) (hne : s ≠ []) (t : List Char) :
    Fitting R before (s ++ t) ↔ Fitting R (some plain) t := by
  induction s generalizing before with
  | nil => exact absurd rfl hne
  | cons c s ih =>
    obtain ⟨hc, hrest⟩ := List.forall_mem_cons.mp hs
    rw [List.cons_append, fitting_cons, hc, and_iff_right (lenient.before _)]
    cases s with
    | nil => simp [Fitting, hc, hplain]
    | cons d s => exact ih hrest (List.cons_ne_nil d s)

theorem fitting_of_map_eq (h : before.map markOf = before'.map markOf) (s : List Char) :
    Fitting R before s ↔ Fitting R before' s := by
  rw [Fitting, Fitting, h]

theorem Fitting.mono {R' : Relation} (hle : ∀ x y, R x y = true → R' x y = true)
    (h : Fitting R before s) : Fitting R' before s := by
  induction s generalizing before with
  | nil => exact hle _ _ h
  | cons c s ih => exact ⟨hle _ _ h.1, ih (fitting_cons.mp h).2⟩

theorem fitting_and {R' : Relation} : Fitting (fun x y => R x y && R' x y) before s ↔
    Fitting R before s ∧ Fitting R' before s := by
  induction s generalizing before with
  | nil => exact Bool.and_eq_true_iff
  | cons c s ih =>
    rw [fitting_cons, fitting_cons, fitting_cons, ih, Bool.and_eq_true]
    exact and_and_and_comm

/-! ### Relations -/

def opens : Option Mark → Bool
  | none | some .blank | some .opening => true
  | _ => false

def closes : Option Mark → Bool
  | none | some .blank | some .closing => true
  | _ => false

def settled : Relation := fun x y =>
  !(opens x && y == some .quote) && !(x == some .quote && closes y)

def flush : Relation := fun x y => !(x == none && y == some .blank)

def closed : Relation := fun x y => !(x == some .blank && y == none)

def unpadded : Relation := fun x y => flush x y && closed x y

/-- No white space stands behind other white space. -/
def single : Relation := fun x y => !(x == some .blank && y == some .blank)

theorem all_opensQuote (before : Option Char) :
    before.all opensQuote = opens (before.map markOf) := by
  cases before with
  | none => rfl
  | some c =>
    rw [Bool.eq_iff_iff, Option.all_some, opensQuote_iff_markOf, Option.map_some]
    cases markOf c <;> simp [opens]

theorem all_closesQuote (s : List Char) : s.head?.all closesQuote = closes (next s) := by
  cases s with
  | nil => rfl
  | cons c s =>
    rw [Bool.eq_iff_iff, List.head?_cons, Option.all_some, closesQuote_iff_markOf, next, List.head?_cons,
      Option.map_some]
    cases markOf c <;> simp [closes]

theorem fitting_unpadded_iff : Fitting unpadded none s ↔ IsTrimmed s := by
  have hinner : ∀ (c : Char) (s : List Char), Fitting unpadded (some c) s ↔
      ∀ d ∈ (c :: s).getLast?, isBlank d = false := by
    intro c s
    induction s generalizing c with
    | nil => simp [fitting_nil, unpadded, flush, closed, markOf_ne_blank_iff]
    | cons d s ih =>
      rw [fitting_cons, ih, List.getLast?_cons_cons]
      simp [unpadded, flush, closed]
  cases s with
  | nil => simp [fitting_nil, unpadded, flush, closed, IsTrimmed]
  | cons c s =>
    rw [fitting_cons, hinner, IsTrimmed]
    simp [unpadded, flush, closed, markOf_ne_blank_iff]

/-! ### Quotes -/

theorem unifyQuotes_eq_unified (s : List Char) : unifyQuotes s = unified none s := by
  rw [unifyQuotes, closeQuotes_eq_closedBefore, openQuotes_eq_openedAfter]
  exact closedBefore_openedAfter none s

theorem markOf_of_isFancyQuote (h : isFancyQuote c = true) : markOf c = .plain := by
  obtain ⟨hsingle, hopens, hcloses⟩ := neutral_of_isFancyQuote h
  simp only [opensQuote, Bool.or_eq_false_iff, beq_eq_false_iff_ne] at hopens
  simp [markOf, hopens, hsingle, hcloses]

theorem markOf_unifiedAt (before : Option Char) (c : Char) (s : List Char) :
    markOf (unifiedAt before c s.head?) =
      if markOf c = .quote ∧ (opens (before.map markOf) = true ∨ closes (next s) = true) then .plain
      else markOf c := by
  have hstraight : markOf '"' = .plain := by decide
  rw [unifiedAt, all_opensQuote, all_closesQuote]
  split
  · rename_i hfancy
    rw [hstraight, markOf_of_isFancyQuote hfancy, if_neg]
    rintro ⟨h, -⟩
    cases h
  · simp only [Bool.and_eq_true, Bool.or_eq_true, ← markOf_eq_quote_iff]
    split
    · exact hstraight
    · rfl

/-- The single quotes that are left neither open nor close a quotation. What stands before a text may itself
have been a quote that became a double one. -/
theorem fitting_settled_unified (hopens : opens (before'.map markOf) = opens (before.map markOf))
    (hquote : before'.map markOf = some .quote → closes (next s) = false) :
    Fitting settled before' (unified before s) := by
  induction s generalizing before before' with
  | nil =>
    have hnot : before'.map markOf ≠ some .quote := fun h => absurd (hquote h) (by decide)
    simp [unified, fitting_nil, settled, hnot]
  | cons c s ih =>
    have hnext : next (c :: s) = some (markOf c) := rfl
    rw [hnext] at hquote
    rw [unified_cons, fitting_cons]
    refine ⟨?_, ih ?_ fun h => ?_⟩
    · rw [markOf_unifiedAt]
      split
      · simp [settled, closes]
      · rename_i hkept
        rw [not_and_or, not_or, Bool.not_eq_true] at hkept
        simp only [settled, hopens, Bool.and_eq_true, Bool.not_eq_true', Bool.and_eq_false_iff,
          beq_eq_false_iff_ne, ne_eq, Option.some.injEq]
        exact ⟨hkept.symm.imp_left And.left, or_iff_not_imp_left.mpr fun h => hquote (not_not.mp h)⟩
    · rw [Option.map_some, Option.map_some, markOf_unifiedAt]
      split
      · rename_i h
        rw [h.1]
        rfl
      · rfl
    · rw [Option.map_some, markOf_unifiedAt] at h
      split at h
      · cases h
      · rename_i hkept
        rw [Option.some.inj h, not_and_or, not_or, Bool.not_eq_true, Bool.not_eq_true] at hkept
        exact (hkept.resolve_left fun hne => hne rfl).2

/-! ### White space -/

/-- Squeezing keeps what holds of neighbours and takes away the white space behind other white space. -/
theorem fitting_squeeze {within : Bool} (hwithin : within = true ↔ before.map markOf = some .blank)
    (h : Fitting R before s) :
    Fitting (fun x y => R x y && single x y) before (squeeze within s) := by
  induction s generalizing before within with
  | nil =>
    rw [squeeze_nil, fitting_nil, Bool.and_eq_true]
    exact ⟨h, by simp [single]⟩
  | cons c s ih =>
    obtain ⟨hfirst, hrest⟩ := fitting_cons.mp h
    cases hc : isBlank c with
    | false =>
      have hmark : markOf c ≠ .blank := markOf_ne_blank_iff.mpr hc
      rw [squeeze_of_not_blank within hc, fitting_cons, Bool.and_eq_true]
      exact ⟨⟨hfirst, by simp [single, hmark]⟩, ih (by simp [hmark]) hrest⟩
    | true =>
      have hmark : markOf c = .blank := markOf_eq_blank_iff.mpr hc
      have hspace : markOf ' ' = .blank := by decide
      rw [hmark] at hfirst
      cases within with
      | true =>
        rw [squeeze_true_of_blank hc]
        have hbefore : (some c).map markOf = before.map markOf := by
          rw [hwithin.mp rfl, Option.map_some, hmark]
        exact ih hwithin ((fitting_of_map_eq hbefore s).mp hrest)
      | false =>
        have hbefore : (some c).map markOf = (some ' ').map markOf := by
          rw [Option.map_some, Option.map_some, hmark, hspace]
        have hnot : before.map markOf ≠ some .blank := fun h => by cases hwithin.mpr h
        rw [squeeze_false_of_blank hc, fitting_cons, hspace, Bool.and_eq_true]
        exact ⟨⟨hfirst, by simp [single, hnot]⟩,
          ih (by simp [hspace]) ((fitting_of_map_eq hbefore s).mp hrest)⟩

theorem next_squeeze (s : List Char) : next (squeeze false s) = next s := by
  cases s with
  | nil => rfl
  | cons c s =>
    cases hc : isBlank c with
    | false => rw [squeeze_of_not_blank false hc]; rfl
    | true =>
      have hspace : markOf ' ' = .blank := by decide
      rw [squeeze_false_of_blank hc, next, next, List.head?_cons, List.head?_cons, Option.map_some,
        Option.map_some, hspace, markOf_eq_blank_iff.mpr hc]

/-- What stands next to what in a text that no pass would change any more: no quotes to open or close and no
white space at the ends or behind other white space. -/
def fits : Relation := fun x y => (settled x y && unpadded x y) && single x y

theorem fits_iff {x y : Option Mark} : fits x y = true ↔
    settled x y = true ∧ flush x y = true ∧ closed x y = true ∧ single x y = true := by
  simp only [fits, unpadded, Bool.and_eq_true, and_assoc]

theorem lenient_of_fits (hle : ∀ x y, fits x y = true → R x y = true) : Lenient R where
  behind := fun mark => hle _ _ (by rcases mark with _ | _ | _ | _ | _ | _ <;> rfl)
  before := fun mark => hle _ _ (by rcases mark with _ | _ | _ | _ | _ | _ <;> rfl)

/-- The first passes leave no neighbours that do not fit. -/
theorem fitting_squeeze_unifyQuotes (h : IsTrimmed s) :
    Fitting fits none (squeeze false (unifyQuotes s)) := by
  refine fitting_squeeze (by simp) (fitting_and.mpr ⟨?_, fitting_unpadded_iff.mpr ?_⟩)
  · rw [unifyQuotes_eq_unified]
    exact fitting_settled_unified rfl (by simp)
  · exact ⟨quoteBlind_isBlank.head?_unifyQuotes h.1, quoteBlind_isBlank.getLast?_unifyQuotes h.2⟩

-- What the neighbours of a normal form are is not to be computed.
attribute [irreducible] Fitting

end TeamOrders.Comment
