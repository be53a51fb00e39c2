import TeamOrders.Proofs.Comment.Spacing
import TeamOrders.Proofs.Reading.Parts

/-!
# How far the normal form is canonical

White space is trimmed and squeezed before a blank is made of the dash behind `team`. So that blank may
come to stand at the end, or before another one, or before a single quote that opens a quotation there. In
all other texts the normal form has single blanks only, none at the ends, and is its own normal form. The
normal form of a normal form has no such dash any more, and is always its own.

What stands next to what is a relation that plain characters have to everything. It is followed through the
passes: the first leave a text in which it holds throughout, and among the others only the pass for `team`
can break it, exactly where the blank does not stand well before what follows.
-/

namespace TeamOrders.Comment

open Text

variable {R : Relation} {before : Option Char} {c : Char} {s : List Char} {word new : String}
  {mark : Char}

/-! ### The passes together -/

theorem isMarked_team : IsMarked "team".toList '-' := spacing_team.marked

theorem isMarked_task : IsMarked "task".toList '#' := spacing_task.marked

theorem replaced_spaceTasks (s : List Char) :
    Replaced (markedWord "task" '#' "task #") none s (spaceTasks s) :=
  replaced_substitute (markedWord_solid _ _ _) s

theorem replaced_spaceTeams (s : List Char) :
    Replaced (markedWord "team" '-' "team ") none s (spaceTeams s) :=
  replaced_substitute (markedWord_solid _ _ _) s

/-- What holds of neighbours that fit holds of those in the normal form, unless somewhere in the text the
dash behind `team` stands before what a blank may not stand before. -/
theorem fitting_fold_iff (hle : ∀ x y, fits x y = true → R x y = true) (s : List Char) :
    Fitting R none (fold s) ↔ ¬ Somewhere (MarkedAt "team".toList '-' fun rest =>
      R (some .blank) (next (unified (some '-') rest)) = false) none (trim s) := by
  have lenient := lenient_of_fits hle
  have hsqueezed : Fitting R none (squeeze false (unifyQuotes (trim s))) :=
    (fitting_squeeze_unifyQuotes (isTrimmed_trim s)).mono hle
  have htasks := replaced_spaceTasks (squeeze false (unifyQuotes (trim s)))
  have hspaced : Fitting R none (spaceTasks (squeeze false (unifyQuotes (trim s)))) := by
    rw [fitting_replaced_iff lenient spacing_task htasks hsqueezed]
    rintro ⟨front, place, -, -, spelt, rest, -, -, hwanted⟩
    have hnumber : next (['#'] ++ rest) = some .plain := congrArg some isMarked_task.plain
    rw [hnumber, lenient.before] at hwanted
    cases hwanted
  rw [fold_eq, lower, fitting_lowerAfter_iff lenient rfl,
    fitting_replaced_iff lenient spacing_team (replaced_spaceTeams _) hspaced, not_iff_not,
    ← somewhere_replaced_iff_of_ne spacing_task isMarked_team (by decide)
      (fun _ _ h => by rw [List.nil_append, List.nil_append, h]) htasks]
  calc Somewhere (MarkedAt "team".toList '-' fun rest => R (some .blank) (next ([] ++ rest)) = false)
        none (squeeze false (unifyQuotes (trim s)))
      ↔ Somewhere (MarkedAt "team".toList '-' fun rest => R (some .blank) (next rest) = false)
        none (unifyQuotes (trim s)) := by
        refine ((keepsWords_squeeze isMarked_team.plain).somewhere_iff isMarked_team
          (fun rest => ?_) rfl _).symm
        have hdash : (some '-').any isBlank = false := by decide
        rw [hdash, List.nil_append, next_squeeze]
    _ ↔ Somewhere (MarkedAt "team".toList '-' fun rest =>
          R (some .blank) (next (unified (some '-') rest)) = false) none (trim s) := by
        rw [unifyQuotes_eq_unified]
        exact ((keepsWords_unified (by decide) isMarked_team.plain (by decide)).somewhere_iff
          isMarked_team (fun rest => Iff.rfl) rfl _).symm

/-- No pass behind its own makes a marked word, so the normal form holds none. -/
theorem not_somewhere_fold (s : List Char) :
    ¬ Somewhere (MarkedAt "task".toList '#' fun _ => True) none (fold s) ∧
      ¬ Somewhere (MarkedAt "team".toList '-' fun _ => True) none (fold s) := by
  have htasks := replaced_spaceTasks (squeeze false (unifyQuotes (trim s)))
  have hteams := replaced_spaceTeams (spaceTasks (squeeze false (unifyQuotes (trim s))))
  rw [fold_eq]
  constructor
  · intro h
    have hspaced := (somewhere_replaced_iff_of_ne spacing_team isMarked_task (by decide)
      (fun _ _ _ => Iff.rfl) hteams).mpr (somewhere_of_lowerAfter isMarked_task (by decide) (fun h => h) h)
    exact not_somewhere_replaced spacing_task htasks hspaced
  · intro h
    exact not_somewhere_replaced spacing_team hteams
      (somewhere_of_lowerAfter isMarked_team (by decide) (fun h => h) h)

theorem somewhere_of_trim (h : Somewhere (MarkedAt word.toList mark fun _ => True) none (trim s)) :
    Somewhere (MarkedAt word.toList mark fun _ => True) none s := by
  obtain ⟨front, place, hsplit, hapart, spelt, rest, hspelt, rfl, -⟩ := h
  obtain ⟨before, after, hbefore, -, heq⟩ := exists_eq_append_trim s
  refine ⟨before ++ front, spelt ++ mark :: (rest ++ after), ?_, ?_, spelt, rest ++ after, hspelt, rfl,
    trivial⟩
  · rw [heq, hsplit]
    simp
  · rw [Option.or_none] at hapart ⊢
    rw [List.getLast?_append]
    cases hfront : front.getLast? with
    | some c => rwa [hfront] at hapart
    | none =>
      cases hlast : before.getLast? with
      | none => rfl
      | some c =>
        exact endsInWord_of_not_word (isWord_of_isBlank (hbefore c (List.mem_of_getLast? hlast)))

/-! ### Texts that are their own normal form -/

/-- No quote that is not straight, and no white space but blanks. -/
def Plain (s : List Char) : Prop := ∀ c ∈ s, isFancyQuote c = false ∧ (isBlank c = true → c = ' ')

theorem plain_unified (before : Option Char) (s : List Char) :
    ∀ c ∈ unified before s, isFancyQuote c = false := by
  induction s generalizing before with
  | nil => exact List.forall_mem_nil _
  | cons c s ih =>
    rw [unified_cons]
    refine List.forall_mem_cons.mpr ⟨?_, ih (some c)⟩
    have hstraight : isFancyQuote '"' = false := by decide
    unfold unifiedAt
    split
    · exact hstraight
    · rename_i hfancy
      split
      · exact hstraight
      · simpa using hfancy

theorem plain_squeeze (within : Bool) (h : ∀ c ∈ s, isFancyQuote c = false) :
    Plain (squeeze within s) := by
  have hspace : isFancyQuote ' ' = false := by decide
  induction s generalizing within with
  | nil => exact List.forall_mem_nil _
  | cons c s ih =>
    obtain ⟨hc, hrest⟩ := List.forall_mem_cons.mp h
    cases hblank : isBlank c with
    | false =>
      rw [squeeze_of_not_blank _ hblank]
      exact List.forall_mem_cons.mpr ⟨⟨hc, fun h => by rw [hblank] at h; cases h⟩, ih false hrest⟩
    | true =>
      cases within with
      | true =>
        rw [squeeze_true_of_blank hblank]
        exact ih true hrest
      | false =>
        rw [squeeze_false_of_blank hblank]
        exact List.forall_mem_cons.mpr ⟨⟨hspace, fun _ => rfl⟩, ih true hrest⟩

theorem plain_lowerAfter (h : Plain s) (reversed : List Char) : Plain (lowerAfter reversed s) := by
  induction s generalizing reversed with
  | nil => exact List.forall_mem_nil _
  | cons c s ih =>
    obtain ⟨hc, hrest⟩ := List.forall_mem_cons.mp h
    obtain ⟨small, hsmall, heq⟩ := lowerAfter_cons_smallForm reversed c s
    rw [heq]
    refine List.forall_mem_append.mpr ⟨?_, ih hrest _⟩
    rcases hsmall.same with rfl | ⟨-, hinert⟩
    · exact List.forall_mem_singleton.mpr hc
    · intro d hd
      refine ⟨not_isFancyQuote_of_isInert (hinert d hd), fun hblank => ?_⟩
      rw [isBlank_of_isInert (hinert d hd)] at hblank
      cases hblank

theorem plain_fold (s : List Char) : Plain (fold s) := by
  rw [fold_eq, unifyQuotes_eq_unified]
  exact plain_lowerAfter (forall_mem_substitute_markedWord (List.all_iff_forall_prop.mp (by decide))
    (forall_mem_substitute_markedWord (List.all_iff_forall_prop.mp (by decide))
      (plain_squeeze false (plain_unified none _)))) []

theorem unified_eq_self (hs : ∀ c ∈ s, isFancyQuote c = false) (hfit : Fitting settled before s) :
    unified before s = s := by
  induction s generalizing before with
  | nil => rfl
  | cons c s ih =>
    obtain ⟨hc, hrest⟩ := List.forall_mem_cons.mp hs
    obtain ⟨hbefore, hfit⟩ := fitting_cons.mp hfit
    have hafter : markOf c = .quote → closes (next s) = false := by
      intro hquote
      have hnext : settled (some (markOf c)) (next s) = true := by
        cases s with
        | nil => exact fitting_nil.mp hfit
        | cons d s => exact (fitting_cons.mp hfit).1
      rw [settled, hquote, Bool.and_eq_true] at hnext
      simpa using hnext.2
    rw [unified_cons, ih hrest hfit, unifiedAt, hc, all_opensQuote, all_closesQuote, if_neg (by decide),
      if_neg]
    rw [Bool.and_eq_true, ← markOf_eq_quote_iff]
    rintro ⟨hquote, hjudged⟩
    rw [hafter hquote, Bool.or_false] at hjudged
    simp [settled, hquote, hjudged] at hbefore

theorem squeeze_eq_self (hs : Plain s) {within : Bool}
    (hwithin : within = true ↔ before.map markOf = some .blank) (hfit : Fitting single before s) :
    squeeze within s = s := by
  induction s generalizing before within with
  | nil => rfl
  | cons c s ih =>
    obtain ⟨hc, hrest⟩ := List.forall_mem_cons.mp hs
    obtain ⟨hbefore, hfit⟩ := fitting_cons.mp hfit
    cases hblank : isBlank c with
    | false =>
      rw [squeeze_of_not_blank _ hblank, ih hrest _ hfit]
      simp [markOf_ne_blank_iff.mpr hblank]
    | true =>
      have hmark : markOf c = .blank := markOf_eq_blank_iff.mpr hblank
      have hnot : within = false := by
        rw [Bool.eq_false_iff, ne_eq, hwithin]
        intro hb
        simp [single, hb, hmark] at hbefore
      rw [hnot, squeeze_false_of_blank hblank, ih hrest _ hfit, hc.2 hblank]
      simp [hmark]

/-- A text is its own normal form if its neighbours fit and there is nothing else for a pass to do. -/
theorem fold_eq_self (hfit : Fitting fits none s) (hplain : Plain s) (hsmall : ∀ c ∈ s, IsSmall c)
    (htasks : ¬ Somewhere (MarkedAt "task".toList '#' fun _ => True) none s)
    (hteams : ¬ Somewhere (MarkedAt "team".toList '-' fun _ => True) none s) : fold s = s := by
  have hparts := fitting_and.mp hfit
  have hedges := fitting_and.mp hparts.1
  have hquotes : unifyQuotes s = s := by
    rw [unifyQuotes_eq_unified, unified_eq_self (fun c hc => (hplain c hc).1) hedges.1]
  have hblanks : squeeze false s = s := squeeze_eq_self hplain (by simp) hparts.2
  rw [fold_eq, trim_eq_self (fitting_unpadded_iff.mp hedges.2), hquotes, hblanks,
    eq_of_replaced (replaced_spaceTasks s) htasks, eq_of_replaced (replaced_spaceTeams s) hteams,
    lower_eq_self hsmall]

theorem fitting_fold_fold (s : List Char) : Fitting fits none (fold (fold s)) := by
  rw [fitting_fold_iff fun _ _ h => h]
  intro h
  exact (not_somewhere_fold s).2 (somewhere_of_trim (h.imp fun _ _ => MarkedAt.imp fun _ _ => trivial))

theorem fold_fold_eq_iff (s : List Char) : fold (fold s) = fold s ↔ Fitting fits none (fold s) := by
  constructor
  · intro h
    have hfit := fitting_fold_fold s
    rwa [h] at hfit
  · exact fun h => fold_eq_self h (plain_fold s) isSmall_of_mem_lower (not_somewhere_fold s).1
      (not_somewhere_fold s).2

/-! ### White space at the ends and in rows -/

theorem fitting_flush (h : Fitting flush none s) : ∀ c ∈ s.head?, isBlank c = false := by
  cases s with
  | nil => exact fun c hc => by cases hc
  | cons c s =>
    intro d hd
    obtain rfl : c = d := Option.some.inj hd
    have hfirst := (fitting_cons.mp h).1
    rw [← markOf_ne_blank_iff]
    simpa [flush] using hfirst

theorem fitting_closed_iff : Fitting closed before s ↔
    (s.getLast?.or before).map markOf ≠ some .blank := by
  induction s generalizing before with
  | nil => simp [fitting_nil, closed]
  | cons c s ih =>
    rw [fitting_cons, ih, getLast?_cons_or, and_iff_right]
    simp [closed]

theorem blank_eq_iff (hs : Plain s) (hc : c ∈ s) : ' ' = c ↔ markOf c = .blank := by
  rw [markOf_eq_blank_iff]
  constructor
  · rintro rfl
    decide
  · exact fun h => ((hs c hc).2 h).symm

theorem fitting_single_iff (hs : Plain s) : Fitting single none s ↔ ¬ [' ', ' '] <:+: s := by
  have hbehind : ∀ (c : Char) (s : List Char), Plain (c :: s) →
      (Fitting single (some c) s ↔ ¬ [' ', ' '] <:+: c :: s) := by
    intro c s
    induction s generalizing c with
    | nil =>
      intro _
      refine iff_of_true (by simp [fitting_nil, single]) fun h => ?_
      have hlength := h.length_le
      simp at hlength
    | cons d s ih =>
      intro hs
      have hc := blank_eq_iff hs List.mem_cons_self
      have hd := blank_eq_iff hs (List.mem_cons_of_mem c List.mem_cons_self)
      have hsplit : [' ', ' '] <:+: c :: d :: s ↔ [' ', ' '] <+: c :: d :: s ∨ [' ', ' '] <:+: d :: s :=
        List.infix_cons_iff
      rw [fitting_cons, ih d (List.forall_mem_cons.mp hs).2, hsplit, not_or]
      refine and_congr_left fun _ => ?_
      rw [List.cons_prefix_cons, List.cons_prefix_cons, and_iff_left List.nil_prefix, hc, hd]
      simp [single, imp_iff_not_or]
  cases s with
  | nil => simp [fitting_nil, single]
  | cons c s =>
    rw [← hbehind c s hs, fitting_cons]
    simp [single]

theorem fitting_closed_iff_of_plain (hs : Plain s) :
    Fitting closed none s ↔ s.getLast? ≠ some ' ' := by
  rw [fitting_closed_iff, Option.or_none]
  cases hlast : s.getLast? with
  | none => simp
  | some c =>
    have hc := blank_eq_iff hs (List.mem_of_getLast? hlast)
    rw [Option.map_some, ne_eq, ne_eq, Option.some.injEq, Option.some.injEq, ← hc, eq_comm]

/-! ### The normal form of every text -/

def normalized (s : List Char) : List Char := normalize Settings.default.words s

theorem normalized_eq_fold (s : List Char) : normalized s = fold s := normalize_of_no_words rfl s

/-- Somewhere in a text a word begins that is `team`, in any case, with a dash and then a rest of this kind
behind it. -/
def TeamDash (kind : List Char → Prop) (s : List Char) : Prop :=
  ∃ front word rest, s = front ++ (word ++ '-' :: rest) ∧ endsInWord front.getLast? = false ∧
    Spells "team".toList word ∧ kind rest

/-- A blank that is put before this rest does not stay: nothing follows, or white space, or a single quote
that closes no quotation and that would open one behind a blank. -/
def Upsets (rest : List Char) : Prop :=
  ∀ c ∈ rest.head?, isBlank c = true ∨
    isSingleQuote c = true ∧ rest.tail.head?.all closesQuote = false

theorem teamDash_iff {kind kind' : List Char → Prop} (h : ∀ rest, kind' rest ↔ kind rest) :
    Somewhere (MarkedAt "team".toList '-' kind') none s ↔ TeamDash kind s := by
  constructor
  · rintro ⟨front, place, hsplit, hapart, word, rest, hword, rfl, hrest⟩
    rw [Option.or_none] at hapart
    exact ⟨front, word, rest, hsplit, hapart, hword, (h rest).mp hrest⟩
  · rintro ⟨front, word, rest, hsplit, hapart, hword, hrest⟩
    exact ⟨front, _, hsplit, (Option.or_none).symm ▸ hapart, word, rest, hword, rfl,
      (h rest).mpr hrest⟩

theorem next_unified_dash (c : Char) (rest : List Char) :
    next (unified (some '-') (c :: rest)) =
      some (if markOf c = .quote ∧ closes (next rest) = true then .plain else markOf c) := by
  have hdash : opens ((some '-').map markOf) = false := by decide
  rw [unified_cons, next, List.head?_cons, Option.map_some, markOf_unifiedAt, hdash]
  simp

theorem fits_blank_eq_false_iff (rest : List Char) :
    fits (some .blank) (next (unified (some '-') rest)) = false ↔ Upsets rest := by
  cases rest with
  | nil => exact iff_of_true (by decide) fun c hc => by cases hc
  | cons c rest =>
    have hupsets : Upsets (c :: rest) ↔
        markOf c = .blank ∨ markOf c = .quote ∧ closes (next rest) = false := by
      simp [Upsets, all_closesQuote, markOf_eq_blank_iff, markOf_eq_quote_iff]
    rw [next_unified_dash, hupsets]
    cases markOf c <;> cases closes (next rest) <;> decide

theorem single_blank_eq_false_iff (rest : List Char) :
    single (some .blank) (next (unified (some '-') rest)) = false ↔
      ∃ c ∈ rest.head?, isBlank c = true := by
  cases rest with
  | nil => exact iff_of_false (by decide) fun ⟨c, hc, _⟩ => by cases hc
  | cons c rest =>
    rw [next_unified_dash]
    simp only [List.head?_cons, Option.mem_some_iff, exists_eq_left', ← markOf_eq_blank_iff]
    cases markOf c <;> cases closes (next rest) <;> decide

theorem closed_blank_eq_false_iff (rest : List Char) :
    closed (some .blank) (next (unified (some '-') rest)) = false ↔ rest = [] := by
  cases rest with
  | nil => exact iff_of_true (by decide) rfl
  | cons c rest =>
    rw [next_unified_dash]
    exact iff_of_false (by simp [closed]) (List.cons_ne_nil c rest)

/-- No text has a normal form with white space at the start, or with other white space than blanks. A blank
stands at the end exactly if a `team` with a dash does, and before another blank exactly if such a dash
stands before white space. The normal form is its own normal form exactly if no such dash stands before what
upsets the blank, and the normal form of the normal form always is. -/
theorem normalized_canonical_iff (s : List Char) :
    (∀ c ∈ (normalized s).head?, isBlank c = false) ∧
    (∀ c ∈ normalized s, isBlank c = true → c = ' ') ∧
    ((normalized s).getLast? = some ' ' ↔ TeamDash (· = []) (trim s)) ∧
    ([' ', ' '] <:+: normalized s ↔
      TeamDash (fun rest => ∃ c ∈ rest.head?, isBlank c = true) (trim s)) ∧
    (normalized (normalized s) = normalized s ↔ ¬ TeamDash Upsets (trim s)) ∧
    normalized (normalized (normalized s)) = normalized (normalized s) := by
  simp only [normalized_eq_fold]
  have hflush : ∀ x y, fits x y = true → flush x y = true := fun _ _ h => (fits_iff.mp h).2.1
  have hclosed : ∀ x y, fits x y = true → closed x y = true := fun _ _ h => (fits_iff.mp h).2.2.1
  have hsingle : ∀ x y, fits x y = true → single x y = true := fun _ _ h => (fits_iff.mp h).2.2.2
  refine ⟨fitting_flush ((fitting_fold_iff hflush s).mpr ?_), fun c hc => (plain_fold s c hc).2,
    ?_, ?_, ?_, ?_⟩
  · rintro ⟨front, place, -, -, word, rest, -, -, hwanted⟩
    cases hwanted
  · rw [← teamDash_iff closed_blank_eq_false_iff, ← not_iff_not, ← fitting_fold_iff hclosed,
      fitting_closed_iff_of_plain (plain_fold s)]
  · rw [← teamDash_iff single_blank_eq_false_iff, ← not_iff_not, ← fitting_fold_iff hsingle,
      fitting_single_iff (plain_fold s)]
  · rw [← teamDash_iff fits_blank_eq_false_iff, ← fitting_fold_iff fun _ _ h => h]
    exact fold_fold_eq_iff s
  · exact (fold_fold_eq_iff (fold s)).mpr (fitting_fold_fold s)

/-- The blank that is made of a dash before a blank stays, and is squeezed only the next time. -/
theorem normalized_with_two_blanks :
    let text := "assign team- alpha to task 1".toList
    normalized text = "assign team  alpha to task 1".toList ∧ [' ', ' '] <:+: normalized text ∧
      normalized (normalized text) = "assign team alpha to task 1".toList ∧
      normalized (normalized text) ≠ normalized text := by
  intro text
  have hfirst : normalized text = "assign team  alpha to task 1".toList := by decide +kernel
  have hsecond : normalized (normalized text) = "assign team alpha to task 1".toList := by
    decide +kernel
  refine ⟨hfirst, ?_, hsecond, ?_⟩
  · rw [hfirst]
    exact ⟨"assign team".toList, "alpha to task 1".toList, by decide⟩
  · rw [hsecond, hfirst]
    decide

end TeamOrders.Comment
