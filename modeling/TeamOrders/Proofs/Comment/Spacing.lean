import TeamOrders.Proofs.Comment.MarkedWords
import TeamOrders.Proofs.Text.SmallLetters

/-!
# The passes for marked words

For a marked word its pass puts the word in small letters, a blank and what else belongs there. It takes
all of its marked words away, makes none of another kind and leaves those of another kind alone; and it
keeps the text well fitted, unless the blank does not fit before what follows. Putting the whole text in
small letters comes last, and neither makes a marked word nor changes what neighbours are to each other.
-/

namespace TeamOrders.Comment

open Text

variable {R : Relation} {before before' : Option Char} {c mark mark' : Char}
  {s t letters tail put word : List Char} {spaced new : String} {wanted : List Char → Prop} {n : Nat}

/-- A pass puts the word, a blank and a tail for the word and the mark. -/
structure Spacing (spaced : String) (mark : Char) (new : String) (tail : List Char) : Prop where
  marked : IsMarked spaced.toList mark
  new : new.toList = spaced.toList ++ ' ' :: tail
  tail : ∀ c ∈ tail, isWord c = false ∧ markOf c = .plain

theorem spacing_task : Spacing "task" '#' "task #" ['#'] where
  marked := ⟨by decide, List.all_iff_forall_prop.mp (by decide), by decide, by decide⟩
  new := rfl
  tail := List.forall_mem_singleton.mpr (by decide)

theorem spacing_team : Spacing "team" '-' "team " [] where
  marked := ⟨by decide, List.all_iff_forall_prop.mp (by decide), by decide, by decide⟩
  new := rfl
  tail := List.forall_mem_nil _

theorem Spacing.spells (spacing : Spacing spaced mark new tail) :
    Spells spaced.toList spaced.toList := by
  refine List.forall₂_same.mpr fun letter hletter => ?_
  have hlower := (spacing.marked.letters letter hletter).1
  have hbounds := isLower_iff.mp hlower
  have hupper : letter.isUpper = false := by
    rw [Bool.eq_false_iff]
    intro hupper
    have hbounds' := isUpper_iff.mp hupper
    omega
  exact (foldsTo_of_ascii (by omega)).mpr (toLower_of_not_isUpper hupper)

theorem markedWord_eq_some_iff_markedAt : markedWord spaced mark new before s = some (n, put) ↔
    n = spaced.length + 1 ∧ put = new.toList ∧ MarkedAt spaced.toList mark (fun _ => True) before s := by
  simp only [markedWord_eq_some_iff, MarkedAt, and_true]

theorem markedWord_eq_none_iff : markedWord spaced mark new before s = none ↔
    ¬ MarkedAt spaced.toList mark (fun _ => True) before s := by
  rw [← not_iff_not, not_not, ← ne_eq, Option.ne_none_iff_exists']
  constructor
  · rintro ⟨⟨n, put⟩, h⟩
    exact (markedWord_eq_some_iff_markedAt.mp h).2.2
  · exact fun h => ⟨_, markedWord_eq_some_iff_markedAt.mpr ⟨rfl, rfl, h⟩⟩

theorem exists_spelt_of_markedWord {part : List Char}
    (h : markedWord spaced mark new before (part ++ s) = some (part.length, put)) :
    ∃ spelt, Spells spaced.toList spelt ∧ part = spelt ++ [mark] ∧ put = new.toList ∧
      endsInWord before = false := by
  obtain ⟨hlength, hput, hbefore, spelt, rest, hspelt, heq⟩ := markedWord_eq_some_iff.mp h
  refine ⟨spelt, hspelt, ?_, hput, hbefore⟩
  have hsplit : part ++ s = (spelt ++ [mark]) ++ rest := by simpa using heq
  refine (List.append_inj hsplit ?_).1
  rw [hlength, List.length_append, hspelt.length_eq, String.length_toList]
  rfl

theorem markedWord_within (hbefore : endsInWord before = true) (s : List Char) :
    markedWord spaced mark new before s = none := by
  rw [markedWord, if_pos hbefore]

theorem carriesWords_replaced {mark' : Char} :
    CarriesWords mark' (Replaced (markedWord spaced mark new)) where
  forth := by
    intro before c s t hbefore _ h
    obtain ⟨hnil, -⟩ | ⟨d, rest, rest', hcons, rfl, hrest⟩ := h.nil_or_cons (markedWord_within hbefore)
    · cases hnil
    · obtain ⟨rfl, rfl⟩ := List.cons.inj hcons
      exact ⟨rest', rfl, hrest⟩
  back := by
    intro before c s t hbefore _ h
    obtain ⟨-, hnil⟩ | ⟨d, rest, rest', rfl, hcons, hrest⟩ := h.nil_or_cons (markedWord_within hbefore)
    · cases hnil
    · obtain ⟨rfl, rfl⟩ := List.cons.inj hcons
      exact ⟨rest, rfl, hrest⟩

theorem next_append_of_word (hne : letters ≠ []) (hletters : ∀ c ∈ letters, isWord c = true)
    (t : List Char) : next (letters ++ t) = some .plain := by
  obtain ⟨c, letters, rfl⟩ := List.exists_cons_of_ne_nil hne
  exact congrArg some (markOf_of_isWord (hletters c List.mem_cons_self))

theorem next_replaced (spacing : Spacing spaced mark new tail)
    (h : Replaced (markedWord spaced mark new) before s t) : next t = next s := by
  cases h with
  | nil => rfl
  | keep => rfl
  | put hhit =>
    obtain ⟨spelt, hspelt, rfl, rfl, -⟩ := exists_spelt_of_markedWord hhit
    rw [spacing.new, List.append_assoc, List.append_assoc,
      next_append_of_word (spacing.marked.ne_nil_of_spells hspelt) (spacing.marked.isWord hspelt),
      next_append_of_word spacing.marked.ne_nil (spacing.marked.isWord spacing.spells)]

/-- The marked words behind a pass are those before it that it does not take. -/
theorem somewhere_replaced_iff (spacing : Spacing spaced mark new tail) (marked : IsMarked word mark')
    (hwanted : ∀ rest rest', next rest = next rest' → (wanted rest ↔ wanted rest'))
    (h : Replaced (markedWord spaced mark new) before s t) :
    Somewhere (fun before place => MarkedAt word mark' wanted before place ∧
      ¬ MarkedAt spaced.toList mark (fun _ => True) before place) before s ↔
      Somewhere (MarkedAt word mark' wanted) before t := by
  have starts' : Starts (MarkedAt word mark' wanted) := starts_markedAt marked
  have starts : Starts fun before place => MarkedAt word mark' wanted before place ∧
      ¬ MarkedAt spaced.toList mark (fun _ => True) before place :=
    ⟨fun before place h => starts'.apart before place h.1,
      fun before place h => starts'.letter before place h.1⟩
  induction h with
  | nil => exact iff_of_false starts.not_somewhere_nil starts'.not_somewhere_nil
  | @keep before c s t hnone hrest ih =>
    cases hc : isWord c with
    | false =>
      rw [starts.somewhere_cons_of_not_word hc, starts'.somewhere_cons_of_not_word hc]
      exact ih
    | true =>
      rw [somewhere_cons, somewhere_cons, and_iff_left (markedWord_eq_none_iff.mp hnone)]
      have hbehind : ∀ rest rest', Replaced (markedWord spaced mark new) (some mark') rest rest' →
          (wanted rest ↔ wanted rest') := fun rest rest' h =>
        hwanted rest rest' (next_replaced spacing h).symm
      exact or_congr (carriesWords_replaced.markedAt_iff marked hbehind rfl hc hrest) ih
  | @put before part put s t hhit hne hrest ih =>
    obtain ⟨spelt, hspelt, rfl, rfl, hbefore⟩ := exists_spelt_of_markedWord hhit
    have hword := spacing.marked.isWord hspelt
    have hnew := spacing.marked.isWord spacing.spells
    have hblank : isWord ' ' = false := by decide
    have htaken : MarkedAt spaced.toList mark (fun _ => True) before (spelt ++ mark :: s) :=
      (markedAt_append_iff spacing.marked hword spacing.marked.notWord).mpr ⟨hbefore, hspelt, rfl, trivial⟩
    have hput : ¬ MarkedAt word mark' wanted before (spaced.toList ++ ' ' :: (tail ++ t)) := by
      rw [markedAt_append_iff marked hnew hblank]
      rintro ⟨-, -, rfl, -⟩
      exact absurd marked.plain (by decide)
    -- What follows stood behind the mark and stands behind the tail: no word has begun at either.
    have hbehind : endsInWord (tail.getLast?.or (some ' ')) = endsInWord (some mark) := by
      rw [endsInWord_of_not_word spacing.marked.notWord]
      cases hlast : tail.getLast? with
      | none => decide
      | some c => exact endsInWord_of_not_word (spacing.tail c (List.mem_of_getLast? hlast)).1
    have hlast : (spelt ++ [mark]).getLast? = some mark := List.getLast?_concat
    rw [hlast] at ih
    rw [spacing.new, List.append_assoc, List.singleton_append, List.append_assoc, List.cons_append,
      starts.somewhere_marked (spacing.marked.ne_nil_of_spells hspelt) hword spacing.marked.notWord,
      starts'.somewhere_marked spacing.marked.ne_nil hnew hblank, or_iff_right hput,
      or_iff_right fun h => h.2 htaken,
      starts'.somewhere_append_of_not_word fun c hc => (spacing.tail c hc).1,
      somewhere_markedAt_before hbehind]
    exact ih

theorem not_somewhere_replaced (spacing : Spacing spaced mark new tail)
    (h : Replaced (markedWord spaced mark new) before s t) :
    ¬ Somewhere (MarkedAt spaced.toList mark fun _ => True) before t := by
  rw [← somewhere_replaced_iff spacing spacing.marked (fun _ _ _ => Iff.rfl) h]
  rintro ⟨front, place, -, hplace, hnot⟩
  exact hnot hplace

theorem eq_of_replaced (h : Replaced (markedWord spaced mark new) before s t)
    (hnot : ¬ Somewhere (MarkedAt spaced.toList mark fun _ => True) before s) : t = s := by
  induction h with
  | nil => rfl
  | keep _ _ ih => rw [ih fun h => hnot (somewhere_cons.mpr (.inr h))]
  | put hhit => exact absurd ⟨[], _, rfl, (markedWord_eq_some_iff_markedAt.mp hhit).2.2⟩ hnot

theorem somewhere_replaced_iff_of_ne (spacing : Spacing spaced mark new tail)
    (marked : IsMarked word mark') (hne : mark' ≠ mark)
    (hwanted : ∀ rest rest', next rest = next rest' → (wanted rest ↔ wanted rest'))
    (h : Replaced (markedWord spaced mark new) before s t) :
    Somewhere (MarkedAt word mark' wanted) before s ↔
      Somewhere (MarkedAt word mark' wanted) before t := by
  rw [← somewhere_replaced_iff spacing marked hwanted h]
  constructor
  · refine Somewhere.imp fun before place hplace => ⟨hplace, ?_⟩
    obtain ⟨-, spelt, rest, hspelt, rfl, -⟩ := hplace
    rw [markedAt_append_iff spacing.marked (marked.isWord hspelt) marked.notWord]
    exact fun h => hne h.2.2.1
  · exact Somewhere.imp fun before place hplace => hplace.1

/-- A pass for a marked word keeps what holds of neighbours, unless the blank that it puts does not stand
well before what follows. -/
theorem fitting_replaced_iff (lenient : Lenient R) (spacing : Spacing spaced mark new tail)
    (h : Replaced (markedWord spaced mark new) before s t) (hfit : Fitting R before s) :
    Fitting R before t ↔ ¬ Somewhere (MarkedAt spaced.toList mark fun rest =>
      R (some .blank) (next (tail ++ rest)) = false) before s := by
  have starts : Starts (MarkedAt spaced.toList mark fun rest =>
    R (some .blank) (next (tail ++ rest)) = false) := starts_markedAt spacing.marked
  induction h with
  | nil => exact iff_of_true hfit starts.not_somewhere_nil
  | @keep before c s t hnone hrest ih =>
    obtain ⟨hfirst, hfit⟩ := fitting_cons.mp hfit
    rw [fitting_cons, and_iff_right hfirst, somewhere_cons, or_iff_right fun h =>
      markedWord_eq_none_iff.mp hnone (h.imp fun _ _ => trivial)]
    exact ih hfit
  | @put before part put s t hhit hne hrest ih =>
    obtain ⟨spelt, hspelt, rfl, rfl, hbefore⟩ := exists_spelt_of_markedWord hhit
    have hplain := spacing.marked.plain
    have hword := spacing.marked.isWord hspelt
    have hnew := spacing.marked.isWord spacing.spells
    have hlast : (spelt ++ [mark]).getLast? = some mark := List.getLast?_concat
    rw [hlast] at ih
    rw [List.append_assoc, List.singleton_append] at hfit ⊢
    have hrestFit : Fitting R (some mark) s := by
      rw [fitting_plain_append lenient hplain (fun c hc => markOf_of_isWord (hword c hc))
        (spacing.marked.ne_nil_of_spells hspelt), fitting_cons] at hfit
      exact hfit.2
    have hblank : R ((some mark).map markOf) (some (markOf ' ')) = true := by
      rw [Option.map_some, hplain]
      exact lenient.behind _
    have hspace : (some ' ').map markOf = some .blank := by decide
    have hnext : next (tail ++ t) = next (tail ++ s) := by
      cases tail with
      | nil => exact next_replaced spacing hrest
      | cons c tail => rfl
    have htail : Fitting R (some mark) (tail ++ t) ↔ Fitting R (some mark) t := by
      by_cases htail : tail = []
      · rw [htail, List.nil_append]
      · exact fitting_plain_append lenient hplain (fun c hc => (spacing.tail c hc).2) htail t
    rw [starts.somewhere_marked (spacing.marked.ne_nil_of_spells hspelt) hword spacing.marked.notWord,
      not_or, markedAt_append_iff spacing.marked hword spacing.marked.notWord, spacing.new,
      List.append_assoc, List.cons_append,
      fitting_plain_append lenient hplain (fun c hc => markOf_of_isWord (hnew c hc))
        spacing.marked.ne_nil, fitting_cons, and_iff_right hblank,
      fitting_iff_behind_plain lenient hplain, hspace, hnext, htail]
    refine and_congr ?_ (ih hrestFit)
    simp [hbefore, hspelt]

/-! ### Small letters -/

theorem signs_not_inert : (signs.all fun c => !isInert c) = true := by
  decide

theorem markOf_of_inert (h : isInert c = true) : markOf c = .plain :=
  markOf_eq_plain (isBlank_of_isInert h) (not_mem_of_all signs_not_inert h)

theorem fancyQuotes_not_inert : (fancyQuotes.all fun c => !isInert c) = true := by
  decide

theorem not_isFancyQuote_of_isInert (h : isInert c = true) : isFancyQuote c = false :=
  not_isFancyQuote_of_not_mem (not_mem_of_all fancyQuotes_not_inert h)

theorem exists_of_lowerAfter (letters : ∀ letter ∈ word, letter.isLower = true ∧ letter ≠ 'i')
    (hmark : isInert mark = false) {spelt reversed : List Char} (hspelt : Spells word spelt)
    (h : lowerAfter reversed s = spelt ++ mark :: t) :
    ∃ old rest, Spells word old ∧ s = old ++ mark :: rest := by
  induction hspelt generalizing s reversed with
  | nil =>
    cases s with
    | nil => cases h
    | cons c s =>
      obtain ⟨small, hsmall, heq⟩ := lowerAfter_cons_smallForm reversed c s
      rw [heq] at h
      refine ⟨[], s, .nil, ?_⟩
      rcases hsmall.same with rfl | ⟨-, hinert⟩
      · rw [(List.cons.inj h).1]
        rfl
      · obtain ⟨d, small, rfl⟩ := List.exists_cons_of_ne_nil hsmall.ne_nil
        obtain ⟨rfl, -⟩ := List.cons.inj h
        rw [hinert d List.mem_cons_self] at hmark
        cases hmark
  | @cons letter d word spelt hletter _ ih =>
    obtain ⟨hfirst, hrest⟩ := List.forall_mem_cons.mp letters
    cases s with
    | nil => cases h
    | cons c s =>
      obtain ⟨small, hsmall, heq⟩ := lowerAfter_cons_smallForm reversed c s
      rw [heq] at h
      obtain ⟨e, small, rfl⟩ := List.exists_cons_of_ne_nil hsmall.ne_nil
      obtain ⟨rfl, htail⟩ := List.cons.inj h
      obtain ⟨hsingle, hc⟩ := hsmall.foldsTo letter hfirst.1 hfirst.2 e List.mem_cons_self hletter
      rw [(List.cons.inj hsingle).2] at htail
      obtain ⟨old, rest, hold, rfl⟩ := ih hrest htail
      exact ⟨c :: old, rest, .cons hc hold, rfl⟩

theorem somewhere_of_lowerAfter (marked : IsMarked word mark) (hmark : isInert mark = false)
    {reversed : List Char} (hbefore : endsInWord before' = false → endsInWord before = false)
    (h : Somewhere (MarkedAt word mark fun _ => True) before' (lowerAfter reversed s)) :
    Somewhere (MarkedAt word mark fun _ => True) before s := by
  have starts : Starts (MarkedAt word mark fun _ => True) := starts_markedAt marked
  induction s generalizing before before' reversed with
  | nil => exact absurd h starts.not_somewhere_nil
  | cons c s ih =>
    obtain ⟨small, hsmall, heq⟩ := lowerAfter_cons_smallForm reversed c s
    rw [somewhere_cons]
    rcases somewhere_append (heq ▸ h) with ⟨front, d, back, hsplit, hplace⟩ | hrest
    · left
      obtain ⟨hapart, spelt, rest, hspelt, hword, -⟩ := hplace
      obtain ⟨letter, word, rfl⟩ := List.exists_cons_of_ne_nil marked.ne_nil
      obtain ⟨e, spelt, hletter, htail, rfl⟩ := List.forall₂_cons_left_iff.mp hspelt
      obtain ⟨rfl, hback⟩ := List.cons.inj hword
      obtain ⟨hlower, hne⟩ := marked.letters letter List.mem_cons_self
      obtain ⟨hsingle, -⟩ := hsmall.foldsTo letter hlower hne d (by simp [hsplit]) hletter
      obtain ⟨rfl, rfl⟩ : front = [] ∧ back = [] := by
        cases front with
        | nil => exact ⟨rfl, (List.cons.inj (hsplit.symm.trans hsingle)).2⟩
        | cons f front => simp [hsplit] at hsingle
      have hlowered : lowerAfter reversed (c :: s) = (d :: spelt) ++ mark :: rest := by
        rw [heq, hsingle]
        exact congrArg (List.cons d) hback
      obtain ⟨old, rest, hold, hs⟩ := exists_of_lowerAfter marked.letters hmark hspelt hlowered
      exact ⟨hbefore hapart, old, rest, hold, hs, trivial⟩
    · right
      refine ih (fun hlast => ?_) hrest
      obtain ⟨d, hd⟩ := Option.ne_none_iff_exists'.mp (mt List.getLast?_eq_none_iff.mp hsmall.ne_nil)
      rw [hd, Option.some_or] at hlast
      cases hc : isWord c with
      | false => exact endsInWord_of_not_word hc
      | true =>
        have hword : endsInWord (some d) = true := hsmall.isWord hc d (List.mem_of_getLast? hd)
        rw [hword] at hlast
        cases hlast

theorem fitting_lowerAfter_iff (lenient : Lenient R) (h : before'.map markOf = before.map markOf)
    (reversed s : List Char) : Fitting R before' (lowerAfter reversed s) ↔ Fitting R before s := by
  induction s generalizing before before' reversed with
  | nil => exact fitting_of_map_eq h []
  | cons c s ih =>
    obtain ⟨small, hsmall, heq⟩ := lowerAfter_cons_smallForm reversed c s
    rw [heq]
    rcases hsmall.same with rfl | ⟨hinert, hsmalls⟩
    · rw [List.singleton_append, fitting_cons, fitting_cons, h]
      exact and_congr_right fun _ => ih rfl _
    · have hplain : markOf c = .plain := markOf_of_inert hinert
      rw [fitting_plain_append lenient hplain (fun d hd => markOf_of_inert (hsmalls d hd)) hsmall.ne_nil,
        fitting_cons, hplain, and_iff_right (lenient.before _)]
      exact ih rfl _

end TeamOrders.Comment
