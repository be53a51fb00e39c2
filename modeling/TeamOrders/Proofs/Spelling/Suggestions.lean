import Mathlib.Data.List.Infix
import TeamOrders.Proofs.Spelling.EditDistance
import TeamOrders.Proofs.Text.Trim

/-!
# Suggestions are the right neighbours

Two kinds of known names are suggested for a text: those that overlap with it, in their own order, or, when
there are none, those that one or two edits lead to, by rank. Rank is antisymmetric, so a list of names has
one ranking only, and what is taken from the front of it does not depend on how the names were listed.
-/

namespace TeamOrders.Spelling

open Text

/-- In small letters, the name is another text than the needle and contains it or is contained in it. -/
def Overlaps (needle : List Char) (name : String) : Prop :=
  lower name.toList ≠ needle ∧ (needle <:+: lower name.toList ∨ lower name.toList <:+: needle)

instance (needle : List Char) (name : String) : Decidable (Overlaps needle name) :=
  inferInstanceAs (Decidable (_ ∧ _))

/-- The least number of edits from the needle to the name in small letters. -/
def editsTo (needle : List Char) (name : String) : Nat := editDistance needle (lower name.toList)

/-- One or two edits lead from the needle to the name in small letters. -/
def Nearby (needle : List Char) (name : String) : Prop :=
  editsTo needle name = 1 ∨ editsTo needle name = 2

instance (needle : List Char) (name : String) : Decidable (Nearby needle name) :=
  decidable_of_iff (distance needle (lower name.toList) = 1 ∨ distance needle (lower name.toList) = 2)
    (by rw [distance_eq_editDistance]; rfl)

/-! ### Rank -/

section Rank

variable {needle : List Char} {a b : String} {names : List String}

/-- The first name is nearer to the needle, or as near and not behind the second in the order of names. -/
def Ranked (needle : List Char) (a b : String) : Prop :=
  editsTo needle a < editsTo needle b ∨ editsTo needle a = editsTo needle b ∧ a ≤ b

theorem Ranked.antisymm (hab : Ranked needle a b) (hba : Ranked needle b a) : a = b := by
  rcases hab with hab | ⟨hsame, hab⟩ <;> rcases hba with hba | ⟨_, hba⟩
  · omega
  · omega
  · omega
  · exact String.le_antisymm hab hba

structure Ranking (needle : List Char) (names ranked : List String) : Prop where
  perm : ranked.Perm names
  pairwise : ranked.Pairwise (Ranked needle)

/-- The same names, listed otherwise, have the same ranking. -/
theorem Ranking.unique {other ranked reranked : List String} (h : Ranking needle names ranked)
    (hother : Ranking needle other reranked) (hperm : other.Perm names) : reranked = ranked :=
  List.Perm.eq_of_pairwise (fun _ _ _ _ hab hba => hab.antisymm hba) hother.pairwise h.pairwise
    (hother.perm.trans (hperm.trans h.perm.symm))

theorem before_iff (x y : Close) :
    Close.before x y = true ↔ x.1 < y.1 ∨ x.1 = y.1 ∧ x.2 ≤ y.2 := by
  simp [Close.before]

theorem before_trans (x y z : Close) (hxy : Close.before x y = true) (hyz : Close.before y z = true) :
    Close.before x z = true := by
  rw [before_iff] at *
  rcases hxy with hxy | ⟨hxy, hname⟩ <;> rcases hyz with hyz | ⟨hyz, hname'⟩
  · exact .inl (hxy.trans hyz)
  · exact .inl (hyz ▸ hxy)
  · exact .inl (hxy ▸ hyz)
  · exact .inr ⟨hxy.trans hyz, String.le_trans hname hname'⟩

theorem before_total (x y : Close) : (Close.before x y || Close.before y x) = true := by
  rw [Bool.or_eq_true, before_iff, before_iff]
  rcases Nat.lt_trichotomy x.1 y.1 with hless | hsame | hmore
  · exact .inl (.inl hless)
  · rcases String.le_total x.2 y.2 with hname | hname
    · exact .inl (.inr ⟨hsame, hname⟩)
    · exact .inr (.inr ⟨hsame.symm, hname⟩)
  · exact .inr (.inl hmore)

/-- Sorted together with their distances, the names are ranked. -/
theorem ranking_map_mergeSort (needle : List Char) (names : List String) :
    Ranking needle names
      (((names.map fun name => (editsTo needle name, name)).mergeSort Close.before).map Prod.snd) := by
  let pairs : List Close := names.map fun name => (editsTo needle name, name)
  have hsorted : (pairs.mergeSort Close.before).Perm pairs := List.mergeSort_perm pairs _
  constructor
  · have hnames : pairs.map Prod.snd = names := by
      rw [List.map_map]
      exact List.map_id' names
    exact (hsorted.map Prod.snd).trans (.of_eq hnames)
  · have hpair : ∀ x ∈ pairs.mergeSort Close.before, x.1 = editsTo needle x.2 := by
      intro x hx
      obtain ⟨name, _, rfl⟩ := List.mem_map.mp (hsorted.subset hx)
      rfl
    rw [List.pairwise_map]
    refine (List.pairwise_mergeSort before_trans before_total pairs).imp_of_mem ?_
    intro x y hx hy hxy
    rw [before_iff, hpair x hx, hpair y hy] at hxy
    exact hxy

end Rank

/-! ### The two kinds of suggestions -/

variable {input name : String} {known other : List String}

theorem overlaps_iff (needle : List Char) (name : String) :
    (lower name.toList != needle
      && (occursIn needle (lower name.toList) || occursIn (lower name.toList) needle)) = true
      ↔ Overlaps needle name := by
  rw [Bool.and_eq_true, Bool.or_eq_true, occursIn_iff_isInfix, occursIn_iff_isInfix, bne_iff_ne]
  rfl

theorem filterMap_nearby (needle : List Char) (known : List String) :
    (known.filterMap fun name =>
      let d := distance needle (lower name.toList)
      if 0 < d && d ≤ maxDistance then some (d, name) else none)
      = (known.filter (Nearby needle ·)).map fun name => (editsTo needle name, name) := by
  induction known with
  | nil => rfl
  | cons name known ih =>
    have hnear : (0 < editsTo needle name && editsTo needle name ≤ maxDistance) = true
        ↔ Nearby needle name := by
      rw [Bool.and_eq_true, decide_eq_true_iff, decide_eq_true_iff, Nearby, maxDistance]
      omega
    simp only [distance_eq_editDistance] at ih ⊢
    rw [List.filterMap_cons, List.filter_cons, ← editsTo]
    by_cases hname : Nearby needle name
    · simp only [hnear.mpr hname, hname, ih, ↓reduceIte, decide_true, List.map_cons]
    · simp only [hnear.not.mpr hname, hname, ih, ↓reduceIte, decide_false, Bool.false_eq_true]

theorem suggest_of_needle_eq_nil (h : needle input = []) (known : List String) :
    suggest input known = [] := by
  simp [suggest, h]

theorem suggest_of_needle_ne_nil (h : needle input ≠ []) (known : List String) :
    suggest input known =
      if known.filter (Overlaps (needle input) ·) ≠ [] then
        (known.filter (Overlaps (needle input) ·)).take 3
      else
        ((((known.filter (Nearby (needle input) ·)).map fun name =>
          (editsTo (needle input) name, name)).mergeSort Close.before).map Prod.snd).take 3 := by
  have hoverlaps : ∀ name ∈ known, _ = decide (Overlaps (needle input) name) :=
    fun name _ => Bool.eq_iff_iff.mpr ((overlaps_iff _ name).trans decide_eq_true_iff.symm)
  rw [suggest, List.filter_congr hoverlaps, filterMap_nearby, if_neg (by simpa using h), List.map_take]
  simp [maxSuggestions]

theorem suggest_of_overlaps (h : needle input ≠ [])
    (hsome : ∃ name ∈ known, Overlaps (needle input) name) :
    suggest input known = (known.filter (Overlaps (needle input) ·)).take 3 := by
  obtain ⟨name, hname, hoverlaps⟩ := hsome
  rw [suggest_of_needle_ne_nil h, if_pos]
  exact List.ne_nil_of_mem (List.mem_filter.mpr ⟨hname, decide_eq_true hoverlaps⟩)

theorem exists_ranking_suggest (h : needle input ≠ [])
    (hnone : ∀ name ∈ known, ¬ Overlaps (needle input) name) :
    ∃ ranked, Ranking (needle input) (known.filter (Nearby (needle input) ·)) ranked ∧
      suggest input known = ranked.take 3 := by
  have hnil : known.filter (Overlaps (needle input) ·) = [] := by
    rw [List.filter_eq_nil_iff]
    intro name hname
    rw [decide_eq_true_iff]
    exact hnone name hname
  refine ⟨_, ranking_map_mergeSort (needle input) _, ?_⟩
  rw [suggest_of_needle_ne_nil h, if_neg (not_not.mpr hnil)]

/-- Which names overlap with the needle does not depend on their order, and neither does the ranking. -/
theorem suggest_perm (h : needle input ≠ []) (hnone : ∀ name ∈ known, ¬ Overlaps (needle input) name)
    (hperm : other.Perm known) : suggest input other = suggest input known := by
  obtain ⟨ranked, hranking, hsuggest⟩ := exists_ranking_suggest h hnone
  obtain ⟨reranked, hreranking, hresuggest⟩ :=
    exists_ranking_suggest h fun name hname => hnone name (hperm.subset hname)
  rw [hresuggest, hsuggest, hranking.unique hreranking (hperm.filter _)]

theorem length_suggest_le (input : String) (known : List String) :
    (suggest input known).length ≤ 3 := by
  by_cases h : needle input = []
  · rw [suggest_of_needle_eq_nil h]
    exact Nat.zero_le 3
  · rw [suggest_of_needle_ne_nil h]
    split <;> exact List.length_take_le ..

theorem Nearby.ne {needle : List Char} (h : Nearby needle name) : lower name.toList ≠ needle := by
  intro heq
  have hzero : editsTo needle name = 0 := (editDistance_eq_zero_iff _ _).mpr heq.symm
  rcases h with h | h <;> omega

theorem mem_of_mem_suggest (hmem : name ∈ suggest input known) :
    name ∈ known ∧ (Overlaps (needle input) name ∨ Nearby (needle input) name) := by
  by_cases h : needle input = []
  · rw [suggest_of_needle_eq_nil h] at hmem
    exact absurd hmem List.not_mem_nil
  by_cases hsome : ∃ name ∈ known, Overlaps (needle input) name
  · rw [suggest_of_overlaps h hsome] at hmem
    obtain ⟨hknown, hoverlaps⟩ := List.mem_filter.mp (List.mem_of_mem_take hmem)
    exact ⟨hknown, .inl (of_decide_eq_true hoverlaps)⟩
  · obtain ⟨ranked, hranking, hsuggest⟩ :=
      exists_ranking_suggest h fun name hname hoverlaps => hsome ⟨name, hname, hoverlaps⟩
    rw [hsuggest] at hmem
    obtain ⟨hknown, hnearby⟩ := List.mem_filter.mp (hranking.perm.subset (List.mem_of_mem_take hmem))
    exact ⟨hknown, .inr (of_decide_eq_true hnearby)⟩

theorem suggest_ne_nil_of_nearby (h : needle input ≠ [])
    (hnear : ∃ name ∈ known, Nearby (needle input) name) : suggest input known ≠ [] := by
  by_cases hsome : ∃ name ∈ known, Overlaps (needle input) name
  · rw [suggest_of_overlaps h hsome]
    obtain ⟨name, hname, hoverlaps⟩ := hsome
    have hmem : name ∈ known.filter (Overlaps (needle input) ·) :=
      List.mem_filter.mpr ⟨hname, decide_eq_true hoverlaps⟩
    simpa [List.take_eq_nil_iff] using List.ne_nil_of_mem hmem
  · obtain ⟨ranked, hranking, hsuggest⟩ :=
      exists_ranking_suggest h fun name hname hoverlaps => hsome ⟨name, hname, hoverlaps⟩
    obtain ⟨name, hname, hnearby⟩ := hnear
    have hmem : name ∈ ranked :=
      hranking.perm.mem_iff.mpr (List.mem_filter.mpr ⟨hname, decide_eq_true hnearby⟩)
    rw [hsuggest, Ne, List.take_eq_nil_iff, not_or]
    exact ⟨by decide, List.ne_nil_of_mem hmem⟩

/-- Nothing is suggested for an empty needle, and never more than three names, each of them known and, in
small letters, another text than the needle. The first names that overlap with the needle are suggested; if
there are none, the first in the ranking of those near to it, whatever order they are known in. If a name is
near to it, something is suggested for every needle but the empty one. -/
theorem suggest_neighbours (input : String) (known : List String) :
    (needle input = [] → suggest input known = []) ∧
    (suggest input known).length ≤ 3 ∧
    (∀ name ∈ suggest input known, name ∈ known ∧ lower name.toList ≠ needle input) ∧
    (needle input ≠ [] →
      ((∃ name ∈ known, Overlaps (needle input) name) →
        suggest input known = (known.filter (Overlaps (needle input) ·)).take 3) ∧
      ((¬ ∃ name ∈ known, Overlaps (needle input) name) →
        (∃ ranked, Ranking (needle input) (known.filter (Nearby (needle input) ·)) ranked ∧
          suggest input known = ranked.take 3) ∧
        ∀ other, other.Perm known → suggest input other = suggest input known) ∧
      ((∃ name ∈ known, Nearby (needle input) name) → suggest input known ≠ [])) := by
  refine ⟨fun h => suggest_of_needle_eq_nil h known, length_suggest_le input known, ?_, fun h => ?_⟩
  · intro name hmem
    obtain ⟨hknown, hoverlaps | hnearby⟩ := mem_of_mem_suggest hmem
    · exact ⟨hknown, hoverlaps.1⟩
    · exact ⟨hknown, hnearby.ne⟩
  · refine ⟨suggest_of_overlaps h, fun hsome => ?_, suggest_ne_nil_of_nearby h⟩
    have hnone : ∀ name ∈ known, ¬ Overlaps (needle input) name :=
      fun name hname hoverlaps => hsome ⟨name, hname, hoverlaps⟩
    exact ⟨exists_ranking_suggest h hnone, fun other hperm => suggest_perm h hnone hperm⟩

theorem suggest_neighbours_front_zxz :
    needle " " = [] ∧ suggest " " ["a"] = [] ∧
    suggest "Front" ["team-frontend", "team-backend", "team-front"] = ["team-frontend", "team-front"] ∧
    ∃ ranked, Ranking "team-zxz".toList ["team-zz", "team-zzzz"] ranked ∧
      suggest "TEAM-ZXZ " ["team-zz", "team-alpha", "team-zzzz"] = ranked.take 3 := by
  have hfront := (suggest_neighbours "Front" ["team-frontend", "team-backend", "team-front"]).2.2.2
    (by decide)
  have hzxz := (suggest_neighbours "TEAM-ZXZ " ["team-zz", "team-alpha", "team-zzzz"]).2.2.2 (by decide)
  refine ⟨by decide, (suggest_neighbours " " ["a"]).1 (by decide), ?_, ?_⟩
  · exact hfront.1 ⟨"team-frontend", by decide, by decide⟩
  · exact (hzxz.2.1 (by decide)).1

end TeamOrders.Spelling
