import Mathlib.Data.List.Infix
import TeamOrders.Proofs.Number.Order
import TeamOrders.Proofs.Reading.Meaning
import TeamOrders.Proofs.Reading.Segment

/-!
# The alternatives are cut from one ranking

The sureness of a candidate is that of the kind of its order, so candidates of one order are equally
sure. Therefore it makes no difference whether unsure candidates are dropped before repeated orders
are, or after; and since sorting is stable, it makes no difference whether they are dropped before
sorting, or after. What is kept beside a chosen candidate is then cut from a ranking that the settings
have no part in: as far as the candidates in it are sure enough, and at most as many as are wanted.
-/

namespace TeamOrders

theorem Meaning.position_baseConfidence (kind : Kind) :
    (baseConfidence kind).position.isSome = true := by
  cases kind with
  | batch => rfl
  | _ => exact Double.position_ofDecimal _ _ _

namespace Candidate

/-- The candidate is as sure as the kind of its order. -/
def Regular (candidate : Candidate) : Prop :=
  candidate.confidence = Meaning.baseConfidence candidate.order.kind

theorem regular_of_mem_ofSegment {segment : List Char} {candidate : Candidate}
    (h : candidate ∈ ofSegment segment) : candidate.Regular := by
  obtain ⟨phrase, -, m, meant, -, hofMatch, rfl⟩ := exists_meant_of_mem_ofSegment h
  rw [Regular, Meaning.kind_of_ofMatch? hofMatch]

theorem regular_of_choose {segment : List Char} {chosen : Candidate} {others : List Candidate}
    (h : choose (ofSegment segment) = some (chosen, others)) :
    ∀ candidate ∈ others, candidate.Regular := by
  intro candidate hcandidate
  apply regular_of_mem_ofSegment
  exact (perm_of_choose h).subset (List.mem_cons_of_mem chosen hcandidate)

/-! ### Repeated orders -/

theorem withNewOrders_congr {known known' : List Order} {candidates : List Candidate}
    (h : ∀ candidate ∈ candidates, candidate.order ∈ known ↔ candidate.order ∈ known') :
    withNewOrders known candidates = withNewOrders known' candidates := by
  induction candidates generalizing known known' with
  | nil => rfl
  | cons candidate rest ih =>
    have hfirst := h candidate List.mem_cons_self
    have hrest := fun other hother => h other (List.mem_cons_of_mem candidate hother)
    by_cases hknown : candidate.order ∈ known
    · simp only [withNewOrders, hknown, hfirst.mp hknown, if_true]
      exact ih hrest
    · have hknown' : candidate.order ∉ known' := fun hmem => hknown (hfirst.mpr hmem)
      simp only [withNewOrders, hknown, hknown', if_false]
      congr 1
      apply ih
      intro other hother
      simp only [List.mem_cons, hrest other hother]

theorem withNewOrders_sublist (known : List Order) (candidates : List Candidate) :
    (withNewOrders known candidates).Sublist candidates := by
  induction candidates generalizing known with
  | nil => exact List.Sublist.refl []
  | cons candidate rest ih =>
    unfold withNewOrders
    split
    · exact (ih known).cons candidate
    · exact (ih _).cons_cons candidate

theorem regular_withNewOrders {candidates : List Candidate}
    (regular : ∀ candidate ∈ candidates, candidate.Regular) (known : List Order) :
    ∀ candidate ∈ withNewOrders known candidates, candidate.Regular :=
  fun candidate h => regular candidate ((withNewOrders_sublist known candidates).subset h)

theorem mem_of_mem_alternatives {settings : Settings} {chosen candidate : Candidate}
    {others : List Candidate} (h : candidate ∈ alternatives settings chosen others) :
    candidate ∈ others := by
  have hnew := (List.mergeSort_perm _ _).subset ((List.take_sublist _ _).subset h)
  exact (List.mem_filter.mp ((withNewOrders_sublist _ _).subset hnew)).1

/-- Dropping repeated orders and dropping candidates by their orders can change places. -/
theorem withNewOrders_filter {keeps : Candidate → Bool} {candidates : List Candidate}
    (h : ∀ a ∈ candidates, ∀ b ∈ candidates, a.order = b.order → keeps a = keeps b)
    (known : List Order) :
    withNewOrders known (candidates.filter keeps) = (withNewOrders known candidates).filter keeps := by
  induction candidates generalizing known with
  | nil => rfl
  | cons candidate rest ih =>
    have hrest : ∀ a ∈ rest, ∀ b ∈ rest, a.order = b.order → keeps a = keeps b :=
      fun a ha b hb => h a (List.mem_cons_of_mem candidate ha) b (List.mem_cons_of_mem candidate hb)
    cases hkeeps : keeps candidate with
    | true =>
      rw [List.filter_cons_of_pos hkeeps]
      by_cases hknown : candidate.order ∈ known
      · simp only [withNewOrders, hknown, if_true]
        exact ih hrest known
      · simp only [withNewOrders, hknown, if_false, List.filter_cons_of_pos hkeeps]
        rw [ih hrest]
    | false =>
      have hdropped : ¬ keeps candidate = true := by simp [hkeeps]
      rw [List.filter_cons_of_neg hdropped]
      by_cases hknown : candidate.order ∈ known
      · simp only [withNewOrders, hknown, if_true]
        exact ih hrest known
      · simp only [withNewOrders, hknown, if_false, List.filter_cons_of_neg hdropped]
        rw [← ih hrest]
        apply withNewOrders_congr
        intro other hother
        obtain ⟨hmem, hkept⟩ := List.mem_filter.mp hother
        have hne : other.order ≠ candidate.order := by
          intro heq
          have hsame := h other (List.mem_cons_of_mem candidate hmem) candidate
            List.mem_cons_self heq
          rw [hkept, hkeeps] at hsame
          cases hsame
        simp [hne]

/-! ### Sorting -/

def before (a b : Candidate) : Bool := b.confidence.atMost a.confidence

def rank (candidate : Candidate) : Int := candidate.confidence.position.getD 0

/-- The order of sureness as an order of whole numbers, which is total. -/
def ranksBefore (a b : Candidate) : Bool := decide (b.rank ≤ a.rank)

theorem before_eq_ranksBefore {a b : Candidate} (ha : a.Regular) (hb : b.Regular) :
    before a b = ranksBefore a b := by
  obtain ⟨i, hi⟩ := Option.isSome_iff_exists.mp (Meaning.position_baseConfidence a.order.kind)
  obtain ⟨j, hj⟩ := Option.isSome_iff_exists.mp (Meaning.position_baseConfidence b.order.kind)
  rw [Regular] at ha hb
  simp only [before, ranksBefore, rank, Double.atMost, ha, hb, hi, hj, Option.getD_some]

end Candidate

section Sorting

variable {α : Type} {le : α → α → Bool}

theorem filter_append_of_cut {a : α} {low high : List α} (hlow : ∀ b ∈ low, (!le a b) = true)
    (hhigh : ∀ b ∈ high, le a b = true) : ((low ++ high).filter fun b => !le a b) = low := by
  rw [List.filter_append, List.filter_eq_self.mpr hlow, List.filter_eq_nil_iff.mpr,
    List.append_nil]
  intro b hb
  simp [hhigh b hb]

/-- Sorting the first element in cuts the rest, once sorted, before all that it comes before. -/
theorem mergeSort_cons_cut (trans : ∀ a b c, le a b → le b c → le a c)
    (total : ∀ a b, le a b || le b a) (a : α) (rest : List α) :
    ∃ low high, (a :: rest).mergeSort le = low ++ a :: high ∧ rest.mergeSort le = low ++ high ∧
      (∀ b ∈ low, (!le a b) = true) ∧ ∀ b ∈ high, le a b = true := by
  obtain ⟨low, high, hsort, hrest, hlow⟩ := List.mergeSort_cons trans total a rest
  have hsorted := List.pairwise_mergeSort trans total (a :: rest)
  rw [hsort, List.pairwise_append, List.pairwise_cons] at hsorted
  exact ⟨low, high, hsort, hrest, hlow, hsorted.2.1.1⟩

/-- Sorting is stable, so dropping elements before it or after it comes to the same. -/
theorem mergeSort_filter (trans : ∀ a b c, le a b → le b c → le a c)
    (total : ∀ a b, le a b || le b a) (keeps : α → Bool) (l : List α) :
    (l.filter keeps).mergeSort le = (l.mergeSort le).filter keeps := by
  induction l with
  | nil => simp
  | cons a rest ih =>
    obtain ⟨low, high, hsort, hrest, hlow, hhigh⟩ := mergeSort_cons_cut trans total a rest
    cases hkeeps : keeps a with
    | false =>
      have hdropped : ¬ keeps a = true := by simp [hkeeps]
      rw [List.filter_cons_of_neg hdropped, ih, hsort, hrest, List.filter_append,
        List.filter_append, List.filter_cons_of_neg hdropped]
    | true =>
      obtain ⟨low', high', hsort', hrest', hlow', hhigh'⟩ :=
        mergeSort_cons_cut trans total a (rest.filter keeps)
      have hparts : low' ++ high' = low.filter keeps ++ high.filter keeps := by
        rw [← hrest', ih, hrest, List.filter_append]
      -- Both cuts lie where the elements that `a` comes before begin.
      have hlows : low' = low.filter keeps :=
        calc low' = (low' ++ high').filter fun b => !le a b :=
              (filter_append_of_cut hlow' hhigh').symm
          _ = (low.filter keeps ++ high.filter keeps).filter fun b => !le a b := by rw [hparts]
          _ = low.filter keeps := filter_append_of_cut
              (fun b hb => hlow b (List.mem_filter.mp hb).1)
              (fun b hb => hhigh b (List.mem_filter.mp hb).1)
      rw [hlows, List.append_cancel_left_eq] at hparts
      rw [List.filter_cons_of_pos hkeeps, hsort', hsort, List.filter_append,
        List.filter_cons_of_pos hkeeps, hlows, hparts]

/-- Sorting is stable, so elements that come before each other stay in their order. -/
theorem pairwise_mergeSort_stable (trans : ∀ a b c, le a b → le b c → le a c)
    (total : ∀ a b, le a b || le b a) {earlier : α → α → Prop} {l : List α}
    (h : l.Pairwise earlier) :
    (l.mergeSort le).Pairwise fun a b => le a b = true ∧ (le b a = true → earlier a b) := by
  induction l with
  | nil => simp
  | cons a rest ih =>
    obtain ⟨hfirst, hrest⟩ := List.pairwise_cons.mp h
    obtain ⟨low, high, hsort, hsortRest, hlow, hhigh⟩ := mergeSort_cons_cut trans total a rest
    have hparts := ih hrest
    rw [hsortRest, List.pairwise_append] at hparts
    obtain ⟨hlows, hhighs, hacross⟩ := hparts
    have hbefore : ∀ b ∈ low, le b a = true ∧ (le a b = true → earlier b a) := by
      intro b hb
      have hnot : ¬ le a b = true := by simpa using hlow b hb
      exact ⟨(Bool.or_eq_true_iff.mp (total a b)).resolve_left hnot, fun hab => absurd hab hnot⟩
    have hafter : ∀ b ∈ high, le a b = true ∧ (le b a = true → earlier a b) := by
      intro b hb
      have hmem : b ∈ rest.mergeSort le := hsortRest ▸ List.mem_append_right low hb
      exact ⟨hhigh b hb, fun _ => hfirst b ((List.mergeSort_perm rest le).subset hmem)⟩
    rw [hsort, List.pairwise_append, List.pairwise_cons]
    refine ⟨hlows, ⟨hafter, hhighs⟩, fun b hb c hc => ?_⟩
    obtain rfl | hc := List.mem_cons.mp hc
    · exact hbefore b hb
    · exact hacross b hb c hc

/-- Of a sorted list, a stricter choice keeps a beginning of what a laxer choice keeps, if what comes
first is the likelier to be kept. -/
theorem filter_prefix_filter {strict lax : α → Bool} {l : List α}
    (sorted : l.Pairwise fun a b => strict b = true → strict a = true)
    (weaker : ∀ a, strict a = true → lax a = true) : l.filter strict <+: l.filter lax := by
  induction l with
  | nil => exact List.prefix_refl []
  | cons a rest ih =>
    obtain ⟨hfirst, hrest⟩ := List.pairwise_cons.mp sorted
    cases hstrict : strict a with
    | true =>
      rw [List.filter_cons_of_pos hstrict, List.filter_cons_of_pos (weaker a hstrict)]
      exact (List.prefix_cons_inj a).mpr (ih hrest)
    | false =>
      have hnone : rest.filter strict = [] := by
        rw [List.filter_eq_nil_iff]
        intro b hb hkept
        exact absurd ((hfirst b hb hkept).symm.trans hstrict) (by decide)
      rw [List.filter_cons_of_neg (by simp [hstrict]), hnone]
      exact List.nil_prefix

end Sorting

namespace Candidate

variable {settings first second : Settings} {chosen : Candidate} {others : List Candidate}

/-- What means something else than the chosen candidate, each order once, the surest first. -/
def ranking (chosen : Candidate) (others : List Candidate) : List Candidate :=
  (withNewOrders [chosen.order] others).mergeSort before

def isSure (settings : Settings) (candidate : Candidate) : Bool :=
  !candidate.confidence.atMost settings.threshold

theorem ranksBefore_trans (a b c : Candidate) (hab : ranksBefore a b = true)
    (hbc : ranksBefore b c = true) : ranksBefore a c = true := by
  simp only [ranksBefore, decide_eq_true_eq] at hab hbc ⊢
  exact Int.le_trans hbc hab

theorem ranksBefore_total (a b : Candidate) : (ranksBefore a b || ranksBefore b a) = true := by
  simp only [ranksBefore, Bool.or_eq_true, decide_eq_true_eq]
  exact Int.le_total b.rank a.rank

theorem mergeSort_before {candidates : List Candidate}
    (regular : ∀ candidate ∈ candidates, candidate.Regular) :
    candidates.mergeSort before = candidates.mergeSort ranksBefore := by
  have hagree : (candidates.mergeSort before).map id = (candidates.map id).mergeSort ranksBefore :=
    List.map_mergeSort fun a ha b hb => before_eq_ranksBefore (regular a ha) (regular b hb)
  rwa [List.map_id, List.map_id] at hagree

theorem alternatives_eq (regular : ∀ candidate ∈ others, candidate.Regular) :
    alternatives settings chosen others
      = ((ranking chosen others).filter (isSure settings)).take settings.maxAlternatives := by
  have hsame : ∀ a ∈ others, ∀ b ∈ others, a.order = b.order →
      isSure settings a = isSure settings b := by
    intro a ha b hb horder
    rw [isSure, isSure, regular a ha, regular b hb, horder]
  have hnew := regular_withNewOrders regular [chosen.order]
  have hsure : ∀ candidate ∈ (withNewOrders [chosen.order] others).filter (isSure settings),
      candidate.Regular := fun candidate h => hnew candidate (List.mem_filter.mp h).1
  change ((withNewOrders [chosen.order] (others.filter (isSure settings))).mergeSort before).take
    settings.maxAlternatives = _
  rw [withNewOrders_filter hsame, mergeSort_before hsure,
    mergeSort_filter ranksBefore_trans ranksBefore_total, ranking, mergeSort_before hnew]

theorem pairwise_ranking (regular : ∀ candidate ∈ others, candidate.Regular) :
    (ranking chosen others).Pairwise fun a b => before a b = true := by
  have hnew := regular_withNewOrders regular [chosen.order]
  have hmem : ∀ candidate ∈ ranking chosen others, candidate.Regular :=
    fun candidate h => hnew candidate ((List.mergeSort_perm _ _).subset h)
  have hsorted := List.pairwise_mergeSort ranksBefore_trans ranksBefore_total
    (withNewOrders [chosen.order] others)
  rw [← mergeSort_before hnew] at hsorted
  exact hsorted.imp_of_mem fun ha hb hab => by
    rw [before_eq_ranksBefore (hmem _ ha) (hmem _ hb)]
    exact hab

/-- Raising the threshold only cuts alternatives off at the end. -/
theorem alternatives_prefix (regular : ∀ candidate ∈ others, candidate.Regular)
    (raised : first.threshold.atMost second.threshold = true)
    (sameNumber : first.maxAlternatives = second.maxAlternatives) :
    alternatives second chosen others <+: alternatives first chosen others := by
  rw [alternatives_eq regular, alternatives_eq regular, sameNumber]
  apply List.IsPrefix.take
  apply filter_prefix_filter
  · refine (pairwise_ranking regular).imp fun {a b} hab hb => ?_
    simp only [isSure, Bool.not_eq_true', Bool.eq_false_iff, ne_eq] at hb ⊢
    exact fun ha => hb (Double.atMost_trans hab ha)
  · intro candidate hsure
    simp only [isSure, Bool.not_eq_true', Bool.eq_false_iff, ne_eq] at hsure ⊢
    exact fun hlow => hsure (Double.atMost_trans hlow raised)

end Candidate

end TeamOrders
