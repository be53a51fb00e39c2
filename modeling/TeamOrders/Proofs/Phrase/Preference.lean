import TeamOrders.Phrase.Pattern

/-!
# Preferred and possible matches

Two views of a pattern at the start of a text. `Takes` says where the preferred match ends and what it
keeps; it follows the pattern from left to right, and as long as every part succeeds no other match is
ever looked at. `Reaches` says where some match ends, and is what to use for showing that there is none.
-/

namespace TeamOrders.Pattern

variable {σ : Type} {p q : Pattern σ} {s t rest : List Char} {a b : List (σ × Span)}

/-- The preferred match keeps these slots and leaves this rest. -/
def Takes (p : Pattern σ) (s : List Char) (slots : List (σ × Span)) (rest : List Char) : Prop :=
  (p.ends s).head? = some ⟨slots, rest⟩

/-- Some match leaves this rest. -/
def Reaches (p : Pattern σ) (s rest : List Char) : Prop := ∃ slots, ⟨slots, rest⟩ ∈ p.ends s

def Fails (p : Pattern σ) (s : List Char) : Prop := p.ends s = []

theorem fails_iff : Fails p s ↔ ∀ rest, ¬ Reaches p s rest := by
  rw [Fails, List.eq_nil_iff_forall_not_mem]
  constructor
  · rintro h rest ⟨slots, hmem⟩
    exact h _ hmem
  · rintro h ⟨slots, rest⟩ hmem
    exact h rest ⟨slots, hmem⟩

/-! ### The ways to match a pattern -/

theorem ends_empty (s : List Char) : (empty : Pattern σ).ends s = [⟨[], s⟩] := rfl

theorem ends_char_nil (accepts : Char → Bool) : (char accepts : Pattern σ).ends [] = [] := rfl

theorem ends_char_cons (accepts : Char → Bool) (c : Char) (s : List Char) :
    (char accepts : Pattern σ).ends (c :: s) = if accepts c then [⟨[], s⟩] else [] := rfl

theorem ends_run (accepts : Char → Bool) (s : List Char) :
    (run accepts : Pattern σ).ends s = (rests accepts s).reverse.map fun rest => ⟨[], rest⟩ := rfl

theorem ends_seq (p q : Pattern σ) (s : List Char) : (seq p q).ends s =
    (p.ends s).flatMap fun a => (q.ends a.rest).map fun b => ⟨a.slots ++ b.slots, b.rest⟩ := rfl

theorem ends_alt (p q : Pattern σ) (s : List Char) : (alt p q).ends s = p.ends s ++ q.ends s := rfl

theorem ends_star (p : Pattern σ) (s : List Char) :
    (star p).ends s = iterate p.ends s.length s := rfl

theorem ends_slot (name : σ) (p : Pattern σ) (s : List Char) :
    (slot name p).ends s = (p.ends s).map fun a => ⟨(name, ⟨s, a.rest⟩) :: a.slots, a.rest⟩ := rfl

theorem iterate_zero (step : List Char → List (Reach σ)) (s : List Char) :
    iterate step 0 s = [⟨[], s⟩] := rfl

theorem iterate_succ (step : List Char → List (Reach σ)) (times : Nat) (s : List Char) :
    iterate step (times + 1) s = ((step s).flatMap fun first =>
      (iterate step times first.rest).map fun more => ⟨first.slots ++ more.slots, more.rest⟩)
      ++ [⟨[], s⟩] := rfl

theorem Span.text_append (s rest : List Char) : (Span.mk (s ++ rest) rest).text = s := by
  simp [Span.text]

theorem Span.text_nil (s : List Char) : (Span.mk s []).text = s := by
  simp [Span.text]

theorem fullMatch?_of_takes (h : Takes p s a []) : p.fullMatch? s = some a := by
  unfold Takes at h
  cases hends : p.ends s with
  | nil => simp [hends] at h
  | cons first others =>
    rw [hends, List.head?_cons, Option.some.injEq] at h
    simp [fullMatch?, hends, h]

theorem fullMatch?_eq_none (h : ¬ Reaches p s []) : p.fullMatch? s = none := by
  rw [fullMatch?, Option.map_eq_none_iff, List.find?_eq_none]
  rintro ⟨slots, rest⟩ hmem hempty
  obtain rfl : rest = [] := List.isEmpty_iff.mp hempty
  exact h ⟨slots, hmem⟩

/-! ### Possible matches -/

theorem reaches_empty : Reaches (empty : Pattern σ) s rest ↔ rest = s := by
  simp [Reaches, ends_empty]

theorem reaches_char {accepts : Char → Bool} :
    Reaches (char accepts : Pattern σ) s rest ↔ ∃ c, accepts c = true ∧ s = c :: rest := by
  cases s with
  | nil => simp [Reaches, ends_char_nil]
  | cons c s =>
    by_cases hc : accepts c = true
    · simp only [Reaches, ends_char_cons, hc, if_true, List.mem_singleton, Reach.mk.injEq, exists_eq_left]
      constructor
      · rintro rfl
        exact ⟨c, hc, rfl⟩
      · rintro ⟨d, -, heq⟩
        exact (List.cons.inj heq).2.symm
    · simp only [Reaches, ends_char_cons, hc, Bool.false_eq_true, if_false, List.not_mem_nil, exists_false,
        false_iff]
      rintro ⟨d, hd, heq⟩
      obtain ⟨rfl, -⟩ := List.cons.inj heq
      exact hc hd

theorem reaches_seq : Reaches (seq p q) s rest ↔ ∃ mid, Reaches p s mid ∧ Reaches q mid rest := by
  constructor
  · rintro ⟨slots, h⟩
    simp only [ends_seq, List.mem_flatMap, List.mem_map] at h
    obtain ⟨⟨first, mid⟩, hfirst, ⟨second, last⟩, hsecond, heq⟩ := h
    obtain ⟨-, rfl⟩ := Reach.mk.inj heq
    exact ⟨mid, ⟨first, hfirst⟩, ⟨second, hsecond⟩⟩
  · rintro ⟨mid, ⟨first, hfirst⟩, ⟨second, hsecond⟩⟩
    refine ⟨first ++ second, ?_⟩
    simp only [ends_seq, List.mem_flatMap, List.mem_map]
    exact ⟨_, hfirst, _, hsecond, rfl⟩

theorem reaches_alt : Reaches (alt p q) s rest ↔ Reaches p s rest ∨ Reaches q s rest := by
  simp only [Reaches, ends_alt, List.mem_append, exists_or]

theorem reaches_optional : Reaches (optional p) s rest ↔ Reaches p s rest ∨ rest = s := by
  rw [optional, reaches_alt, reaches_empty]

theorem reaches_slot {name : σ} : Reaches (slot name p) s rest ↔ Reaches p s rest := by
  constructor
  · rintro ⟨slots, h⟩
    simp only [ends_slot, List.mem_map] at h
    obtain ⟨⟨found, last⟩, hmem, heq⟩ := h
    obtain ⟨-, rfl⟩ := Reach.mk.inj heq
    exact ⟨found, hmem⟩
  · rintro ⟨slots, h⟩
    refine ⟨(name, ⟨s, rest⟩) :: slots, ?_⟩
    simp only [ends_slot, List.mem_map]
    exact ⟨_, h, rfl⟩

theorem mem_rests {accepts : Char → Bool} :
    rest ∈ rests accepts s ↔ ∃ taken, taken ≠ [] ∧ (∀ c ∈ taken, accepts c = true) ∧
      s = taken ++ rest := by
  induction s with
  | nil =>
    simp only [rests, List.not_mem_nil, false_iff]
    rintro ⟨taken, hne, -, heq⟩
    exact hne (List.append_eq_nil_iff.mp heq.symm).1
  | cons c s ih =>
    unfold rests
    split
    · rename_i hc
      rw [List.mem_cons, ih]
      constructor
      · rintro (rfl | ⟨taken, -, htaken, rfl⟩)
        · exact ⟨[c], by simp, by simpa using hc, rfl⟩
        · refine ⟨c :: taken, by simp, ?_, rfl⟩
          simpa [hc] using htaken
      · rintro ⟨taken, hne, htaken, heq⟩
        obtain ⟨d, more, rfl⟩ := List.exists_cons_of_ne_nil hne
        obtain ⟨rfl, rfl⟩ := List.cons.inj heq
        cases more with
        | nil => exact .inl rfl
        | cons e more =>
          exact .inr ⟨e :: more, by simp, fun x hx => htaken x (List.mem_cons_of_mem _ hx), rfl⟩
    · rename_i hc
      simp only [List.not_mem_nil, false_iff]
      rintro ⟨taken, hne, htaken, heq⟩
      obtain ⟨d, more, rfl⟩ := List.exists_cons_of_ne_nil hne
      obtain ⟨rfl, rfl⟩ := List.cons.inj heq
      exact hc (htaken c List.mem_cons_self)

theorem reaches_run {accepts : Char → Bool} :
    Reaches (run accepts : Pattern σ) s rest ↔ ∃ taken, taken ≠ [] ∧
      (∀ c ∈ taken, accepts c = true) ∧ s = taken ++ rest := by
  rw [← mem_rests]
  simp [Reaches, ends_run]

theorem reaches_letters {word : List Char} :
    Reaches (letters word : Pattern σ) s rest ↔ s = word ++ rest := by
  induction word generalizing s with
  | nil => exact reaches_empty.trans eq_comm
  | cons c word ih =>
    rw [letters, reaches_seq]
    constructor
    · rintro ⟨mid, hc, hword⟩
      obtain ⟨d, hd, rfl⟩ := reaches_char.mp hc
      obtain rfl : d = c := by simpa using hd
      rw [ih.mp hword]
      rfl
    · rintro rfl
      exact ⟨word ++ rest, reaches_char.mpr ⟨c, by simp, rfl⟩, ih.mpr rfl⟩

theorem reaches_word {word : String} :
    Reaches (Pattern.word word : Pattern σ) s rest ↔ s = word.toList ++ rest := reaches_letters

theorem reaches_choice {patterns : List (Pattern σ)} :
    Reaches (choice patterns) s rest ↔ ∃ p ∈ patterns, Reaches p s rest := by
  induction patterns with
  | nil => simp [choice, reaches_char]
  | cons p patterns ih =>
    cases patterns with
    | nil => simp [choice]
    | cons q patterns =>
      rw [choice, reaches_alt, ih]
      · simp
      · exact List.cons_ne_nil q patterns

theorem reaches_oneOf {words : List String} : Reaches (oneOf words : Pattern σ) s rest ↔
    ∃ w ∈ words, s = w.toList ++ rest := by
  rw [oneOf, reaches_choice]
  constructor
  · rintro ⟨_, hp, h⟩
    obtain ⟨w, hw, rfl⟩ := List.mem_map.mp hp
    exact ⟨w, hw, reaches_word.mp h⟩
  · rintro ⟨w, hw, h⟩
    exact ⟨word w, List.mem_map_of_mem hw, reaches_word.mpr h⟩

/-- What a match of the repeated pattern preserves is preserved by any number of them. -/
theorem invariant_of_reaches_star (inv : List Char → Prop) (h : Reaches (star p) s rest)
    (start : inv s) (step : ∀ s rest, inv s → Reaches p s rest → inv rest) : inv rest := by
  obtain ⟨slots, hmem⟩ := h
  simp only [ends_star] at hmem
  generalize s.length = times at hmem
  induction times generalizing s slots with
  | zero =>
    simp only [iterate_zero, List.mem_singleton] at hmem
    obtain ⟨-, rfl⟩ := Reach.mk.inj hmem
    exact start
  | succ times ih =>
    simp only [iterate_succ, List.mem_append, List.mem_flatMap, List.mem_map, List.mem_singleton] at hmem
    rcases hmem with ⟨⟨first, mid⟩, hfirst, ⟨more, last⟩, hmore, heq⟩ | hstop
    · obtain ⟨-, rfl⟩ := Reach.mk.inj heq
      exact ih (step s mid start ⟨first, hfirst⟩) more hmore
    · obtain ⟨-, rfl⟩ := Reach.mk.inj hstop
      exact start

theorem reaches_star_self (p : Pattern σ) (s : List Char) : Reaches (star p) s s := by
  refine ⟨[], ?_⟩
  rw [ends_star]
  cases s.length with
  | zero => exact List.mem_singleton.mpr rfl
  | succ times => exact List.mem_append_right _ (List.mem_singleton.mpr rfl)

theorem mem_iterate_mono {step : List Char → List (Reach σ)} {n m : Nat} {reach : Reach σ}
    (hle : n ≤ m) (h : reach ∈ iterate step n s) : reach ∈ iterate step m s := by
  induction n generalizing m s reach with
  | zero =>
    obtain rfl := List.mem_singleton.mp h
    cases m with
    | zero => exact List.mem_singleton.mpr rfl
    | succ m => exact List.mem_append_right _ (List.mem_singleton.mpr rfl)
  | succ n ih =>
    obtain ⟨m, rfl⟩ : ∃ k, m = k + 1 := ⟨m - 1, by omega⟩
    simp only [iterate_succ, List.mem_append, List.mem_flatMap, List.mem_map, List.mem_singleton] at h ⊢
    refine h.imp_left ?_
    rintro ⟨first, hfirst, more, hmore, rfl⟩
    exact ⟨first, hfirst, more, ih (Nat.le_of_succ_le_succ hle) hmore, rfl⟩

theorem Reaches.star_cons (h : Reaches p s t) (hshorter : t.length < s.length)
    (hrest : Reaches (star p) t rest) : Reaches (star p) s rest := by
  obtain ⟨a, ha⟩ := h
  obtain ⟨b, hb⟩ := hrest
  refine ⟨a ++ b, ?_⟩
  rw [ends_star] at hb ⊢
  obtain ⟨times, htimes⟩ : ∃ times, s.length = times + 1 := ⟨s.length - 1, by omega⟩
  rw [htimes, iterate_succ]
  refine List.mem_append_left _ (List.mem_flatMap.mpr ⟨_, ha, List.mem_map.mpr ⟨⟨b, rest⟩, ?_, rfl⟩⟩)
  exact mem_iterate_mono (by omega) hb

/-! ### The preferred match -/

theorem takes_empty (s : List Char) : Takes (empty : Pattern σ) s [] s := rfl

theorem takes_char {accepts : Char → Bool} {c : Char} (h : accepts c = true) (s : List Char) :
    Takes (char accepts : Pattern σ) (c :: s) [] s := by
  simp [Takes, ends_char_cons, h]

theorem Takes.seq (hp : Takes p s a t) (hq : Takes q t b rest) :
    Takes (seq p q) s (a ++ b) rest := by
  unfold Takes at hp hq ⊢
  cases hfirst : p.ends s with
  | nil => simp [hfirst] at hp
  | cons first others =>
    rw [hfirst, List.head?_cons, Option.some.injEq] at hp
    cases hsecond : q.ends t with
    | nil => simp [hsecond] at hq
    | cons second more =>
      rw [hsecond, List.head?_cons, Option.some.injEq] at hq
      simp [ends_seq, hfirst, hp, hsecond, hq]

theorem Fails.seq (hp : Fails p s) (q : Pattern σ) : Fails (Pattern.seq p q) s := by
  unfold Fails at hp ⊢
  rw [ends_seq, hp]
  rfl

theorem ends_seq_assoc (p q r : Pattern σ) (s : List Char) :
    (seq p (seq q r)).ends s = (seq (seq p q) r).ends s := by
  simp only [ends_seq, List.flatMap_assoc, List.map_flatMap, List.flatMap_map, List.map_map,
    Function.comp_def, List.append_assoc]

theorem ends_all_append (p : Pattern σ) (ps : List (Pattern σ)) (q : Pattern σ)
    (qs : List (Pattern σ)) (s : List Char) :
    (all (p :: ps ++ q :: qs)).ends s = (seq (all (p :: ps)) (all (q :: qs))).ends s := by
  induction ps generalizing p s with
  | nil => rfl
  | cons next ps ih =>
    have hrest := ih next
    change (seq p (all (next :: ps ++ q :: qs))).ends s
      = (seq (seq p (all (next :: ps))) (all (q :: qs))).ends s
    rw [← ends_seq_assoc, ends_seq]
    simp only [hrest]
    rfl

theorem reaches_all {ps qs : List (Pattern σ)} :
    Reaches (all (p :: ps ++ q :: qs)) s rest ↔
      ∃ mid, Reaches (all (p :: ps)) s mid ∧ Reaches (all (q :: qs)) mid rest := by
  rw [← reaches_seq]
  unfold Reaches
  rw [ends_all_append]

theorem reaches_all_cons {qs : List (Pattern σ)} : Reaches (all (p :: q :: qs)) s rest ↔
    ∃ mid, Reaches p s mid ∧ Reaches (all (q :: qs)) mid rest := reaches_seq

theorem reaches_all_last : Reaches (all [p]) s rest ↔ Reaches p s rest := Iff.rfl

theorem eq_of_reaches (hends : p.ends s = [⟨a, t⟩]) (h : Reaches p s rest) : rest = t := by
  obtain ⟨slots, hmem⟩ := h
  rw [hends, List.mem_singleton] at hmem
  exact (Reach.mk.inj hmem).2

theorem Takes.last (hp : Takes p s a rest) : Takes (all [p]) s a rest := hp

theorem Takes.cons {qs : List (Pattern σ)} (hp : Takes p s a t) (hq : Takes (all (q :: qs)) t b rest) :
    Takes (all (p :: q :: qs)) s (a ++ b) rest := hp.seq hq

/-- The parts of a pattern are matched a few at a time. -/
theorem Takes.all {ps qs : List (Pattern σ)} (hp : Takes (Pattern.all (p :: ps)) s a t)
    (hq : Takes (Pattern.all (q :: qs)) t b rest) :
    Takes (Pattern.all (p :: ps ++ q :: qs)) s (a ++ b) rest := by
  have hseq := hp.seq hq
  unfold Takes at hseq ⊢
  rw [ends_all_append, hseq]

theorem Takes.alt (hp : Takes p s a rest) (q : Pattern σ) : Takes (Pattern.alt p q) s a rest := by
  unfold Takes at hp ⊢
  rw [ends_alt, List.head?_append, hp]
  rfl

theorem Takes.alt_of_fails (hq : Takes q s a rest) (hp : Fails p s) :
    Takes (Pattern.alt p q) s a rest := by
  unfold Takes Fails at *
  rw [ends_alt, hp]
  exact hq

theorem Takes.optional (hp : Takes p s a rest) : Takes (Pattern.optional p) s a rest := hp.alt empty

theorem takes_optional_of_fails (hp : Fails p s) : Takes (optional p) s [] s :=
  (takes_empty s).alt_of_fails hp

theorem Takes.slot (hp : Takes p s a rest) (name : σ) :
    Takes (Pattern.slot name p) s ((name, ⟨s, rest⟩) :: a) rest := by
  unfold Takes at hp ⊢
  rw [ends_slot, List.head?_map, hp]
  rfl

theorem takes_letters (word rest : List Char) :
    Takes (letters word : Pattern σ) (word ++ rest) [] rest := by
  induction word with
  | nil => exact takes_empty rest
  | cons c word ih =>
    have hc : (c == c) = true := by simp
    exact (takes_char hc (word ++ rest)).seq ih

theorem takes_word (word : String) (rest : List Char) :
    Takes (Pattern.word word : Pattern σ) (word.toList ++ rest) [] rest :=
  takes_letters word.toList rest

theorem getLast?_rests {accepts : Char → Bool} (hne : s ≠ []) (hs : ∀ c ∈ s, accepts c = true)
    (hrest : ∀ c ∈ rest.head?, accepts c = false) :
    (rests accepts (s ++ rest)).getLast? = some rest := by
  induction s with
  | nil => exact absurd rfl hne
  | cons c s ih =>
    have hc : accepts c = true := hs c List.mem_cons_self
    rw [List.cons_append, rests, if_pos hc]
    cases s with
    | nil =>
      have hstop : rests accepts rest = [] := by
        cases rest with
        | nil => rfl
        | cons d rest => simp [rests, hrest d rfl]
      rw [List.nil_append, hstop]
      rfl
    | cons d s =>
      rw [List.getLast?_cons, ih (by simp) fun e he => hs e (List.mem_cons_of_mem c he)]
      rfl

theorem takes_run {accepts : Char → Bool} (hne : s ≠ []) (hs : ∀ c ∈ s, accepts c = true)
    (hrest : ∀ c ∈ rest.head?, accepts c = false) :
    Takes (run accepts : Pattern σ) (s ++ rest) [] rest := by
  rw [Takes, ends_run, List.head?_map, List.head?_reverse, getLast?_rests hne hs hrest]
  rfl

/-- A pattern is matched time after time until it fails, each time in the preferred way. -/
inductive Repeats (p : Pattern σ) : List Char → List (σ × Span) → List Char → Prop
  | stop {s : List Char} : Fails p s → Repeats p s [] s
  | more {s t rest : List Char} {a b : List (σ × Span)} : Takes p s a t → t.length < s.length →
      Repeats p t b rest → Repeats p s (a ++ b) rest

/-- Every time something is consumed, so the length of the text is times enough. -/
theorem Repeats.takes_star (h : Repeats p s a rest) : Takes (star p) s a rest := by
  suffices hiterate : ∀ times, s.length ≤ times →
      (iterate p.ends times s).head? = some ⟨a, rest⟩ from hiterate s.length (Nat.le_refl _)
  induction h with
  | stop hfails =>
    intro times _
    cases times with
    | zero => rfl
    | succ times =>
      rw [Fails] at hfails
      simp [iterate_succ, hfails]
  | @more s t rest a b htakes hshorter _ ih =>
    intro times hlength
    cases times with
    | zero => omega
    | succ times =>
      have hrest := ih times (by omega)
      unfold Takes at htakes
      cases hfirst : p.ends s with
      | nil => simp [hfirst] at htakes
      | cons first others =>
        rw [hfirst, List.head?_cons, Option.some.injEq] at htakes
        cases hmore : iterate p.ends times t with
        | nil => simp [hmore] at hrest
        | cons second more =>
          rw [hmore, List.head?_cons, Option.some.injEq] at hrest
          simp [iterate_succ, hfirst, htakes, hmore, hrest]

end TeamOrders.Pattern
