import TeamOrders.Text.Substitution

/-!
# Replacing and cutting part by part

Matches are found from left to right, so a text can be treated in two parts whenever no match at a
place of the first part looks at the second. That is the one condition here; what a match looks like
is left to the passes that use it.
-/

namespace TeamOrders.Text

theorem getLast?_cons_or (c : Char) (s : List Char) (before : Option Char) :
    (c :: s).getLast?.or before = s.getLast?.or (some c) := by
  cases s <;> simp [List.getLast?_cons]

section Substitute

variable {hit : Option Char → List Char → Option (Nat × List Char)} {before : Option Char}
  {s t gap : List Char}

/-! ### One place after the other -/

theorem substituteFrom_skip (skip : Nat) (adjacent : Bool) (before : Option Char) (c : Char)
    (s : List Char) : substituteFrom hit (skip + 1) adjacent before (c :: s)
      = substituteFrom hit skip true (some c) s := rfl

theorem substituteFrom_of_none {c : Char} (adjacent : Bool) (h : hit before (c :: s) = none) :
    substituteFrom hit 0 adjacent before (c :: s) = c :: substituteFrom hit 0 false (some c) s := by
  simp only [substituteFrom, h]

theorem substituteFrom_of_hit {c : Char} {n : Nat} {new : List Char} (adjacent : Bool)
    (h : hit before (c :: s) = some (n + 1, new)) :
    substituteFrom hit 0 adjacent before (c :: s)
      = new ++ substituteFrom hit n true (some c) s := by
  simp only [substituteFrom, h]

/-- Matches are not empty and lie within the text. -/
def Solid (hit : Option Char → List Char → Option (Nat × List Char)) : Prop :=
  ∀ before s n new, hit before s = some (n, new) → 0 < n ∧ n ≤ s.length

/-- Places before a text are judged without looking at it. -/
def Blind (hit : Option Char → List Char → Option (Nat × List Char)) (t : List Char) : Prop :=
  ∀ before s, s ≠ [] → hit before (s ++ t) = hit before s

theorem Solid.hit_nil (h : Solid hit) (before : Option Char) : hit before [] = none := by
  cases hmatch : hit before [] with
  | none => rfl
  | some found =>
    obtain ⟨n, new⟩ := found
    obtain ⟨hpos, hle⟩ := h before [] n new hmatch
    rw [List.length_nil] at hle
    omega

theorem Solid.exists_succ (h : Solid hit) {n : Nat} {new : List Char}
    (hmatch : hit before s = some (n, new)) : ∃ m, n = m + 1 ∧ m + 1 ≤ s.length := by
  obtain ⟨hpos, hle⟩ := h before s n new hmatch
  exact ⟨n - 1, by omega, by omega⟩

theorem substituteFrom_nil (h : Solid hit) (skip : Nat) (adjacent : Bool) (before : Option Char) :
    substituteFrom hit skip adjacent before [] = [] := by
  cases skip with
  | zero => simp [substituteFrom, h.hit_nil before]
  | succ skip => rfl

/-- Only empty matches depend on where the last match ended. -/
theorem substituteFrom_adjacent (h : Solid hit) (a b : Bool) (before : Option Char)
    (s : List Char) : substituteFrom hit 0 a before s = substituteFrom hit 0 b before s := by
  cases s with
  | nil => rw [substituteFrom_nil h, substituteFrom_nil h]
  | cons c s =>
    cases hmatch : hit before (c :: s) with
    | none => rw [substituteFrom_of_none a hmatch, substituteFrom_of_none b hmatch]
    | some found =>
      obtain ⟨n, new⟩ := found
      obtain ⟨n, rfl, -⟩ := h.exists_succ hmatch
      rw [substituteFrom_of_hit a hmatch, substituteFrom_of_hit b hmatch]

theorem substituteFrom_append (solid : Solid hit) (blind : Blind hit t) {skip : Nat}
    (adjacent : Bool) (before : Option Char) (within : skip ≤ s.length) :
    substituteFrom hit skip adjacent before (s ++ t)
      = substituteFrom hit skip adjacent before s
        ++ substituteFrom hit 0 false (s.getLast?.or before) t := by
  induction s generalizing skip adjacent before with
  | nil =>
    obtain rfl : skip = 0 := Nat.le_zero.mp within
    rw [substituteFrom_nil solid, List.nil_append, List.nil_append, List.getLast?_nil,
      Option.none_or]
    exact substituteFrom_adjacent solid _ _ _ _
  | cons c s ih =>
    rw [getLast?_cons_or]
    cases skip with
    | succ skip =>
      rw [List.cons_append, substituteFrom_skip, substituteFrom_skip]
      exact ih true (some c) (Nat.le_of_succ_le_succ within)
    | zero =>
      have hsame : hit before (c :: (s ++ t)) = hit before (c :: s) :=
        blind before (c :: s) (by simp)
      rw [List.cons_append]
      cases hmatch : hit before (c :: s) with
      | none =>
        rw [substituteFrom_of_none adjacent (hsame.trans hmatch),
          substituteFrom_of_none adjacent hmatch, ih false (some c) (Nat.zero_le _),
          List.cons_append]
      | some found =>
        obtain ⟨n, new⟩ := found
        obtain ⟨n, rfl, hle⟩ := solid.exists_succ hmatch
        rw [List.length_cons] at hle
        rw [substituteFrom_of_hit adjacent (hsame.trans hmatch), substituteFrom_of_hit adjacent hmatch,
          ih true (some c) (Nat.le_of_succ_le_succ hle), List.append_assoc]

theorem substituteFrom_gap (adjacent : Bool) (before : Option Char)
    (h : ∀ c ∈ gap, ∀ before t, hit before (c :: t) = none) (hne : gap ≠ []) :
    substituteFrom hit 0 adjacent before (gap ++ t)
      = gap ++ substituteFrom hit 0 false gap.getLast? t := by
  induction gap generalizing adjacent before with
  | nil => exact absurd rfl hne
  | cons c gap ih =>
    have hnone : hit before (c :: (gap ++ t)) = none := h c List.mem_cons_self before (gap ++ t)
    rw [List.cons_append, substituteFrom_of_none adjacent hnone]
    cases gap with
    | nil => rfl
    | cons d gap =>
      rw [ih false (some c) (fun e he => h e (List.mem_cons_of_mem c he)) (by simp)]
      rfl

/-- A text is treated alike behind two characters that make no difference to a match. -/
theorem substituteFrom_before {a b : Option Char} (h : ∀ s, hit a s = hit b s) (adjacent : Bool)
    (s : List Char) :
    substituteFrom hit 0 adjacent a s = substituteFrom hit 0 adjacent b s := by
  cases s <;> simp only [substituteFrom, h]

theorem substituteFrom_eq_self (h : ∀ before rest, rest <:+ s → hit before rest = none)
    (adjacent : Bool) (before : Option Char) : substituteFrom hit 0 adjacent before s = s := by
  induction s generalizing adjacent before with
  | nil => simp [substituteFrom, h before [] (List.suffix_refl [])]
  | cons c s ih =>
    have hrest := ih fun before rest hsuffix =>
      h before rest (hsuffix.trans (List.suffix_cons c s))
    rw [substituteFrom_of_none adjacent (h before (c :: s) (List.suffix_refl _)), hrest]

theorem substitute_eq_self (h : ∀ before rest, rest <:+ s → hit before rest = none) :
    substitute hit s = s := substituteFrom_eq_self h false none

/-- What holds of the characters of a text and of what is put in its place holds of the new text. -/
theorem forall_mem_substitute {P : Char → Prop} (hs : ∀ c ∈ s, P c)
    (hnew : ∀ before rest n new, hit before rest = some (n, new) → ∀ c ∈ new, P c) :
    ∀ c ∈ substitute hit s, P c := by
  suffices hfrom : ∀ skip adjacent before, ∀ c ∈ substituteFrom hit skip adjacent before s, P c from
    hfrom 0 false none
  induction s with
  | nil =>
    intro skip adjacent before c hc
    cases skip with
    | succ skip => cases hc
    | zero =>
      unfold substituteFrom at hc
      split at hc
      · rename_i new hmatch
        split at hc
        · cases hc
        · exact hnew _ _ _ _ hmatch c hc
      · cases hc
  | cons d s ih =>
    obtain ⟨hd, hrest⟩ := List.forall_mem_cons.mp hs
    have ih := ih hrest
    intro skip adjacent before
    cases skip with
    | succ skip => exact ih skip true (some d)
    | zero =>
      unfold substituteFrom
      split
      · rename_i length new hmatch
        exact List.forall_mem_append.mpr ⟨hnew _ _ _ _ hmatch, ih length true (some d)⟩
      · rename_i new hmatch
        refine List.forall_mem_append.mpr ⟨fun c hc => ?_,
          List.forall_mem_cons.mpr ⟨hd, ih 0 false (some d)⟩⟩
        split at hc
        · cases hc
        · exact hnew _ _ _ _ hmatch c hc
      · exact List.forall_mem_cons.mpr ⟨hd, ih 0 false (some d)⟩

theorem substitute_append_gap (solid : Solid hit) (blind : ∀ t, Blind hit (gap ++ t))
    (hgap : ∀ c ∈ gap, ∀ before t, hit before (c :: t) = none) (hne : gap ≠ [])
    (hstart : ∀ t, hit gap.getLast? t = hit none t) (s t : List Char) :
    substitute hit (s ++ (gap ++ t)) = substitute hit s ++ (gap ++ substitute hit t) := by
  rw [substitute, substituteFrom_append solid (blind t) false none (Nat.zero_le _),
    substituteFrom_gap false _ hgap hne, substituteFrom_before hstart]
  rfl

/-! ### Kept and replaced parts -/

/-- A text becomes another by replacing its matches: a character at which nothing matches is kept, and of a
match nothing is left but what is put in its place. -/
inductive Replaced (hit : Option Char → List Char → Option (Nat × List Char)) :
    Option Char → List Char → List Char → Prop
  | nil {before : Option Char} : Replaced hit before [] []
  | keep {before : Option Char} {c : Char} {s t : List Char} :
    hit before (c :: s) = none → Replaced hit (some c) s t → Replaced hit before (c :: s) (c :: t)
  | put {before : Option Char} {part new s t : List Char} :
    hit before (part ++ s) = some (part.length, new) → part ≠ [] →
      Replaced hit part.getLast? s t → Replaced hit before (part ++ s) (new ++ t)

theorem substituteFrom_skip_append (part : List Char) (adjacent : Bool) (before : Option Char)
    (s : List Char) (hne : part ≠ []) : substituteFrom hit part.length adjacent before (part ++ s)
      = substituteFrom hit 0 true part.getLast? s := by
  induction part generalizing adjacent before with
  | nil => exact absurd rfl hne
  | cons c part ih =>
    rw [List.length_cons, List.cons_append, substituteFrom_skip]
    cases part with
    | nil => rfl
    | cons d part =>
      rw [ih true (some c) (List.cons_ne_nil d part)]
      rfl

theorem replaced_substitute (solid : Solid hit) (s : List Char) :
    Replaced hit none s (substitute hit s) := by
  suffices hfrom : ∀ length adjacent before (s : List Char), s.length ≤ length →
      Replaced hit before s (substituteFrom hit 0 adjacent before s) from
    hfrom s.length false none s (Nat.le_refl _)
  intro length
  induction length with
  | zero =>
    intro adjacent before s hlength
    obtain rfl := List.eq_nil_of_length_eq_zero (Nat.le_zero.mp hlength)
    rw [substituteFrom_nil solid]
    exact .nil
  | succ length ih =>
    intro adjacent before s hlength
    cases s with
    | nil =>
      rw [substituteFrom_nil solid]
      exact .nil
    | cons c s =>
      rw [List.length_cons] at hlength
      cases hmatch : hit before (c :: s) with
      | none =>
        rw [substituteFrom_of_none adjacent hmatch]
        exact .keep hmatch (ih false (some c) s (by omega))
      | some found =>
        obtain ⟨n, new⟩ := found
        obtain ⟨n, rfl, hle⟩ := solid.exists_succ hmatch
        obtain ⟨part, rest, rfl, rfl⟩ : ∃ part rest, s = part ++ rest ∧ part.length = n :=
          ⟨s.take n, s.drop n, (List.take_append_drop n s).symm,
            List.length_take_of_le (Nat.le_of_succ_le_succ hle)⟩
        have hskip : substituteFrom hit part.length true (some c) (part ++ rest)
            = substituteFrom hit 0 true (c :: part).getLast? rest :=
          substituteFrom_skip_append (c :: part) true before rest (List.cons_ne_nil c part)
        have hput : Replaced hit before ((c :: part) ++ rest)
            (new ++ substituteFrom hit 0 true (c :: part).getLast? rest) :=
          .put hmatch (List.cons_ne_nil c part)
            (ih true _ rest (by rw [List.length_append] at hlength; omega))
        rwa [substituteFrom_of_hit adjacent hmatch, hskip]

def Filling (hit : Option Char → List Char → Option (Nat × List Char)) : Prop :=
  ∀ before s n new, hit before s = some (n, new) → new ≠ []

namespace Replaced

/-- Where nothing can match, the first character is kept. -/
theorem nil_or_cons (hnone : ∀ s, hit before s = none) (h : Replaced hit before s t) :
    s = [] ∧ t = [] ∨
      ∃ c rest rest', s = c :: rest ∧ t = c :: rest' ∧ Replaced hit (some c) rest rest' := by
  cases h with
  | nil => exact .inl ⟨rfl, rfl⟩
  | keep _ hrest => exact .inr ⟨_, _, _, rfl, rfl, hrest⟩
  | put hmatch =>
    rw [hnone] at hmatch
    cases hmatch

theorem eq_nil (filling : Filling hit) (h : Replaced hit before s t) (ht : t = []) : s = [] := by
  cases h with
  | nil => rfl
  | keep _ _ => cases ht
  | put hmatch _ _ => exact absurd (List.append_eq_nil_iff.mp ht).1 (filling _ _ _ _ hmatch)

/-- What holds of the first characters of a text and of what is put in holds of that of the new text. -/
theorem head? {P : Char → Prop} (filling : Filling hit) (h : Replaced hit before s t)
    (hs : ∀ c ∈ s.head?, P c)
    (hnew : ∀ before rest n new, hit before rest = some (n, new) → ∀ c ∈ new.head?, P c) :
    ∀ c ∈ t.head?, P c := by
  cases h with
  | nil => exact hs
  | keep _ _ => exact hs
  | put hmatch _ _ =>
    obtain ⟨d, rest, rfl⟩ := List.exists_cons_of_ne_nil (filling _ _ _ _ hmatch)
    intro c hc
    exact hnew _ _ _ _ hmatch c hc

/-- What holds of the last characters of a text and of what is put in at its end holds of that of the
new text. -/
theorem getLast? {P : Char → Prop} (filling : Filling hit) (h : Replaced hit before s t)
    (hs : ∀ c ∈ s.getLast?, P c)
    (hnew : ∀ before rest new, rest <:+ s → hit before rest = some (rest.length, new) →
      ∀ c ∈ new.getLast?, P c) :
    ∀ c ∈ t.getLast?, P c := by
  induction h with
  | nil => exact hs
  | @keep before d s t _ hrest ih =>
    cases t with
    | nil =>
      obtain rfl := hrest.eq_nil filling rfl
      exact hs
    | cons e t =>
      rw [List.getLast?_cons_cons]
      exact ih (fun c hc => hs c (by simp [List.getLast?_cons, Option.mem_def.mp hc]))
        fun before rest new hsuffix => hnew before rest new (hsuffix.trans (List.suffix_cons d s))
  | @put before part new s t hmatch hne hrest ih =>
    cases t with
    | nil =>
      obtain rfl := hrest.eq_nil filling rfl
      rw [List.append_nil] at hmatch ⊢
      exact hnew before part new (by simp) hmatch
    | cons e t =>
      have hlast : (new ++ e :: t).getLast? = (e :: t).getLast? := by
        simp [List.getLast?_append, List.getLast?_cons]
      rw [hlast]
      exact ih (fun c hc => hs c (by simp [List.getLast?_append, Option.mem_def.mp hc]))
        fun before rest new hsuffix =>
          hnew before rest new (hsuffix.trans (List.suffix_append part s))

end Replaced

end Substitute

section Cut

variable {hit : Option Char → List Char → Option Nat} {before : Option Char} {s t : List Char}

theorem cutFrom_of_none {c : Char} (piece : List Char) (h : hit before (c :: s) = none) :
    cutFrom hit 0 piece before (c :: s) = cutFrom hit 0 (c :: piece) (some c) s := by
  simp only [cutFrom, h]

theorem cutFrom_of_hit {c : Char} {n : Nat} (piece : List Char)
    (h : hit before (c :: s) = some (n + 1)) :
    cutFrom hit 0 piece before (c :: s) = piece.reverse :: cutFrom hit n [] (some c) s := by
  simp only [cutFrom, h]

theorem cutFrom_before {a b : Option Char} (h : ∀ s, hit a s = hit b s) (piece s : List Char) :
    cutFrom hit 0 piece a s = cutFrom hit 0 piece b s := by
  cases s <;> simp only [cutFrom, h]

theorem cut_eq_self (h : ∀ before rest, s = before ++ rest → hit before.getLast? rest = none) :
    cut hit s = [s] := by
  suffices hfrom : ∀ before rest, s = before ++ rest →
      cutFrom hit 0 before.reverse before.getLast? rest = [s] from hfrom [] s rfl
  intro before rest hsplit
  induction rest generalizing before with
  | nil => simp [cutFrom, hsplit]
  | cons c rest ih =>
    rw [cutFrom_of_none _ (h before (c :: rest) hsplit)]
    have hmore := ih (before ++ [c]) (by simp [hsplit])
    rwa [List.reverse_append, List.getLast?_append] at hmore

/-- A mark that always matches by itself cuts a text in two, if no match at a place before it looks
at it and what comes behind. -/
theorem cut_append_mark {mark : Char}
    (solid : ∀ before s n, hit before s = some n → 0 < n ∧ n ≤ s.length)
    (blind : ∀ before s, s ≠ [] → hit before (s ++ mark :: t) = hit before s)
    (hmark : ∀ before, hit before (mark :: t) = some 1)
    (hstart : ∀ t, hit (some mark) t = hit none t) (s : List Char) :
    cut hit (s ++ mark :: t) = cut hit s ++ cut hit t := by
  suffices hfrom : ∀ (skip : Nat) (piece : List Char) (before : Option Char), skip ≤ s.length →
      cutFrom hit skip piece before (s ++ mark :: t)
        = cutFrom hit skip piece before s ++ cut hit t from hfrom 0 [] none (Nat.zero_le _)
  induction s with
  | nil =>
    intro skip piece before hskip
    obtain rfl : skip = 0 := Nat.le_zero.mp hskip
    rw [List.nil_append, cutFrom_of_hit piece (hmark before), cutFrom_before hstart]
    rfl
  | cons c s ih =>
    intro skip piece before hskip
    cases skip with
    | succ skip => exact ih skip piece (some c) (Nat.le_of_succ_le_succ hskip)
    | zero =>
      have hsame : hit before (c :: (s ++ mark :: t)) = hit before (c :: s) :=
        blind before (c :: s) (by simp)
      rw [List.cons_append]
      cases hmatch : hit before (c :: s) with
      | none =>
        rw [cutFrom_of_none piece (hsame.trans hmatch), cutFrom_of_none piece hmatch,
          ih 0 _ _ (Nat.zero_le _)]
      | some n =>
        obtain ⟨hpos, hle⟩ := solid before (c :: s) n hmatch
        obtain ⟨n, rfl⟩ := Nat.exists_eq_succ_of_ne_zero (Nat.ne_of_gt hpos)
        rw [cutFrom_of_hit piece (hsame.trans hmatch), cutFrom_of_hit piece hmatch,
          ih n _ _ (Nat.le_of_succ_le_succ hle), List.cons_append]

/-! ### Where a text is cut -/

/-- No match starts in a part of a text that has this before it and that behind it. -/
def Uncut (hit : Option Char → List Char → Option Nat) (before : Option Char)
    (part after : List Char) : Prop :=
  ∀ front back, part = front ++ back → back ≠ [] →
    hit (front.getLast?.or before) (back ++ after) = none

/-- A text is pieces in which no match starts, with a match between each two. -/
inductive Cuts (hit : Option Char → List Char → Option Nat) :
    Option Char → List Char → List (List Char) → Prop
  | last {before : Option Char} {piece : List Char} :
    Uncut hit before piece [] → Cuts hit before piece [piece]
  | more {before : Option Char} {piece mark rest : List Char} {pieces : List (List Char)} :
    Uncut hit before piece (mark ++ rest) → mark ≠ [] →
      hit (piece.getLast?.or before) (mark ++ rest) = some mark.length →
      Cuts hit mark.getLast? rest pieces →
      Cuts hit before (piece ++ (mark ++ rest)) (piece :: pieces)

theorem cutFrom_skip (piece : List Char) (before : Option Char) (mark rest : List Char) :
    cutFrom hit mark.length piece before (mark ++ rest)
      = cutFrom hit 0 piece (mark.getLast?.or before) rest := by
  induction mark generalizing before with
  | nil => rfl
  | cons c mark ih =>
    rw [List.length_cons, List.cons_append, cutFrom, ih, getLast?_cons_or]

theorem Uncut.snoc {piece : List Char} {c : Char} (h : Uncut hit before piece (c :: s))
    (hc : hit (piece.getLast?.or before) (c :: s) = none) : Uncut hit before (piece ++ [c]) s := by
  intro front back hsplit hne
  rcases List.eq_nil_or_concat back with rfl | ⟨back, d, rfl⟩
  · exact absurd rfl hne
  · rw [List.concat_eq_append, ← List.append_assoc] at hsplit
    obtain ⟨rfl, hlast⟩ := List.append_inj' hsplit rfl
    obtain rfl : c = d := List.singleton_inj.mp hlast
    rw [List.concat_eq_append, List.append_assoc]
    by_cases hback : back = []
    · rw [hback, List.append_nil] at hc
      rwa [hback]
    · exact h front back rfl hback

theorem Cuts.mem_of_mem {pieces : List (List Char)} (h : Cuts hit before s pieces)
    {piece : List Char} (hpiece : piece ∈ pieces) : ∀ c ∈ piece, c ∈ s := by
  induction h with
  | last _ =>
    obtain rfl := List.mem_singleton.mp hpiece
    exact fun c hc => hc
  | more _ _ _ _ ih =>
    intro c hc
    rcases List.mem_cons.mp hpiece with rfl | hpiece
    · exact List.mem_append_left _ hc
    · exact List.mem_append_right _ (List.mem_append_right _ (ih hpiece c hc))

/-- Cutting finds the first match, then goes on behind it. -/
theorem cuts_cut (solid : ∀ before s n, hit before s = some n → 0 < n ∧ n ≤ s.length)
    (s : List Char) : Cuts hit none s (cut hit s) := by
  suffices hfrom : ∀ length (before : Option Char) (piece s : List Char), s.length ≤ length →
      Uncut hit before piece s →
      Cuts hit before (piece ++ s) (cutFrom hit 0 piece.reverse (piece.getLast?.or before) s) by
    exact hfrom s.length none [] s (Nat.le_refl _) fun front back hsplit hne =>
      absurd (List.append_eq_nil_iff.mp hsplit.symm).2 hne
  intro length
  induction length with
  | zero =>
    intro before piece s hlength huncut
    obtain rfl := List.eq_nil_of_length_eq_zero (Nat.le_zero.mp hlength)
    rw [List.append_nil, cutFrom, List.reverse_reverse]
    exact .last huncut
  | succ length ih =>
    intro before piece s hlength huncut
    cases s with
    | nil =>
      rw [List.append_nil, cutFrom, List.reverse_reverse]
      exact .last huncut
    | cons c s =>
      rw [List.length_cons] at hlength
      cases hmatch : hit (piece.getLast?.or before) (c :: s) with
      | none =>
        have hmore := ih before (piece ++ [c]) s (by omega) (huncut.snoc hmatch)
        rw [cutFrom_of_none _ hmatch]
        simpa using hmore
      | some n =>
        obtain ⟨hpos, hle⟩ := solid _ _ n hmatch
        obtain ⟨n, rfl⟩ := Nat.exists_eq_succ_of_ne_zero (Nat.ne_of_gt hpos)
        obtain ⟨mark, rest, rfl, rfl⟩ : ∃ mark rest, s = mark ++ rest ∧ mark.length = n :=
          ⟨s.take n, s.drop n, (List.take_append_drop n s).symm,
            List.length_take_of_le (Nat.le_of_succ_le_succ hle)⟩
        rw [cutFrom_of_hit _ hmatch, cutFrom_skip, List.reverse_reverse]
        have hrest := ih (c :: mark).getLast? [] rest
          (by rw [List.length_append] at hlength; omega)
          fun front back hsplit hne => absurd (List.append_eq_nil_iff.mp hsplit.symm).2 hne
        have hlast : mark.getLast?.or (some c) = (c :: mark).getLast? := by
          rw [← getLast?_cons_or c mark none, Option.or_none]
        have hmore : Cuts hit before (piece ++ ((c :: mark) ++ rest))
            (piece :: cutFrom hit 0 [] (c :: mark).getLast? rest) :=
          .more huncut (List.cons_ne_nil c mark) hmatch (by simpa using hrest)
        rwa [hlast]

end Cut

end TeamOrders.Text
