import Mathlib.Order.Bounds.Basic
import Mathlib.Order.MinMax
import TeamOrders.Spelling

/-!
# The distance is the edit distance

`editDistance` says the distance by recursion on both texts, without rows. It obeys the laws of a distance,
and since a single edit moves a text by one at most, no row of edits is shorter than the distance; one of
that length is read off the recursion. Edits may as well be made in the reversed texts, so the recursion can
be read at the ends of two beginnings instead of at the starts of two rests. That is how the rows are filled:
midway through a row, the cells behind the place are still those of the shorter beginning.
-/

namespace TeamOrders.Spelling

variable {s t u : List Char} {c d : Char} {n : Nat}

/-! ### Edits -/

/-- A single character is inserted, deleted or replaced. -/
inductive Edit : List Char → List Char → Prop where
  | insert (before : List Char) (c : Char) (after : List Char) :
    Edit (before ++ after) (before ++ c :: after)
  | delete (before : List Char) (c : Char) (after : List Char) :
    Edit (before ++ c :: after) (before ++ after)
  | replace (before : List Char) (c d : Char) (after : List Char) :
    Edit (before ++ c :: after) (before ++ d :: after)

/-- A number of edits, one after the other. -/
inductive Edits : Nat → List Char → List Char → Prop where
  | none (s : List Char) : Edits 0 s s
  | more {n : Nat} {s t u : List Char} (first : Edit s t) (rest : Edits n t u) : Edits (n + 1) s u

theorem Edit.cons (h : Edit s t) (c : Char) : Edit (c :: s) (c :: t) := by
  cases h with
  | insert before d after => exact .insert (c :: before) d after
  | delete before d after => exact .delete (c :: before) d after
  | replace before d e after => exact .replace (c :: before) d e after

theorem Edit.reverse (h : Edit s t) : Edit s.reverse t.reverse := by
  cases h with
  | insert before c after => simpa using Edit.insert after.reverse c before.reverse
  | delete before c after => simpa using Edit.delete after.reverse c before.reverse
  | replace before c d after => simpa using Edit.replace after.reverse c d before.reverse

theorem Edits.cons (h : Edits n s t) (c : Char) : Edits n (c :: s) (c :: t) := by
  induction h with
  | none s => exact .none (c :: s)
  | more first _ ih => exact .more (first.cons c) ih

theorem Edits.reverse (h : Edits n s t) : Edits n s.reverse t.reverse := by
  induction h with
  | none s => exact .none s.reverse
  | more first _ ih => exact .more first.reverse ih

/-! ### The distance by recursion -/

/-- The distance of two texts: the first character of the one is left out, or that of the other is put in,
or the one is kept or replaced by the other, whichever costs least together with the rest. -/
def editDistance : List Char → List Char → Nat
  | [], t => t.length
  | s, [] => s.length
  | c :: s, d :: t =>
    min (min (editDistance s (d :: t) + 1) (editDistance (c :: s) t + 1))
      (editDistance s t + if c = d then 0 else 1)
termination_by s t => s.length + t.length

theorem editDistance_nil_left (t : List Char) : editDistance [] t = t.length := by
  rw [editDistance]

theorem editDistance_nil_right (s : List Char) : editDistance s [] = s.length := by
  cases s <;> simp [editDistance]

theorem editDistance_cons_cons (c d : Char) (s t : List Char) : editDistance (c :: s) (d :: t) =
    min (min (editDistance s (d :: t) + 1) (editDistance (c :: s) t + 1))
      (editDistance s t + if c = d then 0 else 1) := by
  rw [editDistance]

theorem edits_editDistance (s t : List Char) : Edits (editDistance s t) s t := by
  fun_induction editDistance s t with
  | case1 t =>
    induction t with
    | nil => exact .none []
    | cons d t ih => exact .more (.insert [] d []) (ih.cons d)
  | case2 s hne =>
    clear hne
    induction s with
    | nil => exact .none []
    | cons c s ih => exact .more (.delete [] c s) ih
  | case3 c s d t hdelete hinsert hkeep =>
    rcases min_choice (min (editDistance s (d :: t) + 1) (editDistance (c :: s) t + 1))
      (editDistance s t + if c = d then 0 else 1) with houter | houter
    · rcases min_choice (editDistance s (d :: t) + 1) (editDistance (c :: s) t + 1) with hinner | hinner
      · rw [houter, hinner]
        exact .more (.delete [] c s) hdelete
      · rw [houter, hinner]
        exact .more (.insert [] d (c :: s)) (hinsert.cons d)
    · rw [houter]
      split
      · rename_i hsame
        exact hsame ▸ hkeep.cons c
      · exact .more (.replace [] c d s) (hkeep.cons d)

/-! ### The laws of a distance -/

theorem editDistance_self (s : List Char) : editDistance s s = 0 := by
  induction s with
  | nil => rw [editDistance_nil_left, List.length_nil]
  | cons c s ih => simp [editDistance_cons_cons, ih]

theorem editDistance_eq_zero_iff (s t : List Char) : editDistance s t = 0 ↔ s = t := by
  constructor
  · intro h
    have hedits := edits_editDistance s t
    rw [h] at hedits
    cases hedits
    rfl
  · rintro rfl
    exact editDistance_self s

theorem editDistance_comm (s t : List Char) : editDistance s t = editDistance t s := by
  fun_induction editDistance s t with
  | case1 t => rw [editDistance_nil_right]
  | case2 s => rw [editDistance_nil_left]
  | case3 c s d t hdelete hinsert hkeep =>
    simp only [editDistance_cons_cons d, hdelete, hinsert, hkeep, eq_comm (a := c),
      min_comm (editDistance (d :: t) s + 1)]

theorem length_le_add_editDistance (s t : List Char) : t.length ≤ s.length + editDistance s t := by
  fun_induction editDistance s t with
  | case1 t => simp
  | case2 s => simp
  | case3 c s d t hdelete hinsert hkeep =>
    simp only [List.length_cons] at *
    split <;> omega

theorem editDistance_le_add_length (s t : List Char) : editDistance s t ≤ s.length + t.length := by
  fun_induction editDistance s t with
  | case1 t => simp
  | case2 s => simp
  | case3 c s d t hdelete hinsert hkeep =>
    simp only [List.length_cons] at *
    omega

theorem editDistance_triangle (s t u : List Char) :
    editDistance s u ≤ editDistance s t + editDistance t u := by
  match s, t, u with
  | [], t, u =>
    rw [editDistance_nil_left, editDistance_nil_left]
    exact length_le_add_editDistance t u
  | s, [], u =>
    rw [editDistance_nil_left, editDistance_nil_right]
    exact editDistance_le_add_length s u
  | s, t, [] =>
    rw [editDistance_nil_right, editDistance_nil_right, editDistance_comm s t, Nat.add_comm]
    exact length_le_add_editDistance t s
  | c :: s, d :: t, e :: u =>
    have hdelete := editDistance_triangle s (d :: t) (e :: u)
    have hinsertDelete := editDistance_triangle (c :: s) t (e :: u)
    have hinsert := editDistance_triangle (c :: s) (d :: t) u
    have hreplaceInsert := editDistance_triangle (c :: s) t u
    have hreplaceDelete := editDistance_triangle s t (e :: u)
    have hreplace := editDistance_triangle s t u
    have hcost : (if c = e then 0 else 1) ≤ (if c = d then 0 else 1) + if d = e then 0 else 1 := by
      split_ifs <;> simp_all
    have hst := editDistance_cons_cons c d s t
    have htu := editDistance_cons_cons d e t u
    have hsu := editDistance_cons_cons c e s u
    omega
termination_by s.length + t.length + u.length

/-- What two texts begin with alike does not add to their distance. -/
theorem editDistance_append_le (before s t : List Char) :
    editDistance (before ++ s) (before ++ t) ≤ editDistance s t := by
  induction before with
  | nil => exact Nat.le_refl _
  | cons c before ih =>
    rw [List.cons_append, List.cons_append, editDistance_cons_cons, if_pos rfl]
    omega

theorem Edit.editDistance_le (h : Edit s t) : editDistance s t ≤ 1 := by
  cases h with
  | insert before c after =>
    refine (editDistance_append_le before _ _).trans ?_
    have hnil := editDistance_self after
    cases after with
    | nil => simp [editDistance_nil_left]
    | cons d after =>
      rw [editDistance_cons_cons]
      omega
  | delete before c after =>
    refine (editDistance_append_le before _ _).trans ?_
    have hnil := editDistance_self after
    cases after with
    | nil => simp [editDistance_nil_right]
    | cons d after =>
      rw [editDistance_cons_cons]
      omega
  | replace before c d after =>
    refine (editDistance_append_le before _ _).trans ?_
    have hnil := editDistance_self after
    rw [editDistance_cons_cons]
    split <;> omega

theorem Edits.editDistance_le (h : Edits n s t) : editDistance s t ≤ n := by
  induction h with
  | none s => rw [editDistance_self]
  | @more n s t u first _ ih =>
    have htriangle := editDistance_triangle s t u
    have hfirst := first.editDistance_le
    omega

theorem isLeast_editDistance (s t : List Char) : IsLeast {n | Edits n s t} (editDistance s t) :=
  ⟨edits_editDistance s t, fun _ h => h.editDistance_le⟩

/-! ### From the ends -/

theorem editDistance_reverse (s t : List Char) :
    editDistance s.reverse t.reverse = editDistance s t := by
  refine le_antisymm (edits_editDistance s t).reverse.editDistance_le ?_
  have hback := (edits_editDistance s.reverse t.reverse).reverse.editDistance_le
  rwa [List.reverse_reverse, List.reverse_reverse] at hback

theorem editDistance_concat_concat (s t : List Char) (c d : Char) :
    editDistance (s ++ [c]) (t ++ [d]) =
      min (min (editDistance s (t ++ [d]) + 1) (editDistance (s ++ [c]) t + 1))
        (editDistance s t + if c = d then 0 else 1) := by
  rw [← editDistance_reverse, ← editDistance_reverse s, ← editDistance_reverse (s ++ [c]) t,
    ← editDistance_reverse s t, List.reverse_concat, List.reverse_concat, editDistance_cons_cons]

/-! ### Rows -/

/-- The cells of a row behind a beginning of the second text, one for each character that follows it. -/
def cells (first done : List Char) : List Char → List Nat
  | [] => []
  | d :: rest => editDistance first (done ++ [d]) :: cells first (done ++ [d]) rest

def row (first second : List Char) : List Nat := editDistance first [] :: cells first [] second

theorem firstRow_eq_row (second : List Char) : firstRow second = row [] second := by
  have hcells : ∀ done rest : List Char,
      cells [] done rest = List.range' (done.length + 1) rest.length := by
    intro done rest
    induction rest generalizing done with
    | nil => rfl
    | cons d rest ih =>
      rw [cells, ih, editDistance_nil_left, List.length_append]
      rfl
  rw [firstRow, row, hcells, editDistance_nil_left, List.range_eq_range', List.range'_succ]
  rfl

/-- Midway through a row: the cells up to a beginning of the second text are those of the longer beginning
of the first text, and the cells above what follows are still those of the shorter one. -/
theorem nextCells_cells (first done rest : List Char) (c : Char) :
    nextCells c (editDistance (first ++ [c]) done) (editDistance first done) rest
      (cells first done rest) = cells (first ++ [c]) done rest := by
  induction rest generalizing done with
  | nil => rfl
  | cons d rest ih =>
    have hcell := editDistance_concat_concat first done c d
    rw [cells, cells, nextCells, ← ih (done ++ [d]), hcell]

theorem nextRow_row (first second : List Char) (c : Char) :
    nextRow second (row first second) c = row (first ++ [c]) second := by
  have hcorner : editDistance first [] + 1 = editDistance (first ++ [c]) [] := by
    rw [editDistance_nil_right, editDistance_nil_right, List.length_append, List.length_singleton]
  rw [row, nextRow, hcorner, nextCells_cells]
  rfl

/-- Row by row, the rows for all beginnings of the first text are passed through. -/
theorem foldl_nextRow_row (done first second : List Char) :
    first.foldl (nextRow second) (row done second) = row (done ++ first) second := by
  induction first generalizing done with
  | nil => rw [List.append_nil, List.foldl_nil]
  | cons c first ih => rw [List.foldl_cons, nextRow_row, ih, List.append_assoc, List.singleton_append]

theorem getLastD_cells (first done rest : List Char) (start : Nat) :
    (editDistance first done :: cells first done rest).getLastD start
      = editDistance first (done ++ rest) := by
  induction rest generalizing done start with
  | nil => rw [cells, List.append_nil]; rfl
  | cons d rest ih =>
    rw [cells, List.getLastD_cons, ih, List.append_assoc, List.singleton_append]

theorem distance_eq_editDistance (s t : List Char) : distance s t = editDistance s t := by
  rw [distance, firstRow_eq_row, foldl_nextRow_row, row, getLastD_cells]
  rfl

/-- The distance is the one of the recursion and the least number of edits that turn the one text into the
other. So it is a distance: zero between equal texts only, the same both ways, and shorter than any way
round. -/
theorem distance_least_edits (s t : List Char) :
    distance s t = editDistance s t ∧
    IsLeast {n | Edits n s t} (distance s t) ∧
    (distance s t = 0 ↔ s = t) ∧
    distance s t = distance t s ∧
    ∀ u, distance s u ≤ distance s t + distance t u := by
  refine ⟨distance_eq_editDistance s t, ?_⟩
  simp only [distance_eq_editDistance]
  exact ⟨isLeast_editDistance s t, editDistance_eq_zero_iff s t, editDistance_comm s t,
    editDistance_triangle s t⟩

example : distance "kitten".toList "sitting".toList = 3 := by decide

end TeamOrders.Spelling
