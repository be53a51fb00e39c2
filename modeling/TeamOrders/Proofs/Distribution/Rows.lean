import TeamOrders.Distribution

/-!
# The rows of a plan

Giving out tasks fills the rows that a plan starts with, and neither adds nor moves one. So the rows
of a plan name the listed teams, in their order.
-/

namespace TeamOrders.Distribution

variable {rows : List Row} {position : Nat}

/-- A task goes to the end of one row, and all other rows stay as they are. -/
theorem exists_give (task : String) {row : Row} (h : rows[position]? = some row) :
    ∃ before after, rows = before ++ row :: after ∧
      give task position rows = before ++ { row with tasks := row.tasks ++ [task] } :: after := by
  induction rows generalizing position with
  | nil => simp at h
  | cons first rest ih =>
    cases position with
    | zero =>
      obtain rfl : first = row := by simpa using h
      exact ⟨[], rest, rfl, rfl⟩
    | succ position =>
      obtain ⟨before, after, hrest, hgive⟩ := ih (by simpa using h)
      refine ⟨first :: before, after, by rw [hrest]; rfl, ?_⟩
      rw [give, List.modify_succ_cons, ← give, hgive]
      rfl

theorem exists_of_getElem?_give {task : String} {row : Row} {i : Nat}
    (h : (give task position rows)[i]? = some row) :
    ∃ before, rows[i]? = some before ∧
      row = if position = i then { before with tasks := before.tasks ++ [task] } else before := by
  rw [give, List.getElem?_modify] at h
  obtain ⟨before, hbefore, rfl⟩ := Option.map_eq_some_iff.mp h
  refine ⟨before, hbefore, ?_⟩
  by_cases hi : position = i <;> simp [hi]

theorem length_give (task : String) (position : Nat) (rows : List Row) :
    (give task position rows).length = rows.length := List.length_modify ..

theorem map_team_give (task : String) (position : Nat) (rows : List Row) :
    (give task position rows).map (·.team) = rows.map (·.team) := by
  unfold give
  apply List.ext_getElem?
  intro i
  rw [List.getElem?_map, List.getElem?_map, List.getElem?_modify]
  by_cases h : position = i
  · cases rows[i]? with
    | none => simp
    | some row => simp [h]
  · simp [h]

theorem map_team_giveOut {σ : Type} (chooser : Chooser σ) (state : σ) (plan : Plan)
    (tasks : List String) :
    (giveOut chooser state plan tasks).rows.map (·.team) = plan.rows.map (·.team) := by
  induction tasks generalizing state plan with
  | nil => rfl
  | cons task rest ih =>
    rw [giveOut]
    split
    · rw [ih, map_team_give]
    · rw [ih]

theorem map_team_plan (request : BalanceRequest) (context : Context) :
    (plan request context).rows.map (·.team) = request.teams := by
  have hbare : (bare request).rows.map (·.team) = request.teams := by
    simp [bare, Function.comp_def]
  unfold plan
  split <;> rw [map_team_giveOut, hbare]

end TeamOrders.Distribution
