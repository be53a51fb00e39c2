import Mathlib.Algebra.GroupWithZero.Nat
import TeamOrders.Proofs.Distribution.Greedy
import TeamOrders.Proofs.Distribution.Rows

/-!
# How many tasks find a team

How many tasks find a team under a greedy chooser depends on the places that are free, and not on which
teams are chosen. So the weights of the teams decide where tasks go, and have no part in how many go
anywhere.
-/

namespace TeamOrders.Distribution

variable {σ : Type} {chooser : Chooser σ} {cap : Option Nat} {rows : List Row} {position : Nat}

/-- How many of a number of tasks the rows can take. -/
def placed (cap : Option Nat) (rows : List Row) (count : Nat) : Nat :=
  match cap with
  | some cap => min count (rows.map fun row => cap - row.tasks.length).sum
  | none => if rows.isEmpty then 0 else count

/-! ### One task -/

theorem placed_give (task : String) {row : Row} (h : rows[position]? = some row)
    (hroom : hasRoom cap row = true) (count : Nat) :
    placed cap rows (count + 1) = placed cap (give task position rows) count + 1 := by
  obtain ⟨before, after, hrows, hgive⟩ := exists_give task h
  rw [hgive, hrows]
  cases cap with
  | none => simp [placed]
  | some cap =>
    have hless : row.tasks.length < cap := by simpa [hasRoom] using hroom
    simp only [placed, List.map_append, List.map_cons, List.sum_append, List.sum_cons,
      List.length_append, List.length_singleton]
    omega

theorem placed_of_no_room (h : ∀ row ∈ rows, hasRoom cap row = false) (count : Nat) :
    placed cap rows count = 0 := by
  cases cap with
  | none =>
    cases rows with
    | nil => rfl
    | cons row rest => exact absurd (h row List.mem_cons_self) (by simp [hasRoom])
  | some cap =>
    have hnone : (rows.map fun row => cap - row.tasks.length).sum = 0 := by
      rw [List.sum_eq_zero_iff_forall_eq_nat]
      intro free hfree
      obtain ⟨row, hrow, rfl⟩ := List.mem_map.mp hfree
      have hfull : ¬ row.tasks.length < cap := by simpa [hasRoom] using h row hrow
      omega
    simp [placed, hnone]

theorem assignedCount_give (task : String) (plan : Plan) {row : Row}
    (h : plan.rows[position]? = some row) :
    Plan.assignedCount { plan with rows := give task position plan.rows } = plan.assignedCount + 1 := by
  obtain ⟨before, after, hrows, hgive⟩ := exists_give task h
  simp only [Plan.assignedCount, hgive]
  rw [hrows]
  simp only [List.flatMap_append, List.flatMap_cons, List.length_append, List.length_singleton]
  omega

/-! ### All tasks -/

/-- As many tasks find a team as there are places, and the others find none. -/
theorem counts_giveOut (state : σ) (plan : Plan) (tasks : List String)
    (greedy : chooser.Greedy cap plan.rows.length) :
    (giveOut chooser state plan tasks).assignedCount
        = plan.assignedCount + placed cap plan.rows tasks.length ∧
      (giveOut chooser state plan tasks).unassigned.length + placed cap plan.rows tasks.length
        = plan.unassigned.length + tasks.length := by
  induction tasks generalizing state plan with
  | nil =>
    have hnone : placed cap plan.rows 0 = 0 := by
      cases cap <;> simp [placed]
    simp [giveOut, hnone]
  | cons task rest ih =>
    rw [giveOut, List.length_cons]
    cases hchoose : chooser.choose state plan.rows with
    | some choice =>
      obtain ⟨position, state'⟩ := choice
      obtain ⟨row, hrow, hroom⟩ := greedy.chosen rfl hchoose
      have hrest := ih state' { plan with rows := give task position plan.rows }
        (by rw [length_give]; exact greedy)
      rw [assignedCount_give task plan hrow] at hrest
      rw [placed_give task hrow hroom]
      dsimp only at hrest ⊢
      omega
    | none =>
      have hfull := greedy.refused rfl hchoose
      have hrest := ih state { plan with unassigned := plan.unassigned ++ [task] } greedy
      rw [placed_of_no_room hfull] at hrest ⊢
      have hsame : Plan.assignedCount { plan with unassigned := plan.unassigned ++ [task] }
          = plan.assignedCount := rfl
      rw [hsame] at hrest
      simp only [List.length_append, List.length_singleton] at hrest
      dsimp only
      omega

/-- How many tasks a plan gives out, and how many it does not, depends on the open tasks of the context
and not on the weights that it records. -/
theorem counts_plan_congr (request : BalanceRequest) {first second : Context}
    (sameTasks : first.tasks = second.tasks) :
    (plan request first).assignedCount = (plan request second).assignedCount ∧
      (plan request first).unassigned.length = (plan request second).unassigned.length := by
  obtain ⟨_, chooser, state, hgreedy, hplan⟩ := exists_greedy_plan request first
  obtain ⟨_, chooser', state', hgreedy', hplan'⟩ := exists_greedy_plan request second
  obtain ⟨hfirst, hfirst'⟩ := counts_giveOut state (bare request) first.tasks.names hgreedy
  obtain ⟨hsecond, hsecond'⟩ := counts_giveOut state' (bare request) second.tasks.names hgreedy'
  rw [hplan, hplan']
  rw [sameTasks] at hfirst hfirst' ⊢
  omega

end TeamOrders.Distribution
