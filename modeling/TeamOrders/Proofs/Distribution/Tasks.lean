import TeamOrders.Proofs.Distribution.Greedy
import TeamOrders.Proofs.Distribution.Rows
import TeamOrders.Proofs.Table

/-!
# Where the tasks of a plan are

Giving out tasks loses none and gives none twice, keeps them in their order, and exceeds no bound. It
leaves tasks over only when no row has room. A row never gets its room back, so from the first task that
is left over all are, and these are the last ones. `Plan.Places` says so of a plan and the tasks that it
was given so far; giving out one more task preserves it.
-/

namespace TeamOrders.Distribution

variable {σ : Type} {chooser : Chooser σ} {cap : Option Nat} {plan : Plan} {given : List String}

/-- The plan has a place for each of these tasks, and has left over what no row had room for. -/
structure Plan.Places (cap : Option Nat) (given : List String) (plan : Plan) : Prop where
  perm : (plan.rows.flatMap (·.tasks) ++ plan.unassigned).Perm given
  ordered : ∀ row ∈ plan.rows, row.tasks.Sublist given
  within : ∀ row ∈ plan.rows, ∀ bound ∈ cap, row.tasks.length ≤ bound
  last : plan.unassigned <:+ given
  full : plan.unassigned ≠ [] → ∀ row ∈ plan.rows, hasRoom cap row = false

theorem length_lt_of_hasRoom {row : Row} (h : hasRoom cap row = true) :
    ∀ bound ∈ cap, row.tasks.length < bound := by
  rintro bound rfl
  simpa [hasRoom] using h

/-! ### One task -/

theorem Plan.Places.unassigned_eq_nil (h : plan.Places cap given) {row : Row}
    (hrow : row ∈ plan.rows) (hroom : hasRoom cap row = true) : plan.unassigned = [] := by
  cases hleft : plan.unassigned with
  | nil => rfl
  | cons task rest =>
    have hfull : hasRoom cap row = false := h.full (by simp [hleft]) row hrow
    rw [hroom] at hfull
    cases hfull

theorem Plan.Places.give (h : plan.Places cap given) (task : String) {position : Nat} {row : Row}
    (hrow : plan.rows[position]? = some row) (hroom : hasRoom cap row = true) :
    Plan.Places cap (given ++ [task])
      { plan with rows := Distribution.give task position plan.rows } := by
  obtain ⟨before, after, hrows, hgive⟩ := exists_give task hrow
  have hnone : plan.unassigned = [] :=
    h.unassigned_eq_nil (List.mem_of_getElem? hrow) hroom
  have hmem : ∀ other ∈ before ++ { row with tasks := row.tasks ++ [task] } :: after,
      other ∈ plan.rows ∨ other = { row with tasks := row.tasks ++ [task] } := by
    intro other hother
    rw [hrows]
    rcases List.mem_append.mp hother with hother | hother
    · exact .inl (List.mem_append_left _ hother)
    · rcases List.mem_cons.mp hother with hother | hother
      · exact .inr hother
      · exact .inl (List.mem_append_right _ (List.mem_cons_of_mem row hother))
  have hperm := h.perm
  rw [hrows, hnone] at hperm
  constructor
  · have hmoved : (row.tasks ++ [task] ++ after.flatMap (·.tasks)).Perm
        (row.tasks ++ after.flatMap (·.tasks) ++ [task]) := by
      rw [List.append_assoc, List.append_assoc]
      exact List.perm_append_comm.append_left row.tasks
    simp only [hgive, hnone, List.append_nil, List.flatMap_append, List.flatMap_cons] at hperm ⊢
    refine (hmoved.append_left _).trans ?_
    rw [← List.append_assoc]
    exact hperm.append_right [task]
  · rw [hgive]
    intro other hother
    rcases hmem other hother with hother | rfl
    · exact (h.ordered other hother).trans (List.sublist_append_left given [task])
    · exact (h.ordered row (List.mem_of_getElem? hrow)).append (List.Sublist.refl [task])
  · rw [hgive]
    intro other hother bound hbound
    rcases hmem other hother with hother | rfl
    · exact h.within other hother bound hbound
    · have hless : row.tasks.length < bound := length_lt_of_hasRoom hroom bound hbound
      rw [List.length_append]
      exact hless
  · rw [hnone]
    exact List.nil_suffix
  · exact fun hleft => absurd hnone hleft

theorem Plan.Places.leave (h : plan.Places cap given) (task : String)
    (hfull : ∀ row ∈ plan.rows, hasRoom cap row = false) :
    Plan.Places cap (given ++ [task]) { plan with unassigned := plan.unassigned ++ [task] } where
  perm := by
    rw [← List.append_assoc]
    exact h.perm.append_right [task]
  ordered := fun row hrow => (h.ordered row hrow).trans (List.sublist_append_left given [task])
  within := h.within
  last := by
    obtain ⟨before, hbefore⟩ := h.last
    exact ⟨before, by rw [← hbefore, List.append_assoc]⟩
  full := fun _ => hfull

/-! ### All tasks -/

/-- A greedy chooser goes on as the plan began. -/
theorem Plan.Places.giveOut (greedy : chooser.Greedy cap plan.rows.length)
    (h : plan.Places cap given) (state : σ) (tasks : List String) :
    (Distribution.giveOut chooser state plan tasks).Places cap (given ++ tasks) := by
  induction tasks generalizing state plan given with
  | nil => simpa [Distribution.giveOut] using h
  | cons task rest ih =>
    rw [Distribution.giveOut, List.append_cons]
    cases hchoose : chooser.choose state plan.rows with
    | some choice =>
      obtain ⟨position, state'⟩ := choice
      obtain ⟨row, hrow, hroom⟩ := greedy.chosen rfl hchoose
      refine ih ?_ (h.give task hrow hroom) state'
      rw [length_give]
      exact greedy
    | none =>
      have hleft := h.leave task (greedy.refused rfl hchoose)
      refine ih ?_ hleft state
      exact greedy

theorem places_bare (request : BalanceRequest) (cap : Option Nat) :
    (bare request).Places cap [] := by
  have hempty : ∀ row ∈ (bare request).rows, row.tasks = [] := by
    intro row hrow
    obtain ⟨team, -, rfl⟩ := List.mem_map.mp hrow
    rfl
  constructor
  · have hnone : (bare request).rows.flatMap (·.tasks) = [] :=
      List.flatMap_eq_nil_iff.mpr hempty
    rw [hnone]
    exact List.Perm.refl []
  · intro row hrow
    simp only [hempty row hrow, List.nil_sublist]
  · intro row hrow bound _
    rw [hempty row hrow]
    exact Nat.zero_le bound
  · exact List.suffix_refl []
  · exact fun hleft => absurd rfl hleft

theorem places_plan (request : BalanceRequest) (context : Context) :
    (Distribution.plan request context).Places (cap? request) context.tasks.names := by
  obtain ⟨_, chooser, state, hgreedy, hplan⟩ := exists_greedy_plan request context
  rw [hplan]
  exact (places_bare request (cap? request)).giveOut hgreedy state context.tasks.names

/-! ### The whole plan -/

/-- A row without room has as many tasks as the bound allows, and there is a bound. -/
theorem Plan.Places.exists_bound_of_full (h : plan.Places cap given) (hrows : plan.rows ≠ [])
    (hfull : ∀ row ∈ plan.rows, hasRoom cap row = false) :
    ∃ bound, cap = some bound ∧ ∀ row ∈ plan.rows, row.tasks.length = bound := by
  cases cap with
  | none =>
    obtain ⟨row, rest, heq⟩ := List.exists_cons_of_ne_nil hrows
    have hrow : hasRoom none row = false := hfull row (by simp [heq])
    cases hrow
  | some bound =>
    refine ⟨bound, rfl, fun row hrow => ?_⟩
    have hless : ¬ row.tasks.length < bound := by simpa [hasRoom] using hfull row hrow
    exact Nat.le_antisymm (h.within row hrow bound rfl) (Nat.le_of_not_lt hless)

/-- Without a bound, a plan for some team gives all tasks out. -/
theorem unassigned_plan_of_no_bound {request : BalanceRequest} (hteams : request.teams ≠ [])
    (hcap : cap? request = none) (context : Context) :
    (Distribution.plan request context).unassigned = [] := by
  have hplaces := places_plan request context
  have hrows : (Distribution.plan request context).rows ≠ [] := by
    intro hnil
    have hmap := map_team_plan request context
    rw [hnil] at hmap
    exact hteams hmap.symm
  refine Decidable.byContradiction fun hleft => ?_
  obtain ⟨bound, hbound, -⟩ := hplaces.exists_bound_of_full hrows (hplaces.full hleft)
  rw [hcap] at hbound
  cases hbound

theorem cap?_eq_some_iff {request : BalanceRequest} {bound : Nat} : cap? request = some bound ↔
    request.constraints.find? "max_tasks_per_team" = some (.int bound) := by
  have hkey : Meaning.maxTasksKey = "max_tasks_per_team" := rfl
  rw [cap?, hkey]
  split
  · rename_i n hfound
    rw [hfound, Option.some.injEq, Json.int.injEq]
    split
    · rename_i hnonneg
      rw [Option.some.injEq]
      omega
    · exact iff_of_false nofun (by omega)
  · rename_i hother
    exact iff_of_false nofun fun h => hother _ h

/-- The plan has a row for every listed team and one place for every task, in their order. No row exceeds
the bound of the request. What is left over are the last tasks, and something is left over only if there
is no team or every row is as long as the bound allows. -/
structure Plan.Sound (request : BalanceRequest) (tasks : List String) (plan : Plan) : Prop where
  teams : plan.rows.map (·.team) = request.teams
  once : (plan.rows.flatMap (·.tasks) ++ plan.unassigned).Perm tasks
  distinct : (plan.rows.flatMap (·.tasks) ++ plan.unassigned).Nodup
  ordered : ∀ row ∈ plan.rows, row.tasks.Sublist tasks
  bounded : ∀ bound ∈ cap? request, ∀ row ∈ plan.rows, row.tasks.length ≤ bound
  last : plan.unassigned <:+ tasks
  busy : plan.unassigned ≠ [] → request.teams = [] ∨
    ∃ bound, cap? request = some bound ∧ ∀ row ∈ plan.rows, row.tasks.length = bound

/-- No plan loses a task, gives one twice, exceeds its bound, or leaves a task over while a team has
room. -/
theorem plan_sound (request : BalanceRequest) (context : Context) :
    (Distribution.plan request context).Sound request context.tasks.names := by
  have hplaces := places_plan request context
  have hteams := map_team_plan request context
  refine ⟨hteams, hplaces.perm, hplaces.perm.nodup_iff.mpr context.tasks.nodup, hplaces.ordered,
    fun bound hbound row hrow => hplaces.within row hrow bound hbound, hplaces.last, fun hleft => ?_⟩
  by_cases hrows : (Distribution.plan request context).rows = []
  · rw [hrows] at hteams
    exact .inl hteams.symm
  · exact .inr (hplaces.exists_bound_of_full hrows (hplaces.full hleft))

end TeamOrders.Distribution
