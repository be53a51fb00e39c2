import TeamOrders.Proofs.Distribution.Turns
import TeamOrders.Proofs.Distribution.Weights

/-!
# Without weights teams take turns

Where no team has a weight that counts, all weigh one, and choosing by weight looks for the first of the
shortest rows with room. After tasks have been dealt in turn, the rows before the position that is next are
longer by one than the others. So the first of the shortest is the row whose turn it is, and choosing by
weight takes turns although it knows nothing of them. For this to hold the lengths of rows must be told
apart as doubles, which they are below two to the 53.
-/

namespace TeamOrders.Distribution

variable {cap : Option Nat} {teams given : List String} {limit position : Nat}

theorem measure_one (teams : List String) : Measure (teams.map fun _ => Double.one) := by
  intro weight hweight
  obtain ⟨-, -, rfl⟩ := List.mem_map.mp hweight
  exact ⟨Double.zero_below_one, Double.div_ne_nan Double.zero_below_one Double.isFinite_one⟩

theorem weight_of_dealt {i : Nat} {row : Row} (h : (dealt teams given)[i]? = some row) :
    (teams.map fun _ => Double.one)[i]? = some .one := by
  have hlt := (List.getElem?_eq_some_iff.mp h).1
  rw [length_dealt] at hlt
  rw [List.getElem?_map, List.getElem?_eq_getElem hlt, Option.map_some]

theorem load_of_dealt {i : Nat} {row : Row} (h : (dealt teams given)[i]? = some row)
    (hcount : given.length / teams.length + 1 < 2 ^ 53) :
    row.tasks.length < 2 ^ 53 ∧ load row .one = .ofNat row.tasks.length := by
  have hlength := length_tasks_dealt h
  have hlt : row.tasks.length < 2 ^ 53 := by
    split at hlength <;> omega
  exact ⟨hlt, Double.ofNat_div_one hlt⟩

/-- What comes first among the shortest rows is the row whose turn it is. -/
theorem eq_turn_of_ahead {row chosen : Row}
    (hrow : (dealt teams given)[given.length % teams.length]? = some row)
    (hchosen : (dealt teams given)[position]? = some chosen)
    (hcount : given.length / teams.length + 1 < 2 ^ 53)
    (hahead : Ahead (given.length % teams.length < position) (load chosen .one) (load row .one)) :
    position = given.length % teams.length := by
  obtain ⟨hrowCount, hrowLoad⟩ := load_of_dealt hrow hcount
  obtain ⟨hchosenCount, hchosenLoad⟩ := load_of_dealt hchosen hcount
  have hrowLength := length_tasks_dealt hrow
  have hchosenLength := length_tasks_dealt hchosen
  rw [if_neg (Nat.lt_irrefl _), Nat.add_zero] at hrowLength
  obtain ⟨hle, hfirst⟩ := hahead
  rw [hrowLoad, hchosenLoad] at hle hfirst
  rcases Nat.lt_trichotomy position (given.length % teams.length) with hbefore | heq | hbehind
  · have hlonger := Double.le_of_atMost_ofNat hchosenCount hrowCount hle
    rw [if_pos hbefore] at hchosenLength
    omega
  · exact heq
  · have hshorter := Double.lt_of_below_ofNat hchosenCount hrowCount (hfirst hbehind)
    omega

theorem takesTurns_byWeight (cap : Option Nat) (teams : List String)
    (counts : ∀ k < limit, k / teams.length + 1 < 2 ^ 53) :
    (byWeight cap (teams.map fun _ => .one)).TakesTurns cap teams limit fun _ => () where
  greedy := by
    have hgreedy := greedy_byWeight cap (teams.map fun _ => Double.one)
    rwa [List.length_map] at hgreedy
  next := by
    intro given row hlt hrow hroom
    have hgreedy := greedy_byWeight cap (teams.map fun _ => Double.one)
    have hrows : (dealt teams given).length = (teams.map fun _ => Double.one).length := by
      rw [length_dealt, List.length_map]
    cases hchoose : (byWeight cap (teams.map fun _ => Double.one)).choose () (dealt teams given) with
    | none =>
      have hfull := hgreedy.refused hrows hchoose row (List.mem_of_getElem? hrow)
      rw [hroom] at hfull
      cases hfull
    | some choice =>
      obtain ⟨position, state⟩ := choice
      obtain ⟨chosen, weight, hchosen, hweight, -, hahead⟩ :=
        exists_of_choose_byWeight (measure_one teams) hchoose
      obtain rfl : .one = weight := Option.some.inj ((weight_of_dealt hchosen).symm.trans hweight)
      rw [eq_turn_of_ahead hrow hchosen (counts given.length hlt)
        (hahead _ row .one hrow (weight_of_dealt hrow) hroom)]

/-! ### Plans -/

theorem weight_eq_one {context : Context} {key team : String}
    (h : ∀ x, context.teamWeight key team = some x → Double.zero.below x = false) :
    weight context key team = .one := by
  unfold weight
  split
  · rename_i x hx
    rw [h x hx, if_neg Bool.false_ne_true]
  · rfl

theorem plan_of_no_teams (request : BalanceRequest) (hteams : request.teams = [])
    (context : Context) : plan request context = ⟨[], context.tasks.names⟩ := by
  obtain ⟨σ, chooser, state, hgreedy, hplan⟩ := exists_greedy_plan request context
  have hrows : (bare request).rows = [] := by
    rw [bare, hteams]
    rfl
  have hfull : ∀ row ∈ (bare request).rows, hasRoom (cap? request) row = false := by
    rw [hrows]
    exact List.forall_mem_nil _
  rw [hplan, giveOut_of_full hgreedy hfull, hrows]
  rfl

/-- The first row of a deal is the longest, and every round that was begun has left a task in it. -/
theorem lt_of_dealtPlan {tasks : List String} {bound k : Nat} (hteams : teams ≠ [])
    (counts : ∀ row ∈ (dealtPlan cap teams tasks).rows, row.tasks.length < bound)
    (hk : k < places cap teams.length tasks.length) : k / teams.length + 1 < bound := by
  have hpos : 0 < teams.length := List.length_pos_iff.mpr hteams
  have hfirst : ∃ row, (dealtPlan cap teams tasks).rows[0]? = some row := by
    refine ⟨_, List.getElem?_eq_getElem ?_⟩
    rw [dealtPlan, length_dealt]
    exact hpos
  obtain ⟨row, hrow⟩ := hfirst
  have hlt := counts row (List.mem_of_getElem? hrow)
  have hlength := length_tasks_dealt hrow
  rw [List.length_take, Nat.min_eq_left (places_le ..)] at hlength
  rw [hlength] at hlt
  -- Either the round of the task at place `k` is full, or it is the last one, which is not empty.
  obtain hround | hround := Nat.lt_or_ge (k / teams.length)
    (places cap teams.length tasks.length / teams.length)
  · omega
  · have hdiv := Nat.div_add_mod k teams.length
    have hplaces := Nat.div_add_mod (places cap teams.length tasks.length) teams.length
    have hsame := Nat.le_antisymm (Nat.div_le_div_right (c := teams.length) (Nat.le_of_lt hk)) hround
    rw [← hsame] at hplaces hlt
    rw [if_pos (by omega)] at hlt
    exact hlt

/-- If no listed team has a positive number in the table of the strategy, teams take turns, as long as
none gets so many tasks that doubles cannot count them. -/
theorem plan_of_no_weights (request : BalanceRequest) (context : Context) {key : String}
    (weighted : weightTable? request.strategy = some key)
    (none : ∀ team ∈ request.teams, ∀ x, context.teamWeight key team = some x →
      Double.zero.below x = false)
    (counts : ∀ row ∈ (plan { request with strategy := .roundRobin } context).rows,
      row.tasks.length < 2 ^ 53) :
    plan request context = plan { request with strategy := .roundRobin } context := by
  by_cases hteams : request.teams = []
  · rw [plan_of_no_teams request hteams, plan_of_no_teams { request with strategy := .roundRobin } hteams]
  · have hplan : plan request context
        = giveOut (byWeight (cap? request) (request.teams.map fun _ => .one)) ()
            (bare request) context.tasks.names := by
      have hweights : request.teams.map (weight context key) = request.teams.map fun _ => .one :=
        List.map_congr_left fun team hteam => weight_eq_one (none team hteam)
      rw [plan, weighted, ← hweights]
    have hturns : plan { request with strategy := .roundRobin } context
        = dealtPlan (cap? request) request.teams context.tasks.names :=
      plan_eq_dealtPlan { request with strategy := .roundRobin } rfl hteams context
    rw [hturns] at counts ⊢
    rw [hplan]
    refine giveOut_bare (takesTurns_byWeight _ _ fun k hk => ?_) hteams _ (Nat.le_refl _)
    exact lt_of_dealtPlan hteams counts hk

/-- Zero, a number below zero and a text do not count as priorities. -/
theorem plan_of_no_weights_of_useless :
    let request : BalanceRequest := ⟨["team-a", "team-b", "team-c", "team-d"], .priorityWeighted,
      Table.empty.insert Meaning.maxTasksKey (Json.nat 2)⟩
    let context := ((Context.new "acme/platform" 7).withTasks
      ["T1", "T2", "T3", "T4", "T5"]).withState "team_priority" (.object
        [("team-a", .int 0), ("team-b", .double Double.one.negate), ("team-c", .string "high")])
    weightTable? request.strategy = some "team_priority" ∧
      (request.teams.map (context.teamWeight "team_priority"))
        = [some .zero, some Double.one.negate, none, none] ∧
      plan request context = plan { request with strategy := .roundRobin } context ∧
      (plan request context).rows = [⟨"team-a", ["T1", "T5"]⟩, ⟨"team-b", ["T2"]⟩,
        ⟨"team-c", ["T3"]⟩, ⟨"team-d", ["T4"]⟩] := by
  intro request context
  have hnone : ∀ team ∈ request.teams,
      (context.teamWeight "team_priority" team).all (fun x => !Double.zero.below x) = true := by
    decide +kernel
  have hcounts : ∀ row ∈ (plan { request with strategy := .roundRobin } context).rows,
      row.tasks.length < 2 ^ 53 := by
    decide +kernel
  have hplan := plan_of_no_weights request context rfl
    (fun team hteam x hx => by simpa [hx] using hnone team hteam) hcounts
  refine ⟨rfl, by decide +kernel, hplan, ?_⟩
  rw [hplan]
  decide +kernel

end TeamOrders.Distribution
