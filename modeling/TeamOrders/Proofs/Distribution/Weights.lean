import TeamOrders.Proofs.Distribution.Greedy
import TeamOrders.Proofs.Distribution.Rows
import TeamOrders.Proofs.Number.Rounding

/-!
# Weights are met

Choosing by weight looks at one task at a time. What it comes to over all tasks is that no team has been
put ahead of another: before its last task, no team had a higher load for its weight than any team with
room has at the end. A row keeps this once it has it. When a row is given a task, it had the lowest load of
all rows with room, and from then on the loads of the others only grow; and a row that is full never has
room again. `Fair` says so of the rows at any time.
-/

namespace TeamOrders.Distribution

variable {cap : Option Nat} {weights : List Double} {rows : List Row} {position : Nat}
  {seen : List (Option Double)} {best : Option (Nat × Double)} {low : Double}

/-! ### The lowest of a list of values -/

/-- The value at the position is below those before it, and not above those behind it. -/
structure Lowest (values : List (Option Double)) (position : Nat) (low : Double) : Prop where
  value : values[position]? = some (some low)
  least : ∀ (j : Nat) (other : Double), values[j]? = some (some other) → low.atMost other = true
  first : ∀ (j : Nat) (other : Double), j < position → values[j]? = some (some other) → low.below other = true

/-- The best so far is the lowest of what has been seen, if there was any value. -/
def Kept (seen : List (Option Double)) : Option (Nat × Double) → Prop
  | some (position, low) => Lowest seen position low
  | none => ∀ value ∈ seen, value = none

theorem getElem?_snoc {seen : List (Option Double)} {value : Option Double} {other : Double} {j : Nat}
    (h : (seen ++ [value])[j]? = some (some other)) :
    seen[j]? = some (some other) ∨ j = seen.length ∧ value = some other := by
  rw [List.getElem?_append] at h
  split at h
  · exact .inl h
  · rename_i hge
    obtain ⟨hj, hvalue⟩ := List.getElem?_eq_some_iff.mp h
    have hzero : j - seen.length = 0 := Nat.lt_one_iff.mp hj
    refine .inr ⟨by omega, ?_⟩
    simpa only [hzero, List.getElem_cons_zero] using hvalue

/-- A value that is not below the lowest leaves it the lowest. -/
theorem Lowest.snoc (h : Lowest seen position low) {value : Option Double}
    (hvalue : ∀ other, value = some other → low.atMost other = true) :
    Lowest (seen ++ [value]) position low := by
  have hposition := (List.getElem?_eq_some_iff.mp h.value).1
  refine ⟨?_, fun j other hj => ?_, fun j other hlt hj => ?_⟩
  · rw [List.getElem?_append_left hposition]
    exact h.value
  · obtain hseen | ⟨-, hlast⟩ := getElem?_snoc hj
    · exact h.least j other hseen
    · exact hvalue other hlast
  · obtain hseen | ⟨rfl, -⟩ := getElem?_snoc hj
    · exact h.first j other hlt hseen
    · omega

theorem lowest_snoc {value : Double} (hvalue : value.position.isSome = true)
    (h : ∀ (j : Nat) (other : Double), seen[j]? = some (some other) → value.below other = true) :
    Lowest (seen ++ [some value]) seen.length value := by
  refine ⟨List.getElem?_concat_length, fun j other hj => ?_, fun j other hlt hj => ?_⟩
  · obtain hseen | ⟨-, hlast⟩ := getElem?_snoc hj
    · exact Double.atMost_of_below (h j other hseen)
    · obtain rfl : value = other := Option.some.inj hlast
      obtain ⟨place, hplace⟩ := Option.isSome_iff_exists.mp hvalue
      exact Double.atMost_of_position hplace hplace (Int.le_refl place)
  · obtain hseen | ⟨rfl, -⟩ := getElem?_snoc hj
    · exact h j other hseen
    · omega

/-- If all values are numbers, a step keeps the best so far the lowest. -/
theorem Kept.better (h : Kept seen best) {value : Option Double}
    (numbers : ∀ number, some number ∈ seen ++ [value] → number.position.isSome = true) :
    Kept (seen ++ [value]) (better seen.length best value) := by
  cases value with
  | none =>
    cases best with
    | none => exact List.forall_mem_append.mpr ⟨h, List.forall_mem_singleton.mpr rfl⟩
    | some choice => exact Lowest.snoc h nofun
  | some value =>
    have hvalue : value.position.isSome = true := numbers value (by simp)
    cases best with
    | none =>
      refine lowest_snoc hvalue fun j other hj => ?_
      cases h _ (List.mem_of_getElem? hj)
    | some choice =>
      obtain ⟨i, low⟩ := choice
      have hlowest : Lowest seen i low := h
      rw [Distribution.better]
      split
      · rename_i hle
        refine Lowest.snoc hlowest fun other hother => ?_
        obtain rfl : value = other := Option.some.inj hother
        exact hle
      · rename_i hnot
        have hlow : low.position.isSome = true :=
          numbers low (List.mem_append_left _ (List.mem_of_getElem? hlowest.value))
        have hbelow : value.below low = true := by
          rw [Double.below_eq_not_atMost hvalue hlow, Bool.not_eq_true', ← Bool.not_eq_true]
          exact hnot
        refine lowest_snoc hvalue fun j other hj => ?_
        exact Double.below_of_below_of_atMost hbelow (hlowest.least j other hj)

theorem kept_lowest {values : List (Option Double)}
    (numbers : ∀ number, some number ∈ values → number.position.isSome = true) :
    Kept values (lowest values) := by
  let P (seen : List (Option Double)) (best : Option (Nat × Double)) : Prop :=
    (∀ number, some number ∈ seen → number.position.isSome = true) → Kept seen best
  have hstep : ∀ seen best value, P seen best → P (seen ++ [value]) (better seen.length best value) := by
    intro seen best value ih hnumbers
    exact (ih fun number hseen => hnumbers number (List.mem_append_left _ hseen)).better hnumbers
  have hstart : P [] none := fun _ => List.forall_mem_nil _
  exact invariant_lowest hstart hstep values numbers

/-! ### The next row -/

def Ahead (strictly : Prop) (x y : Double) : Prop := x.atMost y = true ∧ (strictly → x.below y = true)

theorem Ahead.trans {strictly : Prop} {x y z : Double} (h : Ahead strictly x y)
    (hyz : y.atMost z = true) : Ahead strictly x z :=
  ⟨Double.atMost_trans h.1 hyz, fun hstrictly => Double.below_of_below_of_atMost (h.2 hstrictly) hyz⟩

/-- Every count has a quotient by each of the weights. -/
def Measure (weights : List Double) : Prop :=
  ∀ weight ∈ weights, Double.zero.below weight = true ∧ ∀ n, (Double.ofNat n).div weight ≠ .nan

theorem Measure.atMost (measure : Measure weights) {weight : Double} (hweight : weight ∈ weights)
    {m n : Nat} (h : m ≤ n) :
    ((Double.ofNat m).div weight).atMost ((Double.ofNat n).div weight) = true := by
  obtain ⟨positive, numbers⟩ := measure weight hweight
  exact Double.atMost_div positive h (numbers m) (numbers n)

/-- The row that is chosen has room, and its load is the lowest of the rows with room, and below those
that are listed before it. -/
theorem exists_of_choose_byWeight (measure : Measure weights) {state state' : Unit}
    (h : (byWeight cap weights).choose state rows = some (position, state')) :
    ∃ row weight, rows[position]? = some row ∧ weights[position]? = some weight ∧
      hasRoom cap row = true ∧
      ∀ j other otherWeight, rows[j]? = some other → weights[j]? = some otherWeight →
        hasRoom cap other = true →
        Ahead (j < position) (load row weight) (load other otherWeight) := by
  rw [choose_byWeight] at h
  obtain ⟨⟨i, low⟩, hlowest, heq⟩ := Option.map_eq_some_iff.mp h
  obtain ⟨rfl, -⟩ := Prod.mk.inj heq
  have hkept : Kept (loads cap weights rows) (lowest (loads cap weights rows)) := by
    apply kept_lowest
    intro value hvalue
    obtain ⟨j, hj⟩ := List.mem_iff_getElem?.mp hvalue
    obtain ⟨row, weight, -, hweight, -, rfl⟩ := getElem?_loads.mp hj
    exact Double.position_of_ne_nan ((measure weight (List.mem_of_getElem? hweight)).2 _)
  rw [hlowest] at hkept
  have hlow : Lowest (loads cap weights rows) i low := hkept
  obtain ⟨row, weight, hrow, hweight, hroom, rfl⟩ := getElem?_loads.mp hlow.value
  refine ⟨row, weight, hrow, hweight, hroom, ?_⟩
  intro j other otherWeight hother hotherWeight hotherRoom
  have hload := getElem?_loads.mpr ⟨other, otherWeight, hother, hotherWeight, hotherRoom, rfl⟩
  exact ⟨hlow.least j _ hload, fun hlt => hlow.first j _ hlt hload⟩

/-! ### Fairness -/

/-- Before its last task, no row had a higher load for its weight than a row with room has now, and it
had a lower one than those with room that are listed before it. -/
def Fair (cap : Option Nat) (weights : List Double) (rows : List Row) : Prop :=
  ∀ (i j : Nat) (row other : Row) (weight otherWeight : Double),
    rows[i]? = some row → weights[i]? = some weight →
    rows[j]? = some other → weights[j]? = some otherWeight →
    row.tasks ≠ [] → hasRoom cap other = true →
    Ahead (j < i) ((Double.ofNat (row.tasks.length - 1)).div weight) (load other otherWeight)

theorem hasRoom_of_snoc {row : Row} {task : String}
    (h : hasRoom cap { row with tasks := row.tasks ++ [task] } = true) : hasRoom cap row = true := by
  cases cap with
  | none => rfl
  | some bound =>
    simp only [hasRoom, List.length_append, List.length_singleton, decide_eq_true_eq] at h ⊢
    omega

theorem Fair.give (fair : Fair cap weights rows) (measure : Measure weights) {state state' : Unit}
    (hchoose : (byWeight cap weights).choose state rows = some (position, state')) (task : String) :
    Fair cap weights (Distribution.give task position rows) := by
  obtain ⟨chosen, chosenWeight, hchosen, hchosenWeight, hroom, hahead⟩ :=
    exists_of_choose_byWeight measure hchoose
  intro i j given otherGiven weight otherWeight hgiven hweight hotherGiven hotherWeight hne hotherRoom
  obtain ⟨row, hrow, rfl⟩ := exists_of_getElem?_give hgiven
  obtain ⟨other, hother, rfl⟩ := exists_of_getElem?_give hotherGiven
  have hgrown : (load other otherWeight).atMost (load (if position = j then
      { other with tasks := other.tasks ++ [task] } else other) otherWeight) = true := by
    apply measure.atMost (List.mem_of_getElem? hotherWeight)
    split
    · exact Nat.le_of_lt (by simp)
    · exact Nat.le_refl _
  have hotherRoom : hasRoom cap other = true := by
    split at hotherRoom
    · exact hasRoom_of_snoc hotherRoom
    · exact hotherRoom
  refine Ahead.trans ?_ hgrown
  by_cases hposition : position = i
  · subst hposition
    obtain rfl : chosen = row := Option.some.inj (hchosen.symm.trans hrow)
    obtain rfl : chosenWeight = weight := Option.some.inj (hchosenWeight.symm.trans hweight)
    simp only [if_true, List.length_append, List.length_singleton, Nat.add_sub_cancel]
    exact hahead j other otherWeight hother hotherWeight hotherRoom
  · simp only [hposition, if_false] at hne ⊢
    exact fair i j row other weight otherWeight hrow hweight hother hotherWeight hne hotherRoom

theorem Fair.giveOut {plan : Plan} (fair : Fair cap weights plan.rows) (measure : Measure weights)
    (state : Unit) (tasks : List String) :
    Fair cap weights (Distribution.giveOut (byWeight cap weights) state plan tasks).rows := by
  induction tasks generalizing state plan with
  | nil => exact fair
  | cons task rest ih =>
    rw [Distribution.giveOut]
    cases hchoose : (byWeight cap weights).choose state plan.rows with
    | some choice => exact ih (fair.give measure hchoose task) choice.2
    | none => exact @ih { plan with unassigned := plan.unassigned ++ [task] } fair state

theorem fair_bare (request : BalanceRequest) (cap : Option Nat) (weights : List Double) :
    Fair cap weights (bare request).rows := by
  intro i _ row _ _ _ hrow _ _ _ hne
  obtain ⟨team, -, rfl⟩ := List.mem_map.mp (List.mem_of_getElem? hrow)
  exact absurd rfl hne

/-! ### Plans -/

theorem weight_positive (context : Context) (key team : String) :
    Double.zero.below (weight context key team) = true := by
  unfold weight
  split
  · split
    · assumption
    · exact Double.zero_below_one
  · exact Double.zero_below_one

/-- A plan by weight is fair, as long as every count has a quotient by every weight. -/
theorem plan_fair (request : BalanceRequest) (context : Context) {key : String}
    (weighted : weightTable? request.strategy = some key)
    (numbers : ∀ team ∈ request.teams, ∀ n, (Double.ofNat n).div (weight context key team) ≠ .nan) :
    (∀ team ∈ request.teams, Double.zero.below (weight context key team) = true) ∧
      ∀ (i j : Nat) (row other : Row), (plan request context).rows[i]? = some row →
        (plan request context).rows[j]? = some other →
        row.tasks ≠ [] → hasRoom (cap? request) other = true →
        let before := (Double.ofNat (row.tasks.length - 1)).div (weight context key row.team)
        let now := (Double.ofNat other.tasks.length).div (weight context key other.team)
        before.atMost now = true ∧ (j < i → before.below now = true) := by
  refine ⟨fun team _ => weight_positive context key team, ?_⟩
  intro i j row other hrow hother hne hroom
  have measure : Measure (request.teams.map (weight context key)) := by
    intro weight hweight
    obtain ⟨team, hteam, rfl⟩ := List.mem_map.mp hweight
    exact ⟨weight_positive context key team, numbers team hteam⟩
  have hplan : plan request context
      = giveOut (byWeight (cap? request) (request.teams.map (weight context key))) ()
          (bare request) context.tasks.names := by
    rw [plan, weighted]
  have hfair := (fair_bare request (cap? request) _).giveOut measure () context.tasks.names
  rw [← hplan] at hfair
  have hweight : ∀ {i : Nat} {row : Row}, (plan request context).rows[i]? = some row →
      (request.teams.map (weight context key))[i]? = some (weight context key row.team) := by
    intro i row hrow
    rw [← map_team_plan request context, List.getElem?_map, List.getElem?_map, hrow]
    rfl
  exact hfair i j row other _ _ hrow (hweight hrow) hother (hweight hother) hne hroom

/-- The first team, with a capacity of three, reaches the bound of three tasks; the last one, of which no
capacity is known, weighs one and comes behind its equal. -/
theorem plan_fair_of_capacities :
    let request : BalanceRequest := ⟨["team-a", "team-b", "team-c"], .capacityBased,
      Table.empty.insert Meaning.maxTasksKey (Json.nat 3)⟩
    let context := ((Context.new "acme/platform" 7).withTasks
      ["T1", "T2", "T3", "T4", "T5", "T6"]).withState "team_capacity"
        (.object [("team-a", .int 3), ("team-b", .double .one)])
    let per := fun count team => (Double.ofNat count).div (weight context "team_capacity" team)
    weightTable? request.strategy = some "team_capacity" ∧
      (∀ team ∈ request.teams, ∀ n, per n team ≠ .nan) ∧
      (plan request context).rows
        = [⟨"team-a", ["T1", "T4", "T5"]⟩, ⟨"team-b", ["T2", "T6"]⟩, ⟨"team-c", ["T3"]⟩] ∧
      (per 2 "team-a").atMost (per 1 "team-c") = true ∧
      (per 1 "team-b").atMost (per 1 "team-c") = true ∧
      (per 0 "team-c").below (per 2 "team-b") = true := by
  intro request context per
  have hfinite : ∀ team ∈ request.teams, (weight context "team_capacity" team).isFinite = true := by
    decide +kernel
  have hnumbers : ∀ team ∈ request.teams, ∀ n, per n team ≠ .nan := fun team hteam =>
    Double.div_ne_nan (weight_positive context _ team) (hfinite team hteam)
  have hrows : (plan request context).rows
      = [⟨"team-a", ["T1", "T4", "T5"]⟩, ⟨"team-b", ["T2", "T6"]⟩, ⟨"team-c", ["T3"]⟩] := by
    decide +kernel
  have hfair := (plan_fair request context rfl hnumbers).2
  rw [hrows] at hfair
  refine ⟨rfl, hnumbers, hrows, ?_, ?_, ?_⟩
  · exact (hfair 0 2 _ _ rfl rfl (List.cons_ne_nil _ _) rfl).1
  · exact (hfair 1 2 _ _ rfl rfl (List.cons_ne_nil _ _) rfl).1
  · exact (hfair 2 1 _ _ rfl rfl (List.cons_ne_nil _ _) rfl).2 (by decide)

end TeamOrders.Distribution
