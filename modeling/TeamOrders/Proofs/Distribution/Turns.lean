import Mathlib.Data.Int.CardIntervalMod
import TeamOrders.Proofs.Distribution.Greedy

/-!
# Taking turns

When teams take turns, the task at place `k` falls to the team at position `k` modulo the number of teams,
as long as there are places; what comes later is left over. `dealt` says so without a run. A chooser takes
turns if, from the rows that tasks have been dealt to, it picks the position that is next. The run of every
such chooser ends as dealt, however it finds that position, and taking turns from a moving position is one
way to find it.
-/

namespace TeamOrders.Distribution

variable {σ : Type} {chooser : Chooser σ} {cap : Option Nat} {teams given : List String}
  {count position limit : Nat}

/-- The tasks that fall to a position when a number of positions take turns. -/
def fallTo (count position : Nat) (tasks : List String) : List String :=
  (tasks.zipIdx.filter fun entry => entry.2 % count = position).map Prod.fst

def dealt (teams tasks : List String) : List Row :=
  teams.zipIdx.map fun entry => ⟨entry.1, fallTo teams.length entry.2 tasks⟩

/-- As many of a number of tasks as there are places for. -/
def places (cap : Option Nat) (teams tasks : Nat) : Nat :=
  match cap with
  | some bound => min tasks (teams * bound)
  | none => tasks

/-- The plan that gives tasks out in turn as far as there are places for them. -/
def dealtPlan (cap : Option Nat) (teams tasks : List String) : Plan :=
  ⟨dealt teams (tasks.take (places cap teams.length tasks.length)),
    tasks.drop (places cap teams.length tasks.length)⟩

/-! ### What is dealt -/

theorem fallTo_snoc (count position : Nat) (tasks : List String) (task : String) :
    fallTo count position (tasks ++ [task])
      = fallTo count position tasks ++ if tasks.length % count = position then [task] else [] := by
  have hlast : [task].zipIdx tasks.length = [(task, tasks.length)] := rfl
  rw [fallTo, List.zipIdx_append, Nat.zero_add, hlast, List.filter_append, List.map_append,
    List.filter_singleton]
  by_cases h : tasks.length % count = position
  · simp only [h, decide_true, if_true]
    rfl
  · simp only [h, decide_false, if_false]
    rfl

theorem length_fallTo_eq_count (count position : Nat) (tasks : List String) :
    (fallTo count position tasks).length = Nat.count (fun k => k % count = position) tasks.length := by
  induction tasks using List.reverseRecOn with
  | nil => rfl
  | append_singleton tasks task ih =>
    rw [fallTo_snoc, List.length_append, ih, List.length_append, List.length_singleton,
      Nat.count_succ]
    split <;> rfl

/-- Every position gets as many tasks as there are full rounds, and those that come first get one more
from the last round. -/
theorem length_fallTo (h : position < count) (tasks : List String) :
    (fallTo count position tasks).length
      = tasks.length / count + if position < tasks.length % count then 1 else 0 := by
  have hcount := Nat.count_modEq_card tasks.length (Nat.zero_lt_of_lt h) position
  rw [Nat.mod_eq_of_lt h] at hcount
  rw [length_fallTo_eq_count, ← hcount]
  congr 1
  funext k
  rw [Nat.ModEq, Nat.mod_eq_of_lt h]

theorem getElem?_dealt (teams tasks : List String) (i : Nat) :
    (dealt teams tasks)[i]? = teams[i]?.map fun team => ⟨team, fallTo teams.length i tasks⟩ := by
  rw [dealt, List.getElem?_map, List.getElem?_zipIdx, Option.map_map, Nat.zero_add]
  rfl

theorem length_dealt (teams tasks : List String) : (dealt teams tasks).length = teams.length := by
  rw [dealt, List.length_map, List.length_zipIdx]

theorem give_dealt (teams given : List String) (task : String) :
    give task (given.length % teams.length) (dealt teams given) = dealt teams (given ++ [task]) := by
  apply List.ext_getElem?
  intro i
  rw [give, List.getElem?_modify, getElem?_dealt, getElem?_dealt, fallTo_snoc]
  cases teams[i]? with
  | none => rfl
  | some team =>
    by_cases h : given.length % teams.length = i
    · simp only [h, if_true, Option.map_some]
      rfl
    · simp only [h, if_false, Option.map_some, List.append_nil]
      rfl

theorem length_tasks_dealt {row : Row} {tasks : List String}
    (h : (dealt teams tasks)[position]? = some row) :
    row.tasks.length = tasks.length / teams.length
      + if position < tasks.length % teams.length then 1 else 0 := by
  rw [getElem?_dealt] at h
  obtain ⟨team, hteam, rfl⟩ := Option.map_eq_some_iff.mp h
  exact length_fallTo (List.getElem?_eq_some_iff.mp hteam).1 tasks

/-! ### Places -/

theorem lt_of_lt_places {k tasks : Nat} (h : k < places cap count tasks) :
    ∀ bound ∈ cap, k < count * bound := by
  rintro bound rfl
  exact Nat.lt_of_lt_of_le h (Nat.min_le_right _ _)

theorem places_le (cap : Option Nat) (count tasks : Nat) : places cap count tasks ≤ tasks := by
  cases cap with
  | some bound => exact Nat.min_le_left _ _
  | none => exact Nat.le_refl _

theorem exists_bound_of_places_lt {tasks : Nat} (h : places cap count tasks < tasks) :
    ∃ bound, cap = some bound ∧ places cap count tasks = count * bound := by
  cases cap with
  | some bound =>
    refine ⟨bound, rfl, ?_⟩
    simp only [places] at h ⊢
    omega
  | none => exact absurd h (Nat.lt_irrefl _)

theorem exists_next_row {tasks : Nat} (hteams : 0 < teams.length)
    (h : given.length < places cap teams.length tasks) :
    ∃ row, (dealt teams given)[given.length % teams.length]? = some row ∧ hasRoom cap row = true := by
  have hposition : given.length % teams.length < (dealt teams given).length := by
    rw [length_dealt]
    exact Nat.mod_lt _ hteams
  have hrow := List.getElem?_eq_getElem hposition
  have hlength := length_tasks_dealt hrow
  rw [if_neg (Nat.lt_irrefl _), Nat.add_zero] at hlength
  refine ⟨_, hrow, ?_⟩
  cases cap with
  | none => rfl
  | some bound =>
    have hplaces := lt_of_lt_places h bound rfl
    simp only [hasRoom, hlength, decide_eq_true_eq]
    exact (Nat.div_lt_iff_lt_mul hteams).mpr (Nat.mul_comm _ _ ▸ hplaces)

theorem full_dealt {bound : Nat} (hteams : 0 < teams.length)
    (h : given.length = teams.length * bound) :
    ∀ row ∈ dealt teams given, hasRoom (some bound) row = false := by
  intro row hrow
  obtain ⟨i, hi⟩ := List.mem_iff_getElem?.mp hrow
  have hlength := length_tasks_dealt hi
  rw [h, Nat.mul_mod_right, if_neg (Nat.not_lt_zero i), Nat.mul_div_cancel_left bound hteams,
    Nat.add_zero] at hlength
  simp only [hasRoom, hlength, Nat.lt_irrefl, decide_false]

/-! ### The run -/

/-- From the rows that tasks have been dealt to, the position whose turn it is is chosen if it has
room. -/
structure Chooser.TakesTurns (chooser : Chooser σ) (cap : Option Nat) (teams : List String)
    (limit : Nat) (turn : Nat → σ) : Prop where
  greedy : chooser.Greedy cap teams.length
  next : ∀ {given : List String} {row : Row}, given.length < limit →
    (dealt teams given)[given.length % teams.length]? = some row → hasRoom cap row = true →
    chooser.choose (turn given.length) (dealt teams given)
      = some (given.length % teams.length, turn (given.length + 1))

theorem giveOut_of_full {plan : Plan} (greedy : chooser.Greedy cap plan.rows.length)
    (full : ∀ row ∈ plan.rows, hasRoom cap row = false) (state : σ) (tasks : List String) :
    giveOut chooser state plan tasks = { plan with unassigned := plan.unassigned ++ tasks } := by
  induction tasks generalizing plan with
  | nil => rw [giveOut, List.append_nil]
  | cons task rest ih =>
    rw [giveOut]
    cases hchoose : chooser.choose state plan.rows with
    | some choice =>
      obtain ⟨row, hrow, hroom⟩ := greedy.chosen rfl hchoose
      rw [full row (List.mem_of_getElem? hrow)] at hroom
      cases hroom
    | none =>
      have hrest := @ih { plan with unassigned := plan.unassigned ++ [task] } greedy full
      rw [List.append_assoc] at hrest
      exact hrest

theorem giveOut_dealt {turn : Nat → σ} (turns : chooser.TakesTurns cap teams limit turn)
    (hteams : 0 < teams.length) (given rest : List String)
    (hlimit : places cap teams.length (given ++ rest).length ≤ limit)
    (hgiven : given.length ≤ places cap teams.length (given ++ rest).length) :
    giveOut chooser (turn given.length) ⟨dealt teams given, []⟩ rest
      = dealtPlan cap teams (given ++ rest) := by
  induction rest generalizing given with
  | nil =>
    have hle := places_le cap teams.length (given ++ []).length
    rw [List.append_nil] at hle hgiven ⊢
    rw [giveOut, dealtPlan, ← Nat.le_antisymm hgiven hle, List.take_length, List.drop_length]
  | cons task rest ih =>
    obtain hlt | heq := Nat.lt_or_eq_of_le hgiven
    · obtain ⟨row, hrow, hroom⟩ := exists_next_row hteams hlt
      have hchoose := turns.next (Nat.lt_of_lt_of_le hlt hlimit) hrow hroom
      have hlength : (given ++ [task]).length = given.length + 1 := List.length_append
      have happend : given ++ task :: rest = given ++ [task] ++ rest := List.append_cons ..
      rw [giveOut, hchoose]
      dsimp only
      rw [happend] at hlimit hlt ⊢
      rw [give_dealt, ← hlength]
      apply ih (given ++ [task]) hlimit
      rw [hlength]
      exact hlt
    · have hleft : places cap teams.length (given ++ task :: rest).length
          < (given ++ task :: rest).length := by
        rw [← heq, List.length_append, List.length_cons]
        omega
      obtain ⟨bound, rfl, hplaces⟩ := exists_bound_of_places_lt hleft
      have hfull := full_dealt hteams (heq.trans hplaces)
      have hgreedy : chooser.Greedy (some bound) (dealt teams given).length := by
        rw [length_dealt]
        exact turns.greedy
      rw [giveOut_of_full hgreedy hfull, dealtPlan, ← heq, List.take_left, List.drop_left,
        List.nil_append]

/-! ### Going round -/

/-- Going round from the position whose turn it is, that position is met first. -/
theorem takesTurns_inTurn (cap : Option Nat) (teams : List String) (limit : Nat) :
    (inTurn cap).TakesTurns cap teams limit (· % teams.length) where
  greedy := greedy_inTurn cap teams.length
  next := by
    intro given row _ hrow hroom
    have hposition := (List.getElem?_eq_some_iff.mp hrow).1
    rw [length_dealt] at hposition
    obtain ⟨count, hcount⟩ : ∃ count, teams.length = count + 1 := ⟨teams.length - 1, by omega⟩
    have hfirst : ∃ later, around (dealt teams given).length (given.length % teams.length)
        = given.length % teams.length :: later := by
      rw [around, length_dealt, hcount, List.range_succ_eq_map, List.map_cons, Nat.add_zero,
        Nat.mod_mod]
      exact ⟨_, rfl⟩
    obtain ⟨later, hfirst⟩ := hfirst
    have hany : ((dealt teams given)[given.length % teams.length]?).any (hasRoom cap) = true := by
      rw [hrow]
      exact hroom
    have hfind : (given.length % teams.length :: later).find?
        (fun i => ((dealt teams given)[i]?).any (hasRoom cap)) = some (given.length % teams.length) :=
      List.find?_cons_of_pos hany
    simp only [inTurn]
    rw [hfirst, hfind, Option.map_some, length_dealt, Nat.mod_add_mod]

/-! ### Plans -/

theorem bare_eq_dealt (request : BalanceRequest) :
    bare request = ⟨dealt request.teams [], []⟩ := by
  have hrows : (bare request).rows = dealt request.teams [] := by
    apply List.ext_getElem?
    intro i
    rw [getElem?_dealt, bare, List.getElem?_map]
    rfl
  rw [← hrows]
  rfl

theorem giveOut_bare {turn : Nat → σ} {request : BalanceRequest}
    (turns : chooser.TakesTurns cap request.teams limit turn) (hteams : request.teams ≠ [])
    (tasks : List String) (hlimit : places cap request.teams.length tasks.length ≤ limit) :
    giveOut chooser (turn 0) (bare request) tasks = dealtPlan cap request.teams tasks := by
  rw [bare_eq_dealt]
  exact giveOut_dealt turns (List.length_pos_iff.mpr hteams) [] tasks hlimit (Nat.zero_le _)

theorem plan_eq_dealtPlan (request : BalanceRequest) (inTurns : request.strategy = .roundRobin)
    (hteams : request.teams ≠ []) (context : Context) :
    plan request context = dealtPlan (cap? request) request.teams context.tasks.names := by
  have hplan : plan request context
      = giveOut (inTurn (cap? request)) 0 (bare request) context.tasks.names := by
    rw [plan, inTurns]
    rfl
  have hturn : 0 % request.teams.length = 0 := Nat.zero_mod _
  rw [hplan, ← hturn]
  exact giveOut_bare (takesTurns_inTurn _ _ _) hteams _ (Nat.le_refl _)

/-- Where teams take turns, the plan is known without making it: of the tasks that there are places for,
the team at each position gets those whose place in the order falls to its position, the other tasks are
left over, and no team gets more than one task more than another. -/
theorem plan_takes_turns (request : BalanceRequest) (inTurns : request.strategy = .roundRobin)
    (hteams : request.teams ≠ []) (context : Context) :
    plan request context = dealtPlan (cap? request) request.teams context.tasks.names ∧
      ∀ row ∈ (plan request context).rows, ∀ other ∈ (plan request context).rows,
        row.tasks.length ≤ other.tasks.length + 1 := by
  have hplan := plan_eq_dealtPlan request inTurns hteams context
  refine ⟨hplan, fun row hrow other hother => ?_⟩
  rw [hplan, dealtPlan] at hrow hother
  obtain ⟨i, hi⟩ := List.mem_iff_getElem?.mp hrow
  obtain ⟨j, hj⟩ := List.mem_iff_getElem?.mp hother
  rw [length_tasks_dealt hi, length_tasks_dealt hj]
  split <;> split <;> omega

/-- Three rows of at most two tasks, two of them for the same team: the seventh task and the eighth are
left over. -/
theorem plan_takes_turns_of_bound :
    let request : BalanceRequest := ⟨["team-a", "team-b", "team-a"], .roundRobin,
      Table.empty.insert Meaning.maxTasksKey (Json.nat 2)⟩
    let context := (Context.new "acme/platform" 7).withTasks
      ["T8", "T7", "T6", "T5", "T4", "T3", "T2", "T1"]
    request.strategy = .roundRobin ∧ request.teams ≠ [] ∧
      plan request context = dealtPlan (cap? request) request.teams context.tasks.names ∧
      plan request context
        = ⟨[⟨"team-a", ["T1", "T4"]⟩, ⟨"team-b", ["T2", "T5"]⟩, ⟨"team-a", ["T3", "T6"]⟩],
          ["T7", "T8"]⟩ := by
  intro request context
  have hteams : request.teams ≠ [] := List.cons_ne_nil _ _
  have hplan := (plan_takes_turns request rfl hteams context).1
  refine ⟨rfl, hteams, hplan, ?_⟩
  rw [hplan]
  decide +kernel

end TeamOrders.Distribution
