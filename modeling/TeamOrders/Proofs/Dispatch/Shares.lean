import Mathlib.Data.List.Forall2
import TeamOrders.Proofs.Dispatch.Response
import TeamOrders.Proofs.Distribution.Tasks
import TeamOrders.Proofs.Reading.Tidy

/-!
# Work that is spread is told in one way

A plan is told three times: as the distribution in the details of the first action, as one more action
for every team that gets tasks, and as two numbers in the message. The distribution is a table by the
names of teams, so a team that stood twice in the request would lose tasks there. Requests that were read
name each team once, and then the three agree, and together they have every open task once.
-/

namespace TeamOrders

open Json

namespace Execution

def shareOf (shares : Table (List String)) (team : String) : List String :=
  (shares.find? team).getD []

/-- The action gives a team its share. -/
structure Gives (shares : Table (List String)) (strategy : Strategy) (team : String)
    (action : Action) : Prop where
  type : action.type = "assign_tasks"
  target : action.target = team
  tasks : action.details.find? "tasks" = some (strings (shareOf shares team))
  strategy : action.details.find? "strategy" = some (.string strategy.name)

/-- The action tells who gets what, and what nobody gets. -/
structure Tells (request : BalanceRequest) (shares : Table (List String)) (left : List String)
    (action : Action) : Prop where
  type : action.type = "balance_load"
  target : action.target = request.strategy.name
  teams : action.details.find? "teams" = some (strings request.teams)
  distribution : action.details.find? "distribution" = some (ofTable strings shares)
  unassigned : action.details.find? "unassigned" = some (strings left)

/-- The tasks stand once each among the shares of the listed teams and what is left over, and the actions
and the message tell of these shares. -/
structure Spreads (request : BalanceRequest) (tasks : List String) (shares : Table (List String))
    (left : List String) (effect : Effect) : Prop where
  teams : ∀ team, team ∈ shares.keys ↔ team ∈ request.teams
  once : (shares.entries.flatMap Prod.snd ++ left).Perm tasks
  distinct : (shares.entries.flatMap Prod.snd ++ left).Nodup
  actions : ∃ first gifts, effect.actions = first :: gifts ∧ Tells request shares left first ∧
    List.Forall₂ (Gives shares request.strategy)
      (request.teams.filter fun team => !(shareOf shares team).isEmpty) gifts
  message : effect.message = "Balanced " ++ toString (shares.entries.flatMap Prod.snd).length
    ++ " task(s) across " ++ toString request.teams.length ++ " team(s) using "
    ++ request.strategy.name
    ++ (if left = [] then "" else ", " ++ toString left.length ++ " left unassigned")

variable {request : BalanceRequest} {context : Context}

def sharesOf (plan : Distribution.Plan) : Table (List String) :=
  Table.ofList (plan.rows.map fun row => (row.team, row.tasks))

variable {plan : Distribution.Plan}

theorem nodup_names_of_nodup_teams (h : (plan.rows.map (·.team)).Nodup) :
    ((plan.rows.map fun row => (row.team, row.tasks)).map Prod.fst).Nodup := by
  rw [List.map_map]
  exact h

/-- If no team stands twice, the shares have the tasks of the rows. -/
theorem perm_sharesOf (h : (plan.rows.map (·.team)).Nodup) :
    ((sharesOf plan).entries.flatMap Prod.snd).Perm (plan.rows.flatMap (·.tasks)) := by
  have hperm := Table.perm_entries_ofList (nodup_names_of_nodup_teams h)
  have htasks := hperm.flatMap_right Prod.snd
  rwa [List.flatMap_map] at htasks

theorem shareOf_sharesOf (h : (plan.rows.map (·.team)).Nodup) {row : Distribution.Row}
    (hrow : row ∈ plan.rows) : shareOf (sharesOf plan) row.team = row.tasks := by
  have hentry : (row.team, row.tasks) ∈ (sharesOf plan).entries :=
    (Table.perm_entries_ofList (nodup_names_of_nodup_teams h)).mem_iff.mpr
      (List.mem_map.mpr ⟨row, hrow, rfl⟩)
  rw [shareOf, Table.find?_of_mem hentry]
  rfl

theorem mem_keys_sharesOf {team : String} :
    team ∈ (sharesOf plan).keys ↔ team ∈ plan.rows.map (·.team) := by
  rw [sharesOf, Table.mem_keys_ofList, List.map_map]
  rfl

theorem ofTable_sharesOf (plan : Distribution.Plan) :
    ofTable id (Table.ofList (plan.rows.map fun row => (row.team, strings row.tasks)))
      = ofTable strings (sharesOf plan) := by
  have hmap : Table.ofList (plan.rows.map fun row => (row.team, strings row.tasks))
      = (sharesOf plan).map strings := by
    have h := Table.ofList_map strings (plan.rows.map fun row => (row.team, row.tasks))
    rwa [List.map_map] at h
  simp [hmap, ofTable, Table.map, Function.comp_def]

theorem tells_balanceLoad (request : BalanceRequest) (plan : Distribution.Plan) :
    Tells request (sharesOf plan) plan.unassigned
      (.new "balance_load" request.strategy.name
        [("teams", strings request.teams), ("constraints", ofTable id request.constraints),
          ("distribution", ofTable id
            (Table.ofList (plan.rows.map fun row => (row.team, strings row.tasks)))),
          ("unassigned", strings plan.unassigned)]) where
  type := rfl
  target := rfl
  teams := by simp [Action.new, Table.ofList, Table.find?_insert]
  distribution := by
    rw [← ofTable_sharesOf]
    simp [Action.new, Table.ofList, Table.find?_insert]
  unassigned := by simp [Action.new, Table.ofList, Table.find?_insert]

theorem gives_rows (hplan : (plan.rows.map (·.team)).Nodup) (strategy : Strategy) :
    List.Forall₂ (Gives (sharesOf plan) strategy)
      ((plan.rows.map (·.team)).filter fun team => !(shareOf (sharesOf plan) team).isEmpty)
      ((plan.rows.filter fun row => !row.tasks.isEmpty).map fun row =>
        .new "assign_tasks" row.team
          [("tasks", strings row.tasks), ("strategy", .string strategy.name)]) := by
  have hfilter : plan.rows.filter ((fun team => !(shareOf (sharesOf plan) team).isEmpty) ∘ (·.team))
      = plan.rows.filter fun row => !row.tasks.isEmpty :=
    List.filter_congr fun row hrow => by rw [Function.comp_apply, shareOf_sharesOf hplan hrow]
  rw [List.filter_map, hfilter, List.forall₂_map_left_iff, List.forall₂_map_right_iff,
    List.forall₂_same]
  intro row hrow
  refine ⟨rfl, rfl, ?_, ?_⟩
  · rw [shareOf_sharesOf hplan (List.mem_filter.mp hrow).1]
    simp [Action.new, Table.ofList, Table.find?_insert]
  · simp [Action.new, Table.ofList, Table.find?_insert]

theorem spreads_balanceLoad (request : BalanceRequest) (context : Context)
    (hteams : request.teams.Nodup) :
    Spreads request context.tasks.names (sharesOf (Distribution.plan request context))
      (Distribution.plan request context).unassigned (balanceLoad request context) := by
  have hplaces := Distribution.places_plan request context
  have hteam := Distribution.map_team_plan request context
  have hrows : ((Distribution.plan request context).rows.map (·.team)).Nodup := hteam ▸ hteams
  have hshares := perm_sharesOf hrows
  have hall := hshares.append_right (Distribution.plan request context).unassigned
  have hnodup := hplaces.perm.nodup_iff.mpr context.tasks.nodup
  refine ⟨fun team => ?_, hall.trans hplaces.perm, hall.nodup_iff.mpr hnodup, ?_, ?_⟩
  · rw [mem_keys_sharesOf, hteam]
  · refine ⟨_, _, rfl, tells_balanceLoad request _, ?_⟩
    rw [← hteam]
    exact gives_rows hrows request.strategy
  · simp only [balanceLoad, Distribution.Plan.assignedCount, hshares.length_eq,
      List.isEmpty_iff]

end Execution

namespace Dispatcher

/-- Every command that was carried out and spreads the open tasks of the context has them all once, in the
shares of the teams that it lists or left over, and its actions and its message tell of just these
shares. -/
theorem respond_spreads_tasks (dispatcher : Dispatcher) (context : Context) (now : Timestamp)
    (comment : String) :
    ∀ outcome ∈ (dispatcher.respond context now comment).results,
      outcome.success = true → outcome.command.kind = .loadBalance →
      ∃ request shares left, outcome.command.payload = .single (.balanceLoad request) ∧
        Execution.Spreads request context.tasks.names shares left
          ⟨outcome.message, outcome.actions⟩ := by
  intro outcome houtcome hsuccess hkind
  obtain ⟨command, hcommand, rfl⟩ := exists_command_of_mem_results houtcome
  have htidy := Reading.tidyRead_of_mem_commandsOf hcommand
  obtain ⟨order, hpayload, horder⟩ := htidy.order
  cases hvalid : (Validation.ofCommand dispatcher.settings context command).valid with
  | false =>
    rw [outcomeOf_of_invalid hvalid] at hsuccess
    cases hsuccess
  | true =>
    have hsame : command.kind = order.kind := by
      rw [htidy.kind, hpayload]
      rfl
    have hok : dispatcher.outcomeOf context command
        = .succeeded command (Execution.ofOrder context order).message
            (Execution.ofOrder context order).actions := by
      rw [outcomeOf_of_valid hvalid,
        Execution.outcome_of_ok (Execution.ofCommand_of_single hpayload hsame)]
    rw [hok] at hkind ⊢
    have horderKind : order.kind = .loadBalance := hsame.symm.trans hkind
    cases order with
    | balanceLoad request =>
      exact ⟨request, _, _, hpayload, Execution.spreads_balanceLoad request context horder.1.nodup⟩
    | _ => cases horderKind

/-- A bound of one task for each of two teams leaves the third task over. -/
theorem respond_spreads_tasks_of_bound :
    let dispatcher : Dispatcher := ⟨.default, .any⟩
    let context := ((Context.new "acme/platform" 7).withTeams ["team-a", "team-b"]).withTasks
      ["T1", "T2", "T3"]
    ∃ outcome ∈ (dispatcher.respond context .epoch
        "balance load across teams a, b max 1 tasks per team").results,
      outcome.success = true ∧ outcome.command.kind = .loadBalance ∧
      outcome.actions.map (·.target) = ["round_robin", "team-a", "team-b"] ∧
      ∃ request shares left, outcome.command.payload = .single (.balanceLoad request) ∧
        Execution.Spreads request context.tasks.names shares left
          ⟨outcome.message, outcome.actions⟩ := by
  intro dispatcher context
  let response := dispatcher.respond context .epoch
    "balance load across teams a, b max 1 tasks per team"
  have hfacts : response.results.map (fun outcome =>
        (outcome.success, outcome.command.kind, outcome.actions.map (·.target)))
      = [(true, .loadBalance, ["round_robin", "team-a", "team-b"])] := by decide +kernel
  obtain ⟨outcome, houtcome, hfact⟩ := List.map_eq_singleton_iff.mp hfacts
  obtain ⟨hsuccess, hkind, htargets⟩ : outcome.success = true ∧ outcome.command.kind = .loadBalance ∧
      outcome.actions.map (·.target) = ["round_robin", "team-a", "team-b"] := by
    simpa only [Prod.mk.injEq] using hfact
  have hmem : outcome ∈ response.results := by simp [houtcome]
  exact ⟨outcome, hmem, hsuccess, hkind, htargets,
    respond_spreads_tasks dispatcher context .epoch _ outcome hmem hsuccess hkind⟩

end Dispatcher

end TeamOrders
