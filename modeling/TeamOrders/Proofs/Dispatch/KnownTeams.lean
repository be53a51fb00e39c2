import TeamOrders.Proofs.Dispatch.Response
import TeamOrders.Proofs.Distribution.Rows
import TeamOrders.Proofs.Table
import TeamOrders.Proofs.Validation.Valid

/-!
# Actions name known teams only

There are seven types of action, and each has its own places where a team is named: the target, a
detail, a list in a detail, or the members of the distribution. `Action.Sound` goes through them. Sound
orders have sound actions, valid commands carry sound orders, and only valid commands are carried
out, so every action of a response is sound.
-/

namespace TeamOrders

/-- The action is of one of the seven types, and every team that it names is known. A team is not
blocked by itself, and a synchronisation point has a condition. -/
inductive Action.Sound (context : Context) : Action → Prop
  | notifyTeam {team : String} {details : Table Json} :
      context.hasTeam team = true →
      (∀ said ∈ details.find? "blocked_team",
        ∃ blocked, said = .string blocked ∧ context.hasTeam blocked = true) →
      Sound context ⟨"notify_team", team, details⟩
  | assignTasks {team : String} {details : Table Json} :
      context.hasTeam team = true → Sound context ⟨"assign_tasks", team, details⟩
  | startWave {wave : String} {details : Table Json} {teams : List String} :
      details.find? "teams" = some (Json.strings teams) →
      (∀ team ∈ teams, context.hasTeam team = true) → Sound context ⟨"start_wave", wave, details⟩
  | reassignTask {task team : String} {details : Table Json} :
      details.find? "team" = some (.string team) → context.hasTeam team = true →
      Sound context ⟨"reassign_task", task, details⟩
  | blockTeam {blocked blocking : String} {details : Table Json} :
      details.find? "blocked_by" = some (.string blocking) → context.hasTeam blocked = true →
      context.hasTeam blocking = true → Text.sameIgnoringCase blocked blocking = false →
      Sound context ⟨"block_team", blocked, details⟩
  | syncPoint {name condition : String} {details : Table Json} {teams : List String} :
      details.find? "teams" = some (Json.strings teams) →
      (∀ team ∈ teams, context.hasTeam team = true) →
      details.find? "condition" = some (.string condition) →
      Text.isBlankText condition = false → Sound context ⟨"create_sync_point", name, details⟩
  | balanceLoad {strategy : String} {details : Table Json} {teams : List String}
      {distribution : List (String × Json)} :
      details.find? "teams" = some (Json.strings teams) →
      (∀ team ∈ teams, context.hasTeam team = true) →
      details.find? "distribution" = some (.object distribution) →
      (∀ share ∈ distribution, context.hasTeam share.1 = true) →
      Sound context ⟨"balance_load", strategy, details⟩

namespace Execution

variable {context : Context}

/-- A notice is about one thing, which names a team only where it tells who is blocked. -/
theorem sound_notify {team : String} (h : context.hasTeam team = true) (reason : String)
    {key : String} {value : Json} (hblocked : key = "blocked_team" →
      ∃ blocked, value = .string blocked ∧ context.hasTeam blocked = true) :
    (notify team reason [(key, value)]).Sound context := by
  have hsaid : (Table.ofList [("reason", Json.string reason), (key, value)]).find? "blocked_team"
      = if key = "blocked_team" then some value else none := by
    have hempty : (Table.empty : Table Json).find? "blocked_team" = none := rfl
    simp [Table.ofList, Table.find?_insert, hempty, eq_comm]
  refine .notifyTeam h fun said hmem => ?_
  rw [Option.mem_def, hsaid] at hmem
  obtain ⟨hkey, rfl⟩ : key = "blocked_team" ∧ value = said := by simpa using hmem
  exact hblocked hkey

theorem sound_startWave {p : WaveStart} (h : ∀ team ∈ p.teams, context.hasTeam team = true) :
    ∀ action ∈ (startWave p context).actions, action.Sound context := by
  intro action haction
  rcases List.mem_cons.mp haction with rfl | hnotice
  · have hteams : (Table.ofList [("wave", Json.string p.wave), ("teams", Json.strings p.teams),
        ("issue", Json.nat context.issue), ("repository", .string context.repository)]).find?
          "teams" = some (Json.strings p.teams) := by
      simp [Table.ofList, Table.find?_insert]
    exact .startWave hteams h
  · obtain ⟨team, hteam, rfl⟩ := List.mem_map.mp hnotice
    exact sound_notify (h team hteam) _ (by simp)

theorem sound_assignTeams {p : TeamAssignment}
    (h : ∀ team ∈ p.teams, context.hasTeam team = true) :
    ∀ action ∈ (assignTeams p).actions, action.Sound context := by
  intro action haction
  obtain ⟨team, hteam, rfl⟩ := List.mem_map.mp haction
  exact .assignTasks (h team hteam)

theorem sound_assignTask {p : TaskAssignment} (h : context.hasTeam p.team = true) :
    ∀ action ∈ (assignTask p).actions, action.Sound context := by
  intro action haction
  simp only [assignTask, List.mem_cons, List.not_mem_nil, or_false] at haction
  rcases haction with rfl | rfl
  · have hteam : (Table.ofList [("team", Json.string p.team),
        ("priority", .string p.priority.name)]).find? "team" = some (.string p.team) := by
      simp [Table.ofList, Table.find?_insert]
    exact .reassignTask hteam h
  · exact sound_notify h _ (by simp)

theorem sound_blockTeam {p : BlockingRelation}
    (hother : Text.sameIgnoringCase p.blocked p.blocking = false)
    (hblocked : context.hasTeam p.blocked = true) (hblocking : context.hasTeam p.blocking = true) :
    ∀ action ∈ (blockTeam p).actions, action.Sound context := by
  intro action haction
  simp only [blockTeam, List.mem_cons, List.not_mem_nil, or_false] at haction
  rcases haction with rfl | rfl
  · have hblockedBy : (Table.ofList ([("blocked_by", Json.string p.blocking),
        ("condition", .string p.condition)]
          ++ (p.until?.map fun u => ("until", Json.string u)).toList)).find? "blocked_by"
        = some (.string p.blocking) := by
      cases p.until? <;> simp [Table.ofList, Table.find?_insert]
    exact .blockTeam hblockedBy hblocked hblocking hother
  · exact sound_notify hblocking _ fun _ => ⟨p.blocked, rfl, hblocked⟩

theorem sound_syncTeams {p : SyncPoint} (hsaid : Text.isBlankText p.condition = false)
    (h : ∀ team ∈ p.teams, context.hasTeam team = true) :
    ∀ action ∈ (syncTeams p).actions, action.Sound context := by
  intro action haction
  rcases List.mem_cons.mp haction with rfl | hnotice
  · let details := Table.ofList [("teams", Json.strings p.teams),
      ("condition", .string p.condition), ("trigger", .string p.trigger.name)]
    have hteams : details.find? "teams" = some (Json.strings p.teams) := by
      simp [details, Table.ofList, Table.find?_insert]
    have hcondition : details.find? "condition" = some (.string p.condition) := by
      simp [details, Table.ofList, Table.find?_insert]
    exact .syncPoint hteams h hcondition hsaid
  · obtain ⟨team, hteam, rfl⟩ := List.mem_map.mp hnotice
    exact sound_notify (h team hteam) _ (by simp)

theorem team_mem_of_mem_rows {p : BalanceRequest} {row : Distribution.Row}
    (h : row ∈ (Distribution.plan p context).rows) : row.team ∈ p.teams := by
  rw [← Distribution.map_team_plan p context]
  exact List.mem_map_of_mem h

theorem name_mem_of_mem_distribution {p : BalanceRequest} {share : String × Json}
    (h : share ∈ (Table.ofList ((Distribution.plan p context).rows.map fun row =>
      (row.team, Json.strings row.tasks))).entries) : share.1 ∈ p.teams := by
  have hkey : share.1 ∈ (Table.ofList ((Distribution.plan p context).rows.map fun row =>
      (row.team, Json.strings row.tasks))).keys := List.mem_map_of_mem h
  rw [Table.mem_keys_ofList, List.map_map] at hkey
  obtain ⟨row, hrow, hname⟩ := List.mem_map.mp hkey
  rw [← hname]
  exact team_mem_of_mem_rows hrow

theorem sound_balanceLoad {p : BalanceRequest}
    (h : ∀ team ∈ p.teams, context.hasTeam team = true) :
    ∀ action ∈ (balanceLoad p context).actions, action.Sound context := by
  intro action haction
  rcases List.mem_cons.mp haction with rfl | hshare
  · let plan := Distribution.plan p context
    let distribution := Table.ofList (plan.rows.map fun row => (row.team, Json.strings row.tasks))
    let details := Table.ofList [("teams", Json.strings p.teams),
      ("constraints", Json.ofTable id p.constraints), ("distribution", .ofTable id distribution),
      ("unassigned", Json.strings plan.unassigned)]
    have hteams : details.find? "teams" = some (Json.strings p.teams) := by
      simp [details, Table.ofList, Table.find?_insert]
    have hdistribution : details.find? "distribution"
        = some (.object (distribution.entries.map fun entry => (entry.1, id entry.2))) := by
      simp [details, Table.ofList, Table.find?_insert, Json.ofTable]
    refine .balanceLoad hteams h hdistribution fun share hshare => ?_
    obtain ⟨entry, hentry, rfl⟩ := List.mem_map.mp hshare
    exact h _ (name_mem_of_mem_distribution hentry)
  · obtain ⟨row, hrow, rfl⟩ := List.mem_map.mp hshare
    exact .assignTasks (h _ (team_mem_of_mem_rows (List.mem_filter.mp hrow).1))

theorem sound_ofOrder {order : Order} (h : order.Sound context) :
    ∀ action ∈ (ofOrder context order).actions, action.Sound context := by
  cases order with
  | startWave p => exact sound_startWave h
  | assignTeams p => exact sound_assignTeams h
  | assignTask p => exact sound_assignTask h
  | blockTeam p =>
    obtain ⟨hother, hblocked, hblocking⟩ := h
    exact sound_blockTeam hother hblocked hblocking
  | syncTeams p =>
    obtain ⟨hsaid, hteams⟩ := h
    exact sound_syncTeams hsaid hteams
  | balanceLoad p => exact sound_balanceLoad h

end Execution

namespace Dispatcher

variable {dispatcher : Dispatcher} {context : Context}

theorem sound_outcomeOf {command : Command} {order : Order}
    (hpayload : command.payload = .single order) (hkind : command.kind = order.kind) :
    ∀ action ∈ (dispatcher.outcomeOf context command).actions, action.Sound context := by
  cases hvalid : (Validation.ofCommand dispatcher.settings context command).valid with
  | true =>
    have hsound : order.Sound context :=
      (Validation.ofCommand_valid_iff_of_single hpayload).mp hvalid
    rw [outcomeOf_of_valid hvalid,
      Execution.outcome_of_ok (Execution.ofCommand_of_single hpayload hkind)]
    exact Execution.sound_ofOrder hsound
  | false =>
    rw [outcomeOf_of_invalid hvalid]
    intro action haction
    cases haction

/-- No action of a response refers to an unknown team. -/
theorem respond_actions_sound (dispatcher : Dispatcher) (context : Context) (now : Timestamp)
    (comment : String) :
    ∀ outcome ∈ (dispatcher.respond context now comment).results,
      ∀ action ∈ outcome.actions, action.Sound context := by
  intro outcome houtcome
  obtain ⟨command, hcommand, rfl⟩ := exists_command_of_mem_results houtcome
  obtain ⟨order, hpayload, hkind⟩ := Reading.single_of_mem_commandsOf hcommand
  exact sound_outcomeOf hpayload hkind

/-- A block of one known team on another, written in capitals in the context. -/
theorem respond_actions_sound_for_block :
    let dispatcher : Dispatcher := ⟨.default, .any⟩
    let context := (Context.new "acme/platform" 7).withTeams ["Team-A", "team-b"]
    ∃ outcome ∈ (dispatcher.respond context .epoch "block team a on team b until done").results,
      ∃ action ∈ outcome.actions, action.type = "block_team" ∧ action.Sound context := by
  intro dispatcher context
  let response := dispatcher.respond context .epoch "block team a on team b until done"
  have hresults : response.results.length = 1 := by decide +kernel
  obtain ⟨outcome, houtcome⟩ := List.length_eq_one_iff.mp hresults
  have hmem : outcome ∈ response.results := by simp [houtcome]
  have htypes : response.results.map (fun outcome => outcome.actions.map (·.type))
      = [["block_team", "notify_team"]] := by decide +kernel
  rw [houtcome, List.map_singleton, List.cons.injEq] at htypes
  have htype : "block_team" ∈ outcome.actions.map (·.type) := by simp [htypes.1]
  obtain ⟨action, haction, hblock⟩ := List.mem_map.mp htype
  exact ⟨outcome, hmem, action, haction, hblock,
    respond_actions_sound dispatcher context .epoch _ outcome hmem action haction⟩

end Dispatcher

end TeamOrders
