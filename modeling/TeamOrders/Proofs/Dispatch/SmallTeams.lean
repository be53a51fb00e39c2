import TeamOrders.Proofs.Context.SmallTeams
import TeamOrders.Proofs.Dispatch.Response
import TeamOrders.Proofs.Distribution.Counts
import TeamOrders.Proofs.Reading.Tidy
import TeamOrders.Proofs.Validation.Valid

/-!
# What the spelling of teams in the context decides

Two contexts that spell their teams differently take the same commands for valid and answer them with
the same messages. The actions are the same too, except where work is spread by weight over a team that
the table of weights has under another spelling: such a weight is passed over, although the team is
known.
-/

namespace TeamOrders

variable {context : Context} {now : Timestamp} {comment : String}

theorem Order.sound_smallTeams_iff {order : Order} :
    order.Sound context.smallTeams ↔ order.Sound context := by
  cases order <;> simp only [Sound, Context.hasTeam_smallTeams]

/-- The tables of weights have the teams of a command under no spelling but their own. -/
def Command.WeighsAsSpelt (context : Context) (command : Command) : Prop :=
  ∀ request key, command.payload = .single (.balanceLoad request) →
    Distribution.weightTable? request.strategy = some key →
      ∀ team ∈ request.teams, context.SpellsOnly key team

namespace Execution

/-- Messages tell how many tasks were given out, and weights have no say in that. -/
theorem message_smallTeams (context : Context) (order : Order) :
    (ofOrder context.smallTeams order).message = (ofOrder context order).message := by
  cases order with
  | balanceLoad request =>
    have hcounts : (Distribution.plan request context.smallTeams).assignedCount
        = (Distribution.plan request context).assignedCount ∧
      (Distribution.plan request context.smallTeams).unassigned.length
        = (Distribution.plan request context).unassigned.length :=
      Distribution.counts_plan_congr request rfl
    have hempty : (Distribution.plan request context.smallTeams).unassigned.isEmpty
        = (Distribution.plan request context).unassigned.isEmpty := by
      rw [Bool.eq_iff_iff, List.isEmpty_iff_length_eq_zero, List.isEmpty_iff_length_eq_zero,
        hcounts.2]
    simp only [ofOrder, balanceLoad, hcounts.1, hcounts.2, hempty]
  | _ => rfl

theorem actions_smallTeams {command : Command} {order : Order} (tidy : order.Tidy)
    (hpayload : command.payload = .single order) (h : command.WeighsAsSpelt context) :
    (ofOrder context.smallTeams order).actions = (ofOrder context order).actions := by
  cases order with
  | balanceLoad request =>
    have hplan : Distribution.plan request context.smallTeams = Distribution.plan request context :=
      Distribution.plan_smallTeams (fun team hteam => (tidy.1.named team hteam).small)
        (fun key hkey => h request key hpayload hkey)
    simp only [ofOrder, balanceLoad, hplan]
  | _ => rfl

end Execution

namespace Dispatcher

/-- One outcome tells the same as another, and asks for the same changes if weights are spelt as
teams are. -/
structure AgreesUpToWeights (context : Context) (outcome other : Outcome) : Prop where
  command : other.command = outcome.command
  success : other.success = outcome.success
  message : other.message = outcome.message
  actions : outcome.command.WeighsAsSpelt context → other.actions? = outcome.actions?

theorem agrees_failed (command : Command) (message error error' : String) :
    AgreesUpToWeights context (.failed command message error) (.failed command message error') :=
  ⟨rfl, rfl, rfl, fun _ => rfl⟩

theorem agrees_succeeded {command : Command} {message message' : String}
    {actions actions' : List Action} (hmessage : message' = message)
    (hactions : command.WeighsAsSpelt context → actions' = actions) :
    AgreesUpToWeights context (.succeeded command message actions)
      (.succeeded command message' actions') :=
  ⟨rfl, rfl, hmessage, fun h => congrArg some (hactions h)⟩

theorem outcomeOf_smallTeams (dispatcher : Dispatcher) {command : Command} {actor : String}
    {segments : List (List Char)} (tidy : command.TidyRead actor segments) :
    AgreesUpToWeights context (dispatcher.outcomeOf context command)
      (dispatcher.outcomeOf context.smallTeams command) := by
  obtain ⟨order, hpayload, horder⟩ := tidy.order
  have hkind : command.kind = order.kind := by
    rw [tidy.kind, hpayload]
    rfl
  have hvalid : (Validation.ofCommand dispatcher.settings context.smallTeams command).valid
      = (Validation.ofCommand dispatcher.settings context command).valid := by
    rw [Bool.eq_iff_iff, Validation.ofCommand_valid_iff_of_single hpayload,
      Validation.ofCommand_valid_iff_of_single hpayload, Order.sound_smallTeams_iff]
  cases hverdict : (Validation.ofCommand dispatcher.settings context command).valid with
  | false =>
    rw [outcomeOf_of_invalid hverdict, outcomeOf_of_invalid (hvalid.trans hverdict)]
    exact agrees_failed command _ _ _
  | true =>
    rw [outcomeOf_of_valid hverdict, outcomeOf_of_valid (hvalid.trans hverdict),
      Execution.outcome_of_ok (Execution.ofCommand_of_single hpayload hkind),
      Execution.outcome_of_ok (Execution.ofCommand_of_single hpayload hkind)]
    exact agrees_succeeded (Execution.message_smallTeams context order)
      (Execution.actions_smallTeams horder hpayload)

/-- Answers under a context and under the same one with its teams in small letters agree entry by entry,
but for the actions of spreading work by weights that stand under another spelling. -/
theorem respond_small_teams (dispatcher : Dispatcher) (context : Context) (now : Timestamp)
    (comment : String) :
    List.Forall₂ (AgreesUpToWeights context) (dispatcher.respond context now comment).results
      (dispatcher.respond context.smallTeams now comment).results := by
  cases hblank : Text.isBlankText comment with
  | true =>
    rw [respond_of_blank hblank, respond_of_blank hblank]
    exact .nil
  | false =>
    have hcheck : context.smallTeams.check = context.check := rfl
    cases husable : context.check with
    | error e =>
      rw [respond_of_unusable hblank husable, respond_of_unusable hblank (hcheck.trans husable)]
      exact .nil
    | ok _ =>
      have hsame : Reading.commandsOf dispatcher.settings context.smallTeams now comment
          = Reading.commandsOf dispatcher.settings context now comment := rfl
      rw [results_of_usable hblank husable, results_of_usable hblank (hcheck.trans husable), hsame,
        List.forall₂_map_left_iff, List.forall₂_map_right_iff, List.forall₂_same]
      exact fun command hcommand =>
        outcomeOf_smallTeams dispatcher (Reading.tidyRead_of_mem_commandsOf hcommand)

/-- A weight that is recorded for `Team-B` does not count for `team-b`, although that team is known, so
the last task goes to the other team. -/
theorem weight_passed_over_in_capitals :
    let dispatcher : Dispatcher := ⟨.default, .any⟩
    let context := (((Context.new "acme/platform" 1).withTeams ["Team-A", "Team-B"]).withTasks
      ["t1", "t2", "t3"]).withState "team_capacity" (.object [("Team-B", .int 3)])
    let shares := fun context : Context =>
      (dispatcher.respond context .epoch "balance a, b by capacity").results.flatMap fun outcome =>
        outcome.actions.map (·.details.find? "tasks")
    Settings.default.check = .ok () ∧
      (context.teams.names.map Text.asciiLowered).Nodup ∧
      context.hasTeam "team-b" = true ∧
      Distribution.weight context "team_capacity" "team-b" = .one ∧
      Distribution.weight context.smallTeams "team_capacity" "team-b" = .ofInt 3 ∧
      shares context
        = [none, some (Json.strings ["t1", "t3"]), some (Json.strings ["t2"])] ∧
      shares context.smallTeams
        = [none, some (Json.strings ["t1"]), some (Json.strings ["t2", "t3"])] := by
  intro dispatcher context shares
  refine ⟨Settings.check_default, ?_, ?_, ?_, ?_, ?_, ?_⟩
  · decide +kernel
  · decide +kernel
  · decide +kernel
  · decide +kernel
  · decide +kernel
  · decide +kernel

end Dispatcher

end TeamOrders
