import TeamOrders.Proofs.Dispatch.Account

/-!
# What the strict policy asks for

The strict policy sees two counters, and both of them count commands: those that were read, and those
of them that were carried out. So it is met exactly if there was a command and none failed. A segment
that could not be read is not a command. It is named among the errors, in its place, and takes no part
in the decision.
-/

namespace TeamOrders

theorem Policy.isMet_all_iff {successful total : Nat} :
    Policy.all.isMet successful total = true ↔ 0 < total ∧ successful = total := by
  simp [isMet]

namespace Dispatcher

variable {dispatcher : Dispatcher} {context : Context} {now : Timestamp} {comment : String}

/-- Under the strict policy a response is a success if it has results and all of them are. -/
theorem respond_success_iff_of_strict (context : Context) (now : Timestamp) (comment : String)
    (strict : dispatcher.policy = .all) :
    (dispatcher.respond context now comment).success = true ↔
      (dispatcher.respond context now comment).results ≠ [] ∧
      ∀ outcome ∈ (dispatcher.respond context now comment).results, outcome.success = true := by
  rw [respond_success, strict, Policy.isMet_all_iff, List.length_pos_iff,
    List.length_filter_eq_length_iff]

theorem respond_eq_ofParts_of_results
    (h : (dispatcher.respond context now comment).results ≠ []) :
    dispatcher.respond context now comment
      = dispatcher.ofParts context (Reading.parts dispatcher.settings context now comment) := by
  cases hblank : Text.isBlankText comment with
  | true =>
    rw [respond_of_blank hblank] at h
    exact absurd rfl h
  | false =>
    cases husable : context.check with
    | error e =>
      rw [respond_of_unusable hblank husable] at h
      exact absurd rfl h
    | ok _ =>
      by_cases hsegments : Reading.segmentsOf dispatcher.settings comment = []
      · rw [respond_of_no_segments hblank husable hsegments] at h
        exact absurd rfl h
      · exact respond_eq_ofParts hblank husable hsegments

/-- Under the strict policy a response is a success exactly if some command was read and every command
that was read was carried out; and then each segment of the comment is either one that was carried
out, or is reported as not understood. -/
theorem respond_strict (dispatcher : Dispatcher) (context : Context) (now : Timestamp)
    (comment : String) (strict : dispatcher.policy = .all) :
    let response := dispatcher.respond context now comment
    (response.success = true ↔
      response.results ≠ [] ∧ ∀ outcome ∈ response.results, outcome.success = true) ∧
    (response.success = true →
      Accounted (readSegment dispatcher.settings context.sender now)
        (Reading.segmentsOf dispatcher.settings comment) response.results response.errors) := by
  intro response
  have hsuccess := respond_success_iff_of_strict context now comment strict
  refine ⟨hsuccess, fun h => ?_⟩
  have hresponse : response = dispatcher.ofParts context
      (Reading.parts dispatcher.settings context now comment) :=
    respond_eq_ofParts_of_results (hsuccess.mp h).1
  rw [hresponse]
  exact accounted_ofParts dispatcher context context.sender now _

/-- Two commands that are carried out, and between them a remark that cannot be read. -/
theorem respond_strict_beside_remark :
    let dispatcher : Dispatcher := ⟨.default, .all⟩
    let context := (Context.new "acme/platform" 7).withTeams ["team-a"]
    let response := dispatcher.respond context .epoch
      "start wave 4; looks good to me; assign team a to task 1"
    response.results.length = 2 ∧ response.errors.length = 1 ∧ dispatcher.policy = .all ∧
      response.success = true ∧ ∀ outcome ∈ response.results, outcome.success = true := by
  intro dispatcher context response
  have hstrict := respond_strict dispatcher context .epoch
    "start wave 4; looks good to me; assign team a to task 1" rfl
  have hsuccess : response.success = true := by decide +kernel
  exact ⟨by decide +kernel, by decide +kernel, rfl, hsuccess, (hstrict.1.mp hsuccess).2⟩

/-- Success under the strict policy does not mean that everything was understood. -/
theorem strict_success_with_errors :
    let dispatcher : Dispatcher := ⟨.default, .all⟩
    let context := Context.new "acme/platform" 1
    let response := dispatcher.respond context .epoch "start wave 4; do a barrel roll"
    Settings.default.check = .ok () ∧ dispatcher.policy = .all ∧
      ¬ (response.success = true →
        response.errors = [] ∧ ∀ outcome ∈ response.results, outcome.success = true) := by
  intro dispatcher context response
  have hsuccess : response.success = true := by decide +kernel
  have herrors : response.errors
      = ["Could not understand command: \"do a barrel roll\""] := by decide +kernel
  refine ⟨Settings.check_default, rfl, fun hclaim => ?_⟩
  have hnone : response.errors = [] := (hclaim hsuccess).1
  rw [herrors] at hnone
  cases hnone

end Dispatcher

end TeamOrders
