import TeamOrders.Dispatch
import TeamOrders.Proofs.Reading.Parts

/-!
# The response as a function of the parts

A response depends on a comment only through the parts that the comment is read as. Taking a batch
apart undoes the wrapping of the reader, because no part is a batch before it is wrapped; so the
answers are those to the commands of the parts, one by one and in their order. Every later statement
about responses starts from `respond_eq_ofParts`.
-/

namespace TeamOrders

variable {settings : Settings} {context : Context} {now : Timestamp} {comment : String}

theorem Context.check_eq_ok_iff : context.check = .ok () ↔
    Text.isBlankText context.repository = false ∧ context.issue ≠ 0 := by
  unfold Context.check
  cases Text.isBlankText context.repository with
  | true => simp
  | false =>
    by_cases hissue : context.issue = 0
    · simp [hissue]
    · simp [hissue]

theorem Command.members?_of_single {command : Command} {order : Order}
    (h : command.payload = .single order) : command.members? = none := by
  rw [Command.members?, h]

namespace Execution

/-- A single order under its own kind is always carried out. -/
theorem ofCommand_of_single {command : Command} {order : Order}
    (hpayload : command.payload = .single order) (hkind : command.kind = order.kind) :
    ofCommand context command = .ok (.succeeded command (ofOrder context order).message
      (ofOrder context order).actions) := by
  have hagree : command.kind = command.payload.kind := by
    rw [hpayload, hkind]
    rfl
  unfold ofCommand
  rw [if_neg (not_not_intro hagree), hpayload]

theorem outcome_of_ok {command : Command} {carriedOut : Outcome}
    (h : ofCommand context command = .ok carriedOut) : outcome context command = carriedOut := by
  rw [outcome, h]

end Execution

namespace Dispatcher

theorem unwrapped_of_members?_none {commands : List Command}
    (h : ∀ command ∈ commands, command.members? = none) : unwrapped commands = commands := by
  induction commands with
  | nil => rfl
  | cons command rest ih =>
    have hhead : command.members? = none := h command (by simp)
    have htail := ih fun c hc => h c (List.mem_cons_of_mem _ hc)
    rw [unwrapped] at htail
    simp [unwrapped, hhead, htail]

/-- Taking apart undoes wrapping, as long as no command was a batch before. -/
theorem unwrapped_wrap {actor : String} {commands : List Command}
    (h : ∀ command ∈ commands, command.members? = none) :
    unwrapped (Reading.wrap actor now commands) = commands := by
  unfold Reading.wrap
  split
  · simp [unwrapped, Command.ofMembers, Command.new, Command.members?]
  · exact unwrapped_of_members?_none h

/-- What a dispatcher sees of a comment with segments is the list of its commands. -/
theorem unwrapped_ofComment (h : Reading.segmentsOf settings comment ≠ []) :
    unwrapped (Reading.ofComment settings context now comment).commands
      = Reading.commandsOf settings context now comment := by
  rw [Reading.ofComment_of_segments h]
  apply unwrapped_wrap
  intro command hcommand
  obtain ⟨order, hpayload, -⟩ := Reading.single_of_mem_commandsOf hcommand
  exact Command.members?_of_single hpayload

variable {dispatcher : Dispatcher}

def outcomeOf (dispatcher : Dispatcher) (context : Context) (command : Command) : Outcome :=
  (dispatcher.answer context command).1

def warningsOf (dispatcher : Dispatcher) (context : Context) (command : Command) : List String :=
  (dispatcher.answer context command).2

theorem outcomeOf_of_valid {command : Command}
    (h : (Validation.ofCommand dispatcher.settings context command).valid = true) :
    dispatcher.outcomeOf context command = Execution.outcome context command := by
  simp only [outcomeOf, answer, h, if_true]

theorem outcomeOf_of_invalid {command : Command}
    (h : (Validation.ofCommand dispatcher.settings context command).valid = false) :
    dispatcher.outcomeOf context command =
      .failed command ("Validation failed for " ++ command.summary)
        ("; ".intercalate ((Validation.ofCommand dispatcher.settings context command).errors
          ++ (Validation.ofCommand dispatcher.settings context command).suggestions)) := by
  simp only [outcomeOf, answer, h, Bool.false_eq_true, if_false]

theorem warningsOf_of_valid {command : Command}
    (h : (Validation.ofCommand dispatcher.settings context command).valid = true) :
    dispatcher.warningsOf context command
      = (Validation.ofCommand dispatcher.settings context command).warnings
        ++ (Validation.ofCommand dispatcher.settings context command).suggestions := by
  simp only [warningsOf, answer, h, if_true]

theorem warningsOf_of_invalid {command : Command}
    (h : (Validation.ofCommand dispatcher.settings context command).valid = false) :
    dispatcher.warningsOf context command = [] := by
  simp only [warningsOf, answer, h, Bool.false_eq_true, if_false]

/-- The response that the parts of a comment make up. -/
def ofParts (dispatcher : Dispatcher) (context : Context) (parts : List Reading.Part) : Response :=
  let commands := parts.filterMap (·.command?)
  let results := commands.map (dispatcher.outcomeOf context)
  let successful := (results.filter (·.success)).length
  { success := dispatcher.policy.isMet successful results.length
    results
    errors := parts.filterMap (·.error?)
    warnings := parts.flatMap (·.warnings) ++ commands.flatMap (dispatcher.warningsOf context)
    total := results.length
    successful
    milliseconds := .zero }

theorem respond_total (dispatcher : Dispatcher) (context : Context) (now : Timestamp)
    (comment : String) : (dispatcher.respond context now comment).total
      = (dispatcher.respond context now comment).results.length := by
  unfold respond
  split
  · rfl
  · split <;> rfl

/-- The policy decides on every response, also on those to comments that were not read at all. -/
theorem respond_success (dispatcher : Dispatcher) (context : Context) (now : Timestamp)
    (comment : String) :
    let response := dispatcher.respond context now comment
    response.success = dispatcher.policy.isMet (response.results.filter (·.success)).length
      response.results.length := by
  have hnone : dispatcher.policy.isMet 0 0 = false := by
    cases dispatcher.policy <;> rfl
  unfold respond
  split
  · exact hnone.symm
  · split
    · exact hnone.symm
    · rfl

theorem respond_of_blank (h : Text.isBlankText comment = true) :
    dispatcher.respond context now comment = .failed [ReadingError.emptyInput.message] := by
  simp only [respond, h, if_true]

theorem respond_of_unusable {e : ContextError} (notBlank : Text.isBlankText comment = false)
    (h : context.check = .error e) :
    dispatcher.respond context now comment
      = .failed ["invalid command context: " ++ e.message] := by
  simp only [respond, notBlank, Bool.false_eq_true, if_false, h]

theorem respond_of_no_segments (notBlank : Text.isBlankText comment = false)
    (usable : context.check = .ok ())
    (h : Reading.segmentsOf dispatcher.settings comment = []) :
    dispatcher.respond context now comment = .failed [ReadingError.emptyInput.message] := by
  have hpolicy : dispatcher.policy.isMet 0 0 = false := by
    cases dispatcher.policy <;> rfl
  simp only [respond, notBlank, Bool.false_eq_true, if_false, usable,
    Reading.ofComment_of_no_segments h, Reading.failed, unwrapped, List.flatMap_nil, List.map_nil,
    List.filter_nil, List.length_nil, hpolicy, List.append_nil, Response.failed]

theorem respond_eq_ofParts (notBlank : Text.isBlankText comment = false)
    (usable : context.check = .ok ())
    (h : Reading.segmentsOf dispatcher.settings comment ≠ []) :
    dispatcher.respond context now comment
      = dispatcher.ofParts context (Reading.parts dispatcher.settings context now comment) := by
  have hcommands : unwrapped (Reading.ofComment dispatcher.settings context now comment).commands
      = Reading.commandsOf dispatcher.settings context now comment := unwrapped_ofComment h
  rw [Reading.ofComment_of_segments h] at hcommands
  simp only [respond, notBlank, Bool.false_eq_true, if_false, usable,
    Reading.ofComment_of_segments h, hcommands, ofParts, Reading.commandsOf]
  simp only [List.map_map, List.flatMap_map]
  rfl

theorem results_of_usable (notBlank : Text.isBlankText comment = false)
    (usable : context.check = .ok ()) :
    (dispatcher.respond context now comment).results
      = (Reading.commandsOf dispatcher.settings context now comment).map
          (dispatcher.outcomeOf context) := by
  by_cases hsegments : Reading.segmentsOf dispatcher.settings comment = []
  · rw [respond_of_no_segments notBlank usable hsegments, Reading.commandsOf, Reading.parts,
      hsegments]
    rfl
  · rw [respond_eq_ofParts notBlank usable hsegments]
    rfl

theorem exists_command_of_mem_results {outcome : Outcome}
    (h : outcome ∈ (dispatcher.respond context now comment).results) :
    ∃ command ∈ Reading.commandsOf dispatcher.settings context now comment,
      outcome = dispatcher.outcomeOf context command := by
  cases hblank : Text.isBlankText comment with
  | true =>
    rw [respond_of_blank hblank] at h
    cases h
  | false =>
    cases husable : context.check with
    | error e =>
      rw [respond_of_unusable hblank husable] at h
      cases h
    | ok _ =>
      rw [results_of_usable hblank husable] at h
      obtain ⟨command, hcommand, rfl⟩ := List.mem_map.mp h
      exact ⟨command, hcommand, rfl⟩

end Dispatcher

end TeamOrders
