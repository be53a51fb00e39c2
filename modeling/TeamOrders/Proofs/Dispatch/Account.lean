import TeamOrders.Proofs.Dispatch.Response

/-!
# Every segment is accounted for

Going along the segments of a comment, each is either answered by the next result or reported by the
next error. A result is a success exactly if its command is valid, and then it is what carrying out
the command comes to: what has been read never makes carrying out fail, because it is a single order
under its own kind.
-/

namespace TeamOrders

/-- The results and errors that a list of segments leads to, one for each segment. -/
inductive Accounted (read : List Char → Except ReadingError (Command × List String)) :
    List (List Char) → List Outcome → List String → Prop
  | done : Accounted read [] [] []
  | answered {segment : List Char} {segments : List (List Char)} {notes : List String}
      {outcome : Outcome} {results : List Outcome} {errors : List String} :
      read segment = .ok (outcome.command, notes) → Accounted read segments results errors →
        Accounted read (segment :: segments) (outcome :: results) errors
  | reported {segment : List Char} {segments : List (List Char)} {hints : List String}
      {results : List Outcome} {errors : List String} :
      read segment = .error (.noMatch (String.ofList segment) hints) →
        Accounted read segments results errors →
        Accounted read (segment :: segments) results
          (("Could not understand command: \"" ++ String.ofList segment ++ "\"") :: errors)

theorem Accounted.length_add_length
    {read : List Char → Except ReadingError (Command × List String)} {segments : List (List Char)}
    {results : List Outcome} {errors : List String} (h : Accounted read segments results errors) :
    results.length + errors.length = segments.length := by
  induction h with
  | done => rfl
  | answered _ _ ih =>
    simp only [List.length_cons]
    omega
  | reported _ _ ih =>
    simp only [List.length_cons]
    omega

/-- A result is what its command deserves: carried out if valid, and else refused with the findings
of the check. -/
structure Settled (settings : Settings) (context : Context) (outcome : Outcome) : Prop where
  success_iff : outcome.success = true ↔
    (Validation.ofCommand settings context outcome.command).valid = true
  executes : ∃ carriedOut, Execution.ofCommand context outcome.command = .ok carriedOut
  of_success : outcome.success = true → Execution.ofCommand context outcome.command = .ok outcome ∧
    outcome.actions?.isSome = true ∧ outcome.error? = none
  of_failure : outcome.success = false → outcome.actions? = none ∧
    outcome.error? = some ("; ".intercalate
      ((Validation.ofCommand settings context outcome.command).errors
        ++ (Validation.ofCommand settings context outcome.command).suggestions))

namespace Dispatcher

variable {dispatcher : Dispatcher} {context : Context} {now : Timestamp} {command : Command}

theorem settled_outcomeOf {order : Order} (hpayload : command.payload = .single order)
    (hkind : command.kind = order.kind) :
    (dispatcher.outcomeOf context command).command = command ∧
      Settled dispatcher.settings context (dispatcher.outcomeOf context command) := by
  have hexecutes : Execution.ofCommand context command = .ok (.succeeded command
      (Execution.ofOrder context order).message (Execution.ofOrder context order).actions) :=
    Execution.ofCommand_of_single hpayload hkind
  cases hvalid : (Validation.ofCommand dispatcher.settings context command).valid with
  | true =>
    rw [outcomeOf_of_valid hvalid, Execution.outcome_of_ok hexecutes]
    refine ⟨rfl, ⟨?_, ⟨_, hexecutes⟩, fun _ => ⟨hexecutes, rfl, rfl⟩, fun hfailure => ?_⟩⟩
    · exact ⟨fun _ => hvalid, fun _ => rfl⟩
    · cases hfailure
  | false =>
    rw [outcomeOf_of_invalid hvalid]
    refine ⟨rfl, ⟨?_, ⟨_, hexecutes⟩, fun hsuccess => ?_, fun _ => ⟨rfl, rfl⟩⟩⟩
    · constructor
      · intro hsuccess
        cases hsuccess
      · intro h
        exact absurd (hvalid.symm.trans h) (by decide)
    · cases hsuccess

/-- Going along the segments, each is answered or reported. -/
theorem accounted_ofParts (dispatcher : Dispatcher) (context : Context) (actor : String)
    (now : Timestamp) (segments : List (List Char)) :
    Accounted (readSegment dispatcher.settings actor now) segments
      (dispatcher.ofParts context
        (segments.map (Reading.Part.ofSegment dispatcher.settings actor now))).results
      (dispatcher.ofParts context
        (segments.map (Reading.Part.ofSegment dispatcher.settings actor now))).errors := by
  induction segments with
  | nil => exact .done
  | cons segment rest ih =>
    cases hread : readSegment dispatcher.settings actor now segment with
    | ok read =>
      obtain ⟨command, notes⟩ := read
      obtain ⟨order, hpayload, hkind⟩ := readSegment_single hread
      have hcommand : (dispatcher.outcomeOf context command).command = command :=
        (settled_outcomeOf hpayload hkind).1
      have hstep : readSegment dispatcher.settings actor now segment
          = .ok ((dispatcher.outcomeOf context command).command, notes) := by
        rw [hcommand, hread]
      rw [List.map_cons, Reading.Part.ofSegment_ok hread]
      exact .answered hstep ih
    | error e =>
      obtain ⟨-, he⟩ := readSegment_eq_error_iff.mp hread
      rw [List.map_cons, Reading.Part.ofSegment_error hread]
      subst he
      exact .reported hread ih

theorem settled_of_mem_results {comment : String} {outcome : Outcome}
    (h : outcome ∈ (dispatcher.respond context now comment).results) :
    Settled dispatcher.settings context outcome := by
  obtain ⟨command, hcommand, rfl⟩ := exists_command_of_mem_results h
  obtain ⟨order, hpayload, hkind⟩ := Reading.single_of_mem_commandsOf hcommand
  exact (settled_outcomeOf hpayload hkind).2

/-- A comment that is not blank, in a usable context, is accounted for segment by segment, and its
valid commands are the ones that are carried out. -/
theorem respond_accounts_for_segments (dispatcher : Dispatcher) (context : Context)
    (now : Timestamp) (comment : String) (notBlank : Text.isBlankText comment = false)
    (usable : context.check = .ok ()) :
    let segments := Comment.segments
      (Comment.normalize dispatcher.settings.words comment.toList)
    let response := dispatcher.respond context now comment
    (segments = [] → response.results = [] ∧ response.success = false ∧
      response.errors = ["Empty command input"]) ∧
    (segments ≠ [] →
      Accounted (readSegment dispatcher.settings context.sender now) segments response.results
        response.errors ∧
      response.results.length + response.errors.length = segments.length) ∧
    (∀ outcome ∈ response.results, Settled dispatcher.settings context outcome) ∧
    response.total = response.results.length ∧
    response.successful = (response.results.filter (·.success)).length ∧
    response.success = dispatcher.policy.isMet response.successful response.total := by
  intro segments response
  have hsettled : ∀ outcome ∈ response.results, Settled dispatcher.settings context outcome :=
    fun outcome h => settled_of_mem_results h
  by_cases hsegments : Reading.segmentsOf dispatcher.settings comment = []
  · have hresponse : response = .failed [ReadingError.emptyInput.message] :=
      respond_of_no_segments notBlank usable hsegments
    have hpolicy : dispatcher.policy.isMet 0 0 = false := by
      cases dispatcher.policy <;> rfl
    refine ⟨fun _ => ?_, fun hne => absurd hsegments hne, hsettled, ?_⟩
    · rw [hresponse]
      exact ⟨rfl, rfl, rfl⟩
    · rw [hresponse]
      exact ⟨rfl, rfl, hpolicy.symm⟩
  · have hresponse : response = dispatcher.ofParts context
        (Reading.parts dispatcher.settings context now comment) :=
      respond_eq_ofParts notBlank usable hsegments
    have haccounted : Accounted (readSegment dispatcher.settings context.sender now) segments
        response.results response.errors := by
      rw [hresponse]
      exact accounted_ofParts dispatcher context context.sender now segments
    refine ⟨fun hnil => absurd hnil hsegments, fun _ => ⟨haccounted, haccounted.length_add_length⟩,
      hsettled, ?_⟩
    rw [hresponse]
    exact ⟨rfl, rfl, rfl⟩

/-- A valid command, one of an unknown team and one that cannot be read, in one comment. -/
theorem respond_accounts_for_mixed_comment :
    let dispatcher : Dispatcher := ⟨.default, .any⟩
    let context := (Context.new "acme/platform" 7).withTeams ["team-a"]
    let comment := "start wave 3 with team a; fly; sync teams a, b on deploy"
    let segments := Comment.segments
      (Comment.normalize dispatcher.settings.words comment.toList)
    let response := dispatcher.respond context .epoch comment
    Text.isBlankText comment = false ∧ context.check = .ok () ∧ segments.length = 3 ∧
      Accounted (readSegment dispatcher.settings context.sender .epoch) segments response.results
        response.errors ∧
      response.results.map (·.success) = [true, false] ∧ response.errors.length = 1 := by
  intro dispatcher context comment segments response
  have notBlank : Text.isBlankText comment = false := by decide +kernel
  have usable : context.check = .ok () :=
    Context.check_eq_ok_iff.mpr ⟨by decide +kernel, by decide +kernel⟩
  have hlength : segments.length = 3 := by decide +kernel
  have hne : segments ≠ [] := by
    intro hnil
    rw [hnil] at hlength
    cases hlength
  have haccounts := respond_accounts_for_segments dispatcher context .epoch comment notBlank usable
  exact ⟨notBlank, usable, hlength, (haccounts.2.1 hne).1, by decide +kernel, by decide +kernel⟩

end Dispatcher

end TeamOrders
