import TeamOrders.Proofs.Dispatch.Response
import TeamOrders.Proofs.Report.Markdown
import TeamOrders.Proofs.Validation.OneLine

/-!
# No comment forges a line of its response

Whatever a comment holds, what is printed of it has come through the normal form, and the normal form is
on one line. So every outcome, error and warning has one line in the response, and the response has no
line but these and its own.
-/

namespace TeamOrders

/-! ### Orders in words -/

theorem Priority.oneLine_name (priority : Priority) : OneLine priority.name := by
  cases priority <;> decide

theorem Trigger.oneLine_name (trigger : Trigger) : OneLine trigger.name := by
  cases trigger <;> decide

theorem Strategy.oneLine_name (strategy : Strategy) : OneLine strategy.name := by
  cases strategy <;> decide

theorem Order.oneLine_summary {order : Order} (h : ∀ text ∈ order.texts, OneLine text) :
    OneLine order.summary := by
  unfold summary
  cases order with
  | startWave p =>
    obtain ⟨hwave, hteams⟩ := List.forall_mem_cons.mp h
    have hlisted := oneLine_listed hteams
    dsimp only
    split <;> simp +decide only [oneLine_append, hwave, hlisted, and_self]
  | assignTeams p =>
    obtain ⟨hteams, htasks⟩ := List.forall_mem_append.mp h
    have hlisted := oneLine_listed hteams
    have htasksListed := oneLine_listed htasks
    dsimp only
    simp +decide only [oneLine_append, hlisted, htasksListed, p.priority.oneLine_name, and_self]
  | assignTask p =>
    simp only [texts, List.forall_mem_cons] at h
    dsimp only
    simp +decide only [oneLine_append, h.1, h.2.1, p.priority.oneLine_name, and_self]
  | blockTeam p =>
    simp only [texts, List.forall_mem_cons] at h
    dsimp only
    simp +decide only [oneLine_append, h.1, h.2.1, h.2.2.1, and_self]
  | syncTeams p =>
    obtain ⟨hcondition, hteams⟩ := List.forall_mem_cons.mp h
    have hlisted := oneLine_listed hteams
    dsimp only
    simp +decide only [oneLine_append, hlisted, hcondition, and_self]
  | balanceLoad p =>
    have hlisted : OneLine (listed p.teams) := oneLine_listed h
    dsimp only
    simp +decide only [oneLine_append, hlisted, p.strategy.oneLine_name, and_self]

theorem Execution.oneLine_message (context : Context) {order : Order}
    (h : ∀ text ∈ order.texts, OneLine text) : OneLine (ofOrder context order).message := by
  cases order with
  | startWave p =>
    obtain ⟨hwave, hteams⟩ := List.forall_mem_cons.mp h
    have hlisted := oneLine_listed hteams
    unfold ofOrder startWave
    dsimp only
    split <;> simp +decide only [oneLine_append, hwave, hlisted, and_self]
  | assignTeams p =>
    obtain ⟨hteams, -⟩ := List.forall_mem_append.mp h
    have hlisted := oneLine_listed hteams
    unfold ofOrder assignTeams
    dsimp only
    simp +decide only [oneLine_append, oneLine_nat, hlisted, p.priority.oneLine_name, and_self]
  | assignTask p =>
    simp only [Order.texts, List.forall_mem_cons] at h
    unfold ofOrder assignTask
    dsimp only
    simp +decide only [oneLine_append, h.1, h.2.1, and_self]
  | blockTeam p =>
    simp only [Order.texts, List.forall_mem_cons] at h
    unfold ofOrder blockTeam
    dsimp only
    simp +decide only [oneLine_append, h.1, h.2.1, h.2.2.1, and_self]
  | syncTeams p =>
    obtain ⟨hcondition, hteams⟩ := List.forall_mem_cons.mp h
    have hlisted := oneLine_listed hteams
    unfold ofOrder syncTeams
    dsimp only
    simp +decide only [oneLine_append, hlisted, hcondition, p.trigger.oneLine_name, and_self]
  | balanceLoad p =>
    unfold ofOrder balanceLoad
    dsimp only
    split <;>
      simp +decide only [oneLine_append, oneLine_nat, p.strategy.oneLine_name, and_self]

/-! ### Answers -/

namespace Dispatcher

variable {dispatcher : Dispatcher} {context : Context} {now : Timestamp} {comment : String}

theorem onOneLine_outcomeOf (dispatcher : Dispatcher)
    (known : ∀ name ∈ context.teams.names, OneLine name) {command : Command}
    (h : command.OnOneLine) : (dispatcher.outcomeOf context command).OnOneLine := by
  obtain ⟨order, hpayload, hkind, htexts⟩ := h.order
  have hverdict := Validation.onOneLine_ofCommand dispatcher.settings known h
  cases hvalid : (Validation.ofCommand dispatcher.settings context command).valid with
  | true =>
    rw [outcomeOf_of_valid hvalid,
      Execution.outcome_of_ok (Execution.ofCommand_of_single hpayload hkind)]
    exact ⟨Execution.oneLine_message context htexts, nofun⟩
  | false =>
    rw [outcomeOf_of_invalid hvalid]
    have hsummary : OneLine command.summary := by
      rw [Command.summary, hpayload]
      exact Order.oneLine_summary htexts
    refine ⟨oneLine_append.mpr ⟨oneLine_ofList.mpr (by decide), hsummary⟩, ?_⟩
    rintro _ ⟨⟩
    exact oneLine_intercalate (by decide)
      (List.forall_mem_append.mpr ⟨hverdict.errors, hverdict.suggestions⟩)

theorem oneLine_of_mem_warningsOf (dispatcher : Dispatcher)
    (known : ∀ name ∈ context.teams.names, OneLine name) {command : Command}
    (h : command.OnOneLine) : ∀ warning ∈ dispatcher.warningsOf context command, OneLine warning := by
  have hverdict := Validation.onOneLine_ofCommand dispatcher.settings known h
  cases hvalid : (Validation.ofCommand dispatcher.settings context command).valid with
  | true =>
    rw [warningsOf_of_valid hvalid]
    exact List.forall_mem_append.mpr ⟨hverdict.warnings, hverdict.suggestions⟩
  | false =>
    rw [warningsOf_of_invalid hvalid]
    exact nofun

theorem onOneLine_ofParts (words : ∀ entry ∈ dispatcher.settings.vocabulary.entries, OneLine entry.2)
    (known : ∀ name ∈ context.teams.names, OneLine name) (now : Timestamp) (comment : String) :
    (dispatcher.ofParts context
      (Reading.parts dispatcher.settings context now comment)).OnOneLine := by
  have hparts : ∀ part ∈ Reading.parts dispatcher.settings context now comment, part.OnOneLine :=
    fun _ => Reading.onOneLine_of_mem_parts words
  have hcommands : ∀ command ∈ Reading.commandsOf dispatcher.settings context now comment,
      command.OnOneLine := by
    intro command hcommand
    obtain ⟨part, hpart, hcommand⟩ := List.mem_filterMap.mp hcommand
    exact (hparts part hpart).command command hcommand
  refine ⟨?_, ?_, List.forall_mem_append.mpr ⟨?_, ?_⟩⟩
  · exact List.forall_mem_map.mpr fun command hcommand =>
      onOneLine_outcomeOf dispatcher known (hcommands command hcommand)
  · intro error herror
    obtain ⟨part, hpart, herror⟩ := List.mem_filterMap.mp herror
    exact (hparts part hpart).error error herror
  · intro warning hwarning
    obtain ⟨part, hpart, hwarning⟩ := List.mem_flatMap.mp hwarning
    exact (hparts part hpart).warnings warning hwarning
  · intro warning hwarning
    obtain ⟨command, hcommand, hwarning⟩ := List.mem_flatMap.mp hwarning
    exact oneLine_of_mem_warningsOf dispatcher known (hcommands command hcommand) warning hwarning

theorem onOneLine_respond (words : ∀ entry ∈ dispatcher.settings.vocabulary.entries, OneLine entry.2)
    (known : ∀ name ∈ context.teams.names, OneLine name) (now : Timestamp) (comment : String) :
    (dispatcher.respond context now comment).OnOneLine := by
  have hfailed : ∀ error, OneLine error → (Response.failed [error]).OnOneLine :=
    fun error herror => ⟨nofun, List.forall_mem_singleton.mpr herror, nofun⟩
  have hempty : OneLine ReadingError.emptyInput.message := by decide
  cases hblank : Text.isBlankText comment with
  | true =>
    rw [respond_of_blank hblank]
    exact hfailed _ hempty
  | false =>
    cases husable : context.check with
    | error e =>
      rw [respond_of_unusable hblank husable]
      have hmessage : OneLine e.message := by cases e <;> decide
      exact hfailed _ (oneLine_append.mpr ⟨oneLine_ofList.mpr (by decide), hmessage⟩)
    | ok _ =>
      by_cases hsegments : Reading.segmentsOf dispatcher.settings comment = []
      · rw [respond_of_no_segments hblank husable hsegments]
        exact hfailed _ hempty
      · rw [respond_eq_ofParts hblank husable hsegments]
        exact onOneLine_ofParts words known now comment

/-- However a comment is written, and however long its answer took: cut at its line breaks, the response
is laid out as its results, errors and warnings demand, with one line for each. -/
theorem respond_laidOut (dispatcher : Dispatcher) (context : Context) (now : Timestamp)
    (comment : String) (milliseconds : Double)
    (words : ∀ entry ∈ dispatcher.settings.vocabulary.entries, OneLine entry.2)
    (known : ∀ name ∈ context.teams.names, OneLine name) :
    let response := { dispatcher.respond context now comment with milliseconds }
    response.LaidOut (cutLines response.markdown) := by
  obtain ⟨hresults, herrors, hwarnings⟩ := onOneLine_respond words known now comment
  exact Response.laidOut_markdown ⟨hresults, herrors, hwarnings⟩

/-- A comment that imitates the second line of a list of results: it is quoted inside the first. -/
theorem respond_laidOut_of_imitation :
    let dispatcher : Dispatcher :=
      ⟨{ Settings.default with vocabulary := Table.empty.insert "align" "sync" }, .any⟩
    let context := (Context.new "acme/platform" 7).withTeams ["team-a"]
    let response := { dispatcher.respond context .epoch "align a on x\n2. ✅ y" with
      milliseconds := .one }
    ((∀ entry ∈ dispatcher.settings.vocabulary.entries, OneLine entry.2) ∧
      ∀ name ∈ context.teams.names, OneLine name) ∧
    response.results.map (·.message) = ["Created custom sync point for team-a on x 2. ✅ y"] ∧
    response.LaidOut (cutLines response.markdown) := by
  intro dispatcher context response
  have hwords : ∀ entry ∈ dispatcher.settings.vocabulary.entries, OneLine entry.2 := by decide +kernel
  have hknown : ∀ name ∈ context.teams.names, OneLine name := by decide +kernel
  exact ⟨⟨hwords, hknown⟩, by decide +kernel,
    respond_laidOut dispatcher context .epoch _ .one hwords hknown⟩

end Dispatcher

end TeamOrders
