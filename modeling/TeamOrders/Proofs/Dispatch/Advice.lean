import Mathlib.Data.List.Forall2
import TeamOrders.Proofs.Dispatch.Account
import TeamOrders.Proofs.Dispatch.Stamps
import TeamOrders.Proofs.Reading.Choices
import TeamOrders.Proofs.Validation.Valid

/-!
# What is only advice

The threshold, the number of alternatives and the hints at near misses give advice to the sender and
nothing else. Two dispatchers that differ in them only make the same choices, find the same commands
valid, and carry out the same actions. If they differ in the threshold only, the one with the higher
threshold drops alternatives at the end of each list, and adds warnings of low confidence.
-/

namespace TeamOrders

/-! ### Lists with something put in -/

/-- The second list is the first one with further elements put in, all of one sort. -/
inductive Enlarged {α : Type} (extra : α → Prop) : List α → List α → Prop
  | nil : Enlarged extra [] []
  | keep {a : α} {l m : List α} : Enlarged extra l m → Enlarged extra (a :: l) (a :: m)
  | add {a : α} {l m : List α} : extra a → Enlarged extra l m → Enlarged extra l (a :: m)

namespace Enlarged

variable {α β : Type} {extra : α → Prop} {l m l' m' : List α}

theorem sublist (h : Enlarged extra l m) : l.Sublist m := by
  induction h with
  | nil => exact List.Sublist.slnil
  | keep _ ih => exact ih.cons_cons _
  | add _ _ ih => exact ih.cons _

theorem refl (l : List α) : Enlarged extra l l := by
  induction l with
  | nil => exact .nil
  | cons a rest ih => exact .keep ih

theorem append (h : Enlarged extra l m) (h' : Enlarged extra l' m') :
    Enlarged extra (l ++ l') (m ++ m') := by
  induction h with
  | nil => exact h'
  | keep _ ih => exact .keep ih
  | add hextra _ ih => exact .add hextra ih

theorem flatMap {f g : β → List α} {elements : List β}
    (h : ∀ b ∈ elements, Enlarged extra (f b) (g b)) :
    Enlarged extra (elements.flatMap f) (elements.flatMap g) := by
  induction elements with
  | nil => exact .nil
  | cons b rest ih =>
    rw [List.flatMap_cons, List.flatMap_cons]
    exact (h b List.mem_cons_self).append (ih fun c hc => h c (List.mem_cons_of_mem b hc))

end Enlarged

/-! ### The warning of low confidence -/

namespace Validation

variable {settings first second : Settings} {context : Context} {command : Command} {order : Order}

def lowConfidence (command : Command) : String :=
  "Low confidence (" ++ command.confidence.fixed 2 ++ ") for \"" ++ command.rawText
    ++ "\"; consider rephrasing the command"

theorem ofCommand_warnings (h : command.payload = .single order) :
    (ofCommand settings context command).warnings = (ofOrder settings context order).warnings
      ++ if command.confidence.below settings.threshold then [lowConfidence command] else [] := by
  rw [ofCommand_of_single h, checkConfidence]
  split
  · rfl
  · rw [List.append_nil]

theorem ofCommand_suggestions (h : command.payload = .single order) :
    (ofCommand settings context command).suggestions
      = (ofOrder settings context order).suggestions := by
  rw [ofCommand_of_single h, checkConfidence]
  split <;> rfl

theorem ofOrder_congr (sameHints : first.nearMisses = second.nearMisses) :
    ofOrder first context order = ofOrder second context order := by
  have hteam : checkTeam first context = checkTeam second context := by
    funext verdict team
    rw [checkTeam, checkTeam, sameHints]
  have hteams : checkTeams first context = checkTeams second context := by
    funext verdict teams
    rw [checkTeams, checkTeams, hteam]
  cases order <;> simp only [ofOrder, hteam, hteams]

end Validation

/-- What a result says about the carrying out of its command. -/
def Outcome.bare (outcome : Outcome) : Outcome :=
  { outcome with command := outcome.command.alone, error? := none }

namespace Dispatcher

variable {first second : Dispatcher} {context : Context} {now : Timestamp} {actor comment : String}

/-! ### One choice -/

theorem valid_command_iff (settings : Settings) (context : Context) (actor : String)
    (now : Timestamp) (choice : Choice) :
    (Validation.ofCommand settings context (choice.command settings actor now)).valid = true
      ↔ choice.chosen.order.Sound context :=
  Validation.ofCommand_valid_iff_of_single Choice.payload_command

theorem outcome_command (settings : Settings) (context : Context) (actor : String)
    (now : Timestamp) (choice : Choice) :
    Execution.outcome context (choice.command settings actor now)
      = .succeeded (choice.command settings actor now)
          (Execution.ofOrder context choice.chosen.order).message
          (Execution.ofOrder context choice.chosen.order).actions :=
  Execution.outcome_of_ok
    (Execution.ofCommand_of_single Choice.payload_command Choice.kind_command)

theorem command_outcomeOf_command (dispatcher : Dispatcher) (context : Context)
    (actor : String) (now : Timestamp) (choice : Choice) :
    (dispatcher.outcomeOf context (choice.command dispatcher.settings actor now)).command
      = choice.command dispatcher.settings actor now :=
  (settled_outcomeOf Choice.payload_command Choice.kind_command).1

theorem bare_outcomeOf_command (first second : Dispatcher) (context : Context) (actor : String)
    (now : Timestamp) (choice : Choice) :
    (first.outcomeOf context (choice.command first.settings actor now)).bare
      = (second.outcomeOf context (choice.command second.settings actor now)).bare := by
  have hvalid := fun settings => valid_command_iff settings context actor now choice
  by_cases hsound : choice.chosen.order.Sound context
  · rw [outcomeOf_of_valid ((hvalid _).mpr hsound), outcomeOf_of_valid ((hvalid _).mpr hsound),
      outcome_command, outcome_command]
    rfl
  · have hinvalid := fun settings => Bool.eq_false_iff.mpr (mt (hvalid settings).mp hsound)
    rw [outcomeOf_of_invalid (hinvalid _), outcomeOf_of_invalid (hinvalid _)]
    rfl

/-- The warning says that a command was read with low confidence, which was carried out all the
same. -/
def DoubtsOneOf (settings : Settings) (results : List Outcome) (warning : String) : Prop :=
  ∃ outcome ∈ results, outcome.success = true ∧
    outcome.command.confidence.below settings.threshold = true ∧
    warning = Validation.lowConfidence outcome.command

theorem enlarged_warningsOf_command
    (sameHints : first.settings.nearMisses = second.settings.nearMisses)
    (raised : first.settings.threshold.atMost second.settings.threshold = true)
    {choice : Choice} {results : List Outcome}
    (hresult : second.outcomeOf context (choice.command second.settings actor now) ∈ results) :
    Enlarged (DoubtsOneOf second.settings results)
      (first.warningsOf context (choice.command first.settings actor now))
      (second.warningsOf context (choice.command second.settings actor now)) := by
  have hvalid := fun settings => valid_command_iff settings context actor now choice
  by_cases hsound : choice.chosen.order.Sound context
  · have hdoubts : (second.outcomeOf context
        (choice.command second.settings actor now)).success = true := by
      rw [outcomeOf_of_valid ((hvalid _).mpr hsound), outcome_command]
      rfl
    rw [warningsOf_of_valid ((hvalid _).mpr hsound), warningsOf_of_valid ((hvalid _).mpr hsound),
      Validation.ofCommand_warnings Choice.payload_command,
      Validation.ofCommand_warnings Choice.payload_command,
      Validation.ofCommand_suggestions Choice.payload_command,
      Validation.ofCommand_suggestions Choice.payload_command, Validation.ofOrder_congr sameHints]
    refine ((Enlarged.refl _).append ?_).append (Enlarged.refl _)
    by_cases hlower : (choice.command first.settings actor now).confidence.below
        first.settings.threshold = true
    · have hhigher : (choice.command second.settings actor now).confidence.below
          second.settings.threshold = true := Double.below_of_below_of_atMost hlower raised
      rw [if_pos hlower, if_pos hhigher]
      exact Enlarged.refl [_]
    · rw [if_neg hlower]
      split
      · rename_i hhigher
        refine .add ⟨_, hresult, hdoubts, ?_, ?_⟩ .nil
        · rw [command_outcomeOf_command]
          exact hhigher
        · rw [command_outcomeOf_command]
      · exact .nil
  · have hinvalid := fun settings => Bool.eq_false_iff.mpr (mt (hvalid settings).mp hsound)
    rw [warningsOf_of_invalid (hinvalid _), warningsOf_of_invalid (hinvalid _)]
    exact .nil

/-! ### All choices of a comment -/

theorem results_ofParts (dispatcher : Dispatcher) (context : Context) (now : Timestamp)
    (comment : String) :
    (dispatcher.ofParts context (Reading.parts dispatcher.settings context now comment)).results
      = (Reading.choicesOf dispatcher.settings comment).map fun choice =>
          dispatcher.outcomeOf context
            (choice.command dispatcher.settings context.sender now) := by
  change (Reading.commandsOf dispatcher.settings context now comment).map _ = _
  rw [Reading.commandsOf_eq, List.map_map]
  rfl

theorem warnings_ofParts (dispatcher : Dispatcher) (context : Context) (now : Timestamp)
    (comment : String) :
    (dispatcher.ofParts context (Reading.parts dispatcher.settings context now comment)).warnings
      = (Reading.parts dispatcher.settings context now comment).flatMap (·.warnings)
        ++ (Reading.choicesOf dispatcher.settings comment).flatMap fun choice =>
          dispatcher.warningsOf context
            (choice.command dispatcher.settings context.sender now) := by
  change _ ++ (Reading.commandsOf dispatcher.settings context now comment).flatMap _ = _
  rw [Reading.commandsOf_eq, List.flatMap_map]

theorem choicesOf_congr (sameWords : first.settings.vocabulary = second.settings.vocabulary)
    (comment : String) : Reading.choicesOf first.settings comment
      = Reading.choicesOf second.settings comment := by
  rw [Reading.choicesOf, Reading.choicesOf, Reading.segmentsOf_congr sameWords]

theorem map_bare_ofParts (sameWords : first.settings.vocabulary = second.settings.vocabulary)
    (context : Context) (now : Timestamp) (comment : String) :
    (first.ofParts context
        (Reading.parts first.settings context now comment)).results.map (·.bare)
      = (second.ofParts context
        (Reading.parts second.settings context now comment)).results.map (·.bare) := by
  rw [results_ofParts, results_ofParts, List.map_map, List.map_map, choicesOf_congr sameWords]
  apply List.map_congr_left
  intro choice _
  exact bare_outcomeOf_command first second context context.sender now choice

theorem length_filter_success_of_map_bare {results others : List Outcome}
    (h : results.map (·.bare) = others.map (·.bare)) :
    (results.filter (·.success)).length = (others.filter (·.success)).length := by
  have hbare : ∀ l : List Outcome, ((l.map (·.bare)).filter (·.success)).length
      = (l.filter (·.success)).length := by
    intro l
    rw [List.filter_map, List.length_map]
    rfl
  rw [← hbare, h, hbare]

theorem forall₂_alternatives_ofParts
    (sameWords : first.settings.vocabulary = second.settings.vocabulary)
    (sameNumber : first.settings.maxAlternatives = second.settings.maxAlternatives)
    (raised : first.settings.threshold.atMost second.settings.threshold = true)
    (context : Context) (now : Timestamp) (comment : String) :
    List.Forall₂ (fun one other => other.command.alternatives <+: one.command.alternatives)
      (first.ofParts context (Reading.parts first.settings context now comment)).results
      (second.ofParts context (Reading.parts second.settings context now comment)).results := by
  rw [results_ofParts, results_ofParts, choicesOf_congr sameWords, List.forall₂_map_left_iff,
    List.forall₂_map_right_iff, List.forall₂_same]
  intro choice hchoice
  rw [command_outcomeOf_command, command_outcomeOf_command]
  exact Choice.alternatives_command_prefix (Reading.regular_of_mem_choicesOf hchoice) raised
    sameNumber

theorem enlarged_warnings_ofParts
    (sameWords : first.settings.vocabulary = second.settings.vocabulary)
    (sameHints : first.settings.nearMisses = second.settings.nearMisses)
    (raised : first.settings.threshold.atMost second.settings.threshold = true)
    (context : Context) (now : Timestamp) (comment : String) :
    Enlarged
      (DoubtsOneOf second.settings (second.ofParts context
        (Reading.parts second.settings context now comment)).results)
      (first.ofParts context (Reading.parts first.settings context now comment)).warnings
      (second.ofParts context (Reading.parts second.settings context now comment)).warnings := by
  rw [warnings_ofParts, warnings_ofParts, choicesOf_congr sameWords,
    Reading.warnings_parts_congr sameWords sameHints]
  refine (Enlarged.refl _).append (Enlarged.flatMap fun choice hchoice => ?_)
  apply enlarged_warningsOf_command sameHints raised
  rw [results_ofParts]
  exact List.mem_map_of_mem hchoice

/-- Dispatchers with the same words turn away the same comments, with the same complaint. -/
theorem respond_both (sameWords : first.settings.vocabulary = second.settings.vocabulary)
    (context : Context) (now : Timestamp) (comment : String) :
    (∃ errors, first.respond context now comment = .failed errors ∧
      second.respond context now comment = .failed errors) ∨
    first.respond context now comment
        = first.ofParts context (Reading.parts first.settings context now comment) ∧
      second.respond context now comment
        = second.ofParts context (Reading.parts second.settings context now comment) := by
  cases hblank : Text.isBlankText comment with
  | true => exact .inl ⟨_, respond_of_blank hblank, respond_of_blank hblank⟩
  | false =>
    cases husable : context.check with
    | error e =>
      exact .inl ⟨_, respond_of_unusable hblank husable, respond_of_unusable hblank husable⟩
    | ok _ =>
      have hsame := Reading.segmentsOf_congr sameWords comment
      by_cases hsegments : Reading.segmentsOf first.settings comment = []
      · exact .inl ⟨_, respond_of_no_segments hblank husable hsegments,
          respond_of_no_segments hblank husable (hsame ▸ hsegments)⟩
      · exact .inr ⟨respond_eq_ofParts hblank husable hsegments,
          respond_eq_ofParts hblank husable (hsame ▸ hsegments)⟩

/-- Dispatchers with the same words and the same policy carry out the same, at whatever times they
answer. If only their thresholds differ, the higher one shortens the lists of alternatives at their
ends, and adds warnings of low confidence. -/
theorem respond_same_but_advice (first second : Dispatcher)
    (sameWords : first.settings.vocabulary = second.settings.vocabulary)
    (samePolicy : first.policy = second.policy) (context : Context)
    (nowFirst nowSecond stamp : Timestamp) (comment : String) :
    let one := (first.respond context nowFirst comment).stamped stamp
    let other := (second.respond context nowSecond comment).stamped stamp
    (one.success = other.success ∧ one.total = other.total ∧ one.successful = other.successful ∧
      one.errors = other.errors ∧ one.results.map (·.bare) = other.results.map (·.bare)) ∧
    (first.settings.maxAlternatives = second.settings.maxAlternatives →
      first.settings.nearMisses = second.settings.nearMisses →
      first.settings.threshold.atMost second.settings.threshold = true →
      List.Forall₂ (fun a b => b.command.alternatives <+: a.command.alternatives)
        one.results other.results ∧
      Enlarged (DoubtsOneOf second.settings other.results) one.warnings other.warnings) := by
  intro one other
  have hone : one = first.respond context stamp comment := respond_stamped ..
  have hother : other = second.respond context stamp comment := respond_stamped ..
  rw [hone, hother]
  rcases respond_both sameWords context stamp comment with ⟨errors, hfirst, hsecond⟩ |
    ⟨hfirst, hsecond⟩
  · rw [hfirst, hsecond]
    exact ⟨⟨rfl, rfl, rfl, rfl, rfl⟩, fun _ _ _ => ⟨.nil, .nil⟩⟩
  · rw [hfirst, hsecond]
    have hresults := map_bare_ofParts sameWords context stamp comment
    have htotal := congrArg List.length hresults
    rw [List.length_map, List.length_map] at htotal
    have hsuccessful := length_filter_success_of_map_bare hresults
    refine ⟨⟨?_, htotal, hsuccessful, Reading.errors_parts_congr sameWords, hresults⟩, ?_⟩
    · change first.policy.isMet _ _ = second.policy.isMet _ _
      rw [samePolicy]
      exact congrArg₂ second.policy.isMet hsuccessful htotal
    · intro sameNumber sameHints raised
      exact ⟨forall₂_alternatives_ofParts sameWords sameNumber raised context stamp comment,
        enlarged_warnings_ofParts sameWords sameHints raised context stamp comment⟩

/-- A comment that can be read in two ways, both of which fall below the higher threshold. -/
theorem respond_same_but_advice_of_ambiguous :
    let first : Dispatcher := ⟨.default, .any⟩
    let second : Dispatcher := ⟨{ Settings.default with threshold := .ofDecimal false 9 (-1) }, .any⟩
    let context := (Context.new "acme/platform" 1).withTeams ["team-alpha"]
    let one := (first.respond context .epoch "assign alpha to 1").stamped .epoch
    let other := (second.respond context .epoch "assign alpha to 1").stamped .epoch
    first.settings.vocabulary = second.settings.vocabulary ∧ first.policy = second.policy ∧
      first.settings.maxAlternatives = second.settings.maxAlternatives ∧
      first.settings.nearMisses = second.settings.nearMisses ∧
      first.settings.threshold.atMost second.settings.threshold = true ∧
      one.results.map (·.command.alternatives.length) = [1] ∧
      other.results.map (·.command.alternatives.length) = [0] ∧
      one.results.map (·.bare) = other.results.map (·.bare) ∧
      one.warnings.length = 1 ∧ other.warnings.length = 2 ∧
      one.warnings.Sublist other.warnings := by
  intro first second context one other
  have raised : first.settings.threshold.atMost second.settings.threshold = true := by
    decide +kernel
  have hadvice := respond_same_but_advice first second rfl rfl context .epoch .epoch .epoch
    "assign alpha to 1"
  have hwarnings := (hadvice.2 rfl rfl raised).2
  exact ⟨rfl, rfl, rfl, rfl, raised, by decide +kernel, by decide +kernel, hadvice.1.2.2.2.2,
    by decide +kernel, by decide +kernel, hwarnings.sublist⟩

end Dispatcher

end TeamOrders
