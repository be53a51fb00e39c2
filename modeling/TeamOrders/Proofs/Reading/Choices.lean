import TeamOrders.Proofs.Reading.Alternatives
import TeamOrders.Proofs.Reading.Parts

/-!
# What settings have no say in

Which candidate is chosen for a segment is settled by the segment. The settings come in before, where
the words of the vocabulary are replaced, and after, where alternatives are kept or dropped and hints
are given. So the commands of a comment are a list of choices, each of which is made into a command
under the settings.
-/

namespace TeamOrders

def Command.alone (command : Command) : Command := { command with alternatives := [] }

/-- A segment, the candidate that is chosen for it, and the candidates that are not. -/
structure Choice where
  segment : List Char
  chosen : Candidate
  others : List Candidate

namespace Choice

variable {settings first second : Settings} {actor : String} {now : Timestamp} {choice : Choice}

def ofSegment? (segment : List Char) : Option Choice :=
  (Candidate.choose (Candidate.ofSegment segment)).map fun (chosen, others) =>
    ⟨segment, chosen, others⟩

def command (settings : Settings) (actor : String) (now : Timestamp) (choice : Choice) : Command :=
  { choice.chosen.toCommand (String.ofList choice.segment) actor now with
    alternatives := (Candidate.alternatives settings choice.chosen choice.others).map
      (Candidate.toCommand (String.ofList choice.segment) actor now) }

theorem payload_command :
    (choice.command settings actor now).payload = .single choice.chosen.order := rfl

theorem kind_command : (choice.command settings actor now).kind = choice.chosen.order.kind := rfl

theorem regular_of_ofSegment? {segment : List Char} (h : ofSegment? segment = some choice) :
    ∀ candidate ∈ choice.others, candidate.Regular := by
  obtain ⟨⟨chosen, others⟩, hchoose, rfl⟩ := Option.map_eq_some_iff.mp h
  exact Candidate.regular_of_choose hchoose

theorem alternatives_command_prefix (regular : ∀ candidate ∈ choice.others, candidate.Regular)
    (raised : first.threshold.atMost second.threshold = true)
    (sameNumber : first.maxAlternatives = second.maxAlternatives) :
    (choice.command second actor now).alternatives
      <+: (choice.command first actor now).alternatives :=
  (Candidate.alternatives_prefix regular raised sameNumber).map _

end Choice

namespace Reading

variable {settings first second : Settings} {context : Context} {now : Timestamp}
  {actor comment : String}

theorem segmentsOf_congr (sameWords : first.vocabulary = second.vocabulary) (comment : String) :
    segmentsOf first comment = segmentsOf second comment := by
  rw [segmentsOf, segmentsOf, Settings.words, Settings.words, sameWords]

def choicesOf (settings : Settings) (comment : String) : List Choice :=
  (segmentsOf settings comment).filterMap Choice.ofSegment?

theorem regular_of_mem_choicesOf {choice : Choice} (h : choice ∈ choicesOf settings comment) :
    ∀ candidate ∈ choice.others, candidate.Regular := by
  obtain ⟨segment, -, hchoice⟩ := List.mem_filterMap.mp h
  exact Choice.regular_of_ofSegment? hchoice

namespace Part

theorem command?_ofSegment (settings : Settings) (actor : String) (now : Timestamp)
    (segment : List Char) : (ofSegment settings actor now segment).command?
      = (Choice.ofSegment? segment).map (·.command settings actor now) := by
  unfold ofSegment readSegment Choice.ofSegment?
  cases Candidate.choose (Candidate.ofSegment segment) <;> rfl

theorem error?_ofSegment_congr (first second : Settings) (actor : String) (now : Timestamp)
    (segment : List Char) :
    (ofSegment first actor now segment).error? = (ofSegment second actor now segment).error? := by
  unfold ofSegment readSegment
  cases Candidate.choose (Candidate.ofSegment segment) <;> rfl

theorem warnings_ofSegment_congr (sameHints : first.nearMisses = second.nearMisses)
    (actor : String) (now : Timestamp) (segment : List Char) :
    (ofSegment first actor now segment).warnings
      = (ofSegment second actor now segment).warnings := by
  unfold ofSegment readSegment
  rw [sameHints]
  cases Candidate.choose (Candidate.ofSegment segment) <;> rfl

end Part

theorem commandsOf_eq (settings : Settings) (context : Context) (now : Timestamp)
    (comment : String) : commandsOf settings context now comment
      = (choicesOf settings comment).map (·.command settings context.sender now) := by
  rw [commandsOf, parts, choicesOf, List.filterMap_map, List.map_filterMap]
  congr 1
  funext segment
  exact Part.command?_ofSegment settings context.sender now segment

theorem errors_parts_congr (sameWords : first.vocabulary = second.vocabulary) :
    (parts first context now comment).filterMap (·.error?)
      = (parts second context now comment).filterMap (·.error?) := by
  rw [parts, parts, segmentsOf_congr sameWords, List.filterMap_map, List.filterMap_map]
  congr 1
  funext segment
  exact Part.error?_ofSegment_congr first second context.sender now segment

theorem warnings_parts_congr (sameWords : first.vocabulary = second.vocabulary)
    (sameHints : first.nearMisses = second.nearMisses) :
    (parts first context now comment).flatMap (·.warnings)
      = (parts second context now comment).flatMap (·.warnings) := by
  rw [parts, parts, segmentsOf_congr sameWords, List.flatMap_map, List.flatMap_map]
  congr 1
  funext segment
  exact Part.warnings_ofSegment_congr sameHints context.sender now segment

end Reading

end TeamOrders
