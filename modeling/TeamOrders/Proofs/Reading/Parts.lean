import TeamOrders.Proofs.Reading.Segment
import TeamOrders.Reading.Comment

/-!
# A comment is read part by part

Each segment of a comment contributes one part, which holds either a command or an error and never
both. The reading of the comment is these parts put together: errors and warnings in the order of the
segments, and the commands, wrapped into a batch if there are several. No part is itself a batch.
-/

namespace TeamOrders

variable {settings : Settings} {context : Context} {now : Timestamp}

theorem Comment.normalize_of_no_words (h : settings.vocabulary = .empty) (s : List Char) :
    normalize settings.words s = fold s := by
  have hwords : settings.words = ⟨[]⟩ := by
    rw [Settings.words, h]
    simp [Vocabulary.ofTable, Table.ofList, Table.empty]
  rw [hwords]
  rfl

namespace Reading

/-- The segments of a comment, as the reader sees them. -/
def segmentsOf (settings : Settings) (comment : String) : List (List Char) :=
  Comment.segments (Comment.normalize settings.words comment.toList)

def parts (settings : Settings) (context : Context) (now : Timestamp) (comment : String) :
    List Part :=
  (segmentsOf settings comment).map (Part.ofSegment settings context.sender now)

/-- The commands of a comment, one by one. -/
def commandsOf (settings : Settings) (context : Context) (now : Timestamp) (comment : String) :
    List Command :=
  (parts settings context now comment).filterMap (·.command?)

namespace Part

theorem ofSegment_ok {actor : String} {segment : List Char} {command : Command}
    {notes : List String} (h : readSegment settings actor now segment = .ok (command, notes)) :
    ofSegment settings actor now segment = ⟨some command, none, notes⟩ := by
  rw [ofSegment, h]

theorem ofSegment_error {actor : String} {segment : List Char} {e : ReadingError}
    (h : readSegment settings actor now segment = .error e) :
    ofSegment settings actor now segment = ⟨none, some e.message, [e.hint]⟩ := by
  rw [ofSegment, h]

theorem single_of_ofSegment {actor : String} {segment : List Char} {command : Command}
    (h : (ofSegment settings actor now segment).command? = some command) :
    ∃ order, command.payload = .single order ∧ command.kind = order.kind := by
  cases hread : readSegment settings actor now segment with
  | error e =>
    rw [ofSegment_error hread] at h
    cases h
  | ok read =>
    obtain ⟨found, notes⟩ := read
    rw [ofSegment_ok hread] at h
    obtain rfl : found = command := Option.some.inj h
    exact readSegment_single hread

end Part

theorem segmentsOf_eq (comment : String) : segmentsOf settings comment =
    Comment.segments (Comment.normalize settings.words comment.toList) := rfl

theorem single_of_mem_commandsOf {comment : String} {command : Command}
    (h : command ∈ commandsOf settings context now comment) :
    ∃ order, command.payload = .single order ∧ command.kind = order.kind := by
  obtain ⟨part, hpart, hcommand⟩ := List.mem_filterMap.mp h
  obtain ⟨segment, -, rfl⟩ := List.mem_map.mp hpart
  exact Part.single_of_ofSegment hcommand

theorem ofComment_of_no_segments {comment : String} (h : segmentsOf settings comment = []) :
    ofComment settings context now comment = failed [ReadingError.emptyInput.message] := by
  rw [segmentsOf_eq] at h
  simp only [ofComment, h, List.isEmpty_nil, if_true]

theorem ofComment_of_segments {comment : String} (h : segmentsOf settings comment ≠ []) :
    ofComment settings context now comment
      = ofParts context.sender now (parts settings context now comment) := by
  have hne : (segmentsOf settings comment).isEmpty = false := by simpa using h
  rw [segmentsOf_eq] at hne
  simp only [ofComment, hne, Bool.false_eq_true, if_false]
  rfl

end Reading

end TeamOrders
