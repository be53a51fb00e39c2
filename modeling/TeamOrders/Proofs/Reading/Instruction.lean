import TeamOrders.Proofs.Comment.Edges
import TeamOrders.Proofs.Comment.OneLine
import TeamOrders.Proofs.Comment.Segments
import TeamOrders.Proofs.Dispatch.Stamps

/-!
# One instruction, read as a comment and by itself

A comment is cut into segments, which are trimmed; a text that holds one instruction is read as its
normal form stands. Where no separator cuts the normal form, the two ways differ by the trimming alone,
so they come to the same exactly if the normal form is trimmed. It is, unless the text ends in a dash or
the vocabulary puts white space at an edge.
-/

namespace TeamOrders

open Text

namespace Reading

variable {settings : Settings} {context : Context} {now : Timestamp} {comment : String}
  {segment : List Char}

theorem ofComment_of_read {command : Command} {notes : List String}
    (one : segmentsOf settings comment = [segment])
    (h : readSegment settings context.sender now segment = .ok (command, notes)) :
    (ofComment settings context now comment).commands = [command] ∧
      (ofComment settings context now comment).errors = [] ∧
      (ofComment settings context now comment).warnings = notes := by
  have hparts : parts settings context now comment = [⟨some command, none, notes⟩] := by
    rw [parts, one, List.map_singleton, Part.ofSegment_ok h]
  rw [ofComment_of_segments (one ▸ List.cons_ne_nil _ _), hparts]
  exact ⟨rfl, rfl, List.append_nil notes⟩

theorem ofComment_of_unread {e : ReadingError} (one : segmentsOf settings comment = [segment])
    (h : readSegment settings context.sender now segment = .error e) :
    (ofComment settings context now comment).commands = [] ∧
      (ofComment settings context now comment).errors = [e.message] := by
  have hparts : parts settings context now comment = [⟨none, some e.message, [e.hint]⟩] := by
    rw [parts, one, List.map_singleton, Part.ofSegment_error h]
  rw [ofComment_of_segments (one ▸ List.cons_ne_nil _ _), hparts]
  exact ⟨rfl, rfl⟩

/-- A comment and an instruction are read alike: as one command, whatever their stamps, or else with the
same complaint. -/
structure Agrees (reading : Reading) (single : Except ReadingError Command) : Prop where
  one : (∃ command, reading.commands = [command]) ↔ ∃ command, single = .ok command
  same : ∀ read command, reading.commands = [read] → single = .ok command →
    ∀ stamp, read.stamped stamp = command.stamped stamp
  refused : ∀ e, single = .error e → reading.commands = [] ∧ reading.errors = [e.message]

end Reading

variable {settings : Settings} {actor : String} {now : Timestamp} {segment : List Char}

/-- A segment is read at two times as one command with two stamps, or with the same complaint. -/
theorem readSegment_at_other_time (settings : Settings) (actor : String) (earlier now : Timestamp)
    (segment : List Char) :
    (∃ read command notes, readSegment settings actor earlier segment = .ok (read, notes) ∧
      readSegment settings actor now segment = .ok (command, notes) ∧
      ∀ stamp, read.stamped stamp = command.stamped stamp) ∨
    ∃ e, readSegment settings actor earlier segment = .error e ∧
      readSegment settings actor now segment = .error e := by
  have hnow := readSegment_stamped settings actor earlier now segment
  cases hearlier : readSegment settings actor earlier segment with
  | error e =>
    rw [hearlier] at hnow
    exact .inr ⟨e, rfl, hnow.symm⟩
  | ok found =>
    obtain ⟨read, notes⟩ := found
    rw [hearlier] at hnow
    refine .inl ⟨read, read.stamped now, notes, rfl, hnow.symm, fun stamp => ?_⟩
    have hfirst := readSegment_stamped settings actor earlier stamp segment
    have hsecond := readSegment_stamped settings actor now stamp segment
    rw [hearlier] at hfirst
    rw [← hnow] at hsecond
    exact (Prod.mk.inj (Except.ok.inj (hfirst.trans hsecond.symm))).1

theorem rawText_of_readSegment {command : Command} {notes : List String}
    (h : readSegment settings actor now segment = .ok (command, notes)) :
    command.rawText = String.ofList segment := by
  obtain ⟨chosen, others, -, rfl, -⟩ := readSegment_eq_ok_iff.mp h
  rfl

theorem message_of_readSegment {e : ReadingError}
    (h : readSegment settings actor now segment = .error e) :
    e.message = "Could not understand command: \"" ++ String.ofList segment ++ "\"" := by
  obtain ⟨-, rfl⟩ := readSegment_eq_error_iff.mp h
  rfl

theorem Command.rawText_stamped (command : Command) (stamp : Timestamp) :
    (command.stamped stamp).rawText = command.rawText := by
  cases command
  rfl

namespace Reading

variable {context : Context} {earlier : Timestamp} {text : String} {normal : List Char}

/-- Where one segment is read and an instruction, the two agree only if they are the same text. -/
theorem eq_of_agrees (one : segmentsOf settings text = [segment])
    (h : (ofComment settings context earlier text).Agrees
      ((readSegment settings context.sender now normal).map Prod.fst)) : segment = normal := by
  cases hsingle : readSegment settings context.sender now normal with
  | ok found =>
    obtain ⟨command, notes⟩ := found
    rw [hsingle] at h
    obtain ⟨read, hread⟩ := h.one.mpr ⟨command, rfl⟩
    cases hsegment : readSegment settings context.sender earlier segment with
    | error e =>
      rw [(ofComment_of_unread one hsegment).1] at hread
      cases hread
    | ok found =>
      obtain ⟨read', notes'⟩ := found
      have hcommands := (ofComment_of_read one hsegment).1
      have hstamped := congrArg Command.rawText (h.same read' command hcommands rfl now)
      rw [Command.rawText_stamped, Command.rawText_stamped, rawText_of_readSegment hsegment,
        rawText_of_readSegment hsingle] at hstamped
      exact String.ofList_injective hstamped
  | error e =>
    rw [hsingle] at h
    obtain ⟨hcommands, herrors⟩ := h.refused e rfl
    cases hsegment : readSegment settings context.sender earlier segment with
    | ok found =>
      obtain ⟨read, notes⟩ := found
      rw [(ofComment_of_read one hsegment).1] at hcommands
      cases hcommands
    | error e' =>
      rw [(ofComment_of_unread one hsegment).2, message_of_readSegment hsegment,
        message_of_readSegment hsingle] at herrors
      simpa using congrArg (·.map String.toList) herrors

theorem agrees_of_segmentsOf (one : segmentsOf settings text = [segment]) :
    (ofComment settings context earlier text).Agrees
      ((readSegment settings context.sender now segment).map Prod.fst) := by
  rcases readSegment_at_other_time settings context.sender earlier now segment with
    ⟨read, command, notes, hearlier, hnow, hstamps⟩ | ⟨e, hearlier, hnow⟩
  · obtain ⟨hcommands, -⟩ := ofComment_of_read one hearlier
    rw [hnow]
    refine ⟨⟨fun _ => ⟨command, rfl⟩, fun _ => ⟨read, hcommands⟩⟩, ?_, fun e he => by cases he⟩
    intro read' command' hread' hcommand'
    obtain rfl : read = read' := List.singleton_inj.mp (hcommands.symm.trans hread')
    obtain rfl : command = command' := Except.ok.inj hcommand'
    exact hstamps
  · obtain ⟨hcommands, herrors⟩ := ofComment_of_unread one hearlier
    rw [hnow]
    refine ⟨⟨?_, ?_⟩, ?_, ?_⟩
    · rintro ⟨command, hcommand⟩
      rw [hcommands] at hcommand
      cases hcommand
    · rintro ⟨command, hcommand⟩
      cases hcommand
    · intro read command _ hcommand
      cases hcommand
    · intro e' he'
      obtain rfl : e = e' := Except.error.inj he'
      exact ⟨hcommands, herrors⟩

end Reading

theorem readInstruction_eq {settings : Settings} {context : Context} {text : String}
    (notBlank : trim (Comment.normalize settings.words text.toList) ≠ []) :
    readInstruction settings context now text
      = (readSegment settings context.sender now
          (Comment.normalize settings.words text.toList)).map Prod.fst := by
  have hempty : (Comment.normalize settings.words text.toList).isEmpty = false := by
    rw [List.isEmpty_eq_false_iff]
    intro hnil
    rw [hnil] at notBlank
    exact notBlank rfl
  simp only [readInstruction, hempty, Bool.false_eq_true, if_false]

/-- Where the normal form of a text is one segment, the text is read alike as a comment and as an
instruction exactly if its normal form is trimmed. So it is under accepted settings, unless the text
ends in a dash or a word means something with white space at an edge. -/
theorem readInstruction_agrees_iff (settings : Settings) (context : Context) (earlier now : Timestamp)
    (text : String) (notBlank : trim (Comment.normalize settings.words text.toList) ≠ [])
    (whole : Comment.Unseparated (Comment.normalize settings.words text.toList)) :
    ((Reading.ofComment settings context earlier text).Agrees
        (readInstruction settings context now text) ↔
      IsTrimmed (Comment.normalize settings.words text.toList)) ∧
    (settings.check = .ok () →
      (∀ entry ∈ settings.vocabulary.entries, IsTrimmed entry.2.toList) →
      (trim text.toList).getLast? ≠ some '-' →
      IsTrimmed (Comment.normalize settings.words text.toList)) := by
  have one : Reading.segmentsOf settings text
      = [trim (Comment.normalize settings.words text.toList)] :=
    Comment.segments_of_unseparated whole notBlank
  rw [readInstruction_eq notBlank]
  refine ⟨⟨fun h => ?_, fun h => ?_⟩, Comment.isTrimmed_normalize⟩
  · rw [← Reading.eq_of_agrees one h]
    exact isTrimmed_trim _
  · rw [trim_eq_self h] at one
    exact Reading.agrees_of_segmentsOf one

/-- A text that ends in a word is read alike both ways. -/
theorem readInstruction_agrees_for_wave :
    let text := "Start wave 4 with team-a"
    let context := Context.new "acme/platform" 1
    trim (Comment.normalize Settings.default.words text.toList) ≠ [] ∧
    Comment.Unseparated (Comment.normalize Settings.default.words text.toList) ∧
    (Reading.ofComment .default context .epoch text).Agrees
      (readInstruction .default context .epoch text) := by
  intro text context
  have notBlank : trim (Comment.normalize Settings.default.words text.toList) ≠ [] := by
    decide +kernel
  have whole : Comment.Unseparated (Comment.normalize Settings.default.words text.toList) := by
    decide +kernel
  have hread := readInstruction_agrees_iff .default context .epoch .epoch text notBlank whole
  exact ⟨notBlank, whole, hread.1.mpr (hread.2 Settings.check_default
    (fun _ hentry => absurd hentry List.not_mem_nil) (by decide +kernel))⟩

/-- The dash behind `team` becomes a blank, at the end as elsewhere. The comment is one command, and the
instruction is refused. -/
theorem readInstruction_refuses_open_team :
    let text := "start wave team-"
    let context := Context.new "acme/platform" 1
    Settings.default.check = .ok () ∧
    trim (Comment.normalize Settings.default.words text.toList) ≠ [] ∧
    Comment.Unseparated (Comment.normalize Settings.default.words text.toList) ∧
    (Reading.ofComment .default context .epoch text).commands.map (·.rawText) = ["start wave team"] ∧
    (∃ hints, readInstruction .default context .epoch text
      = .error (.noMatch "start wave team " hints)) ∧
    ¬ (Reading.ofComment .default context .epoch text).Agrees
      (readInstruction .default context .epoch text) := by
  intro text context
  have notBlank : trim (Comment.normalize Settings.default.words text.toList) ≠ [] := by
    decide +kernel
  have hnormal : Comment.normalize Settings.default.words text.toList
      = "start wave team ".toList := by decide +kernel
  have hnone : Candidate.ofSegment "start wave team ".toList = [] := by decide +kernel
  have hrefused : ∃ hints, readInstruction .default context .epoch text
      = .error (.noMatch "start wave team " hints) := by
    rw [readInstruction_eq notBlank, hnormal, readSegment_eq_error_iff.mpr ⟨hnone, rfl⟩,
      String.ofList_toList]
    exact ⟨_, rfl⟩
  have hread : (Reading.ofComment .default context .epoch text).commands.map (·.rawText)
      = ["start wave team"] := by decide +kernel
  refine ⟨Settings.check_default, notBlank, by decide +kernel, hread, hrefused, fun h => ?_⟩
  obtain ⟨command, hcommand, -⟩ := List.map_eq_singleton_iff.mp hread
  obtain ⟨hints, herror⟩ := hrefused
  obtain ⟨single, hsingle⟩ := h.one.mp ⟨command, hcommand⟩
  rw [herror] at hsingle
  cases hsingle

end TeamOrders
