import TeamOrders.Proofs.Dispatch.Response

/-!
# Only the stamps tell the time

The time at which a comment is answered goes into the stamps of the commands, and nowhere else. So two
answers to one comment are the same as soon as their commands carry the same stamp.
-/

namespace TeamOrders

mutual

def Payload.stamped (now : Timestamp) : Payload → Payload
  | .single order => .single order
  | .batch members => .batch (stampAll now members)

/-- The command stamped anew, with all that belongs to it. -/
def Command.stamped (now : Timestamp) : Command → Command
  | ⟨kind, rawText, actor, _, payload, confidence, alternatives⟩ =>
    ⟨kind, rawText, actor, now, payload.stamped now, confidence, stampAll now alternatives⟩

def stampAll (now : Timestamp) : List Command → List Command
  | [] => []
  | command :: rest => command.stamped now :: stampAll now rest

end

def Outcome.stamped (now : Timestamp) (outcome : Outcome) : Outcome :=
  { outcome with command := outcome.command.stamped now }

def Response.stamped (now : Timestamp) (response : Response) : Response :=
  { response with results := response.results.map (·.stamped now) }

def Reading.Part.stamped (now : Timestamp) (part : Reading.Part) : Reading.Part :=
  { part with command? := part.command?.map (·.stamped now) }

variable {settings : Settings} {context : Context} {earlier : Timestamp}

theorem stampAll_eq_map (now : Timestamp) (commands : List Command) :
    stampAll now commands = commands.map (·.stamped now) := by
  induction commands with
  | nil => rfl
  | cons command rest ih => rw [stampAll, ih, List.map_cons]

namespace Command

variable {command : Command} {order : Order}

theorem stamped_payload (h : command.payload = .single order) (now : Timestamp) :
    (command.stamped now).payload = .single order := by
  obtain ⟨kind, rawText, actor, timestamp, payload, confidence, alternatives⟩ := command
  obtain rfl : payload = .single order := h
  rfl

theorem stamped_kind (command : Command) (now : Timestamp) :
    (command.stamped now).kind = command.kind := by
  cases command
  rfl

theorem stamped_summary (h : command.payload = .single order) (now : Timestamp) :
    (command.stamped now).summary = command.summary := by
  rw [summary, summary, stamped_payload h, h]

end Command

theorem Validation.ofCommand_stamped {command : Command} {order : Order}
    (h : command.payload = .single order) (now : Timestamp) :
    ofCommand settings context (command.stamped now) = ofCommand settings context command := by
  obtain ⟨kind, rawText, actor, timestamp, payload, confidence, alternatives⟩ := command
  obtain rfl : payload = .single order := h
  rfl

/-- A segment is read alike at any time. -/
theorem readSegment_stamped (settings : Settings) (actor : String) (earlier now : Timestamp)
    (segment : List Char) :
    (readSegment settings actor earlier segment).map (fun read => (read.1.stamped now, read.2))
      = readSegment settings actor now segment := by
  unfold readSegment
  dsimp only
  cases Candidate.choose (Candidate.ofSegment segment) with
  | none => rfl
  | some choice =>
    simp only [Except.map, Command.stamped, stampAll_eq_map, List.map_map]
    rfl

theorem Reading.Part.ofSegment_stamped (actor : String) (now : Timestamp) (segment : List Char) :
    (ofSegment settings actor earlier segment).stamped now
      = ofSegment settings actor now segment := by
  unfold ofSegment
  rw [← readSegment_stamped settings actor earlier now segment]
  cases readSegment settings actor earlier segment <;> rfl

theorem Reading.parts_stamped (now : Timestamp) (comment : String) :
    (parts settings context earlier comment).map (·.stamped now)
      = parts settings context now comment := by
  rw [parts, parts, List.map_map]
  apply List.map_congr_left
  intro segment _
  exact Part.ofSegment_stamped context.sender now segment

namespace Dispatcher

variable {dispatcher : Dispatcher} {command : Command} {order : Order}

theorem outcomeOf_stamped (hpayload : command.payload = .single order)
    (hkind : command.kind = order.kind) (now : Timestamp) :
    dispatcher.outcomeOf context (command.stamped now)
      = (dispatcher.outcomeOf context command).stamped now := by
  have hpayload' : (command.stamped now).payload = .single order :=
    Command.stamped_payload hpayload now
  have hkind' : (command.stamped now).kind = order.kind := by
    rw [Command.stamped_kind, hkind]
  have hverdict : Validation.ofCommand dispatcher.settings context (command.stamped now)
      = Validation.ofCommand dispatcher.settings context command :=
    Validation.ofCommand_stamped hpayload now
  cases hvalid : (Validation.ofCommand dispatcher.settings context command).valid with
  | true =>
    rw [outcomeOf_of_valid (hverdict ▸ hvalid), outcomeOf_of_valid hvalid,
      Execution.outcome_of_ok (Execution.ofCommand_of_single hpayload' hkind'),
      Execution.outcome_of_ok (Execution.ofCommand_of_single hpayload hkind)]
    rfl
  | false =>
    rw [outcomeOf_of_invalid (hverdict ▸ hvalid), outcomeOf_of_invalid hvalid, hverdict,
      Command.stamped_summary hpayload]
    rfl

theorem warningsOf_stamped (h : command.payload = .single order) (now : Timestamp) :
    dispatcher.warningsOf context (command.stamped now)
      = dispatcher.warningsOf context command := by
  unfold warningsOf answer
  dsimp only
  rw [Validation.ofCommand_stamped h]
  split <;> rfl

section Commands

variable {commands : List Command}

theorem map_outcomeOf_stamped (now : Timestamp)
    (single : ∀ command ∈ commands,
      ∃ order, command.payload = .single order ∧ command.kind = order.kind) :
    (commands.map (·.stamped now)).map (dispatcher.outcomeOf context)
      = (commands.map (dispatcher.outcomeOf context)).map (·.stamped now) := by
  rw [List.map_map, List.map_map]
  apply List.map_congr_left
  intro command hcommand
  obtain ⟨order, hpayload, hkind⟩ := single command hcommand
  exact outcomeOf_stamped hpayload hkind now

theorem flatMap_warningsOf_stamped (now : Timestamp)
    (single : ∀ command ∈ commands,
      ∃ order, command.payload = .single order ∧ command.kind = order.kind) :
    (commands.map (·.stamped now)).flatMap (dispatcher.warningsOf context)
      = commands.flatMap (dispatcher.warningsOf context) := by
  rw [List.flatMap_map, List.flatMap_def, List.flatMap_def]
  congr 1
  apply List.map_congr_left
  intro command hcommand
  obtain ⟨order, hpayload, -⟩ := single command hcommand
  exact warningsOf_stamped hpayload now

end Commands

theorem length_filter_success_stamped (now : Timestamp) (results : List Outcome) :
    ((results.map (·.stamped now)).filter (·.success)).length
      = (results.filter (·.success)).length := by
  rw [List.filter_map, List.length_map]
  rfl

theorem ofParts_stamped (now : Timestamp) {parts : List Reading.Part}
    (single : ∀ command ∈ parts.filterMap (·.command?),
      ∃ order, command.payload = .single order ∧ command.kind = order.kind) :
    (dispatcher.ofParts context parts).stamped now
      = dispatcher.ofParts context (parts.map (·.stamped now)) := by
  have hcommands : (parts.map (·.stamped now)).filterMap (·.command?)
      = (parts.filterMap (·.command?)).map (·.stamped now) := by
    rw [List.filterMap_map, List.map_filterMap]
    rfl
  have herrors : (parts.map (·.stamped now)).filterMap (·.error?)
      = parts.filterMap (·.error?) := by
    rw [List.filterMap_map]
    rfl
  have hnotes : (parts.map (·.stamped now)).flatMap (·.warnings)
      = parts.flatMap (·.warnings) := by
    rw [List.flatMap_map]
    rfl
  unfold ofParts
  simp only [hcommands, herrors, hnotes, map_outcomeOf_stamped now single,
    flatMap_warningsOf_stamped now single, length_filter_success_stamped, Response.stamped,
    List.length_map]

/-- Answers to one comment at two times differ in the stamps at most. -/
theorem respond_stamped (dispatcher : Dispatcher) (context : Context) (earlier now : Timestamp)
    (comment : String) :
    (dispatcher.respond context earlier comment).stamped now
      = dispatcher.respond context now comment := by
  cases hblank : Text.isBlankText comment with
  | true =>
    rw [respond_of_blank hblank, respond_of_blank hblank]
    rfl
  | false =>
    cases husable : context.check with
    | error e =>
      rw [respond_of_unusable hblank husable, respond_of_unusable hblank husable]
      rfl
    | ok _ =>
      by_cases hsegments : Reading.segmentsOf dispatcher.settings comment = []
      · rw [respond_of_no_segments hblank husable hsegments,
          respond_of_no_segments hblank husable hsegments]
        rfl
      · rw [respond_eq_ofParts hblank husable hsegments,
          respond_eq_ofParts hblank husable hsegments,
          ← Reading.parts_stamped now]
        apply ofParts_stamped now
        intro command hcommand
        exact Reading.single_of_mem_commandsOf hcommand

end Dispatcher

end TeamOrders
