import TeamOrders.Context.Format
import TeamOrders.Proofs.Format.Command
import TeamOrders.Report.Format

/-!
# Written contexts and reports are read back

The written form of a record has all fields that have a value, so each field is read from it as it was
read before, whether it was given, left out or `null` then. Which records can be read is said by
`WellFormed`: numbers are below their limits, values that are only carried are in canonical order, and
moments lie in years that can be written. All else is free.
-/

namespace TeamOrders

open Json

/-! ### Contexts -/

/-- The numbers of the context are below their limits, and its state is in canonical order. -/
structure Context.WellFormed (context : Context) : Prop where
  issue : context.issue < Number.wordLimit
  currentWave : ∀ wave, context.currentWave = some wave → wave < Number.halfWordLimit
  state : Canonical context.state

theorem Context.faithful : Faithful Context.ofJson? Context.toJson Context.WellFormed where
  legal_of_read := by
    intro value context h
    simp only [Context.ofJson?, Option.bind_eq_bind, Option.bind_eq_some_iff] at h
    obtain ⟨fields, -, _, hissue, _, -, _, hwave, _, -, _, -, _, -, _, hstate, _, -, heq⟩ := h
    cases heq
    exact ⟨faithful_natBelow.legal_of_required hissue, faithful_natBelow.legal_of_optional hwave,
      faithful_opaqueTable.legal_of_defaulted (fun _ h => absurd h List.not_mem_nil) hstate⟩
  read_write := by
    intro context hlegal
    generalize hwritten : context.toJson = written
    simp only [Context.ofJson?, Option.bind_eq_bind, Option.bind_eq_some_iff]
    subst hwritten
    obtain ⟨issue, repository, currentWave, teams, tasks, memberships, state, actor⟩ := context
    cases currentWave <;> cases actor <;>
      exact ⟨_, rfl, _, faithful_natBelow.required hlegal.issue rfl,
        _, faithful_text.required trivial rfl,
        _, faithful_natBelow.optional nat_ne_null hlegal.currentWave rfl,
        _, faithful_nameSet.defaulted trivial rfl, _, faithful_nameSet.defaulted trivial rfl,
        _, faithful_textTable.defaulted trivial rfl,
        _, faithful_opaqueTable.defaulted hlegal.state rfl,
        _, faithful_text.optional string_ne_null (fun _ _ => trivial) rfl, rfl⟩

/-! ### Verdicts and outcomes -/

theorem Verdict.faithful : Faithful Verdict.ofJson? Verdict.toJson fun _ => True where
  legal_of_read := fun _ => trivial
  read_write := by
    intro verdict _
    simp only [Verdict.ofJson?, Option.bind_eq_bind, Option.bind_eq_some_iff]
    exact ⟨_, rfl, _, faithful_bool.required trivial rfl, _, faithful_texts.required trivial rfl,
      _, faithful_texts.required trivial rfl, _, faithful_texts.required trivial rfl, rfl⟩

theorem Action.faithful :
    Faithful Action.ofJson? Action.toJson fun action => Canonical action.details where
  legal_of_read := by
    intro value action h
    simp only [Action.ofJson?, Option.bind_eq_bind, Option.bind_eq_some_iff] at h
    obtain ⟨fields, -, _, -, _, -, _, hdetails, heq⟩ := h
    cases heq
    exact faithful_opaqueTable.legal_of_defaulted (fun _ h => absurd h List.not_mem_nil) hdetails
  read_write := by
    intro action hlegal
    simp only [Action.ofJson?, Option.bind_eq_bind, Option.bind_eq_some_iff]
    exact ⟨_, rfl, _, faithful_text.required trivial rfl, _, faithful_text.required trivial rfl,
      _, faithful_opaqueTable.defaulted hlegal rfl, rfl⟩

structure Outcome.WellFormed (outcome : Outcome) : Prop where
  command : outcome.command.WellFormed
  actions : ∀ actions, outcome.actions? = some actions →
    ∀ action ∈ actions, Canonical action.details

theorem Outcome.faithful : Faithful Outcome.ofJson? Outcome.toJson Outcome.WellFormed where
  legal_of_read := by
    intro value outcome h
    simp only [Outcome.ofJson?, Option.bind_eq_bind, Option.bind_eq_some_iff] at h
    obtain ⟨fields, -, _, hcommand, _, -, _, -, _, hactions, _, -, heq⟩ := h
    cases heq
    exact ⟨Command.faithful.legal_of_required hcommand,
      (faithful_list Action.faithful).legal_of_optional hactions⟩
  read_write := by
    intro outcome hlegal
    simp only [Outcome.ofJson?, Option.bind_eq_bind, Option.bind_eq_some_iff]
    obtain ⟨command, success, message, actions?, error?⟩ := outcome
    cases actions? <;> cases error? <;>
      exact ⟨_, rfl, _, Command.faithful.required hlegal.command rfl,
        _, faithful_bool.required trivial rfl, _, faithful_text.required trivial rfl,
        _, (faithful_list Action.faithful).optional (fun _ => array_ne_null _) hlegal.actions rfl,
        _, faithful_text.optional string_ne_null (fun _ _ => trivial) rfl, rfl⟩

/-! ### Responses and readings -/

structure Response.WellFormed (response : Response) : Prop where
  results : ∀ outcome ∈ response.results, outcome.WellFormed
  total : response.total < Number.wordLimit
  successful : response.successful < Number.wordLimit

theorem Response.faithful : Faithful Response.ofJson? Response.toJson Response.WellFormed where
  legal_of_read := by
    intro value response h
    simp only [Response.ofJson?, Option.bind_eq_bind, Option.bind_eq_some_iff] at h
    obtain ⟨fields, -, _, -, _, hresults, _, -, _, -, figures, -, _, htotal, _, hsuccessful,
      _, -, heq⟩ := h
    cases heq
    exact ⟨(faithful_list Outcome.faithful).legal_of_required hresults,
      faithful_natBelow.legal_of_required htotal, faithful_natBelow.legal_of_required hsuccessful⟩
  read_write := by
    intro response hlegal
    generalize hwritten : response.toJson = written
    simp only [Response.ofJson?, Option.bind_eq_bind, Option.bind_eq_some_iff]
    subst hwritten
    exact ⟨_, rfl, _, faithful_bool.required trivial rfl,
      _, (faithful_list Outcome.faithful).required hlegal.results rfl,
      _, faithful_texts.required trivial rfl, _, faithful_texts.required trivial rfl, _, rfl,
      _, faithful_natBelow.required hlegal.total rfl,
      _, faithful_natBelow.required hlegal.successful rfl,
      _, faithful_double.required trivial rfl, rfl⟩

theorem Reading.faithful : Faithful Reading.ofJson? Reading.toJson
    fun reading => ∀ command ∈ reading.commands, command.WellFormed where
  legal_of_read := by
    intro value reading h
    simp only [Reading.ofJson?, Option.bind_eq_bind, Option.bind_eq_some_iff] at h
    obtain ⟨fields, -, _, hcommands, _, -, _, -, figures, -, _, -, _, -, _, -, heq⟩ := h
    cases heq
    exact faithful_commands.legal_of_required hcommands
  read_write := by
    intro reading hlegal
    simp only [Reading.ofJson?, Option.bind_eq_bind, Option.bind_eq_some_iff]
    exact ⟨_, rfl, _, faithful_commands.required hlegal rfl, _, faithful_texts.required trivial rfl,
      _, faithful_texts.required trivial rfl, _, rfl, _, faithful_double.required trivial rfl,
      _, faithful_double.required trivial rfl, _, faithful_double.required trivial rfl, rfl⟩

/-! ### All records -/

/-- Every record that is exchanged is read back from its written form, whatever form it was read from
first; and a record can be read exactly if it is well-formed. -/
theorem written_forms_round_trip :
    RoundTrip Command.ofJson? Command.toJson Command.WellFormed ∧
      RoundTrip Payload.ofJson? Payload.toJson Payload.WellFormed ∧
      RoundTrip Context.ofJson? Context.toJson Context.WellFormed ∧
      RoundTrip Verdict.ofJson? Verdict.toJson (fun _ => True) ∧
      RoundTrip Action.ofJson? Action.toJson (fun action => Canonical action.details) ∧
      RoundTrip Outcome.ofJson? Outcome.toJson Outcome.WellFormed ∧
      RoundTrip Response.ofJson? Response.toJson Response.WellFormed ∧
      RoundTrip Reading.ofJson? Reading.toJson
        (fun reading => ∀ command ∈ reading.commands, command.WellFormed) :=
  ⟨Command.faithful.roundTrip, Payload.faithful.roundTrip, Context.faithful.roundTrip,
    Verdict.faithful.roundTrip, Action.faithful.roundTrip, Outcome.faithful.roundTrip,
    Response.faithful.roundTrip, Reading.faithful.roundTrip⟩

/-- A failure of a batch as another program might send it: fields in any order, unknown fields, records
as arrays, tags as numbers, short numerals, a leap second in a far offset. -/
def looseOutcome : Json :=
  .object [("success", .bool false), ("remark", .int 7), ("error", .null), ("message", .string ""),
    ("actions", .array []),
    ("command", .array [.string "batch_operation", .string "block red", .string "ada",
      .string "2016-12-31 15:59:60.5-08:00",
      .object [("commands", .array [.object [("kind", .string "team_block"),
          ("raw_text", .string "block red"), ("actor", .string "ada"),
          ("timestamp", .string "2024-2-29T1:02:3Z"),
          ("parameters", .array [.int 3, .string "red", .string "blue", .string "done", .null]),
          ("confidence", .int 1),
          ("alternatives", .array [.array [.string "wave_start", .string "start", .string "ada",
            .string "2024-02-29T00:00:00Z",
            .object [("wave", .string "1"), ("type", .string "wave_start")], .int 0]])]]),
        ("type", .string "batch_operation")],
      .int 1])]

def writtenOutcome : Json :=
  .object [("command", .object [("kind", .string "batch_operation"), ("raw_text", .string "block red"),
      ("actor", .string "ada"), ("timestamp", .string "2016-12-31T23:59:60.500Z"),
      ("parameters", .object [("type", .string "batch_operation"),
        ("commands", .array [.object [("kind", .string "team_block"),
          ("raw_text", .string "block red"), ("actor", .string "ada"),
          ("timestamp", .string "2024-02-29T01:02:03Z"),
          ("parameters", .object [("type", .string "blocking_relation"),
            ("blocked_team", .string "red"), ("blocking_team", .string "blue"),
            ("condition", .string "done")]),
          ("confidence", .double .one),
          ("alternatives", .array [.object [("kind", .string "wave_start"),
            ("raw_text", .string "start"), ("actor", .string "ada"),
            ("timestamp", .string "2024-02-29T00:00:00Z"),
            ("parameters", .object [("type", .string "wave_start"), ("wave", .string "1"),
              ("teams", .array [])]),
            ("confidence", .double .zero)]])]])]),
      ("confidence", .double .one)]),
    ("success", .bool false), ("message", .string ""), ("actions", .array [])]

theorem written_forms_round_trip_of_loose_outcome :
    (Outcome.ofJson? looseOutcome).map Outcome.toJson = some writtenOutcome ∧
      (Outcome.ofJson? writtenOutcome).map Outcome.toJson = some writtenOutcome := by
  have hwritten : (Outcome.ofJson? looseOutcome).map Outcome.toJson = some writtenOutcome := by
    decide +kernel
  obtain ⟨-, -, -, -, -, houtcome, -, -⟩ := written_forms_round_trip
  exact ⟨hwritten, houtcome.idempotent looseOutcome writtenOutcome hwritten⟩

end TeamOrders
