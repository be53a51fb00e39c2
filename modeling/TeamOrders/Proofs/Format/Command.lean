import TeamOrders.Command.Format
import TeamOrders.Proofs.Json.Records
import TeamOrders.Proofs.Timestamp.Text

/-!
# Written commands are read back

Commands hold payloads and payloads hold commands, to any depth. A reader gets as much fuel as its
value is deep, and each level of a command takes two levels of its written form and one unit of fuel.
So a command made of parts that are read back is read back itself, under a tag as well as by itself;
and what was read is made of parts that were read before it.
-/

namespace TeamOrders

open Json

/-! ### Words -/

theorem faithful_kind {tagged : Bool} :
    Faithful (named? tagged Kind.all Kind.name) (fun kind => .string kind.name) fun _ => True :=
  faithful_named fun kind => by cases kind <;> rfl

theorem faithful_priority {tagged : Bool} :
    Faithful (named? tagged Priority.all Priority.name) (fun priority => .string priority.name)
      fun _ => True :=
  faithful_named fun priority => by cases priority <;> rfl

theorem faithful_trigger {tagged : Bool} :
    Faithful (named? tagged Trigger.all Trigger.name) (fun trigger => .string trigger.name)
      fun _ => True :=
  faithful_named fun trigger => by cases trigger <;> rfl

theorem faithful_strategy {tagged : Bool} :
    Faithful (named? tagged Strategy.all Strategy.name) (fun strategy => .string strategy.name)
      fun _ => True :=
  faithful_named fun strategy => by cases strategy <;> rfl

/-! ### Orders -/

theorem BalanceRequest.faithful {tagged : Bool} :
    Faithful (BalanceRequest.ofJson? tagged) (fun p => .object p.members)
      fun p => Canonical p.constraints where
  legal_of_read := by
    intro value p h
    simp only [BalanceRequest.ofJson?, Option.bind_eq_bind, Option.bind_eq_some_iff] at h
    obtain ⟨fields, -, _, -, _, -, _, hconstraints, heq⟩ := h
    cases heq
    exact faithful_opaqueTable.legal_of_defaulted (fun _ h => absurd h List.not_mem_nil)
      hconstraints
  read_write := by
    intro p hlegal
    simp only [BalanceRequest.ofJson?, Option.bind_eq_bind, Option.bind_eq_some_iff]
    exact ⟨_, rfl, _, faithful_texts.required trivial rfl, _, faithful_strategy.required trivial rfl,
      _, faithful_opaqueTable.defaulted hlegal rfl, rfl⟩

/-- Values that an order only carries have their members in ascending order. -/
def Order.WellFormed : Order → Prop
  | balanceLoad p => Canonical p.constraints
  | _ => True

theorem Order.wellFormed_of_read {tag : String} {value : Json} {order : Order}
    (h : Order.ofJson? tag value = some order) : order.WellFormed := by
  cases order with
  | balanceLoad p =>
    unfold Order.ofJson? at h
    split at h
    case h_6 =>
      obtain ⟨q, hq, heq⟩ := Option.map_eq_some_iff.mp h
      cases heq
      exact BalanceRequest.faithful.legal_of_read hq
    all_goals simp [Option.bind_eq_some_iff] at h
  | _ => trivial

theorem Order.read_members {order : Order} (h : order.WellFormed) :
    Order.ofJson? order.tag (.object order.members) = some order := by
  cases order with
  | startWave p =>
    simp only [Order.ofJson?, Order.tag, Option.bind_eq_bind, Option.bind_eq_some_iff]
    exact ⟨_, rfl, _, faithful_text.required trivial rfl,
      _, faithful_texts.defaulted trivial rfl, rfl⟩
  | assignTeams p =>
    simp only [Order.ofJson?, Order.tag, Option.bind_eq_bind, Option.bind_eq_some_iff]
    exact ⟨_, rfl, _, faithful_texts.required trivial rfl, _, faithful_texts.required trivial rfl,
      _, faithful_priority.defaulted trivial rfl, rfl⟩
  | assignTask p =>
    simp only [Order.ofJson?, Order.tag, Option.bind_eq_bind, Option.bind_eq_some_iff]
    exact ⟨_, rfl, _, faithful_text.required trivial rfl, _, faithful_text.required trivial rfl,
      _, faithful_priority.defaulted trivial rfl, rfl⟩
  | blockTeam p =>
    simp only [Order.ofJson?, Order.tag, Option.bind_eq_bind, Option.bind_eq_some_iff]
    obtain ⟨blocked, blocking, condition, until?⟩ := p
    cases until? <;>
      exact ⟨_, rfl, _, faithful_text.required trivial rfl, _, faithful_text.required trivial rfl,
        _, faithful_text.required trivial rfl,
        _, faithful_text.optionalMember string_ne_null (fun _ _ => trivial) rfl rfl, rfl⟩
  | syncTeams p =>
    simp only [Order.ofJson?, Order.tag, Option.bind_eq_bind, Option.bind_eq_some_iff]
    exact ⟨_, rfl, _, faithful_texts.required trivial rfl, _, faithful_text.required trivial rfl,
      _, faithful_trigger.required trivial rfl, rfl⟩
  | balanceLoad p =>
    have hread : BalanceRequest.ofJson? true (.object p.members) = some p :=
      BalanceRequest.faithful.read_write h
    simp only [Order.ofJson?, Order.tag, Order.members, hread, Option.map_some]

/-! ### Tags -/

theorem Order.tag_spec (order : Order) :
    order.tag ∈ payloadTags ∧ order.tag ≠ batchTag := by
  cases order <;> simp [Order.tag, payloadTags, batchTag]

theorem Order.name_ne_type {order : Order} : ∀ member ∈ order.members, member.1 ≠ "type" := by
  cases order with
  | blockTeam p => cases hu : p.until? <;> simp [Order.members, hu]
  | _ => simp [Order.members, BalanceRequest.members]

theorem untag_object (tagged : Bool) {tag : String} {members : List (String × Json)}
    (htag : tag ∈ payloadTags) (hmembers : ∀ member ∈ members, member.1 ≠ "type") :
    untag tagged (.object (("type", .string tag) :: members)) = some (tag, .object members) := by
  have htyped : members.filter (fun m => m.1 == "type") = [] := by
    rw [List.filter_eq_nil_iff]
    intro member hmember heq
    exact hmembers member hmember (eq_of_beq heq)
  have hothers : members.filter (fun m => m.1 != "type") = members := by
    rw [List.filter_eq_self]
    intro member hmember
    exact bne_iff_ne.mpr (hmembers member hmember)
  simp [untag, htyped, hothers, readTag, htag]

/-! ### Payloads and commands -/

/-- The command is read from its written form whatever stands around it. -/
def Command.Kept (command : Command) : Prop :=
  ∀ fuel tagged, command.toJson.depth < fuel → readCommand fuel tagged command.toJson = some command

def Payload.Kept (payload : Payload) : Prop :=
  ∀ fuel tagged, payload.toJson.depth < fuel → readPayload fuel tagged payload.toJson = some payload

theorem commandsToJson_eq_map (commands : List Command) :
    commandsToJson commands = commands.map Command.toJson := by
  induction commands with
  | nil => rfl
  | cons command rest ih => rw [commandsToJson, ih, List.map_cons]

theorem depth_lt_of_mem {items : List Json} {item : Json} (h : item ∈ items) :
    item.depth < (Json.array items).depth := by
  rw [depth, Nat.lt_succ_iff]
  induction items with
  | nil => exact absurd h List.not_mem_nil
  | cons first rest ih =>
    rw [depthOfItems]
    rcases List.mem_cons.mp h with rfl | h
    · exact Nat.le_max_left _ _
    · exact Nat.le_trans (ih h) (Nat.le_max_right _ _)

theorem depth_object (members : List (String × Json)) :
    (Json.object members).depth = depthOfMembers members + 1 := rfl

theorem list_commands {commands : List Command} (h : ∀ command ∈ commands, command.Kept)
    (fuel : Nat) (tagged : Bool) (hfuel : (Json.array (commandsToJson commands)).depth ≤ fuel) :
    list? (readCommand fuel tagged) (.array (commandsToJson commands)) = some commands := by
  rw [commandsToJson_eq_map] at hfuel ⊢
  apply mapM_map_eq_some
  intro command hcommand
  apply h command hcommand
  exact Nat.lt_of_lt_of_le (depth_lt_of_mem (List.mem_map_of_mem hcommand)) hfuel

theorem Payload.kept_single {order : Order}
    (h : Order.ofJson? order.tag (.object order.members) = some order) :
    (Payload.single order).Kept := by
  intro fuel tagged hfuel
  obtain ⟨fuel, rfl⟩ := Nat.exists_eq_succ_of_ne_zero (Nat.ne_of_gt (Nat.zero_lt_of_lt hfuel))
  have huntag := untag_object tagged order.tag_spec.1 order.name_ne_type
  rw [readPayload, Payload.toJson]
  simp only [huntag, Option.bind_eq_bind, Option.bind_some, if_neg order.tag_spec.2, h,
    Option.map_some]

theorem Payload.kept_batch {members : List Command} (h : ∀ command ∈ members, command.Kept) :
    (Payload.batch members).Kept := by
  intro fuel tagged hfuel
  obtain ⟨fuel, rfl⟩ := Nat.exists_eq_succ_of_ne_zero (Nat.ne_of_gt (Nat.zero_lt_of_lt hfuel))
  simp only [Payload.toJson, depth_object, depthOfMembers] at hfuel
  have huntag : untag tagged (.object [("type", .string batchTag),
      ("commands", .array (commandsToJson members))])
        = some (batchTag, .object [("commands", .array (commandsToJson members))]) :=
    untag_object tagged (by simp [payloadTags]) (by simp)
  have hlist := list_commands h fuel true (by omega)
  rw [readPayload, Payload.toJson]
  simp [huntag, fields?, Fields.required, Fields.find?, hlist]

theorem Command.kept {kind : Kind} {rawText actor : String} {timestamp : Timestamp}
    {payload : Payload} {confidence : Double} {alternatives : List Command}
    (htimestamp : timestamp.Proper) (hpayload : payload.Kept)
    (halternatives : ∀ other ∈ alternatives, other.Kept) :
    (Command.mk kind rawText actor timestamp payload confidence alternatives).Kept := by
  intro fuel tagged hfuel
  obtain ⟨fuel, rfl⟩ := Nat.exists_eq_succ_of_ne_zero (Nat.ne_of_gt (Nat.zero_lt_of_lt hfuel))
  have hmoment := Timestamp.read_text htimestamp
  have hkind : named? tagged Kind.all Kind.name (.string kind.name) = some kind :=
    faithful_kind.read_write trivial
  cases alternatives with
  | nil =>
    simp only [Command.toJson, List.isEmpty_nil, if_true, List.append_nil, depth_object,
      depthOfMembers] at hfuel
    have hpayload := hpayload fuel tagged (by omega)
    simp [Command.toJson, readCommand, fields?, Fields.required, Fields.defaulted, Fields.find?,
      text?, double?, hkind, hmoment, hpayload]
  | cons first rest =>
    simp only [Command.toJson, List.isEmpty_cons, Bool.false_eq_true, if_false, List.cons_append,
      List.nil_append, depth_object, depthOfMembers] at hfuel
    have hpayload := hpayload fuel tagged (by omega)
    have hlist := list_commands halternatives fuel tagged (by omega)
    simp [Command.toJson, readCommand, fields?, Fields.required, Fields.defaulted, Fields.find?,
      text?, double?, hkind, hmoment, hpayload, hlist]

/-! ### Nested commands -/

mutual

inductive Payload.WellFormed : Payload → Prop
  | single {order : Order} (horder : order.WellFormed) : Payload.WellFormed (.single order)
  | batch {members : List Command} (hmembers : ∀ member ∈ members, Command.WellFormed member) :
    Payload.WellFormed (.batch members)

/-- A well-formed command was sent at a moment that can be written, and carries and offers what is
well-formed. -/
inductive Command.WellFormed : Command → Prop
  | mk {kind : Kind} {rawText actor : String} {timestamp : Timestamp} {payload : Payload}
      {confidence : Double} {alternatives : List Command} (htimestamp : timestamp.Proper)
      (hpayload : Payload.WellFormed payload)
      (halternatives : ∀ other ∈ alternatives, Command.WellFormed other) :
    Command.WellFormed ⟨kind, rawText, actor, timestamp, payload, confidence, alternatives⟩

end

mutual

theorem Payload.WellFormed.kept : {payload : Payload} → payload.WellFormed → payload.Kept
  | _, .single horder => Payload.kept_single (Order.read_members horder)
  | _, .batch hmembers => Payload.kept_batch fun member hmember => (hmembers member hmember).kept

theorem Command.WellFormed.kept : {command : Command} → command.WellFormed → command.Kept
  | _, .mk htimestamp hpayload halternatives =>
    Command.kept htimestamp hpayload.kept fun other hother => (halternatives other hother).kept

end

/-- What is read is well-formed. The induction follows the fuel. -/
theorem wellFormed_of_read (fuel : Nat) :
    (∀ {tagged value payload}, readPayload fuel tagged value = some payload →
      payload.WellFormed) ∧
    ∀ {tagged value command}, readCommand fuel tagged value = some command →
      command.WellFormed := by
  induction fuel with
  | zero =>
    constructor
    · intro tagged value payload h
      cases h
    · intro tagged value command h
      cases h
  | succ fuel ih =>
    obtain ⟨hpayloads, hcommands⟩ := ih
    have hlist : ∀ {tagged value commands}, list? (readCommand fuel tagged) value = some commands →
        ∀ command ∈ commands, command.WellFormed := by
      intro tagged value commands h command hcommand
      obtain ⟨item, hitem⟩ := exists_of_mem_of_list h hcommand
      exact hcommands hitem
    constructor
    · intro tagged value payload h
      simp only [readPayload, Option.bind_eq_bind, Option.bind_eq_some_iff] at h
      obtain ⟨⟨tag, rest⟩, -, h⟩ := h
      split at h
      · simp only [Option.bind_eq_some_iff] at h
        obtain ⟨fields, -, members, hmembers, heq⟩ := h
        cases heq
        obtain ⟨value, hvalue⟩ := exists_of_required hmembers
        exact .batch (hlist hvalue)
      · obtain ⟨order, horder, rfl⟩ := Option.map_eq_some_iff.mp h
        exact .single (Order.wellFormed_of_read horder)
    · intro tagged value command h
      simp only [readCommand, Option.bind_eq_bind, Option.bind_eq_some_iff] at h
      obtain ⟨fields, -, kind, -, rawText, -, actor, -, timestamp, htimestamp, payload, hpayload,
        confidence, -, alternatives, halternatives, heq⟩ := h
      cases heq
      have hmoment : timestamp.Proper := by
        obtain ⟨value, hvalue⟩ := exists_of_required htimestamp
        obtain ⟨s, -, hread⟩ := Option.bind_eq_some_iff.mp hvalue
        exact Timestamp.proper_of_read hread
      have hothers : ∀ other ∈ alternatives, other.WellFormed := by
        rcases exists_or_eq_of_defaulted halternatives with ⟨value, hvalue⟩ | rfl
        · exact hlist hvalue
        · exact fun _ h => absurd h List.not_mem_nil
      obtain ⟨value, hvalue⟩ := exists_of_required hpayload
      exact .mk hmoment (hpayloads hvalue) hothers

theorem Payload.faithful : Faithful Payload.ofJson? Payload.toJson Payload.WellFormed where
  legal_of_read := fun h => (wellFormed_of_read _).1 h
  read_write := fun h => h.kept _ false (Nat.lt_succ_self _)

theorem Command.faithful : Faithful Command.ofJson? Command.toJson Command.WellFormed where
  legal_of_read := fun h => (wellFormed_of_read _).2 h
  read_write := fun h => h.kept _ false (Nat.lt_succ_self _)

theorem faithful_commands :
    Faithful (list? Command.ofJson?) (fun commands => .array (commandsToJson commands))
      fun commands => ∀ command ∈ commands, command.WellFormed := by
  simp only [commandsToJson_eq_map]
  exact faithful_list Command.faithful

end TeamOrders
